import OpenMplane.StdString
import OpenMplane.Hexadecimal

/-!
# Numerals as texts

Decimal and hexadecimal numerals, the numbers that they denote, and the calls of the C
library that read them.  A call stops at the first letter that it cannot use, so that a
numeral is also read from the beginning of a longer text.
-/

namespace OpenMplane.NumeralText

open Hexadecimal

/-- `static_cast<int>`. -/
def toInt32 (value : Int) : Int := (value + 2 ^ 31) % 2 ^ 32 - 2 ^ 31

/-- `static_cast<unsigned>`. -/
def toUint32 (value : Int) : Int := value % 2 ^ 32

/-- `static_cast<long long>`. -/
def toInt64 (value : Int) : Int := (value + 2 ^ 63) % 2 ^ 64 - 2 ^ 63

/-- The text without a minus sign at its start. -/
def unsignedPart : List Char → List Char
  | '-' :: rest => rest
  | rest => rest

/-- Decimal digits, behind a minus sign or not. -/
def IsDecimal (text : List Char) : Prop :=
  unsignedPart text ≠ [] ∧ ∀ letter ∈ unsignedPart text, letter.isDigit = true

/-- The number that a decimal numeral denotes. -/
def decimalValue : List Char → Int
  | '-' :: digits => -(digitsValue digits : Int)
  | digits => digitsValue digits

/-- The prefix `0x` and at least one hexadecimal digit. -/
def IsHexadecimal (text : List Char) : Prop :=
  ∃ mark digits, text = '0' :: mark :: digits ∧ (mark = 'x' ∨ mark = 'X') ∧ digits ≠ [] ∧
    ∀ letter ∈ digits, letter ∈ hexLetters

/-- The number that a hexadecimal numeral denotes. -/
def hexadecimalValue (text : List Char) : Nat := hexValue (text.drop 2)

/-- `stream << value` of an integer. -/
def intText (value : Int) : List Char :=
  if value < 0 then '-' :: (Nat.repr value.natAbs).toList else (Nat.repr value.natAbs).toList

/-- `stream << std::hex << std::uppercase << value` of an unsigned integer. -/
def hexText (value : Nat) : List Char := (Nat.toDigits 16 value).map Char.toUpper

/-- The number that a text begins with, as `strtol` reads it before it looks at the
range. -/
def integerValue (text : List Char) : Option Int :=
  (numeral (String.ofList text)).map fun (negative, magnitude) =>
    if negative then -(magnitude : Int) else magnitude

/-- `strtol` and `strtoll` with base 10. -/
def strtol (text : List Char) : Int :=
  match integerValue text with
  | none => 0
  | some value => max (-2 ^ 63) (min value (2 ^ 63 - 1))

def atoi (text : List Char) : Int := toInt32 (strtol text)

def atoll (text : List Char) : Int := strtol text

/-- `std::stol` with base 10. -/
def stol (text : List Char) : Except StdException Int :=
  match integerValue text with
  | none => .error .invalidArgument
  | some value =>
      if value < -2 ^ 63 ∨ 2 ^ 63 ≤ value then .error .outOfRange else .ok value

/-- `isxdigit`. -/
def isHexLetter (letter : Char) : Bool := decide (letter ∈ hexLetters)

/-- `sscanf` with `%8X`. -/
def scanHex (text : List Char) : Nat := hexValue ((text.takeWhile isHexLetter).take 8)

variable {text rest : List Char} {value : Int}

section Casts

theorem toInt32_of_fits (low : -2 ^ 31 ≤ value) (high : value < 2 ^ 31) :
    toInt32 value = value := by
  rw [toInt32]
  omega

theorem toUint32_of_fits (low : 0 ≤ value) (high : value < 2 ^ 32) : toUint32 value = value := by
  rw [toUint32]
  omega

theorem toInt64_of_fits (low : -2 ^ 63 ≤ value) (high : value < 2 ^ 63) :
    toInt64 value = value := by
  rw [toInt64]
  omega

end Casts

section Reading

/-- Digits are read up to the first letter that is none. -/
theorem takeWhile_digits (all : ∀ letter ∈ text, letter.isDigit = true)
    (stops : ∀ letter ∈ rest.head?, letter.isDigit = false) :
    (text ++ rest).takeWhile Char.isDigit = text := by
  rw [List.takeWhile_append_of_pos all]
  cases rest with
  | nil => rw [List.takeWhile_nil, List.append_nil]
  | cons letter tail =>
      rw [List.takeWhile_cons, stops letter rfl]
      exact List.append_nil _

theorem numeral_minus (nonempty : text ≠ []) (all : ∀ letter ∈ text, letter.isDigit = true)
    (stops : ∀ letter ∈ rest.head?, letter.isDigit = false) :
    numeral (String.ofList ('-' :: (text ++ rest))) = some (true, digitsValue text) := by
  have digits := takeWhile_digits all stops
  rw [numeral, String.toList_ofList, List.dropWhile_cons_of_neg (by decide)]
  show (if (text ++ rest).takeWhile Char.isDigit = [] then none
    else some (true, digitsValue ((text ++ rest).takeWhile Char.isDigit))) = _
  rw [digits, if_neg nonempty]

theorem numeral_digits (nonempty : text ≠ []) (all : ∀ letter ∈ text, letter.isDigit = true)
    (stops : ∀ letter ∈ rest.head?, letter.isDigit = false) :
    numeral (String.ofList (text ++ rest)) = some (false, digitsValue text) := by
  have digits := takeWhile_digits all stops
  cases text with
  | nil => exact absurd rfl nonempty
  | cons first tail =>
      have digit := all first List.mem_cons_self
      have unspaced : (first :: tail ++ rest).dropWhile isSpace = first :: tail ++ rest := by
        rw [List.cons_append, List.dropWhile_cons_of_neg]
        rw [isSpace_of_isDigit digit]
        exact Bool.false_ne_true
      rw [numeral, String.toList_ofList, unspaced]
      dsimp only
      split
      · next same =>
          obtain ⟨rfl, -⟩ := List.cons.inj same
          exact absurd digit (by decide)
      · next same =>
          obtain ⟨rfl, -⟩ := List.cons.inj same
          exact absurd digit (by decide)
      · dsimp only
        rw [digits, if_neg (List.cons_ne_nil _ _)]

/-- A numeral is read up to the first letter that is no digit. -/
theorem integerValue_append (decimal : IsDecimal text)
    (stops : ∀ letter ∈ rest.head?, letter.isDigit = false) :
    integerValue (text ++ rest) = some (decimalValue text) := by
  obtain ⟨nonempty, digits⟩ := decimal
  cases text with
  | nil => exact absurd rfl nonempty
  | cons first tail =>
      by_cases minus : first = '-'
      · subst minus
        have read := @numeral_minus tail rest nonempty digits stops
        rw [integerValue, List.cons_append, read]
        rfl
      · have whole : unsignedPart (first :: tail) = first :: tail := by
          rw [unsignedPart]
          rintro rest same
          exact minus (List.cons.inj same).1
        rw [whole] at digits
        rw [integerValue, numeral_digits (List.cons_ne_nil _ _) digits stops]
        rw [decimalValue]
        · rfl
        · rintro rest same
          exact minus (List.cons.inj same).1

theorem integerValue_decimal (decimal : IsDecimal text) :
    integerValue text = some (decimalValue text) := by
  have read := @integerValue_append text [] decimal (by simp)
  rwa [List.append_nil] at read

/-- `stol` takes the numerals of a `long`. -/
theorem stol_decimal (decimal : IsDecimal text) (low : -2 ^ 63 ≤ decimalValue text)
    (high : decimalValue text < 2 ^ 63) : stol text = .ok (decimalValue text) := by
  rw [stol, integerValue_decimal decimal]
  dsimp only
  rw [if_neg (by omega)]

theorem strtol_decimal (decimal : IsDecimal text) :
    strtol text = max (-2 ^ 63) (min (decimalValue text) (2 ^ 63 - 1)) := by
  rw [strtol, integerValue_decimal decimal]

/-- In a text of hexadecimal digits the first eight are read. -/
theorem scanHex_digits (hex : ∀ letter ∈ text, letter ∈ hexLetters) :
    scanHex text = hexValue (text.take 8) := by
  have all : text.takeWhile isHexLetter = text :=
    List.takeWhile_eq_self_iff.mpr fun letter member => decide_eq_true (hex letter member)
  rw [scanHex, all]

end Reading

section Printing

theorem digits_repr (number : Nat) :
    (Nat.repr number).toList ≠ [] ∧ ∀ letter ∈ (Nat.repr number).toList, letter.isDigit = true := by
  rw [Nat.toList_repr]
  exact ⟨Nat.toDigits_ne_nil,
    fun letter member => Nat.isDigit_of_mem_toDigits (by decide) (by decide) member⟩

theorem isDecimal_of_digits (nonempty : text ≠ [])
    (digits : ∀ letter ∈ text, letter.isDigit = true) :
    IsDecimal text ∧ decimalValue text = digitsValue text := by
  cases text with
  | nil => exact absurd rfl nonempty
  | cons first tail =>
      have plain : ∀ rest, first :: tail ≠ '-' :: rest := by
        rintro rest same
        obtain ⟨rfl, -⟩ := List.cons.inj same
        exact absurd (digits '-' List.mem_cons_self) (by decide)
      rw [IsDecimal, unsignedPart, decimalValue]
      · exact ⟨⟨nonempty, digits⟩, rfl⟩
      · exact plain
      · exact plain

theorem isDecimal_intText (value : Int) :
    IsDecimal (intText value) ∧ decimalValue (intText value) = value := by
  obtain ⟨nonempty, digits⟩ := digits_repr value.natAbs
  rw [intText]
  split
  · next negative =>
      refine ⟨⟨nonempty, digits⟩, ?_⟩
      rw [decimalValue, digitsValue_repr]
      omega
  · next positive =>
      obtain ⟨decimal, same⟩ := isDecimal_of_digits nonempty digits
      refine ⟨decimal, ?_⟩
      rw [same, digitsValue_repr]
      omega

theorem toUpper_digitChar : ∀ digit < 16,
    digit.digitChar.toUpper ∈ hexLetters ∧ digitValue digit.digitChar.toUpper = digit := by
  decide

theorem hexText_eq (value : Nat) : hexText value =
    if value < 16 then [value.digitChar.toUpper]
    else hexText (value / 16) ++ [(value % 16).digitChar.toUpper] := by
  rw [hexText, Nat.toDigits_eq_if (by decide)]
  split
  · rfl
  · rw [List.map_append, hexText]
    rfl

/-- A number is read back from its hexadecimal digits. -/
theorem hexValue_hexText (value : Nat) :
    (∀ letter ∈ hexText value, letter ∈ hexLetters) ∧ hexValue (hexText value) = value := by
  induction value using Nat.strongRecOn with
  | ind value ih =>
      rw [hexText_eq]
      split
      · next small =>
          obtain ⟨member, digit⟩ := toUpper_digitChar value small
          refine ⟨by simpa using member, ?_⟩
          rw [hexValue, List.foldl_cons, List.foldl_nil, digit]
          omega
      · next large =>
          obtain ⟨front, whole⟩ := ih (value / 16) (Nat.div_lt_self (by omega) (by decide))
          obtain ⟨member, digit⟩ := toUpper_digitChar (value % 16) (Nat.mod_lt _ (by decide))
          refine ⟨fun letter inside => ?_, ?_⟩
          · rcases List.mem_append.mp inside with inside | inside
            · exact front letter inside
            · rw [List.mem_singleton.mp inside]
              exact member
          · rw [hexValue_append_singleton, whole, digit]
            omega

theorem hexText_ne_nil (value : Nat) : hexText value ≠ [] := by
  rw [hexText, ne_eq, List.map_eq_nil_iff]
  exact Nat.toDigits_ne_nil

theorem length_hexText {value : Nat} (fits : value < 2 ^ 32) : (hexText value).length ≤ 8 := by
  rw [hexText, List.length_map, Nat.length_toDigits_le_iff (by decide) (by decide)]
  exact fits

end Printing

end OpenMplane.NumeralText
