import OpenMplane.ListCut
import Mathlib.Data.List.TakeWhile
import Mathlib.Data.Nat.Log
import Mathlib.Data.List.Infix
import Mathlib.Algebra.Group.Nat.Defs
import Mathlib.Algebra.Ring.Int.Defs
import Std.Data.ExtTreeMap

/-!
# Standard library and string helpers

The C++ standard library calls the server makes on texts and maps, and the
helpers of `stringfunc.hpp` it uses.  A `std::string` is a `String`, read and
built through its list of characters; a `std::map` with string keys is an
extensional ordered map, so that iteration runs in key order and two maps with
the same entries are equal.
-/

namespace OpenMplane

open ListCut

/-- `std::map<std::string, β>`. -/
abbrev StdMap (β : Type) := Std.ExtTreeMap String β

/-- The exceptions that the modelled library calls throw, all of them
`std::exception`s. -/
inductive StdException
  | invalidArgument
  | outOfRange
  | sysrepo
  deriving DecidableEq, Repr

/-- `startsWith` of `stringfunc.hpp`: does `str1` start with `str2`. -/
def startsWith (str1 str2 : String) : Bool :=
  decide (str2.toList <+: str1.toList)

/-- `trim_left` with the default trim set, one blank. -/
def trimLeft (source : List Char) : List Char :=
  source.dropWhile (· = ' ')

/-- `trim_right` with the default trim set, one blank. -/
def trimRight (source : List Char) : List Char :=
  (source.reverse.dropWhile (· = ' ')).reverse

/-- `trim`: both ends. -/
def trim (source : List Char) : List Char :=
  trimLeft (trimRight source)

/-- A text that begins and ends with the same character other than a blank
is left as it is. -/
theorem trim_delimited {mark : Char} (notBlank : mark ≠ ' ') (inside : List Char) :
    trim (mark :: inside ++ [mark]) = mark :: inside ++ [mark] := by
  simp [trim, trimLeft, trimRight, notBlank]

theorem mem_of_mem_trim {source : List Char} {letter : Char}
    (member : letter ∈ trim source) : letter ∈ source := by
  have inRight : letter ∈ trimRight source :=
    (List.dropWhile_sublist _).mem member
  have reversed := (List.dropWhile_sublist _).mem (List.mem_reverse.mp inRight)
  exact List.mem_reverse.mp reversed

section Numerals

/-- `isspace` in the C locale. -/
def isSpace (letter : Char) : Bool :=
  letter = ' ' || letter = '\t' || letter = '\n' || letter = '\x0b' ||
    letter = '\x0c' || letter = '\r'

/-- The value of a row of decimal digits. -/
def digitsValue (digits : List Char) : Nat :=
  digits.foldl (fun value digit => 10 * value + (digit.toNat - '0'.toNat)) 0

/-- What `strtol` and its kin read at the start of a text: white space, an
optional sign, then decimal digits.  The result is the sign (true when
negative) and the magnitude; nothing when no digit follows. -/
def numeral (text : String) : Option (Bool × Nat) :=
  let unspaced := text.toList.dropWhile isSpace
  let (negative, unsigned) := match unspaced with
    | '-' :: rest => (true, rest)
    | '+' :: rest => (false, rest)
    | rest => (false, rest)
  let digits := unsigned.takeWhile Char.isDigit
  if digits = [] then none else some (negative, digitsValue digits)

/-- `std::stoi` with base 10. -/
def stoi (text : String) : Except StdException Int :=
  match numeral text with
  | none => .error .invalidArgument
  | some (negative, magnitude) =>
      let value : Int := if negative then -magnitude else magnitude
      if value < -2 ^ 31 ∨ 2 ^ 31 ≤ value then .error .outOfRange else .ok value

/-- `std::stoi` in a program. -/
def stoiM {σ : Type} (text : String) : EStateM StdException σ Int :=
  match stoi text with
  | .ok value => pure value
  | .error exception => throw exception

/-- `strtoull` with base 10 and no end pointer: a magnitude out of range gives
the largest value, a negative one wraps around. -/
def strtoull (text : String) : UInt64 :=
  match numeral text with
  | none => 0
  | some (negative, magnitude) =>
      if 2 ^ 64 ≤ magnitude then UInt64.ofNat (2 ^ 64 - 1)
      else if negative then 0 - UInt64.ofNat magnitude else UInt64.ofNat magnitude

theorem stoi_empty : stoi "" = .error .invalidArgument := rfl

/-- A row of decimal digits whose value is below the bound. -/
structure Decimal (bound : Nat) (text : String) : Prop where
  nonempty : text.toList ≠ []
  digits : ∀ letter ∈ text.toList, letter.isDigit = true
  below : digitsValue text.toList < bound

theorem decimal_of_all {bound : Nat} {text : String} (nonempty : text.toList ≠ [])
    (digits : text.toList.all Char.isDigit = true) (below : digitsValue text.toList < bound) :
    Decimal bound text :=
  ⟨nonempty, fun letter member => List.all_eq_true.mp digits letter member, below⟩

theorem isSpace_of_isDigit {letter : Char} (digit : letter.isDigit = true) :
    isSpace letter = false := by
  by_contra space
  simp only [isSpace, Bool.not_eq_false, Bool.or_eq_true, decide_eq_true_eq] at space
  rcases space with ((((rfl | rfl) | rfl) | rfl) | rfl) | rfl <;> exact absurd digit (by decide)

theorem numeral_decimal {bound : Nat} {text : String} (decimal : Decimal bound text) :
    numeral text = some (false, digitsValue text.toList) := by
  obtain ⟨nonempty, digits, -⟩ := decimal
  unfold numeral
  cases letters : text.toList with
  | nil => exact absurd letters nonempty
  | cons first rest =>
      rw [letters] at digits
      have isDigit := digits first (by simp)
      have unspaced : (first :: rest).dropWhile isSpace = first :: rest := by
        simp [isSpace_of_isDigit isDigit]
      have all : (first :: rest).takeWhile Char.isDigit = first :: rest :=
        List.takeWhile_eq_self_iff.mpr digits
      dsimp only
      rw [unspaced]
      split
      · next same =>
          obtain ⟨rfl, -⟩ := List.cons.inj same
          exact absurd isDigit (by decide)
      · next same =>
          obtain ⟨rfl, -⟩ := List.cons.inj same
          exact absurd isDigit (by decide)
      · simp [all]

/-- `std::stoi` takes every decimal text of an `int`. -/
theorem stoi_decimal {bound : Nat} (fits : bound ≤ 2 ^ 31) {text : String}
    (decimal : Decimal bound text) : stoi text = .ok (digitsValue text.toList) := by
  have below := decimal.below
  rw [stoi, numeral_decimal decimal]
  dsimp only
  rw [if_neg (by simp; omega)]
  rfl

theorem digitsValue_repr (number : Nat) : digitsValue number.repr.toList = number := by
  have chars : digitsValue number.repr.toList = Nat.ofDigitChars 10 number.repr.toList 0 := by
    rw [Nat.ofDigitChars_eq_foldl]
    rfl
  rw [chars, Nat.toList_repr, Nat.ofDigitChars_ten_toDigits]

theorem decimal_repr {bound number : Nat} (below : number < bound) :
    Decimal bound number.repr where
  nonempty := by
    rw [Nat.toList_repr]
    exact Nat.toDigits_ne_nil
  digits letter member := by
    rw [Nat.toList_repr] at member
    exact Nat.isDigit_of_mem_toDigits (by decide) (by decide) member
  below := by
    rw [digitsValue_repr]
    exact below

theorem stoi_repr {number : Nat} (fits : number < 2 ^ 31) :
    stoi number.repr = .ok number := by
  rw [stoi_decimal le_rfl (decimal_repr fits), digitsValue_repr]

theorem natRepr_injective {first second : Nat} (same : first.repr = second.repr) :
    first = second := by
  rw [← digitsValue_repr first, same, digitsValue_repr]

end Numerals

/-- A `const char*`: null, or into a string of that text that has been freed. -/
inductive CharPtr
  | null
  | freed (text : String)
  deriving DecidableEq

/-- The text behind a pointer can be read, or there is none. -/
def CharPtr.Holds : CharPtr → Option String → Prop
  | .null, none => True
  | _, _ => False

theorem CharPtr.not_holds_some {pointer : CharPtr} {text : String} :
    ¬ pointer.Holds (some text) := by
  cases pointer <;> exact fun absurd => absurd

section Streams

/-- A C++ `double`, by its bits. -/
structure Double where
  bits : BitVec 64
  deriving DecidableEq, Repr

def Double.zero : Double := ⟨0⟩

/-- `numerator / denominator` rounded to an integer, ties to even. -/
def roundHalfEven (numerator denominator : Nat) : Nat :=
  let quotient := numerator / denominator
  let twice := 2 * (numerator % denominator)
  if twice < denominator then quotient
  else if denominator < twice then quotient + 1
  else quotient + quotient % 2

/-- The digits of a number without the zeros it ends in. -/
def significantDigits (number : Nat) : List Char :=
  (((Nat.repr number).toList.reverse).dropWhile (· = '0')).reverse

/-- A decimal point and the digits behind it, nothing when there are none. -/
def fractionText (digits : List Char) : List Char :=
  if digits = [] then [] else '.' :: digits

/-- The text of the positive number `numerator / denominator` with six
significant digits, in fixed or in scientific notation as `%g` chooses. -/
def showPositive (numerator denominator : Nat) : List Char :=
  let exponent : Int :=
    if denominator ≤ numerator then Nat.log 10 (numerator / denominator)
    else -Nat.clog 10 ((denominator + numerator - 1) / numerator)
  let rounded : Nat :=
    if exponent ≤ 5 then roundHalfEven (numerator * 10 ^ (5 - exponent).toNat) denominator
    else roundHalfEven numerator (denominator * 10 ^ (exponent - 5).toNat)
  -- rounding up to the next power of ten moves the decimal point
  let (sixDigits, exponent) :=
    if rounded = 10 ^ 6 then (10 ^ 5, exponent + 1) else (rounded, exponent)
  let digits := significantDigits sixDigits
  if exponent < -4 ∨ 6 ≤ exponent then
    let power := (Nat.repr exponent.natAbs).toList
    digits.take 1 ++ fractionText (digits.drop 1) ++ 'e' ::
      (if exponent < 0 then '-' else '+') :: (if power.length < 2 then '0' :: power else power)
  else if exponent < 0 then
    '0' :: fractionText (List.replicate (exponent.natAbs - 1) '0' ++ digits)
  else
    let whole := exponent.toNat + 1
    digits.take whole ++ List.replicate (whole - digits.length) '0' ++
      fractionText (digits.drop whole)

/-- `stream << value` of a `double` with the default precision. -/
def Double.toString (value : Double) : String :=
  let number := value.bits.toNat
  let biased := number / 2 ^ 52 % 2 ^ 11
  let fraction := number % 2 ^ 52
  let unsigned : List Char :=
    if biased = 2 ^ 11 - 1 then (if fraction = 0 then "inf" else "nan").toList
    else
      let mantissa := if biased = 0 then fraction else fraction + 2 ^ 52
      if mantissa = 0 then ['0']
      else if 1075 ≤ max biased 1 then showPositive (mantissa * 2 ^ (max biased 1 - 1075)) 1
      else showPositive mantissa (2 ^ (1075 - max biased 1))
  String.ofList (if 2 ^ 63 ≤ number then '-' :: unsigned else unsigned)

end Streams

end OpenMplane
