import OpenMplane.NumeralText

/-!
# Values as texts

What the types of a `DataVariant` share: the state of `DvTypeBase`, and its tests on the
text of a value.  A text may have units behind a number; `unitsFromStr` parts the two.
-/

namespace OpenMplane

open NumeralText Hexadecimal ListCut

structure DvTypeBase where
  mTypeStr : List Char
  mIsSet : Bool
  mStr : List Char
  mUnits : List Char
  deriving DecidableEq, Repr

namespace DvTypeBase

def construct (typeStr : List Char) : DvTypeBase where
  mTypeStr := typeStr
  mIsSet := false
  mStr := []
  mUnits := []

def clear (dv : DvTypeBase) : DvTypeBase := { dv with mIsSet := false, mStr := [] }

def setStr (dv : DvTypeBase) (str : List Char) : DvTypeBase :=
  { dv with mIsSet := true, mStr := str }

def getValue (dv : DvTypeBase) : List Char :=
  if dv.mUnits ≠ [] ∧ dv.mStr ≠ [] then dv.mStr ++ dv.mUnits else dv.mStr

end DvTypeBase

def strIsHex : List Char → Bool
  | '0' :: mark :: digits =>
      (decide (mark = 'x') || decide (mark = 'X')) && decide (digits ≠ []) &&
        digits.all isHexLetter
  | _ => false

def strIsNumber : List Char → Bool
  | ['-'] => false
  | '-' :: second :: _ => second.isDigit
  | first :: _ => first.isDigit
  | [] => false

def strIsUnsigned : List Char → Bool
  | first :: _ => decide (first ≠ '-')
  | [] => false

def strIsInt (value : List Char) : Bool :=
  decide (unsignedPart value ≠ []) && (unsignedPart value).all Char.isDigit

/-- `strIsFloat`: digits with a decimal point among them. -/
def strIsFloat (value : List Char) : Bool :=
  decide (2 ≤ (unsignedPart value).length) &&
    (unsignedPart value).all (fun letter => letter = '.' || letter.isDigit) &&
    decide ((unsignedPart value).count '.' = 1)

/-- `toLower` of `stringfunc.hpp`, which copies a C string. -/
def toLower (str : List Char) : List Char := (str.takeWhile (· ≠ '\x00')).map Char.toLower

def strIsBool (value : List Char) : Bool :=
  decide (toLower value ∈ ["true".toList, "false".toList, ['1'], ['0']])

def strToBool (value : List Char) : Bool :=
  decide (toLower value ∈ ["true".toList, ['1']])

def trimFloat (source : List Char) : List Char :=
  let str := match cutLast '.' source with
    | none => source
    | some (before, after) =>
        if after = [] then source
        else
          let fraction := (after.reverse.dropWhile (· = '0')).reverse
          if fraction = [] then before else before ++ '.' :: fraction
  if '.' ∈ source ∧ str.getLast? = some '.' then str.dropLast else str

def intToStr (value : Int) : List Char := trimFloat (intText value)

/-- The letters that units are made of. -/
def isUnitsLetter (letter : Char) : Bool := letter.isAlphanum || decide (letter = '_')

/-- The letters that belong to a decimal number or to a fraction. -/
def isNumberLetter (letter : Char) : Bool :=
  letter.isDigit || decide (letter = '.') || decide (letter = '-')

/-- How `unitsFromStr` parts a text into a value and its units.  The text of a
hexadecimal number has none, since all of its letters are digits. -/
def splitUnits (value : List Char) : List Char × List Char :=
  if strIsHex value then (value, [])
  else
    let unitsStr := value.dropWhile isNumberLetter
    if value.takeWhile isNumberLetter ≠ [] ∧ unitsStr.all isUnitsLetter then
      (value.takeWhile isNumberLetter, unitsStr)
    else (value, [])

variable {value : List Char}

section Tests

theorem strIsInt_iff : strIsInt value = true ↔ IsDecimal value := by
  rw [strIsInt, IsDecimal, Bool.and_eq_true, decide_eq_true_eq, List.all_eq_true]

theorem strIsHex_iff : strIsHex value = true ↔ IsHexadecimal value := by
  constructor
  · intro hex
    unfold strIsHex at hex
    split at hex
    · next mark digits =>
        simp only [Bool.and_eq_true, Bool.or_eq_true, decide_eq_true_eq, List.all_eq_true,
          isHexLetter] at hex
        exact ⟨mark, digits, rfl, hex.1.1, hex.1.2, hex.2⟩
    · cases hex
  · rintro ⟨mark, digits, rfl, marked, nonempty, hex⟩
    simp only [strIsHex, Bool.and_eq_true, Bool.or_eq_true, decide_eq_true_eq, List.all_eq_true,
      isHexLetter]
    exact ⟨⟨marked, nonempty⟩, hex⟩

/-- A text with a decimal point is no numeral. -/
theorem strIsFloat_of_strIsInt (integer : strIsInt value = true) : strIsFloat value = false := by
  obtain ⟨-, digits⟩ := strIsInt_iff.mp integer
  have none : (unsignedPart value).count '.' = 0 :=
    List.count_eq_zero.mpr fun point => absurd (digits '.' point) (by decide)
  simp [strIsFloat, none]

theorem strIsFloat_of_strIsHex (hex : strIsHex value = true) : strIsFloat value = false := by
  obtain ⟨mark, digits, rfl, marked, -, -⟩ := strIsHex_iff.mp hex
  have letter : (decide (mark = '.') || mark.isDigit) = false := by
    rcases marked with rfl | rfl <;> rfl
  simp [strIsFloat, unsignedPart, letter]

theorem not_strIsInt_of_strIsHex (hex : strIsHex value = true) : strIsInt value = false := by
  obtain ⟨mark, digits, rfl, marked, -, -⟩ := strIsHex_iff.mp hex
  have letter : mark.isDigit = false := by
    rcases marked with rfl | rfl <;> rfl
  simp [strIsInt, unsignedPart, letter]

/-- A numeral starts like a number. -/
theorem strIsNumber_of_strIsInt (integer : strIsInt value = true) : strIsNumber value = true := by
  obtain ⟨nonempty, digits⟩ := strIsInt_iff.mp integer
  unfold strIsNumber
  split
  · exact absurd rfl nonempty
  · next second rest => exact digits second List.mem_cons_self
  · next first rest alone more =>
      have plain : unsignedPart (first :: rest) = first :: rest := by
        rw [unsignedPart]
        rintro tail same
        obtain ⟨rfl, rfl⟩ := List.cons.inj same
        cases rest with
        | nil => exact alone rfl rfl
        | cons second tail => exact more second tail rfl rfl
      rw [plain] at digits
      exact digits first List.mem_cons_self
  · exact absurd rfl nonempty

theorem strIsNumber_of_strIsHex (hex : strIsHex value = true) : strIsNumber value = true := by
  obtain ⟨mark, digits, rfl, -, -, -⟩ := strIsHex_iff.mp hex
  rfl

end Tests

section Units

/-- A value and its units make up the text, and the units start with a letter of their
own. -/
theorem splitUnits_spec (value : List Char) :
    value = (splitUnits value).1 ++ (splitUnits value).2 ∧
      (∀ letter ∈ (splitUnits value).2, isUnitsLetter letter = true) ∧
      ∀ letter ∈ (splitUnits value).2.head?, isNumberLetter letter = false := by
  have whole : value = value ++ [] ∧ (∀ letter ∈ ([] : List Char), isUnitsLetter letter = true) ∧
      ∀ letter ∈ ([] : List Char).head?, isNumberLetter letter = false :=
    ⟨(List.append_nil value).symm, by simp, by simp⟩
  rw [splitUnits]
  split
  · exact whole
  · dsimp only
    split
    · next units =>
        refine ⟨List.takeWhile_append_dropWhile.symm, List.all_eq_true.mp units.2, ?_⟩
        intro letter first
        have stops := List.head?_dropWhile_not isNumberLetter value
        rw [Option.mem_def.mp first] at stops
        exact stops
    · exact whole

/-- A text whose letters all belong to a number has no units. -/
theorem splitUnits_of_number (letters : ∀ letter ∈ value, isNumberLetter letter = true) :
    splitUnits value = (value, []) := by
  have none : value.dropWhile isNumberLetter = [] := List.dropWhile_eq_nil_iff.mpr letters
  have all : value.takeWhile isNumberLetter = value := List.takeWhile_eq_self_iff.mpr letters
  rw [splitUnits]
  split
  · rfl
  · rw [none, all]
    dsimp only
    split <;> rfl

end Units

theorem trimFloat_of_no_point {source : List Char} (none : '.' ∉ source) :
    trimFloat source = source := by
  rw [trimFloat, cutLast_eq_none.mpr none]
  exact if_neg fun point => none point.1

theorem not_mem_of_isDecimal {text : List Char} (decimal : IsDecimal text) {letter : Char}
    (other : letter ≠ '-') (noDigit : letter.isDigit = false) : letter ∉ text := by
  intro member
  have digit : letter ∈ unsignedPart text := by
    unfold unsignedPart
    split
    · exact (List.mem_cons.mp member).resolve_left other
    · exact member
  rw [decimal.2 letter digit] at noDigit
  cases noDigit

@[simp]
theorem intToStr_eq (value : Int) : intToStr value = intText value :=
  trimFloat_of_no_point
    (not_mem_of_isDecimal (isDecimal_intText value).1 (by decide) (by decide))

end OpenMplane
