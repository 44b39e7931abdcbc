import OpenMplane.NumeralText
import OpenMplane.ReplaceStrs

/-!
# Limits of a value

The limits of a number, which are read from a text `min..max/step` in which parts may be
left out, and are kept as values beside the texts that they were read from.  A converter
is chosen by the type of the values; `long long` has none of its own.
-/

namespace OpenMplane

open NumeralText StringFunc

/-- The types of integers that have limits. -/
inductive IntegerType
  | int
  | unsigned
  | longLong
  deriving DecidableEq, Repr

namespace IntegerType

/-- `static_cast` to the type. -/
def cast : IntegerType → Int → Int
  | int => toInt32
  | unsigned => toUint32
  | longLong => toInt64

def Represents : IntegerType → Int → Prop
  | int, value => -2 ^ 31 ≤ value ∧ value < 2 ^ 31
  | unsigned, value => 0 ≤ value ∧ value < 2 ^ 32
  | longLong, value => -2 ^ 63 ≤ value ∧ value < 2 ^ 63

instance (type : IntegerType) (value : Int) : Decidable (type.Represents value) :=
  match type with
  | int => inferInstanceAs (Decidable (_ ∧ _))
  | unsigned => inferInstanceAs (Decidable (_ ∧ _))
  | longLong => inferInstanceAs (Decidable (_ ∧ _))

theorem cast_of_represents {type : IntegerType} {value : Int} (fits : type.Represents value) :
    type.cast value = value := by
  cases type with
  | int => exact toInt32_of_fits fits.1 fits.2
  | unsigned => exact toUint32_of_fits fits.1 fits.2
  | longLong => exact toInt64_of_fits fits.1 fits.2

theorem represents_cast (type : IntegerType) (value : Int) : type.Represents (type.cast value) := by
  cases type with
  | int => simp only [cast, toInt32, Represents]; omega
  | unsigned => simp only [cast, toUint32, Represents]; omega
  | longLong => simp only [cast, toInt64, Represents]; omega

@[simp]
theorem cast_cast (type : IntegerType) (value : Int) :
    type.cast (type.cast value) = type.cast value :=
  cast_of_represents (type.represents_cast value)

theorem Represents.long {type : IntegerType} {value : Int} (fits : type.Represents value) :
    -2 ^ 63 ≤ value ∧ value < 2 ^ 63 := by
  cases type with
  | int => simp only [Represents] at fits; omega
  | unsigned => simp only [Represents] at fits; omega
  | longLong => exact fits

end IntegerType

/-- `ValConvertBase::isVariable`: a text of the form `${NAME}`. -/
def isVariable (valstr : List Char) : Bool :=
  decide (4 ≤ valstr.length) && decide (['$', '{'] <+: valstr) &&
    decide (valstr.getLast? = some '}')

/-- `ValConvert` by the type of the value, nothing when `isOk` is false.  The template
itself, which `long long` is left with, is never ok. -/
def valConvert (type : IntegerType) (valstr : List Char) : Option Int :=
  let converted := match stol valstr with
    | .ok value => some (type.cast value)
    | .error _ => if isVariable valstr then some 0 else none
  match type with
  | .int => converted
  | .unsigned => converted
  | .longLong => none

/-- `LimitVal`, whose `SetVal` is a value or nothing. -/
structure LimitVal (T : Type) where
  mVal : Option T
  mValStr : List Char
  mIsVariable : Bool
  deriving DecidableEq, Repr

namespace LimitVal

variable {T : Type}

def cleared : LimitVal T where
  mVal := none
  mValStr := []
  mIsVariable := false

def set (val : T) (valStr : List Char) : LimitVal T where
  mVal := some val
  mValStr := valStr
  mIsVariable := isVariable valStr

def isSet (limit : LimitVal T) : Bool := limit.mVal.isSome

/-- `LimitVal::swap`, which leaves both flags in their places. -/
def swap (limit other : LimitVal T) : LimitVal T × LimitVal T :=
  ({ limit with mVal := other.mVal, mValStr := other.mValStr },
    { other with mVal := limit.mVal, mValStr := limit.mValStr })

/-- One part of a limits text: a limit that has been cleared is set from it, unless the
part is empty or does not convert. -/
def read (convert : List Char → Option T) (str : List Char) : LimitVal T :=
  if str = [] then cleared
  else match convert str with
    | some val => set val str
    | none => cleared

end LimitVal

structure Limits (T : Type) where
  mMin : LimitVal T
  mMax : LimitVal T
  mStep : LimitVal T
  mUnitsStr : List Char
  deriving DecidableEq, Repr

namespace Limits

variable {T : Type}

/-- Limits as they are constructed. -/
def empty : Limits T where
  mMin := LimitVal.cleared
  mMax := LimitVal.cleared
  mStep := LimitVal.cleared
  mUnitsStr := []

/-- The text before the position of the dots. -/
def minPart (limitsStr : List Char) : List Char :=
  match findStr ['.', '.'] limitsStr 0 with
  | some rangePos => limitsStr.take rangePos
  | none => []

/-- The text between the dots and the slash.  Where the slash comes first, the length
that `substr` is given has wrapped around and the rest of the text is taken. -/
def maxPart (limitsStr : List Char) : List Char :=
  match findStr ['.', '.'] limitsStr 0, findStr ['/'] limitsStr 0 with
  | some rangePos, some stepPos =>
      if rangePos + 2 ≤ stepPos then
        (limitsStr.drop (rangePos + 2)).take (stepPos - (rangePos + 2))
      else limitsStr.drop (rangePos + 2)
  | some rangePos, none => limitsStr.drop (rangePos + 2)
  | none, _ => []

/-- The text behind the slash. -/
def stepPart (limitsStr : List Char) : List Char :=
  match findStr ['/'] limitsStr 0 with
  | some stepPos => limitsStr.drop (stepPos + 1)
  | none => []

def setUnits (limits : Limits T) (unitsStr : List Char) : Limits T :=
  { limits with mUnitsStr := unitsStr }

def set [LT T] [DecidableLT T] (convert : List Char → Option T) (limits : Limits T)
    (limitsStr : List Char) : Bool × Limits T :=
  let mMin := LimitVal.read convert (minPart limitsStr)
  let mMax := LimitVal.read convert (maxPart limitsStr)
  let mStep := LimitVal.read convert (stepPart limitsStr)
  let read := { limits with mMin, mMax, mStep }
  if !mMin.isSet && !mMax.isSet && !mStep.isSet then (false, read)
  else match mMin.mVal, mMax.mVal with
    | some min, some max =>
        if !mMin.mIsVariable && !mMax.mIsVariable && decide (max < min) then
          (true, { read with mMin := (mMin.swap mMax).1, mMax := (mMin.swap mMax).2 })
        else (true, read)
    | _, _ => (true, read)

/-- `Limits::check`: nothing, or the text of the error. -/
def check [LT T] [DecidableLT T] (print : T → List Char) (limits : Limits T) (val : T) :
    Option (List Char) :=
  let tooLarge : Option (List Char) := match limits.mMax.mVal with
    | some max => if max < val then some ("greater than maximum ".toList ++ print max) else none
    | none => none
  match limits.mMin.mVal with
  | some min => if val < min then some ("less than minimum ".toList ++ print min) else tooLarge
  | none => tooLarge

theorem check_eq_none [LT T] [DecidableLT T] {print : T → List Char} {limits : Limits T} {val : T} :
    limits.check print val = none ↔
      (∀ min ∈ limits.mMin.mVal, ¬ val < min) ∧ ∀ max ∈ limits.mMax.mVal, ¬ max < val := by
  have upper : (match limits.mMax.mVal with
      | some max => if max < val then some ("greater than maximum ".toList ++ print max) else none
      | none => none) = none ↔ ∀ max ∈ limits.mMax.mVal, ¬ max < val := by
    cases limits.mMax.mVal with
    | none => exact ⟨fun _ max member => (by cases member), fun _ => rfl⟩
    | some max =>
        dsimp only
        by_cases less : max < val
        · rw [if_pos less]
          exact ⟨fun same => (by cases same), fun all => absurd less (all max rfl)⟩
        · rw [if_neg less]
          refine ⟨fun _ other member => ?_, fun _ => rfl⟩
          cases member
          exact less
  rw [check]
  cases limits.mMin.mVal with
  | none => exact upper.trans ⟨fun all => ⟨fun min member => (by cases member), all⟩, And.right⟩
  | some min =>
      dsimp only
      by_cases less : val < min
      · rw [if_pos less]
        exact ⟨fun same => (by cases same), fun all => absurd less (all.1 min rfl)⟩
      · rw [if_neg less]
        refine upper.trans ⟨fun all => ⟨fun other member => ?_, all⟩, And.right⟩
        cases member
        exact less

/-- `Limits::show`. -/
def shown (limits : Limits T) : List Char :=
  (if limits.mMin.isSet then limits.mMin.mValStr else []) ++
    (if limits.mMin.isSet || limits.mMax.isSet then ['.', '.'] else []) ++
    (if limits.mMax.isSet then limits.mMax.mValStr else []) ++
    (if limits.mStep.isSet then '/' :: limits.mStep.mValStr else [])

def formatLimits (limits : Limits T) : List Char :=
  if limits.shown ≠ [] then ['{'] ++ limits.shown ++ ['}'] else []

end Limits

end OpenMplane
