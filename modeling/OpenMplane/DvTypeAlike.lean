import OpenMplane.DvTypeCopy

/-!
# Values that are alike

Two values are alike when they are the same but for the text of their type, the way their
numbers are written, their enumerations and their limits.  What is done to both leaves
them alike, as long as what a call looks at is the same as well.
-/

namespace OpenMplane

open NumeralText

namespace DvTypeInteger

variable {type : IntegerType}

/-- The text of the type, the way of writing and the limits do not matter to a text. -/
theorem set_recast (dv : DvTypeInteger type) (value : List Char) (isHex : Bool) :
    let recast (dv : DvTypeInteger type) (isHex : Bool) : DvTypeInteger type :=
      { dv with mTypeStr := [], mIsHex := isHex, mLimits := Limits.empty }
    recast ((recast dv isHex).set value).2 false = recast (dv.set value).2 false := by
  intro recast
  rcases parts : splitUnits value with ⟨valueStr, unitsStr⟩
  by_cases none : unitsStr = []
  · by_cases valid : type.isValid valueStr = true
    · simp [recast, set, unitsFromStr, parts, none, valid, setStr, DvTypeBase.setStr]
    · simp [recast, set, unitsFromStr, parts, none, valid, clear, DvTypeBase.clear]
  · by_cases refused : dv.mIsSet = true ∧ dv.mUnits = []
    · simp [recast, set, unitsFromStr, parts, none, refused, isValid_nil, clear, DvTypeBase.clear]
    · by_cases valid : type.isValid valueStr = true
      · simp [recast, set, unitsFromStr, parts, none, refused, valid, setUnits, setStr,
          DvTypeBase.setStr]
      · simp [recast, set, unitsFromStr, parts, none, refused, valid, setUnits, clear,
          DvTypeBase.clear]

end DvTypeInteger

namespace DvTypeEnum

/-- A value without the text of its type and its enumerations. -/
def plain (dv : DvTypeEnum) : DvTypeEnum := { dv with mTypeStr := [], mEnum := [] }

theorem plain_setEnumValue (dv : DvTypeEnum) (value : Nat) :
    (({ dv with mTypeStr := [] } : DvTypeEnum).setEnumValue value).2.plain =
      (dv.setEnumValue value).2.plain := by
  simp only [setEnumValue]
  split <;> rfl

end DvTypeEnum

namespace DvTypeBool

variable {dv : DvTypeEnum} {value : List Char}

theorem set_of_some {idx : Nat} (found : dv.findEnum value = some idx) :
    set dv value = (true, dv.choose idx) := by
  rw [set, DvTypeEnum.set, found]
  rfl

theorem set_of_none (found : dv.findEnum value = none) :
    set dv value =
      if strIsBool value then dv.clear.setEnumValue (if strToBool value then 1 else 0)
      else (false, dv.clear.clear) := by
  rw [set, DvTypeEnum.set, found]
  exact if_neg Bool.false_ne_true

theorem plain_set (dv : DvTypeEnum) (value : List Char) :
    (set { dv with mTypeStr := [] } value).2.plain = (set dv value).2.plain := by
  cases found : dv.findEnum value with
  | some idx => rw [set_of_some found, @set_of_some { dv with mTypeStr := [] } _ _ found]; rfl
  | none =>
      rw [set_of_none found, @set_of_none { dv with mTypeStr := [] } _ found]
      split
      · exact DvTypeEnum.plain_setEnumValue dv.clear _
      · rfl

end DvTypeBool

theorem RealType.isValid_nil (type : RealType) : type.isValid [] = false := by
  cases type <;> rfl

variable [FloatLib]

namespace DvType

/-- Is the number written in hexadecimal digits. -/
def isHex : DvType → Bool
  | integer _ dv => dv.mIsHex
  | _ => false

def labels : DvType → List (List Char)
  | enum dv => dv.mEnum
  | bool dv => dv.mEnum
  | _ => []

/-- A value with other enumerations and another way of writing, and without limits and the
text of its type. -/
def recast (labels : List (List Char)) (isHex : Bool) : DvType → DvType
  | none dv => none { dv with mTypeStr := [] }
  | integer type dv =>
      integer type { dv with mTypeStr := [], mIsHex := isHex, mLimits := Limits.empty }
  | real type dv => real type { dv with mTypeStr := [], mLimits := Limits.empty }
  | complex dv => complex { dv with mTypeStr := [], mLimits := Limits.empty }
  | enum dv => enum { dv with mTypeStr := [], mEnum := labels }
  | bool dv => bool { dv with mTypeStr := [], mEnum := labels }
  | string dv => string { dv with mTypeStr := [] }

/-- Two values of one type are alike: they are set or not, and have the same text, units
and number. -/
def Alike (dv other : DvType) : Prop := dv.recast [] false = other.recast [] false

variable {dv other : DvType}

@[simp]
theorem getType_recast (labels : List (List Char)) (isHex : Bool) :
    (dv.recast labels isHex).getType = dv.getType := by
  cases dv <;> rfl

@[simp]
theorem recast_recast (labels labels' : List (List Char)) (isHex isHex' : Bool) :
    (dv.recast labels' isHex').recast labels isHex = dv.recast labels isHex := by
  cases dv <;> rfl

@[simp]
theorem isSet_recast (labels : List (List Char)) (isHex : Bool) :
    (dv.recast labels isHex).isSet = dv.isSet := by
  cases dv <;> rfl

@[simp]
theorem toString_recast (labels : List (List Char)) (isHex : Bool) :
    (dv.recast labels isHex).toString = dv.toString := by
  cases dv <;> rfl

@[simp]
theorem getUnits_recast (labels : List (List Char)) (isHex : Bool) :
    (dv.recast labels isHex).getUnits = dv.getUnits := by
  cases dv <;> rfl

@[simp]
theorem toInterInt_recast (labels : List (List Char)) (isHex : Bool) :
    (dv.recast labels isHex).toInterInt = dv.toInterInt := by
  cases dv <;> rfl

namespace Alike

theorem recast_eq (alike : Alike dv other) (labels : List (List Char)) (isHex : Bool) :
    dv.recast labels isHex = other.recast labels isHex := by
  rw [← recast_recast labels [] isHex false, ← @recast_recast _ other labels [] isHex false, alike]

theorem getType_eq (alike : Alike dv other) : dv.getType = other.getType := by
  simpa only [getType_recast] using congrArg getType alike

theorem isSet_eq (alike : Alike dv other) : dv.isSet = other.isSet := by
  simpa only [isSet_recast] using congrArg isSet alike

theorem toString_eq (alike : Alike dv other) : dv.toString = other.toString := by
  simpa only [toString_recast] using congrArg toString alike

end Alike

end DvType

namespace DvTypeReal

variable {type : RealType}

/-- The text of the type and the limits do not matter to a text. -/
theorem set_recast (dv : DvTypeReal type) (value : List Char) :
    let recast (dv : DvTypeReal type) : DvTypeReal type :=
      { dv with mTypeStr := [], mLimits := Limits.empty }
    recast ((recast dv).set value).2 = recast (dv.set value).2 := by
  intro recast
  rcases parts : splitUnits value with ⟨valueStr, unitsStr⟩
  by_cases none : unitsStr = []
  · by_cases valid : type.isValid valueStr = true
    · simp [recast, set, unitsFromStr, parts, none, valid, setStr, DvTypeBase.setStr]
    · simp [recast, set, unitsFromStr, parts, none, valid, clear, DvTypeBase.clear]
  · by_cases refused : dv.mIsSet = true ∧ dv.mUnits = []
    · simp [recast, set, unitsFromStr, parts, none, refused, RealType.isValid_nil, clear,
        DvTypeBase.clear]
    · by_cases valid : type.isValid valueStr = true
      · simp [recast, set, unitsFromStr, parts, none, refused, valid, setStr, DvTypeBase.setStr]
      · simp [recast, set, unitsFromStr, parts, none, refused, valid, clear, DvTypeBase.clear]

end DvTypeReal

namespace DvType

section Calls

/-- A text is read alike by values with the same enumerations. -/
theorem recast_set (dv : DvType) (isHex : Bool) (value : List Char) :
    ((dv.recast dv.labels isHex).set value).2.recast [] false =
      (dv.set value).2.recast [] false := by
  cases dv with
  | none dv => rfl
  | integer type dv => exact congrArg (integer type) (dv.set_recast value isHex)
  | real type dv => exact congrArg (real type) (dv.set_recast value)
  | complex dv =>
      simp only [recast, set, DvTypeComplex.set]
      split <;> rfl
  | enum dv =>
      have found : ({ dv with mTypeStr := [] } : DvTypeEnum).findEnum value = dv.findEnum value := rfl
      simp only [recast, labels, set, DvTypeEnum.set, found]
      cases dv.findEnum value <;> rfl
  | bool dv => exact congrArg bool (DvTypeBool.plain_set dv value)
  | string dv =>
      simp only [recast, set, DvTypeString.set]
      split <;> rfl

/-- A number is written alike by values that write it in the same way. -/
theorem recast_fromInterInt (dv : DvType) (value : Int) :
    ((dv.recast dv.labels dv.isHex).fromInterInt value).recast [] false =
      (dv.fromInterInt value).recast [] false := by
  cases dv with
  | none dv => rfl
  | integer type dv => rfl
  | real type dv => cases type <;> rfl
  | complex dv => rfl
  | enum dv => exact congrArg enum (dv.plain_setEnumValue _)
  | bool dv => exact congrArg bool (dv.plain_setEnumValue _)
  | string dv => rfl

theorem recast_fromInterFloat (dv : DvType) (value : FloatLib.Real) :
    ((dv.recast dv.labels dv.isHex).fromInterFloat value).recast [] false =
      (dv.fromInterFloat value).recast [] false := by
  cases dv with
  | none dv => rfl
  | integer type dv => rfl
  | real type dv => rfl
  | complex dv => rfl
  | enum dv => exact congrArg enum (dv.plain_setEnumValue _)
  | bool dv => exact congrArg bool (dv.plain_setEnumValue _)
  | string dv => rfl

theorem recast_setUnits (dv : DvType) (units : List Char) :
    ((dv.recast [] false).setUnits units).recast [] false =
      (dv.setUnits units).recast [] false := by
  cases dv with
  | real type dv =>
      simp only [recast, setUnits, DvTypeReal.setUnits]
      split <;> rfl
  | none dv => rfl
  | integer type dv => rfl
  | complex dv => rfl
  | enum dv => rfl
  | bool dv => rfl
  | string dv => rfl

theorem recast_setLimits (dv : DvType) (limitsStr : List Char) :
    (dv.setLimits limitsStr).2.recast [] false = dv.recast [] false := by
  cases dv <;> rfl

end Calls

namespace Alike

variable {dv other : DvType}

theorem set (alike : Alike dv other) (labels : dv.labels = other.labels) (value : List Char) :
    Alike (dv.set value).2 (other.set value).2 := by
  rw [Alike, ← recast_set dv false, ← recast_set other false, labels, alike.recast_eq]

theorem fromInterInt (alike : Alike dv other) (labels : dv.labels = other.labels)
    (isHex : dv.isHex = other.isHex) (value : Int) :
    Alike (dv.fromInterInt value) (other.fromInterInt value) := by
  rw [Alike, ← recast_fromInterInt dv, ← recast_fromInterInt other, labels, isHex,
    alike.recast_eq]

theorem fromInterFloat (alike : Alike dv other) (labels : dv.labels = other.labels)
    (isHex : dv.isHex = other.isHex) (value : FloatLib.Real) :
    Alike (dv.fromInterFloat value) (other.fromInterFloat value) := by
  rw [Alike, ← recast_fromInterFloat dv, ← recast_fromInterFloat other, labels, isHex,
    alike.recast_eq]

theorem setUnits (alike : Alike dv other) (units : List Char) :
    Alike (dv.setUnits units) (other.setUnits units) := by
  rw [Alike, ← recast_setUnits dv, ← recast_setUnits other, alike]

theorem setLimits (alike : Alike dv other) (limitsStr : List Char) :
    Alike dv (other.setLimits limitsStr).2 := by
  rw [Alike, recast_setLimits, alike]

end Alike

end DvType

end OpenMplane
