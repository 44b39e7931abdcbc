import OpenMplane.DvTypeCopy

/-!
# The elements of a vector of one type

What an element of type `INT`, `UINT`, `BOOL` or `STRING` holds, which a copy of it holds
as well.  The two enumerations of a `BOOL` need not differ, and one of them may be empty;
then its value is lost with a copy.
-/

namespace OpenMplane

open NumeralText

variable [FloatLib]

/-- The types of elements. -/
inductive VectorType
  | int
  | unsigned
  | bool (labels : BoolLabels)
  | string

namespace VectorType

/-- The values of a `std::vector`. -/
abbrev Value : VectorType → Type
  | int => Int
  | unsigned => Int
  | bool _ => Bool
  | string => List Char

/-- The values that the C++ type has, and no empty text. -/
def Fits : (type : VectorType) → type.Value → Prop
  | int, value => IntegerType.int.Represents value
  | unsigned, value => IntegerType.unsigned.Represents value
  | bool _, _ => True
  | string, value => value ≠ ([] : List Char)

def assign : (type : VectorType) → type.Value → DataVariantBase → DataVariantBase
  | int, value => fun dv => dv.setInt value
  | unsigned, value => fun dv => dv.setInt (toInt32 value)
  | bool _, value => fun dv => dv.setInt (if value then 1 else 0)
  | string, value => fun dv => dv.set value

/-- How an element is read. -/
def read : (type : VectorType) → DvType → type.Value
  | int, dv => toInt32 dv.toInterInt
  | unsigned, dv => toUint32 (toInt32 dv.toInterInt)
  | bool _, dv => decide (0 < dv.toInterInt)
  | string, dv => dv.toString

/-- A value that is told from the others of the type when it is read from a copy. -/
def Distinct : (type : VectorType) → type.Value → Prop
  | bool labels, value => value = true → labels.Differ
  | int, _ => True
  | unsigned, _ => True
  | string, _ => True

def readBack : (type : VectorType) → type.Value → type.Value
  | bool labels, value => value && decide labels.Differ
  | int, value => value
  | unsigned, value => value
  | string, value => value

/-- A copy of a value that is not set is not set. -/
def StaysUnset : VectorType → Prop
  | bool labels => labels.Nonempty
  | int => True
  | unsigned => True
  | string => True

/-- A value of a class for the type of the elements, with a text that belongs to it. -/
inductive Holds : VectorType → DvType → Prop
  | int (dv : DvTypeInteger .int)
      (valid : dv.mIsSet = true → IntegerType.int.isValid dv.mStr = true)
      (empty : dv.mIsSet = false → dv.mStr = []) : Holds int (.integer .int dv)
  | unsigned (dv : DvTypeInteger .unsigned)
      (valid : dv.mIsSet = true → IntegerType.unsigned.isValid dv.mStr = true)
      (empty : dv.mIsSet = false → dv.mStr = []) : Holds unsigned (.integer .unsigned dv)
  | bool (labels : BoolLabels) (dv : DvTypeEnum)
      (typeStr : dv.mTypeStr = (DvTypeBool.construct labels.typeStr).mTypeStr)
      (items : dv.mEnum = [labels.falseStr, labels.trueStr])
      (valid : dv.mIsSet = true → dv.mStr = labels.falseStr ∨ dv.mStr = labels.trueStr)
      (empty : dv.mIsSet = false → dv.mStr = []) : Holds (bool labels) (.bool dv)
  | string (dv : DvTypeBase) (valid : dv.mIsSet = true → dv.mStr ≠ [])
      (empty : dv.mIsSet = false → dv.mStr = []) : Holds string (.string dv)

omit [FloatLib] in
theorem readBack_eq_iff (type : VectorType) (value : type.Value) :
    type.readBack value = value ↔ type.Distinct value := by
  cases type with
  | int => exact iff_of_true rfl trivial
  | unsigned => exact iff_of_true rfl trivial
  | string => exact iff_of_true rfl trivial
  | bool labels =>
      show (value && decide labels.Differ) = value ↔ (value = true → labels.Differ)
      cases value with
      | false => exact iff_of_true rfl fun same => by cases same
      | true => simp

section Elements

variable {type : VectorType} {dv : DvType}

/-- One of the two enumerations has been chosen. -/
theorem holds_choose {labels : BoolLabels} {dv : DvTypeEnum}
    (typeStr : dv.mTypeStr = (DvTypeBool.construct labels.typeStr).mTypeStr)
    (items : dv.mEnum = [labels.falseStr, labels.trueStr]) {idx : Nat} (inside : idx < 2) :
    Holds (bool labels) (.bool (dv.choose idx)) := by
  refine .bool labels _ typeStr items (fun _ => ?_) fun unset => by cases unset
  rcases Nat.lt_succ_iff_lt_or_eq.mp inside with first | second
  · obtain rfl : idx = 0 := by omega
    exact .inl (by rw [DvTypeEnum.choose, items]; rfl)
  · subst second
    exact .inr (by rw [DvTypeEnum.choose, items]; rfl)

/-- A text chooses one of the enumerations or unsets the value. -/
theorem holds_setBool {labels : BoolLabels} {dv : DvTypeEnum}
    (typeStr : dv.mTypeStr = (DvTypeBool.construct labels.typeStr).mTypeStr)
    (items : dv.mEnum = [labels.falseStr, labels.trueStr]) (value : List Char) :
    Holds (bool labels) (.bool (DvTypeBool.set dv value).2) := by
  have unset (dv : DvTypeEnum) (typeStr : dv.mTypeStr = _) (items : dv.mEnum = _) :
      Holds (bool labels) (.bool dv.clear) :=
    .bool labels _ typeStr items (fun set => by cases set) fun _ => rfl
  rw [DvTypeBool.set, DvTypeEnum.set, DvTypeBool.findEnum_labels items]
  by_cases first : toLower labels.falseStr = toLower value
  · rw [if_pos first]
    exact holds_choose typeStr items (by decide)
  · rw [if_neg first]
    by_cases second : toLower labels.trueStr = toLower value
    · rw [if_pos second]
      exact holds_choose typeStr items (by decide)
    · rw [if_neg second]
      by_cases general : strIsBool value = true
      · have inside : (if strToBool value then 1 else 0) < 2 := by split <;> decide
        have chosen : (dv.clear.setEnumValue (if strToBool value then 1 else 0)).2 =
            dv.clear.choose (if strToBool value then 1 else 0) := by
          rw [DvTypeEnum.setEnumValue, show dv.clear.mEnum = _ from items]
          exact congrArg Prod.snd (if_pos inside)
        simp only [general, if_true, Bool.false_eq_true, if_false]
        rw [chosen]
        exact holds_choose typeStr items inside
      · simp only [general, Bool.false_eq_true, if_false]
        exact unset dv.clear typeStr items

/-- A copy holds what a value of the type holds, and is set if the value is. -/
theorem holds_copy (holds : type.Holds dv) :
    type.Holds (DvTypeFactory.copy dv) ∧
      ((DvTypeFactory.copy dv).isSet = true ↔ (dv.isSet = false → ¬ type.StaysUnset)) := by
  cases holds with
  | int dv valid empty =>
      cases set : dv.mIsSet with
      | true =>
          have whole := DvTypeInteger.splitUnits_of_valid (by decide) (valid set)
          rw [copy_integer dv (valid set) whole]
          refine ⟨.int _ (fun _ => valid set) fun unset => (by cases unset), ?_⟩
          exact iff_of_true rfl fun unset => absurd (set.symm.trans unset) (by decide)
      | false =>
          rw [copy_integer_of_empty dv (empty set)]
          refine ⟨.int _ (fun isSet => (by cases isSet)) fun _ => rfl, ?_⟩
          exact iff_of_false Bool.false_ne_true fun copied => copied set trivial
  | unsigned dv valid empty =>
      cases set : dv.mIsSet with
      | true =>
          have whole := DvTypeInteger.splitUnits_of_valid (by decide) (valid set)
          rw [copy_integer dv (valid set) whole]
          refine ⟨.unsigned _ (fun _ => valid set) fun unset => (by cases unset), ?_⟩
          exact iff_of_true rfl fun unset => absurd (set.symm.trans unset) (by decide)
      | false =>
          rw [copy_integer_of_empty dv (empty set)]
          refine ⟨.unsigned _ (fun isSet => (by cases isSet)) fun _ => rfl, ?_⟩
          exact iff_of_false Bool.false_ne_true fun copied => copied set trivial
  | bool labels dv typeStr items valid empty =>
      have items' : ({ DvTypeBool.construct labels.typeStr with mUnits := dv.mUnits } :
          DvTypeEnum).mEnum = [labels.falseStr, labels.trueStr] := labels.items
      rw [copy_bool dv typeStr]
      refine ⟨holds_setBool (by rfl) items' dv.mStr, ?_⟩
      cases set : dv.mIsSet with
      | true =>
          refine iff_of_true ?_ fun unset => absurd (set.symm.trans unset) (by decide)
          rcases valid set with text | text
          · rw [text, DvTypeBool.set_falseStr items']
            rfl
          · rw [text, DvTypeBool.set_trueStr items']
            rfl
      | false =>
          rw [empty set]
          rcases DvTypeBool.set_nil items' with ⟨text, stays⟩ | ⟨⟨idx, inside, text⟩, leaves⟩
          · rw [text]
            exact iff_of_false Bool.false_ne_true fun copied => copied set stays
          · rw [text]
            exact iff_of_true rfl fun _ => leaves
  | string dv valid empty =>
      rw [copy_string]
      cases set : dv.mIsSet with
      | true =>
          rw [DvTypeString.set, if_neg (valid set)]
          refine ⟨.string _ (fun _ => valid set) fun unset => (by cases unset), ?_⟩
          exact iff_of_true rfl fun unset => absurd (set.symm.trans unset) (by decide)
      | false =>
          rw [DvTypeString.set, if_pos (empty set)]
          refine ⟨.string _ (fun isSet => (by cases isSet)) fun _ => rfl, ?_⟩
          exact iff_of_false Bool.false_ne_true fun copied => copied set trivial

theorem holds_clear (holds : type.Holds dv) : type.Holds dv.clear := by
  cases holds with
  | int dv valid empty => exact .int _ (fun set => by cases set) fun _ => rfl
  | unsigned dv valid empty => exact .unsigned _ (fun set => by cases set) fun _ => rfl
  | bool labels dv typeStr items valid empty =>
      exact .bool labels _ typeStr items (fun set => by cases set) fun _ => rfl
  | string dv valid empty => exact .string _ (fun set => by cases set) fun _ => rfl

theorem holds_setUnits (holds : type.Holds dv) (units : List Char) :
    type.Holds (dv.setUnits units) := by
  cases holds with
  | int dv valid empty => exact .int _ valid empty
  | unsigned dv valid empty => exact .unsigned _ valid empty
  | bool labels dv typeStr items valid empty => exact .bool labels _ typeStr items valid empty
  | string dv valid empty => exact .string _ valid empty

theorem getType_ne_none (holds : type.Holds dv) : dv.getType ≠ .none := by
  cases holds <;> exact fun same => by cases same

theorem setInt_mDv {dvb : DataVariantBase} (typed : dvb.mDv.getType ≠ .none) (value : Int) :
    (dvb.setInt value).mDv = dvb.mDv.fromInterInt value := by
  rw [DataVariantBase.setInt, DataVariantBase.updateType, if_neg typed]

theorem set_mDv {dvb : DataVariantBase} (typed : dvb.mDv.getType ≠ .none) (value : List Char) :
    (dvb.set value).mDv = (dvb.mDv.set value).2 := by
  rw [DataVariantBase.set, DataVariantBase.determineType, if_neg typed]

theorem assign_spec {dvb : DataVariantBase} (holds : type.Holds dvb.mDv) {value : type.Value}
    (fits : type.Fits value) : type.Holds (type.assign value dvb).mDv ∧
      (type.assign value dvb).mDv.isSet = true ∧
      type.read (DvTypeFactory.copy (type.assign value dvb).mDv) = type.readBack value := by
  have typed := getType_ne_none holds
  generalize found : dvb.mDv = dv at holds typed
  have typed' : dvb.mDv.getType ≠ .none := found ▸ typed
  cases holds with
  | int dv valid empty =>
      have fits : IntegerType.int.Represents value := fits
      have cast := IntegerType.cast_of_represents fits
      have letters := DvTypeInteger.isValid_valueText dv.mIsHex fits
      have whole := DvTypeInteger.splitUnits_valueText dv.mIsHex fits
      have back := DvTypeInteger.readValue_valueText dv.mIsHex fits
      have after : (assign int value dvb).mDv = .integer .int (dv.setValue value) := by
        rw [assign, setInt_mDv typed', found, DvType.fromInterInt, DvTypeInteger.fromInterInt, cast]
      rw [after]
      refine ⟨.int _ (fun _ => letters) fun unset => (by cases unset), rfl, ?_⟩
      rw [copy_integer _ letters whole]
      exact (congrArg toInt32 back).trans cast
  | unsigned dv valid empty =>
      have fits : IntegerType.unsigned.Represents value := fits
      have cast : IntegerType.unsigned.cast (toInt32 value) = value := by
        simp only [IntegerType.Represents] at fits
        simp only [IntegerType.cast, toUint32, toInt32]
        omega
      have letters := DvTypeInteger.isValid_valueText dv.mIsHex fits
      have whole := DvTypeInteger.splitUnits_valueText dv.mIsHex fits
      have back := DvTypeInteger.readValue_valueText dv.mIsHex fits
      have after : (assign unsigned value dvb).mDv = .integer .unsigned (dv.setValue value) := by
        rw [assign, setInt_mDv typed', found, DvType.fromInterInt, DvTypeInteger.fromInterInt, cast]
      rw [after]
      refine ⟨.unsigned _ (fun _ => letters) fun unset => (by cases unset), rfl, ?_⟩
      rw [copy_integer _ letters whole]
      exact (congrArg (fun number => toUint32 (toInt32 number)) back).trans cast
  | bool labels dv typeStr items valid empty =>
      have chosen (idx : Nat) (inside : idx < 2) : (dv.setEnumValue idx).2 = dv.choose idx := by
        rw [DvTypeEnum.setEnumValue, items]
        exact congrArg Prod.snd (if_pos inside)
      have copied (idx : Nat) : ({ DvTypeBool.construct labels.typeStr with
          mUnits := (dv.choose idx).mUnits } : DvTypeEnum).mEnum =
            [labels.falseStr, labels.trueStr] := labels.items
      cases value with
      | false =>
          have after : (assign (bool labels) false dvb).mDv = .bool (dv.choose 0) := by
            rw [assign, setInt_mDv typed', found]
            exact congrArg DvType.bool (chosen 0 (by decide))
          have text : (dv.choose 0).mStr = labels.falseStr := by
            rw [DvTypeEnum.choose, items]
            rfl
          rw [after]
          refine ⟨holds_choose typeStr items (by decide), rfl, ?_⟩
          rw [copy_bool (dv.choose 0) typeStr, text, DvTypeBool.set_falseStr (copied 0)]
          rfl
      | true =>
          have after : (assign (bool labels) true dvb).mDv = .bool (dv.choose 1) := by
            rw [assign, setInt_mDv typed', found]
            exact congrArg DvType.bool (chosen 1 (by decide))
          have text : (dv.choose 1).mStr = labels.trueStr := by
            rw [DvTypeEnum.choose, items]
            rfl
          rw [after]
          refine ⟨holds_choose typeStr items (by decide), rfl, ?_⟩
          rw [copy_bool (dv.choose 1) typeStr, text, DvTypeBool.set_trueStr (copied 1)]
          by_cases differ : labels.Differ
          · rw [if_pos differ]
            exact (decide_eq_true differ).symm
          · rw [if_neg differ]
            exact (decide_eq_false differ).symm
  | string dv valid empty =>
      have nonempty : value ≠ [] := fits
      have after : (assign string value dvb).mDv = .string (dv.setStr value) := by
        rw [assign, set_mDv typed', found, DvType.set, DvTypeString.set, if_neg nonempty]
      rw [after]
      refine ⟨.string _ (fun _ => nonempty) fun unset => (by cases unset), rfl, ?_⟩
      rw [copy_string, DvTypeString.set]
      exact congrArg DvTypeBase.mStr (if_neg nonempty)

end Elements

end VectorType

end OpenMplane
