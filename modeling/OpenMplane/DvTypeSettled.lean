import OpenMplane.DvTypeBounds

/-!
# Values that a call leaves set

Which texts leave a value set, and that a value that is not set is always as `clear` leaves
it.
-/

namespace OpenMplane

open NumeralText

namespace DvTypeEnum

variable (dv : DvTypeEnum) (value : Nat)

theorem setEnumValue_cases : (dv.setEnumValue value).2 = dv.choose value ∨
    (dv.setEnumValue value).2 = dv := by
  rw [setEnumValue]
  split
  · exact .inl rfl
  · exact .inr rfl

theorem mIsSet_setEnumValue : (dv.setEnumValue value).2.mIsSet =
    (decide (value < dv.mEnum.length) || dv.mIsSet) := by
  rw [setEnumValue]
  split
  · next inside => rw [decide_eq_true inside]; rfl
  · next outside => rw [decide_eq_false outside]; rfl

end DvTypeEnum

variable [FloatLib]

namespace DvType

/-- Does `set` with a text leave the value set. -/
def accepts : DvType → List Char → Bool
  | none dv, _ => dv.mIsSet
  | integer type dv, value => type.isValid (dv.unitsFromStr value).1
  | real type dv, value => type.isValid (dv.unitsFromStr value).1
  | complex _, _ => true
  | enum dv, value => (dv.findEnum value).isSome
  | bool dv, value => (dv.findEnum value).isSome ||
      strIsBool value && decide ((if strToBool value then 1 else 0) < dv.mEnum.length)
  | string _, value => decide (value ≠ [])

/-- A value that is not set is as `clear` leaves it. -/
def Settled (dv : DvType) : Prop := dv.isSet = false → dv.Alike dv.clear

variable {dv : DvType}

theorem isSet_set (dv : DvType) (value : List Char) : (dv.set value).2.isSet = dv.accepts value := by
  cases dv with
  | none dv => rfl
  | integer type dv =>
      show (dv.set value).2.mIsSet = type.isValid (dv.unitsFromStr value).1
      simp only [DvTypeInteger.set]
      cases valid : type.isValid (dv.unitsFromStr value).1 <;> rfl
  | real type dv =>
      show (dv.set value).2.mIsSet = type.isValid (dv.unitsFromStr value).1
      simp only [DvTypeReal.set]
      cases valid : type.isValid (dv.unitsFromStr value).1 <;> rfl
  | complex dv =>
      show (dv.set value).2.mIsSet = true
      simp only [DvTypeComplex.set]
      split <;> rfl
  | enum dv =>
      show (dv.set value).2.mIsSet = (dv.findEnum value).isSome
      simp only [DvTypeEnum.set]
      cases dv.findEnum value <;> rfl
  | bool dv =>
      show (DvTypeBool.set dv value).2.mIsSet = _
      rw [accepts]
      cases found : dv.findEnum value with
      | some idx => rw [DvTypeBool.set_of_some found]; rfl
      | none =>
          rw [DvTypeBool.set_of_none found]
          cases general : strIsBool value with
          | false => rfl
          | true =>
              rw [if_pos rfl, DvTypeEnum.mIsSet_setEnumValue]
              exact Bool.or_false _
  | string dv =>
      show (DvTypeString.set dv value).2.mIsSet = decide (value ≠ [])
      by_cases empty : value = []
      · rw [DvTypeString.set, if_pos empty, decide_eq_false (not_not.mpr empty)]
        rfl
      · rw [DvTypeString.set, if_neg empty, decide_eq_true empty]
        rfl

theorem settled_clear (dv : DvType) : dv.clear.Alike dv.clear.clear := by
  cases dv <;> rfl

theorem settled_set (settled : dv.Settled) (value : List Char) : (dv.set value).2.Settled := by
  intro unset
  have refused : dv.accepts value = false := (isSet_set dv value).symm.trans unset
  cases dv with
  | none dv => exact settled unset
  | integer type dv =>
      have invalid : type.isValid (dv.unitsFromStr value).1 = false := refused
      rw [set, dv.set_of_invalid invalid]
      exact settled_clear (.integer type (dv.unitsFromStr value).2)
  | real type dv =>
      have invalid : type.isValid (dv.unitsFromStr value).1 = false := refused
      simp only [set, DvTypeReal.set, invalid, Bool.false_eq_true, if_false]
      exact settled_clear (.real type (dv.unitsFromStr value).2)
  | complex dv => cases refused
  | enum dv =>
      have notFound : dv.findEnum value = Option.none := by
        cases found : dv.findEnum value with
        | none => rfl
        | some idx => rw [accepts, found] at refused; cases refused
      simp only [set, DvTypeEnum.set, notFound]
      exact settled_clear (.enum dv)
  | bool dv =>
      have notFound : dv.findEnum value = Option.none := by
        cases found : dv.findEnum value with
        | none => rfl
        | some idx => rw [accepts, found] at refused; cases refused
      rw [set, DvTypeBool.set_of_none notFound] at unset ⊢
      by_cases general : strIsBool value = true
      · rw [if_pos general] at unset ⊢
        rcases dv.clear.setEnumValue_cases (if strToBool value then 1 else 0) with chosen | same
        · rw [chosen] at unset
          cases unset
        · rw [same]
          exact settled_clear (.bool dv)
      · rw [if_neg general]
        exact settled_clear (.bool dv.clear)
  | string dv =>
      have empty : value = [] := by simpa [accepts] using refused
      simp only [set, DvTypeString.set, empty, if_true]
      exact settled_clear (.string dv)

theorem settled_fromInterInt (settled : dv.Settled) (value : Int) :
    (dv.fromInterInt value).Settled := by
  intro unset
  cases dv with
  | none dv => exact settled unset
  | integer type dv => cases unset
  | real type dv => cases unset
  | complex dv => cases unset
  | enum dv =>
      rw [fromInterInt] at unset ⊢
      rcases dv.setEnumValue_cases (toUint32 value).toNat with chosen | same
      · rw [chosen] at unset
        cases unset
      · rw [same] at unset ⊢
        exact settled unset
  | bool dv =>
      rw [fromInterInt] at unset ⊢
      rcases dv.setEnumValue_cases (toUint32 value).toNat with chosen | same
      · rw [chosen] at unset
        cases unset
      · rw [same] at unset ⊢
        exact settled unset
  | string dv => cases unset

theorem settled_fromInterFloat (settled : dv.Settled) (value : FloatLib.Real) :
    (dv.fromInterFloat value).Settled := by
  intro unset
  cases dv with
  | none dv => exact settled unset
  | integer type dv => cases unset
  | real type dv => cases unset
  | complex dv => cases unset
  | enum dv => exact settled_fromInterInt settled (FloatLib.truncate value) unset
  | bool dv => exact settled_fromInterInt settled (FloatLib.truncate value) unset
  | string dv => cases unset

theorem settled_setUnits (settled : dv.Settled) (units : List Char) :
    (dv.setUnits units).Settled := by
  intro unset
  have same := settled ((setUnits_keeps dv units).2.2.1.symm.trans unset)
  have swapped : (dv.clear.setUnits units).Alike (dv.setUnits units).clear := by
    cases dv with
    | real type dv =>
        simp only [setUnits, clear, DvTypeReal.setUnits]
        split
        · next reprinted => cases reprinted.2
        · split <;> rfl
    | none dv => rfl
    | integer type dv => rfl
    | complex dv => rfl
    | enum dv => rfl
    | bool dv => rfl
    | string dv => rfl
  exact (same.setUnits units).trans swapped

theorem isSet_fromInterInt (set : dv.isSet = true) (value : Int) :
    (dv.fromInterInt value).isSet = true := by
  cases dv with
  | none dv => exact set
  | integer type dv => rfl
  | real type dv => rfl
  | complex dv => rfl
  | enum dv =>
      show (dv.setEnumValue _).2.mIsSet = true
      rw [DvTypeEnum.mIsSet_setEnumValue, show dv.mIsSet = true from set, Bool.or_true]
  | bool dv =>
      show (dv.setEnumValue _).2.mIsSet = true
      rw [DvTypeEnum.mIsSet_setEnumValue, show dv.mIsSet = true from set, Bool.or_true]
  | string dv => rfl

theorem isSet_fromInterFloat (set : dv.isSet = true) (value : FloatLib.Real) :
    (dv.fromInterFloat value).isSet = true := by
  cases dv with
  | none dv => exact set
  | integer type dv => rfl
  | real type dv => rfl
  | complex dv => rfl
  | enum dv => exact isSet_fromInterInt set (FloatLib.truncate value)
  | bool dv => exact isSet_fromInterInt set (FloatLib.truncate value)
  | string dv => rfl

theorem settled_construct (type : DataVariantType) (typeStr : List Char) :
    (DvTypeFactory.construct type typeStr).isSet = false ∧
      (DvTypeFactory.construct type typeStr).Settled ∧
      (DvTypeFactory.construct type typeStr).Unbounded := by
  cases type with
  | none => exact ⟨rfl, fun _ => rfl, trivial⟩
  | integer type => exact ⟨rfl, fun _ => rfl, rfl, rfl⟩
  | real type => cases type <;> exact ⟨rfl, fun _ => rfl, rfl, rfl⟩
  | complex => exact ⟨rfl, fun _ => rfl, rfl, rfl⟩
  | enum => exact ⟨rfl, fun _ => rfl, trivial⟩
  | bool => exact ⟨rfl, fun _ => rfl, trivial⟩
  | string => exact ⟨rfl, fun _ => rfl, trivial⟩

/-- An empty text changes nothing that `clear` would leave. -/
theorem alike_set_nil (dv : DvType) : (dv.set []).2.clear.Alike dv.clear := by
  cases dv with
  | none dv => rfl
  | integer type dv =>
      rw [set, dv.set_nil]
      rfl
  | real type dv =>
      have invalid : type.isValid [] = false := type.isValid_nil
      have parts : dv.unitsFromStr [] = ([], dv) := rfl
      simp only [set, DvTypeReal.set, parts, invalid, Bool.false_eq_true, if_false]
      rfl
  | complex dv =>
      simp only [set, DvTypeComplex.set]
      split <;> rfl
  | enum dv =>
      simp only [set, DvTypeEnum.set]
      cases dv.findEnum [] <;> rfl
  | bool dv =>
      cases found : dv.findEnum [] with
      | some idx => rw [set, DvTypeBool.set_of_some found]; rfl
      | none => rw [set, DvTypeBool.set_of_none found]; rfl
  | string dv => rfl

theorem alike_setUnits_self (unset : dv.isSet = false) :
    (dv.setUnits dv.getUnits).Alike dv := by
  cases dv with
  | real type dv =>
      simp only [setUnits, DvTypeReal.setUnits]
      split
      · next reprinted => exact absurd (unset.symm.trans reprinted.2) Bool.false_ne_true
      · rfl
  | none dv => rfl
  | integer type dv => rfl
  | complex dv => rfl
  | enum dv => rfl
  | bool dv => rfl
  | string dv => rfl

end DvType

end OpenMplane
