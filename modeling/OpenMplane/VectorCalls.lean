import OpenMplane.DataVariant
import OpenMplane.DvTypeSettled

/-!
# Calls on a vector

What can be done to a vector: an element is set with a text or a number, or is given a
name, and units, limits and `clear` concern all of them.  An element that is set with the
variant itself at the same time stays like it, and a new element starts like it.
-/

namespace OpenMplane

open NumeralText

variable [FloatLib]

/-- What an element is set with. -/
inductive VectorValue [FloatLib]
  | text (value : List Char)
  | int (value : Int)
  | float (value : FloatLib.Real)
  | complex (value : FloatLib.Complex)

namespace VectorValue

/-- The overload of `set` for the value. -/
def assign (value : VectorValue) (dv : DataVariantBase) : DataVariantBase :=
  match value with
  | text value => dv.set value
  | int value => dv.setInt value
  | float value => dv.setFloat value
  | complex value => dv.setComplex value

/-- What the call looks at besides the values themselves is the same. -/
def ReadsAlike (value : VectorValue) (dv other : DvType) : Prop :=
  dv.labels = other.labels ∧
    match value with
    | text _ => True
    | int _ => dv.isHex = other.isHex
    | float _ => dv.isHex = other.isHex
    | complex _ => dv.isHex = other.isHex

end VectorValue

inductive VectorCall [FloatLib]
  | set (index : Nat) (value : VectorValue) (name : List Char)
  | setName (index : Nat) (name : List Char)
  | setUnits (units : List Char)
  | setLimits (limitsStr : List Char)
  | clear

namespace VectorValue

/-- The type that a value is given where there is none. -/
def newType (value : VectorValue) : Option DataVariantType :=
  match value with
  | text value => DvTypeFactory.typeOrder.find? (DvTypeFactory.canSetValue value)
  | int _ => some (.integer .int)
  | float _ => some (.real .float)
  | complex _ => some .complex

/-- What is set: the value itself, or one of a new type. -/
def typed (value : VectorValue) (dv : DvType) : DvType :=
  if dv.getType = .none then
    match value.newType with
    | some type => DvTypeFactory.construct type []
    | none => dv
  else dv

/-- The call on what is set. -/
def apply (value : VectorValue) (dv : DvType) : DvType :=
  match value with
  | text value => (dv.set value).2
  | int value => dv.fromInterInt value
  | float value => dv.fromInterFloat value
  | complex value =>
      match dv with
      | .complex dv => .complex (dv.setComplex value)
      | dv => dv.fromInterFloat (FloatLib.realPart value)

variable (value : VectorValue) {dv other : DvType}

theorem mDv_assign (dvb : DataVariantBase) :
    (value.assign dvb).mDv = value.apply (value.typed dvb.mDv) := by
  cases value with
  | text value =>
      rw [assign, DataVariantBase.set, DataVariantBase.determineType, typed, newType]
      split
      · cases DvTypeFactory.typeOrder.find? (DvTypeFactory.canSetValue value) <;> rfl
      · rfl
  | int value =>
      rw [assign, DataVariantBase.setInt, DataVariantBase.updateType, typed]
      split <;> rfl
  | float value =>
      rw [assign, DataVariantBase.setFloat, DataVariantBase.updateType, typed]
      split <;> rfl
  | complex value =>
      have applied : (dvb.setComplex value).mDv =
          (complex value).apply (dvb.updateType .complex).mDv := by
        rw [DataVariantBase.setComplex]
        cases found : (dvb.updateType .complex).mDv <;> rfl
      rw [assign, applied, DataVariantBase.updateType, typed]
      split <;> rfl

theorem typed_cases (dv : DvType) :
    value.typed dv = dv ∨ ∃ type, value.typed dv = DvTypeFactory.construct type [] := by
  rw [typed]
  split
  · split
    · next type _ => exact .inr ⟨type, rfl⟩
    · exact .inl rfl
  · exact .inl rfl

/-- A complex number is set as its real part, unless the type is complex. -/
theorem apply_complex (value : FloatLib.Complex) (dv : DvType) :
    (complex value).apply dv = dv.fromInterFloat (FloatLib.realPart value) ∧
        dv.getType ≠ .complex ∨
      ∃ dvc, dv = .complex dvc ∧ (complex value).apply dv = .complex (dvc.setComplex value) := by
  cases dv with
  | complex dv => exact .inr ⟨dv, rfl, rfl⟩
  | none dv => exact .inl ⟨rfl, nofun⟩
  | integer type dv => exact .inl ⟨rfl, nofun⟩
  | real type dv => exact .inl ⟨rfl, nofun⟩
  | enum dv => exact .inl ⟨rfl, nofun⟩
  | bool dv => exact .inl ⟨rfl, nofun⟩
  | string dv => exact .inl ⟨rfl, nofun⟩

theorem apply_keeps (dv : DvType) :
    (value.apply dv).getType = dv.getType ∧ (value.apply dv).bounds = dv.bounds := by
  cases value with
  | text value => exact dv.set_keeps value
  | int value => exact dv.fromInterInt_keeps value
  | float value => exact dv.fromInterFloat_keeps value
  | complex value =>
      rcases apply_complex value dv with ⟨real, -⟩ | ⟨dvc, rfl, complex⟩
      · rw [real]
        exact dv.fromInterFloat_keeps _
      · rw [complex]
        exact ⟨rfl, rfl⟩

theorem settled_apply (settled : dv.Settled) : (value.apply dv).Settled := by
  cases value with
  | text value => exact DvType.settled_set settled value
  | int value => exact DvType.settled_fromInterInt settled value
  | float value => exact DvType.settled_fromInterFloat settled value
  | complex value =>
      rcases apply_complex value dv with ⟨real, -⟩ | ⟨dvc, rfl, complex⟩
      · rw [real]
        exact DvType.settled_fromInterFloat settled _
      · rw [complex]
        exact fun unset => by cases unset

theorem settled_typed (settled : dv.Settled) : (value.typed dv).Settled := by
  rcases value.typed_cases dv with same | ⟨type, fresh⟩
  · rw [same]
    exact settled
  · rw [fresh]
    exact (DvType.settled_construct type []).2.1

/-- Values that are alike are given the same new type. -/
theorem alike_typed (alike : dv.Alike other) : (value.typed dv).Alike (value.typed other) := by
  have types := alike.getType_eq
  rw [typed, typed]
  by_cases untyped : dv.getType = .none
  · rw [if_pos untyped, if_pos (types ▸ untyped)]
    cases value.newType with
    | some type => exact rfl
    | none => exact alike
  · rw [if_neg untyped, if_neg (types ▸ untyped)]
    exact alike

theorem readsAlike_typed (alike : dv.Alike other) (reads : value.ReadsAlike dv other) :
    value.ReadsAlike (value.typed dv) (value.typed other) := by
  have types := alike.getType_eq
  rw [typed, typed]
  by_cases untyped : dv.getType = .none
  · rw [if_pos untyped, if_pos (types ▸ untyped)]
    cases value.newType with
    | some type => exact ⟨rfl, by cases value <;> trivial⟩
    | none => exact reads
  · rw [if_neg untyped, if_neg (types ▸ untyped)]
    exact reads

theorem alike_apply (alike : dv.Alike other) (reads : value.ReadsAlike dv other) :
    (value.apply dv).Alike (value.apply other) := by
  cases value with
  | text value => exact alike.set reads.1 value
  | int value => exact alike.fromInterInt reads.1 reads.2 value
  | float value => exact alike.fromInterFloat reads.1 reads.2 value
  | complex value =>
      have types := alike.getType_eq
      rcases apply_complex value dv with ⟨real, _⟩ | ⟨dvc, rfl, complex⟩
      · rcases apply_complex value other with ⟨real', -⟩ | ⟨dvc', rfl, complex'⟩
        · rw [real, real']
          exact alike.fromInterFloat reads.1 reads.2 _
        · contradiction
      · rcases apply_complex value other with ⟨-, noComplex⟩ | ⟨dvc', rfl, complex'⟩
        · exact absurd types.symm noComplex
        · rw [complex, complex']
          have bases : ({ dvc with mTypeStr := [], mLimits := Limits.empty } : DvTypeComplex) =
              { dvc' with mTypeStr := [], mLimits := Limits.empty } := by
            injection alike
          exact congrArg (fun dvc : DvTypeComplex => DvType.complex (dvc.setComplex value)) bases

theorem isSet_apply (noText : ∀ text, value ≠ .text text) (set : dv.isSet = true) :
    (value.apply dv).isSet = true := by
  cases value with
  | text value => exact absurd rfl (noText value)
  | int value => exact DvType.isSet_fromInterInt set value
  | float value => exact DvType.isSet_fromInterFloat set value
  | complex value =>
      rcases apply_complex value dv with ⟨real, -⟩ | ⟨dvc, rfl, complex⟩
      · rw [real]
        exact DvType.isSet_fromInterFloat set _
      · rw [complex]
        rfl

end VectorValue

namespace DvType

/-- The units and the text of the last call of `setLimits`, if there was one. -/
abbrev LastLimits := Option (List Char × List Char)

/-- The value has the bounds that the last call of `setLimits` sets for its type. -/
def HasLimits (last : LastLimits) (dv : DvType) : Prop :=
  ∃ units limitsStr, last = some (units, limitsStr) ∧
    dv.bounds = readBounds units limitsStr dv.getType

/-- The value, if it is set, is inside the bounds that the last call of `setLimits` sets for
its type. -/
def Within (last : LastLimits) (dv : DvType) : Prop :=
  ∀ units limitsStr, last = some (units, limitsStr) → dv.isSet = true →
    dv.Inside (readBounds units limitsStr dv.getType)

/-- The value is checked against the bounds that were set last, or needs no check. -/
def LimitedBy (last : LastLimits) (dv : DvType) : Prop :=
  dv.HasLimits last ∨ dv.Unbounded ∧ dv.Within last

variable {last : LastLimits} {dv : DvType}

theorem checkLimits_iff_within (limited : dv.LimitedBy last) :
    dv.checkLimits = Option.none ↔ dv.Within last := by
  rw [checkLimits_eq_none_iff]
  rcases limited with ⟨units, limitsStr, rfl, same⟩ | ⟨unbounded, within⟩
  · rw [same]
    refine ⟨fun inside units' limitsStr' called => ?_, fun within => within units limitsStr rfl⟩
    cases called
    exact inside
  · exact iff_of_true (fun _ => inside_of_unbounded unbounded) within

theorem limitedBy_setUnits (limited : dv.LimitedBy last) (units : List Char) :
    (dv.setUnits units).LimitedBy last := by
  obtain ⟨types, bounds, set, inside⟩ := dv.setUnits_keeps units
  rcases limited with ⟨units', limitsStr, called, read⟩ | ⟨unbounded, within⟩
  · exact .inl ⟨units', limitsStr, called, by rw [bounds, types, read]⟩
  · refine .inr ⟨by rw [Unbounded, bounds]; exact unbounded, ?_⟩
    intro units' limitsStr called isSet
    rw [inside, types]
    exact within units' limitsStr called (set.symm.trans isSet)

theorem limitedBy_of_unset (unbounded : dv.Unbounded) (unset : dv.isSet = false) :
    dv.LimitedBy last :=
  .inr ⟨unbounded, fun _ _ _ set => by rw [unset] at set; cases set⟩

end DvType

namespace VectorValue

variable (value : VectorValue)

/-- A value that is set keeps its bounds, or has none yet. -/
theorem limitedBy_assign {last : DvType.LastLimits} {dvb : DataVariantBase}
    (limited : dvb.mDv.LimitedBy last)
    (bounded : (value.assign dvb).mDv.HasLimits last ∨ (value.assign dvb).mDv.Within last) :
    (value.assign dvb).mDv.LimitedBy last := by
  rcases bounded with has | within
  · exact .inl has
  · rw [mDv_assign] at within ⊢
    obtain ⟨types, bounds⟩ := value.apply_keeps (value.typed dvb.mDv)
    have unboundedAfter (unbounded : (value.typed dvb.mDv).Unbounded) :
        (value.apply (value.typed dvb.mDv)).Unbounded := by
      rw [DvType.Unbounded, bounds]
      exact unbounded
    rcases value.typed_cases dvb.mDv with same | ⟨type, fresh⟩
    · rw [same] at types bounds within unboundedAfter ⊢
      rcases limited with ⟨units, limitsStr, called, read⟩ | ⟨unbounded, -⟩
      · exact .inl ⟨units, limitsStr, called, by rw [bounds, types, read]⟩
      · exact .inr ⟨unboundedAfter unbounded, within⟩
    · refine .inr ⟨unboundedAfter ?_, within⟩
      rw [fresh]
      exact (DvType.settled_construct type []).2.2

/-- A number leaves an element set. -/
theorem isSet_assign (noText : ∀ text, value ≠ .text text) {dvb : DataVariantBase}
    (set : dvb.isSet = true) : (value.assign dvb).isSet = true := by
  show (value.assign dvb).mDv.isSet = true
  rw [mDv_assign, typed]
  split
  · cases value with
    | text value => exact absurd rfl (noText value)
    | int value => rfl
    | float value => rfl
    | complex value => rfl
  · exact value.isSet_apply noText set

theorem settled_assign {dvb : DataVariantBase} (settled : dvb.mDv.Settled) :
    (value.assign dvb).mDv.Settled := by
  rw [mDv_assign]
  exact value.settled_apply (value.settled_typed settled)

theorem alike_assign {dvb other : DataVariantBase} (alike : dvb.mDv.Alike other.mDv)
    (reads : value.ReadsAlike dvb.mDv other.mDv) :
    (value.assign dvb).mDv.Alike (value.assign other).mDv := by
  rw [mDv_assign, mDv_assign]
  exact value.alike_apply (value.alike_typed alike) (value.readsAlike_typed alike reads)

end VectorValue

end OpenMplane
