import OpenMplane.DvTypeAlike

/-!
# The bounds that limits set

The two bounds of a value by its type, and those that a text of limits sets.  A value is
checked against its own bounds only, which no call but `setLimits` changes.
-/

namespace OpenMplane

open NumeralText

variable [FloatLib]

/-- The least and the greatest value, of the kind of number that the type has. -/
inductive Bounds [FloatLib]
  | none
  | integer (min max : Option Int)
  | real (min max : Option FloatLib.Real)

/-- A number is not outside two bounds. -/
def Between {T : Type} [LT T] (min max : Option T) (val : T) : Prop :=
  (∀ low ∈ min, ¬ val < low) ∧ ∀ high ∈ max, ¬ high < val

instance {T : Type} [LT T] [DecidableLT T] (min max : Option T) (val : T) :
    Decidable (Between min max val) :=
  inferInstanceAs (Decidable ((∀ low ∈ min, ¬ val < low) ∧ ∀ high ∈ max, ¬ high < val))

namespace Limits

variable {T : Type} [LT T] [DecidableLT T]

omit [FloatLib] in
theorem check_eq_none_iff {print : T → List Char} {limits : Limits T} {val : T} :
    limits.check print val = none ↔ Between limits.mMin.mVal limits.mMax.mVal val :=
  check_eq_none

omit [FloatLib] in
theorem set_congr (convert : List Char → Option T) (limits other : Limits T)
    (limitsStr : List Char) :
    (limits.set convert limitsStr).2.mMin = (other.set convert limitsStr).2.mMin ∧
      (limits.set convert limitsStr).2.mMax = (other.set convert limitsStr).2.mMax := by
  simp only [set]
  split
  · exact ⟨rfl, rfl⟩
  · split
    · split <;> exact ⟨rfl, rfl⟩
    · exact ⟨rfl, rfl⟩

end Limits

namespace DvType

/-- The bounds of a value. -/
def bounds : DvType → Bounds
  | integer _ dv => .integer dv.mLimits.mMin.mVal dv.mLimits.mMax.mVal
  | real _ dv => .real dv.mLimits.mMin.mVal dv.mLimits.mMax.mVal
  | complex dv => .real dv.mLimits.mMin.mVal dv.mLimits.mMax.mVal
  | _ => .none

/-- The bounds that a text sets for a type, in units. -/
def readBounds (units limitsStr : List Char) : DataVariantType → Bounds
  | .integer type =>
      let limits := ((Limits.empty : Limits Int).set (valConvert type) limitsStr).2
      .integer limits.mMin.mVal limits.mMax.mVal
  | .real type =>
      let limits := (Limits.empty.set (FloatLib.convert type units) limitsStr).2
      .real limits.mMin.mVal limits.mMax.mVal
  | .complex =>
      let limits := (Limits.empty.set (FloatLib.convert .float units) limitsStr).2
      .real limits.mMin.mVal limits.mMax.mVal
  | _ => .none

/-- A value is inside bounds, if its type has any. -/
def Inside (dv : DvType) (bounds : Bounds) : Prop :=
  match dv, bounds with
  | integer _ dv, .integer min max => Between min max dv.mVal
  | real _ dv, .real min max => Between min max dv.mReal
  | complex dv, .real min max =>
      Between min max (FloatLib.realPart dv.mComplex) ∧
        Between min max (FloatLib.imagPart dv.mComplex)
  | _, _ => True

instance (dv : DvType) (bounds : Bounds) : Decidable (dv.Inside bounds) := by
  cases dv <;> cases bounds <;> unfold Inside <;> infer_instance

/-- There are no bounds. -/
def Unbounded (dv : DvType) : Prop :=
  match dv.bounds with
  | .none => True
  | .integer min max => min = Option.none ∧ max = Option.none
  | .real min max => min = Option.none ∧ max = Option.none

variable {dv : DvType}

omit [FloatLib] in
theorem between_none {T : Type} [LT T] (val : T) : Between Option.none Option.none val :=
  ⟨fun low member => (by cases member), fun high member => (by cases member)⟩

theorem inside_of_unbounded (unbounded : dv.Unbounded) : dv.Inside dv.bounds := by
  cases dv with
  | integer type dv =>
      obtain ⟨min, max⟩ := unbounded
      show Between _ _ _
      rw [min, max]
      exact between_none _
  | real type dv =>
      obtain ⟨min, max⟩ := unbounded
      show Between _ _ _
      rw [min, max]
      exact between_none _
  | complex dv =>
      obtain ⟨min, max⟩ := unbounded
      show Between _ _ _ ∧ Between _ _ _
      rw [min, max]
      exact ⟨between_none _, between_none _⟩
  | none dv => trivial
  | enum dv => trivial
  | bool dv => trivial
  | string dv => trivial

/-- A value that is set is checked against its bounds. -/
theorem checkLimits_eq_none_iff :
    dv.checkLimits = Option.none ↔ (dv.isSet = true → dv.Inside dv.bounds) := by
  cases dv with
  | integer type dv =>
      show (if dv.mIsSet then _ else _) = _ ↔ (dv.mIsSet = true → Between _ _ _)
      split
      · next set => rw [Limits.check_eq_none_iff]; exact ⟨fun inside _ => inside, fun all => all set⟩
      · next unset => exact ⟨fun _ set => absurd set unset, fun _ => rfl⟩
  | real type dv =>
      show (if dv.mIsSet then _ else _) = _ ↔ (dv.mIsSet = true → Between _ _ _)
      split
      · next set => rw [Limits.check_eq_none_iff]; exact ⟨fun inside _ => inside, fun all => all set⟩
      · next unset => exact ⟨fun _ set => absurd set unset, fun _ => rfl⟩
  | complex dv =>
      show (if dv.mIsSet then _ else _) = _ ↔
        (dv.mIsSet = true → Between _ _ _ ∧ Between _ _ _)
      split
      · next set =>
          rw [← @Limits.check_eq_none_iff _ _ _ (FloatLib.print .float dv.mUnits) dv.mLimits,
            ← @Limits.check_eq_none_iff _ _ _ (FloatLib.print .float dv.mUnits) dv.mLimits]
          cases dv.mLimits.check (FloatLib.print .float dv.mUnits) (FloatLib.realPart dv.mComplex)
          · exact ⟨fun inside _ => ⟨rfl, inside⟩, fun all => (all set).2⟩
          · exact ⟨fun inside => (by cases inside), fun all => (by cases (all set).1)⟩
      · next unset => exact ⟨fun _ set => absurd set unset, fun _ => rfl⟩
  | none dv => exact iff_of_true rfl fun _ => trivial
  | enum dv => exact iff_of_true rfl fun _ => trivial
  | bool dv => exact iff_of_true rfl fun _ => trivial
  | string dv => exact iff_of_true rfl fun _ => trivial

/-- The bounds are those that the text sets in the units of the value. -/
theorem bounds_setLimits (dv : DvType) (limitsStr : List Char) :
    (dv.setLimits limitsStr).2.bounds = readBounds dv.getUnits limitsStr dv.getType := by
  cases dv with
  | integer type dv =>
      obtain ⟨min, max⟩ := Limits.set_congr (valConvert type) (dv.mLimits.setUnits dv.mUnits)
        Limits.empty limitsStr
      exact congrArg₂ (fun low high => Bounds.integer low.mVal high.mVal) min max
  | real type dv =>
      obtain ⟨min, max⟩ := Limits.set_congr (FloatLib.convert type dv.mUnits)
        (dv.mLimits.setUnits dv.mUnits) Limits.empty limitsStr
      exact congrArg₂ (fun low high => Bounds.real low.mVal high.mVal) min max
  | complex dv =>
      obtain ⟨min, max⟩ := Limits.set_congr (FloatLib.convert .float dv.mUnits)
        (dv.mLimits.setUnits dv.mUnits) Limits.empty limitsStr
      exact congrArg₂ (fun low high => Bounds.real low.mVal high.mVal) min max
  | none dv => rfl
  | enum dv => rfl
  | bool dv => rfl
  | string dv => rfl

section Calls

theorem set_keeps (dv : DvType) (value : List Char) :
    (dv.set value).2.getType = dv.getType ∧ (dv.set value).2.bounds = dv.bounds := by
  refine ⟨by cases dv <;> rfl, ?_⟩
  cases dv with
  | integer type dv =>
      have same : (dv.set value).2.mLimits = dv.mLimits := by
        simp only [DvTypeInteger.set, DvTypeInteger.unitsFromStr]
        split <;> split <;> (try split) <;> rfl
      exact congrArg (fun limits => Bounds.integer limits.mMin.mVal limits.mMax.mVal) same
  | real type dv =>
      have same : (dv.set value).2.mLimits = dv.mLimits := by
        simp only [DvTypeReal.set, DvTypeReal.unitsFromStr]
        split <;> split <;> (try split) <;> rfl
      exact congrArg (fun limits => Bounds.real limits.mMin.mVal limits.mMax.mVal) same
  | complex dv =>
      have same : (dv.set value).2.mLimits = dv.mLimits := by
        simp only [DvTypeComplex.set]
        split <;> rfl
      exact congrArg (fun limits => Bounds.real limits.mMin.mVal limits.mMax.mVal) same
  | none dv => rfl
  | enum dv => rfl
  | bool dv => rfl
  | string dv => rfl

theorem fromInterInt_keeps (dv : DvType) (value : Int) :
    (dv.fromInterInt value).getType = dv.getType ∧
      (dv.fromInterInt value).bounds = dv.bounds := by
  cases dv <;> exact ⟨rfl, rfl⟩

theorem fromInterFloat_keeps (dv : DvType) (value : FloatLib.Real) :
    (dv.fromInterFloat value).getType = dv.getType ∧
      (dv.fromInterFloat value).bounds = dv.bounds := by
  cases dv <;> exact ⟨rfl, rfl⟩

/-- Units change neither the bounds nor the number. -/
theorem setUnits_keeps (dv : DvType) (units : List Char) :
    (dv.setUnits units).getType = dv.getType ∧ (dv.setUnits units).bounds = dv.bounds ∧
      (dv.setUnits units).isSet = dv.isSet ∧
      ∀ bounds, (dv.setUnits units).Inside bounds ↔ dv.Inside bounds := by
  cases dv with
  | real type dv =>
      simp only [setUnits, DvTypeReal.setUnits]
      split
      · next reprinted =>
          refine ⟨rfl, rfl, reprinted.2.symm, fun bounds => ?_⟩
          cases bounds <;> exact Iff.rfl
      · exact ⟨rfl, rfl, rfl, fun bounds => by cases bounds <;> exact Iff.rfl⟩
  | none dv => exact ⟨rfl, rfl, rfl, fun bounds => Iff.rfl⟩
  | integer type dv => exact ⟨rfl, rfl, rfl, fun bounds => by cases bounds <;> exact Iff.rfl⟩
  | complex dv => exact ⟨rfl, rfl, rfl, fun bounds => by cases bounds <;> exact Iff.rfl⟩
  | enum dv => exact ⟨rfl, rfl, rfl, fun bounds => Iff.rfl⟩
  | bool dv => exact ⟨rfl, rfl, rfl, fun bounds => Iff.rfl⟩
  | string dv => exact ⟨rfl, rfl, rfl, fun bounds => Iff.rfl⟩

theorem clear_keeps (dv : DvType) :
    dv.clear.getType = dv.getType ∧ dv.clear.bounds = dv.bounds ∧ dv.clear.isSet = false := by
  cases dv <;> exact ⟨rfl, rfl, rfl⟩

end Calls

end DvType

end OpenMplane
