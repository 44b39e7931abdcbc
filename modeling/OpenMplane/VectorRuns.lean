import OpenMplane.GuardedRuns
import OpenMplane.VectorGrowth

/-!
# Runs of calls on a vector

What holds of a vector in every state of a run: its names, whether it is set, the variant
itself beside the first element, and its limits.  Each call has a condition under which
it keeps all of that; where a call does not meet it, one of the properties may be lost.
-/

namespace OpenMplane

open GuardedRuns NumeralText

variable [FloatLib]

/-- A vector and the last call of `setLimits` on it. -/
structure VectorRun [FloatLib] where
  dv : DataVariant
  last : DvType.LastLimits

namespace VectorRun

/-- A vector as it is constructed. -/
def start (name type : List Char) : VectorRun where
  dv := DataVariant.construct name type
  last := none

def step (run : VectorRun) : VectorCall → VectorRun
  | .set index value name => { run with dv := run.dv.setIndexed index value.assign name }
  | .setName index name => { run with dv := run.dv.setName index name }
  | .setUnits units => { run with dv := run.dv.setUnits units }
  | .setLimits limitsStr =>
      { dv := (run.dv.setLimits limitsStr).2
        last := some (run.dv.getUnits, limitsStr) }
  | .clear => { run with dv := run.dv.clear }

/-- A text that is refused does not leave the vector without an element that is set. -/
def LeavesOneSet (dv : DataVariant) (index : Nat) : VectorValue → Prop
  | .text text =>
      ((VectorValue.text text).typed (dv.elementAt index).mDv).accepts text = true ∨
        dv.mSet = false ∨
        ∃ other element, other ≠ index ∧ dv.mValues[other]? = some element ∧ element.isSet = true
  | _ => True

/-- The condition under which a call keeps what holds of a vector. -/
def Meets (run : VectorRun) : VectorCall → Prop
  | .set index value _ =>
      LeavesOneSet run.dv index value ∧
        (index = 0 → value.ReadsAlike run.dv.mDv (run.dv.elementAt 0).mDv) ∧
        ((value.assign (run.dv.elementAt index)).mDv.HasLimits run.last ∨
          (value.assign (run.dv.elementAt index)).mDv.Within run.last)
  | .setName _ _ => True
  | .setUnits _ => True
  | .setLimits limitsStr =>
      ∀ element ∈ run.dv.mValues, (element.mDv.setLimits limitsStr).1 = true ∧
        DvType.readBounds element.getUnits limitsStr element.mDv.getType =
          DvType.readBounds run.dv.getUnits limitsStr element.mDv.getType
  | .clear => run.dv.toDataVariantBase.isSet = false

/-- What is claimed of a vector in every state. -/
structure Kept (run : VectorRun) : Prop where
  names : run.dv.mNames.length = run.dv.mValues.length
  isSet_iff : run.dv.isSet = true ↔ ∃ element ∈ run.dv.mValues, element.isSet = true
  mirror : ∀ first ∈ run.dv.mValues.head?, run.dv.mDv.Alike first.mDv
  others : ∀ index value name other, other ≠ index → other < run.dv.mValues.length →
    (run.step (.set index value name)).dv.mValues[other]? = run.dv.mValues[other]?
  checkLimits_iff : run.dv.checkLimits = true ↔
    ∀ element ∈ run.dv.mValues, element.mDv.Within run.last

/-- A state that is reached by calls that meet their conditions. -/
inductive Reached : VectorRun → Prop
  | start (name type : List Char) (vector : (DataVariant.construct name type).mIsVector = true) :
      Reached (start name type)
  | step {run : VectorRun} (call : VectorCall) (reached : Reached run) (meets : run.Meets call) :
      Reached (run.step call)

/-- What each of these calls keeps. -/
structure Invariant (run : VectorRun) : Prop where
  vector : run.dv.mIsVector = true
  names : run.dv.mNames.length = run.dv.mValues.length
  marked : run.dv.mSet = true ↔ ∃ element ∈ run.dv.mValues, element.isSet = true
  settled : run.dv.mDv.Settled
  mirror : ∀ first ∈ run.dv.mValues.head?, run.dv.mDv.Alike first.mDv
  empty : run.dv.mValues = [] → run.dv.mDv.isSet = false
  limited : ∀ element ∈ run.dv.mValues, element.mDv.LimitedBy run.last

variable {run : VectorRun}

theorem kept_of_invariant (invariant : run.Invariant) : run.Kept where
  names := invariant.names
  isSet_iff := by
    rw [DataVariant.isSet, Bool.or_eq_true, invariant.marked]
    refine ⟨fun either => either.elim id fun base => ?_, .inl⟩
    cases values : run.dv.mValues with
    | nil =>
        have unset := invariant.empty values
        exact absurd (unset.symm.trans base) Bool.false_ne_true
    | cons first rest =>
        have alike := invariant.mirror first (by rw [values]; rfl)
        exact ⟨first, List.mem_cons_self, alike.isSet_eq.symm.trans base⟩
  mirror := invariant.mirror
  others index value name other different inside := by
    show (run.dv.setIndexed index value.assign name).mValues[other]? = _
    rw [DataVariant.getElem?_setIndexed_other invariant.vector _ _ _ different,
      DataVariant.getElem?_getIndexedValue invariant.vector, if_pos inside]
  checkLimits_iff := by
    rw [DataVariant.checkLimits, if_pos invariant.vector, List.all_eq_true]
    refine forall₂_congr fun element member => ?_
    rw [DataVariantBase.checkLimits, decide_eq_true_iff]
    exact DvType.checkLimits_iff_within (invariant.limited element member)

theorem limited_elementAt (invariant : run.Invariant) (index : Nat) :
    (run.dv.elementAt index).mDv.LimitedBy run.last := by
  rw [DataVariant.elementAt, List.getD_eq_getElem?_getD]
  cases found : run.dv.mValues[index]? with
  | some element => exact invariant.limited element (List.mem_of_getElem? found)
  | none =>
      obtain ⟨unset, unbounded⟩ := run.dv.newElement_spec
      exact DvType.limitedBy_of_unset unbounded unset

/-- The first element, new or not, is like the variant itself. -/
theorem alike_elementAt_zero (invariant : run.Invariant) :
    run.dv.mDv.Alike (run.dv.elementAt 0).mDv := by
  rw [DataVariant.elementAt]
  cases values : run.dv.mValues with
  | nil => exact DataVariant.alike_newElement (invariant.empty values) invariant.settled
  | cons first rest => exact invariant.mirror first (by rw [values]; rfl)

theorem marked_set (invariant : run.Invariant) {index : Nat} {value : VectorValue}
    {name : List Char} (oneSet : LeavesOneSet run.dv index value) :
    (run.dv.setIndexed index value.assign name).mSet = true ↔
      ∃ element ∈ (run.dv.setIndexed index value.assign name).mValues, element.isSet = true := by
  have vector := invariant.vector
  have self := DataVariant.getElem?_setIndexed_self vector index value.assign name
  have stays {other : Nat} {element : DataVariantBase} (different : other ≠ index)
      (found : run.dv.mValues[other]? = some element) :
      element ∈ (run.dv.setIndexed index value.assign name).mValues := by
    obtain ⟨inside, -⟩ := List.getElem?_eq_some_iff.mp found
    refine List.mem_of_getElem? (i := other) ?_
    rw [DataVariant.getElem?_setIndexed_other vector _ _ _ different,
      DataVariant.getElem?_getIndexedValue vector, if_pos inside, found]
  rw [DataVariant.mSet_setIndexed vector, Bool.or_eq_true]
  constructor
  · rintro (marked | set)
    · obtain ⟨element, member, set⟩ := invariant.marked.mp marked
      obtain ⟨other, found⟩ := List.mem_iff_getElem?.mp member
      by_cases same : other = index
      · have at_index : run.dv.elementAt index = element := by
          rw [DataVariant.elementAt, List.getD_eq_getElem?_getD, ← same, found]
          rfl
        by_cases after : (value.assign (run.dv.elementAt index)).isSet = true
        · exact ⟨_, List.mem_of_getElem? self, after⟩
        · cases value with
          | text text =>
              rcases oneSet with accepted | unmarked | ⟨other, element, different, found, set⟩
              · refine absurd ?_ after
                show ((VectorValue.text text).assign (run.dv.elementAt index)).mDv.isSet = true
                rw [VectorValue.mDv_assign]
                exact (DvType.isSet_set _ text).trans accepted
              · rw [unmarked] at marked
                cases marked
              · exact ⟨element, stays different found, set⟩
          | int value =>
              exact absurd (VectorValue.isSet_assign _ (fun _ same => by cases same)
                (at_index ▸ set)) after
          | float value =>
              exact absurd (VectorValue.isSet_assign _ (fun _ same => by cases same)
                (at_index ▸ set)) after
          | complex value =>
              exact absurd (VectorValue.isSet_assign _ (fun _ same => by cases same)
                (at_index ▸ set)) after
      · exact ⟨element, stays same found, set⟩
    · exact ⟨_, List.mem_of_getElem? self, set⟩
  · rintro ⟨element, member, set⟩
    obtain ⟨other, found⟩ := List.mem_iff_getElem?.mp member
    by_cases same : other = index
    · rw [same, self] at found
      cases found
      exact .inr set
    · rw [DataVariant.getElem?_setIndexed_other vector _ _ _ same,
        DataVariant.getElem?_getIndexedValue vector] at found
      split at found
      · exact .inl (invariant.marked.mpr ⟨element, List.mem_of_getElem? found, set⟩)
      · split at found
        · cases found
          exact absurd (run.dv.newElement_spec.1.symm.trans set) Bool.false_ne_true
        · cases found

theorem invariant_set (invariant : run.Invariant) {index : Nat} {value : VectorValue}
    {name : List Char} (meets : run.Meets (.set index value name)) :
    (run.step (.set index value name)).Invariant := by
  obtain ⟨oneSet, reads, bounded⟩ := meets
  have vector := invariant.vector
  have self := DataVariant.getElem?_setIndexed_self vector index value.assign name
  have rest {other : Nat} (different : other ≠ index) :
      (run.dv.setIndexed index value.assign name).mValues[other]? =
        if other < run.dv.mValues.length then run.dv.mValues[other]?
        else if other ≤ index then some run.dv.newElement else none := by
    rw [DataVariant.getElem?_setIndexed_other vector _ _ _ different,
      DataVariant.getElem?_getIndexedValue vector]
  obtain ⟨-, base, vector'⟩ := DataVariant.setIndexed_spec vector index value.assign name
  obtain ⟨namesLength, valuesLength⟩ :=
    DataVariant.length_setIndexed vector index value.assign name
  obtain ⟨newUnset, newUnbounded⟩ := run.dv.newElement_spec
  refine
    { vector := vector'
      names := ?_
      marked := ?_
      settled := ?_
      mirror := ?_
      empty := ?_
      limited := ?_ }
  · show (run.dv.setIndexed index value.assign name).mNames.length = _
    rw [namesLength, invariant.names]
    exact valuesLength.symm
  · exact marked_set invariant oneSet
  · show ((run.dv.setIndexed index value.assign name).toDataVariantBase).mDv.Settled
    rw [base]
    split
    · exact value.settled_assign invariant.settled
    · exact invariant.settled
  · intro first head
    have alike := alike_elementAt_zero invariant
    have head : (run.dv.setIndexed index value.assign name).mValues[0]? = some first := by
      rw [← List.head?_eq_getElem?]
      exact head
    show ((run.dv.setIndexed index value.assign name).toDataVariantBase).mDv.Alike first.mDv
    rw [base]
    by_cases zero : index = 0
    · subst zero
      rw [self] at head
      cases head
      rw [if_pos rfl]
      exact value.alike_assign alike (reads rfl)
    · rw [if_neg zero]
      rw [rest (Ne.symm zero)] at head
      have first_eq : run.dv.elementAt 0 = first := by
        rw [DataVariant.elementAt, List.getD_eq_getElem?_getD]
        split at head
        · rw [head]
          rfl
        · next none =>
            rw [List.getElem?_eq_none (by omega)]
            rw [if_pos (Nat.zero_le index)] at head
            exact Option.some.inj head
      rw [← first_eq]
      exact alike
  · intro values
    have none : (run.dv.setIndexed index value.assign name).mValues = [] := values
    rw [none] at self
    cases self
  · intro element member
    obtain ⟨other, found⟩ := List.mem_iff_getElem?.mp member
    have found : (run.dv.setIndexed index value.assign name).mValues[other]? = some element := found
    by_cases same : other = index
    · rw [same, self] at found
      cases found
      exact value.limitedBy_assign (limited_elementAt invariant index) bounded
    · rw [rest same] at found
      split at found
      · exact invariant.limited element (List.mem_of_getElem? found)
      · split at found
        · cases found
          exact DvType.limitedBy_of_unset newUnbounded newUnset
        · cases found

theorem invariant_setName (invariant : run.Invariant) (index : Nat) (name : List Char) :
    (run.step (.setName index name)).Invariant := by
  have values : (run.dv.setName index name).mValues = run.dv.mValues := by simp
  have base : (run.dv.setName index name).toDataVariantBase = run.dv.toDataVariantBase := by simp
  refine
    { vector := (DataVariant.mIsVector_setName index name).trans invariant.vector
      names := ?_
      marked := ?_
      settled := ?_
      mirror := ?_
      empty := ?_
      limited := ?_ }
  · show (run.dv.setName index name).mNames.length = (run.dv.setName index name).mValues.length
    rw [DataVariant.length_mNames_setName, values, invariant.names]
  · show (run.dv.setName index name).mSet = true ↔
      ∃ element ∈ (run.dv.setName index name).mValues, element.isSet = true
    rw [DataVariant.mSet_setName, values, invariant.marked]
  · show ((run.dv.setName index name).toDataVariantBase).mDv.Settled
    rw [base]
    exact invariant.settled
  · show ∀ first ∈ (run.dv.setName index name).mValues.head?,
      ((run.dv.setName index name).toDataVariantBase).mDv.Alike first.mDv
    rw [base, values]
    exact invariant.mirror
  · show (run.dv.setName index name).mValues = [] →
      ((run.dv.setName index name).toDataVariantBase).mDv.isSet = false
    rw [base, values]
    exact invariant.empty
  · show ∀ element ∈ (run.dv.setName index name).mValues, element.mDv.LimitedBy run.last
    rw [values]
    exact invariant.limited

/-- All elements are changed in one way that keeps whether they are set. -/
theorem invariant_map (invariant : run.Invariant) {dv : DataVariant} {last : DvType.LastLimits}
    (change : DataVariantBase → DataVariantBase) (vector : dv.mIsVector = true)
    (values : dv.mValues = run.dv.mValues.map change) (names : dv.mNames = run.dv.mNames)
    (marked : dv.mSet = run.dv.mSet) (settled : dv.mDv.Settled)
    (base : dv.mDv.isSet = run.dv.mDv.isSet)
    (sets : ∀ element ∈ run.dv.mValues, (change element).isSet = element.isSet)
    (alike : ∀ element ∈ run.dv.mValues, run.dv.mDv.Alike element.mDv →
      dv.mDv.Alike (change element).mDv)
    (limited : ∀ element ∈ run.dv.mValues, (change element).mDv.LimitedBy last) :
    ({ dv, last } : VectorRun).Invariant where
  vector := vector
  names := by
    show dv.mNames.length = dv.mValues.length
    rw [names, values, List.length_map, invariant.names]
  marked := by
    show dv.mSet = true ↔ ∃ element ∈ dv.mValues, element.isSet = true
    rw [marked, invariant.marked, values]
    constructor
    · rintro ⟨element, member, set⟩
      exact ⟨_, List.mem_map_of_mem member, (sets element member).trans set⟩
    · rintro ⟨_, member, set⟩
      obtain ⟨element, inside, rfl⟩ := List.mem_map.mp member
      exact ⟨element, inside, (sets element inside).symm.trans set⟩
  settled := settled
  mirror := by
    show ∀ first ∈ dv.mValues.head?, dv.mDv.Alike first.mDv
    rw [values]
    have mirror := invariant.mirror
    cases found : run.dv.mValues with
    | nil => exact fun first head => by cases head
    | cons first rest =>
        rw [found] at mirror alike
        intro other head
        cases head
        exact alike first List.mem_cons_self (mirror first rfl)
  empty := by
    show dv.mValues = [] → dv.mDv.isSet = false
    rw [values, List.map_eq_nil_iff, base]
    exact invariant.empty
  limited := by
    show ∀ element ∈ dv.mValues, element.mDv.LimitedBy last
    rw [values]
    intro changed member
    obtain ⟨element, inside, rfl⟩ := List.mem_map.mp member
    exact limited element inside

theorem invariant_setUnits (invariant : run.Invariant) (units : List Char) :
    (run.step (.setUnits units)).Invariant := by
  have vector := invariant.vector
  have keeps (dv : DvType) := dv.setUnits_keeps units
  refine invariant_map invariant (fun element => element.setUnits units) ?_ ?_ ?_ ?_ ?_ ?_ ?_ ?_ ?_
  · rw [DataVariant.setUnits, if_pos vector]
    exact vector
  · rw [DataVariant.setUnits, if_pos vector]
  · rw [DataVariant.setUnits, if_pos vector]
  · rw [DataVariant.setUnits, if_pos vector]
  · rw [DataVariant.setUnits, if_pos vector]
    exact DvType.settled_setUnits invariant.settled units
  · rw [DataVariant.setUnits, if_pos vector]
    exact (keeps run.dv.mDv).2.2.1
  · intro element _
    exact (keeps element.mDv).2.2.1
  · intro element _ alike
    rw [DataVariant.setUnits, if_pos vector]
    exact alike.setUnits units
  · intro element member
    exact DvType.limitedBy_setUnits (invariant.limited element member) units

theorem setLimitsLoop_of_taken {limitsStr : List Char} {values : List DataVariantBase}
    (taken : ∀ element ∈ values, (element.mDv.setLimits limitsStr).1 = true) :
    DataVariant.setLimitsLoop limitsStr values =
      (true, values.map fun element => (element.setLimits limitsStr).2) := by
  induction values with
  | nil => rfl
  | cons first rest ih =>
      have accepted : (first.setLimits limitsStr).1 = true := taken first List.mem_cons_self
      have ih := ih fun element member => taken element (List.mem_cons_of_mem _ member)
      rw [DataVariant.setLimitsLoop, if_pos accepted, ih, List.map_cons]

theorem invariant_setLimits (invariant : run.Invariant) {limitsStr : List Char}
    (meets : run.Meets (.setLimits limitsStr)) : (run.step (.setLimits limitsStr)).Invariant := by
  have taken := meets
  have vector := invariant.vector
  have loop := setLimitsLoop_of_taken fun element member => (taken element member).1
  have after : (run.dv.setLimits limitsStr).2 = { run.dv with
      mValues := run.dv.mValues.map fun element => (element.setLimits limitsStr).2 } := by
    rw [DataVariant.setLimits, if_pos vector, loop]
  have still (dv : DvType) : (dv.setLimits limitsStr).2.isSet = dv.isSet := by
    have same := (DvType.Alike.setLimits (rfl : dv.Alike dv) limitsStr).isSet_eq
    exact same.symm
  rw [step, after]
  refine invariant_map invariant (fun element => (element.setLimits limitsStr).2) vector rfl rfl
    rfl invariant.settled rfl ?_ ?_ ?_
  · exact fun element _ => still element.mDv
  · exact fun element _ alike => alike.setLimits limitsStr
  · intro element member
    refine .inl ⟨run.dv.getUnits, limitsStr, rfl, ?_⟩
    show (element.mDv.setLimits limitsStr).2.bounds =
      DvType.readBounds _ _ (element.mDv.setLimits limitsStr).2.getType
    have types : (element.mDv.setLimits limitsStr).2.getType = element.mDv.getType := by
      cases element.mDv <;> rfl
    rw [DvType.bounds_setLimits, types]
    exact (taken element member).2

theorem invariant_clear (invariant : run.Invariant) (meets : run.Meets .clear) :
    (run.step .clear).Invariant := by
  have unset : run.dv.mDv.isSet = false := meets
  have after : run.dv.clear = { run.dv with mSet := false, mValues := [], mNames := [] } := by
    rw [DataVariant.clear, if_pos invariant.vector, DataVariant.clearVector,
      if_pos invariant.vector]
  rw [step, after]
  exact
    { vector := invariant.vector
      names := rfl
      marked := ⟨fun marked => (by cases marked), fun ⟨_, member, _⟩ => (by cases member)⟩
      settled := invariant.settled
      mirror := fun first head => by cases head
      empty := fun _ => unset
      limited := fun element member => by cases member }

theorem settled_setType (dvb : DataVariantBase) (type : List Char) :
    (dvb.setType type).mDv.isSet = false ∧ (dvb.setType type).mDv.Settled := by
  have fresh (typeStr : List Char) : (DvTypeFactory.factory typeStr).isSet = false ∧
      (DvTypeFactory.factory typeStr).Settled := by
    rw [DvTypeFactory.factory]
    split
    · next type _ =>
        obtain ⟨unset, settled, -⟩ := DvType.settled_construct type typeStr
        exact ⟨unset, settled⟩
    · obtain ⟨unset, settled, -⟩ := DvType.settled_construct .none []
      exact ⟨unset, settled⟩
  simp only [DataVariantBase.setType]
  split
  · exact fresh _
  · obtain ⟨unset, settled⟩ := fresh ((Tokeniser.getTokens [' '] type).getD 0 [])
    exact ⟨(DvType.setUnits_keeps _ _).2.2.1.trans unset, DvType.settled_setUnits settled _⟩

theorem invariant_start {name type : List Char}
    (vector : (DataVariant.construct name type).mIsVector = true) :
    (start name type).Invariant := by
  cases parts : DataVariant.getIndex type with
  | none =>
      rw [DataVariant.construct, parts] at vector
      cases vector
  | some parts' =>
      obtain ⟨index, typeStr⟩ := parts'
      obtain ⟨unset, settled⟩ :=
        settled_setType (DataVariantBase.constructNamed name) typeStr
      have made : start name type =
          { dv := DataVariant.getIndexedValue
              { toDataVariantBase := (DataVariantBase.constructNamed name).setType typeStr
                mSet := false
                mIsVector := true
                mValues := []
                mNames := [] } index
            last := none } := by
        rw [start, DataVariant.construct, parts]
      rw [made]
      generalize (DataVariantBase.constructNamed name).setType typeStr = base at unset settled
      let empty : DataVariant :=
        { toDataVariantBase := base
          mSet := false
          mIsVector := true
          mValues := []
          mNames := [] }
      show ({ dv := empty.getIndexedValue index, last := none } : VectorRun).Invariant
      have values : (empty.getIndexedValue index).mValues =
          List.replicate (index + 1) empty.newElement := DataVariant.mValues_getIndexedValue rfl index
      obtain ⟨newUnset, newUnbounded⟩ := empty.newElement_spec
      refine
        { vector := rfl
          names := ?_
          marked := ?_
          settled := settled
          mirror := ?_
          empty := fun _ => unset
          limited := ?_ }
      · show (empty.getIndexedValue index).mNames.length = (empty.getIndexedValue index).mValues.length
        rw [values, List.length_replicate, DataVariant.getIndexedValue, if_pos rfl]
        simp [empty]
      · show (empty.getIndexedValue index).mSet = true ↔
          ∃ element ∈ (empty.getIndexedValue index).mValues, element.isSet = true
        rw [values, DataVariant.mSet_getIndexedValue]
        refine ⟨fun marked => (by cases marked), fun anySet => ?_⟩
        obtain ⟨element, member, set⟩ := anySet
        rw [List.eq_of_mem_replicate member, newUnset] at set
        cases set
      · show ∀ first ∈ (empty.getIndexedValue index).mValues.head?, empty.mDv.Alike first.mDv
        rw [values, List.replicate_succ]
        intro first head
        cases head
        exact DataVariant.alike_newElement unset settled
      · show ∀ element ∈ (empty.getIndexedValue index).mValues, element.mDv.LimitedBy none
        rw [values]
        intro element member
        rw [List.eq_of_mem_replicate member]
        exact DvType.limitedBy_of_unset newUnbounded newUnset

theorem invariant_step (invariant : run.Invariant) {call : VectorCall} (meets : run.Meets call) :
    (run.step call).Invariant := by
  cases call with
  | set index value name => exact invariant_set invariant meets
  | setName index name => exact invariant_setName invariant index name
  | setUnits units => exact invariant_setUnits invariant units
  | setLimits limitsStr => exact invariant_setLimits invariant meets
  | clear => exact invariant_clear invariant meets

/-- Every state that such calls reach is as claimed. -/
theorem kept_of_reached (reached : run.Reached) : run.Kept := by
  refine kept_of_invariant ?_
  induction reached with
  | start name type vector => exact invariant_start vector
  | step call _ meets ih => exact invariant_step ih meets

theorem reached_foldl {calls : List VectorCall} (reached : run.Reached)
    (guarded : Guarded Meets step run calls) : (calls.foldl step run).Reached := by
  induction calls generalizing run with
  | nil => exact reached
  | cons call calls ih => exact ih (.step call reached guarded.1) guarded.2

/-- A vector of two integers grows, is given limits, and is used again after it has been
cleared. -/
def limitedCalls : List (@VectorCall FloatLib.whole) :=
  let _ : FloatLib := FloatLib.whole
  [.set 3 (.int 7) ['b'], .setLimits "0..10".toList, .set 1 (.int 8) [], .setName 0 ['a'], .clear,
    .set 0 (.int 5) []]

omit [FloatLib] in
theorem kept_of_limitedCalls :
    @Kept FloatLib.whole (limitedCalls.foldl (@step FloatLib.whole)
      (@start FloatLib.whole ['v'] "INT[1]".toList)) := by
  let _ : FloatLib := FloatLib.whole
  refine kept_of_reached (reached_foldl (.start _ _ (by rfl)) ⟨?_, ?_, ?_, trivial, ?_, ?_, trivial⟩)
  · exact ⟨trivial, fun first => absurd first (by decide), .inr fun _ _ called => by cases called⟩
  · have taken : ∀ element ∈ (step (start ['v'] "INT[1]".toList)
        (.set 3 (.int 7) ['b'])).dv.mValues, (element.mDv.setLimits "0..10".toList).1 = true ∧
          element.getUnits = (step (start ['v'] "INT[1]".toList)
            (.set 3 (.int 7) ['b'])).dv.getUnits := by
      decide +kernel
    exact fun element member => ⟨(taken element member).1, by rw [(taken element member).2]⟩
  · refine ⟨trivial, fun first => absurd first (by decide), .inr fun _ _ called _ => ?_⟩
    cases called
    decide +kernel
  · change DataVariantBase.isSet _ = false
    decide +kernel
  · refine ⟨trivial, fun _ => ⟨by decide +kernel, ?_⟩, .inr fun _ _ called _ => ?_⟩
    · change DvType.isHex _ = DvType.isHex _
      decide +kernel
    · cases called
      decide +kernel

omit [FloatLib] in
/-- A vector that is cleared still mirrors the element that was set. -/
theorem set_after_clear : ¬ ∀ (lib : FloatLib) (name type : List Char)
    (calls : List (@VectorCall lib)), (@DataVariant.construct lib name type).mIsVector = true →
      @Kept lib (calls.foldl (@step lib) (@start lib name type)) := by
  intro kept
  let _ : FloatLib := FloatLib.whole
  have isSet_iff := (kept FloatLib.whole ['v'] "INT[1]".toList
    [.set 0 (.int 5) [], .clear] (by rfl)).isSet_iff
  obtain ⟨element, member, -⟩ := isSet_iff.mp (by rfl)
  have none : ([.set 0 (.int 5) [], .clear].foldl step (start ['v'] "INT[1]".toList)).dv.mValues =
      [] := by rfl
  rw [none] at member
  cases member

end VectorRun

end OpenMplane
