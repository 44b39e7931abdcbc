import OpenMplane.HandlerCallback

/-!
# The validation of a CHANGE event

`HandlerCallback::handleChangeEvent` collects the values of a transaction for
the handler's `validate`.  The collector keeps the parameter of the change
before it in a variable outside its loop and asks for validation only when it
has collected a value that is not deleted.  This file states which values a
transaction contains and proves for which transactions `validate` is asked
about exactly these.
-/

namespace OpenMplane

open StatePrograms

namespace Change

/-- The value a change is about: the old one of a deletion, else the new one. -/
def ownParam (change : Change) : Option YangParam :=
  match change.oper with
  | .deleted => change.oldVal.map SrVal.toParam
  | _ => change.newVal.map SrVal.toParam

end Change

namespace HandlerCallback

variable {σ : Type}

/-- A parameter with a non-empty string form. -/
def shown (param : Option YangParam) : Option YangParam :=
  param.filter fun param => decide (YangParamUtils.toString param ≠ "")

/-- The values of the created, modified and moved changes, in event order. -/
def newValues (changes : List Change) : List YangParam :=
  (changes.filter fun change => decide (change.oper ≠ .deleted)).filterMap
    fun change => shown change.ownParam

/-- The values of the deleted changes, in event order. -/
def deletedValues (changes : List Change) : List YangParam :=
  (changes.filter fun change => decide (change.oper = .deleted)).filterMap
    fun change => shown change.ownParam

/-- A handler whose `validate` writes down what it is asked and gives a fixed
answer. -/
def recorder (answer : SrError) : Hooks (List (List YangParam × List YangParam)) where
  valueChange _ _ _ := pure ()
  paramDelete _ _ := pure ()
  validate params deletedParams := do
    modify fun asked => asked ++ [(params, deletedParams)]
    return answer

/-- The event is validated once, on its new and its deleted values, and
answered with the result of this validation. -/
structure ValidatedOnce (iter : ChangeIter) : Prop where
  asked : ∀ (surroundings : Surroundings) (xpath : Option String) (answer : SrError)
    (state : HandlerState (List (List YangParam × List YangParam))),
    checkPseudoReadOnly state.mReadOnlyPaths iter = .ok →
      module_change (recorder answer) surroundings iter xpath .change state =
        .ok answer { state with
          derived := state.derived ++ [(newValues iter.changes, deletedValues iter.changes)] }
  answered : ∀ (σ : Type) (hooks : Hooks σ) (surroundings : Surroundings)
    (xpath : Option String) (state : HandlerState σ) (result : SrError) (after : σ),
    checkPseudoReadOnly state.mReadOnlyPaths iter = .ok →
      hooks.validate (newValues iter.changes) (deletedValues iter.changes) state.derived =
        .ok result after →
      module_change hooks surroundings iter xpath .change state =
        .ok result { state with derived := after }

/-- Some change has a value with a non-empty string form. -/
def HasContent (changes : List Change) : Prop :=
  ∃ change ∈ changes, shown change.ownParam ≠ none

/-- A change without a value follows none with a value or one whose value has
no text: the parameter the collector still holds is not taken for its own. -/
def NoneRepeated (changes : List Change) : Prop :=
  ∀ before change after, changes = before ++ change :: after → change.ownParam = none →
    shown (before.filterMap Change.ownParam).getLast? = none

/-- The events that are validated: the iterator reaches its end, something is
not deleted, and no value is taken twice. -/
structure Collected (iter : ChangeIter) : Prop where
  ends : iter.throws = none
  somethingNew : ∃ change ∈ iter.changes, change.oper ≠ .deleted ∧ shown change.ownParam ≠ none
  noneRepeated : NoneRepeated iter.changes

section Collector

theorem shown_none : shown none = none := rfl

theorem nextParam_eq (held : Option YangParam) (change : Change) :
    nextParam held change = change.ownParam.or held := by
  obtain ⟨oper, oldVal, newVal⟩ := change
  cases oper with
  | created | modified | moved => cases newVal <;> rfl
  | deleted => cases oldVal <;> rfl

theorem changeParams_cons (held : Option YangParam) (change : Change) (changes : List Change) :
    changeParams held (change :: changes) =
      let taken := (shown (nextParam held change)).toList
      let later := changeParams (nextParam held change) changes
      if change.oper = .deleted then (later.1, taken ++ later.2)
      else (taken ++ later.1, later.2) := by
  rw [changeParams]
  cases next : nextParam held change with
  | none =>
      dsimp only
      split <;> rfl
  | some param =>
      dsimp only
      by_cases empty : YangParamUtils.toString param = ""
      · have hidden : shown (some param) = none := by
          simp [shown, Option.filter, empty]
        rw [if_pos empty, hidden]
        split <;> rfl
      · have visible : shown (some param) = some param := by
          simp [shown, Option.filter, empty]
        rw [if_neg empty, visible, ite_not]
        rfl

theorem values_cons (change : Change) (changes : List Change) :
    (newValues (change :: changes), deletedValues (change :: changes)) =
      let taken := (shown change.ownParam).toList
      if change.oper = .deleted then (newValues changes, taken ++ deletedValues changes)
      else (taken ++ newValues changes, deletedValues changes) := by
  by_cases deletion : change.oper = .deleted <;>
    cases own : shown change.ownParam <;>
    simp [newValues, deletedValues, deletion, own]

/-- The collector takes at least the values of the changes. -/
theorem values_length_le (held : Option YangParam) (changes : List Change) :
    (newValues changes).length + (deletedValues changes).length ≤
      (changeParams held changes).1.length + (changeParams held changes).2.length := by
  induction changes generalizing held with
  | nil => exact Nat.zero_le _
  | cons change changes ih =>
      have values := values_cons change changes
      have rest := ih (nextParam held change)
      have taken : (shown change.ownParam).toList.length ≤
          (shown (nextParam held change)).toList.length := by
        rw [nextParam_eq]
        cases change.ownParam with
        | none => exact Nat.zero_le _
        | some param => exact Nat.le_refl _
      rw [changeParams_cons]
      dsimp only at values ⊢
      split at values
      · rw [Prod.mk.injEq] at values
        rw [values.1, values.2, if_pos ‹_›]
        simp only [List.length_append]
        omega
      · rw [Prod.mk.injEq] at values
        rw [values.1, values.2, if_neg ‹_›]
        simp only [List.length_append]
        omega

/-- No change takes the value the collector holds from before it. -/
def FreshFrom (held : Option YangParam) : List Change → Prop
  | [] => True
  | change :: changes =>
      (change.ownParam = none → shown held = none) ∧
        FreshFrom (nextParam held change) changes

/-- The collector is right exactly when no held value is taken again. -/
theorem changeParams_eq_iff (held : Option YangParam) (changes : List Change) :
    changeParams held changes = (newValues changes, deletedValues changes) ↔
      FreshFrom held changes := by
  induction changes generalizing held with
  | nil => exact ⟨fun _ => trivial, fun _ => rfl⟩
  | cons change changes ih =>
      rw [FreshFrom, ← ih, changeParams_cons, values_cons]
      have total := values_length_le (nextParam held change) changes
      cases own : change.ownParam with
      | some param =>
          -- the change brings its own value, which is what the collector takes
          have next : nextParam held change = some param := by rw [nextParam_eq, own]; rfl
          rw [next]
          dsimp only
          split <;> simp [Prod.ext_iff]
      | none =>
          have next : nextParam held change = held := by rw [nextParam_eq, own]; rfl
          rw [next] at total ⊢
          rw [shown_none]
          cases taken : shown held with
          | none =>
              dsimp only
              split <;> simp [Prod.ext_iff]
          | some param =>
              -- the held value makes the lists longer than they should be
              dsimp only
              constructor
              · intro same
                split at same
                · have lengths := congrArg (fun lists => lists.1.length + lists.2.length) same
                  simp at lengths
                  omega
                · have lengths := congrArg (fun lists => lists.1.length + lists.2.length) same
                  simp at lengths
                  omega
              · intro fresh
                have impossible := fresh.1 rfl
                contradiction

theorem freshFrom_iff (held : Option YangParam) (changes : List Change) :
    FreshFrom held changes ↔
      ∀ before change after, changes = before ++ change :: after → change.ownParam = none →
        shown ((before.filterMap Change.ownParam).getLast?.or held) = none := by
  induction changes generalizing held with
  | nil => simp [FreshFrom]
  | cons first changes ih =>
      rw [FreshFrom, ih]
      have last : ∀ before : List Change,
          ((first :: before).filterMap Change.ownParam).getLast?.or held =
            (before.filterMap Change.ownParam).getLast?.or (nextParam held first) := by
        intro before
        rw [nextParam_eq]
        cases own : first.ownParam with
        | none => simp [own]
        | some param =>
            rw [List.filterMap_cons_some own, List.getLast?_cons]
            cases (before.filterMap Change.ownParam).getLast? <;> rfl
      constructor
      · rintro ⟨fresh, later⟩ before change after split noValue
        cases before with
        | nil =>
            obtain ⟨rfl, rfl⟩ := List.cons.inj split
            exact fresh noValue
        | cons head before =>
            obtain ⟨rfl, rest⟩ := List.cons.inj split
            rw [last]
            exact later before change after rest noValue
      · intro fresh
        refine ⟨fresh [] first changes rfl, ?_⟩
        intro before change after split noValue
        rw [← last]
        exact fresh (first :: before) change after (by rw [split]; rfl) noValue

theorem changeParams_none_eq_iff (changes : List Change) :
    changeParams none changes = (newValues changes, deletedValues changes) ↔
      NoneRepeated changes := by
  rw [changeParams_eq_iff, freshFrom_iff]
  simp only [Option.or_none]
  rfl

theorem newValues_ne_nil_iff (changes : List Change) :
    newValues changes ≠ [] ↔
      ∃ change ∈ changes, change.oper ≠ .deleted ∧ shown change.ownParam ≠ none := by
  induction changes with
  | nil => simp [newValues]
  | cons change changes ih =>
      have values := values_cons change changes
      simp only [List.exists_mem_cons_iff, ← ih]
      by_cases deletion : change.oper = .deleted
      · rw [if_pos deletion, Prod.mk.injEq] at values
        rw [values.1]
        simp [deletion]
      · rw [if_neg deletion, Prod.mk.injEq] at values
        rw [values.1]
        cases shown change.ownParam <;> simp [deletion]

end Collector

section Event

variable {hooks : Hooks σ} {iter : ChangeIter}

theorem module_change_change (surroundings : Surroundings) (xpath : Option String)
    {state : HandlerState σ}
    (allowed : checkPseudoReadOnly state.mReadOnlyPaths iter = .ok) :
    module_change hooks surroundings iter xpath .change state =
      handleChangeEvent hooks iter state := by
  dsimp only [module_change]
  rw [bind_ok (get_apply state), allowed]
  rfl

theorem recorder_validate (answer : SrError) (params deletedParams : List YangParam)
    (asked : List (List YangParam × List YangParam)) :
    (recorder answer).validate params deletedParams asked =
      .ok answer (asked ++ [(params, deletedParams)]) := rfl

theorem handleChangeEvent_of_collected (collected : Collected iter) {state : HandlerState σ}
    {result : SrError} {after : σ}
    (validated : hooks.validate (newValues iter.changes) (deletedValues iter.changes)
      state.derived = .ok result after) :
    handleChangeEvent hooks iter state = .ok result { state with derived := after } := by
  have params := (changeParams_none_eq_iff iter.changes).mpr collected.noneRepeated
  have nonempty := (newValues_ne_nil_iff iter.changes).mpr collected.somethingNew
  have call : onDerived (hooks.validate (newValues iter.changes) (deletedValues iter.changes))
      state = .ok result { state with derived := after } := focus_ok derived validated
  unfold handleChangeEvent
  rw [collected.ends, params]
  dsimp only
  rw [if_neg nonempty, call]

theorem collected_of_recorded {answer : SrError}
    {state : HandlerState (List (List YangParam × List YangParam))}
    (recorded : handleChangeEvent (recorder answer) iter state = .ok answer { state with
      derived := state.derived ++ [(newValues iter.changes, deletedValues iter.changes)] }) :
    Collected iter := by
  have unchanged : ∀ {result : SrError},
      (EStateM.Result.ok (ε := StdException) result state) ≠ .ok answer { state with
        derived := state.derived ++ [(newValues iter.changes, deletedValues iter.changes)] } := by
    intro result same
    injection same with _ same
    have lengths := congrArg (fun state => state.derived.length) same
    simp at lengths
  unfold handleChangeEvent at recorded
  cases ends : iter.throws with
  | some exception =>
      rw [ends] at recorded
      exact absurd recorded unchanged
  | none =>
      rw [ends] at recorded
      dsimp only at recorded
      split at recorded
      · exact absurd recorded unchanged
      · next nonempty =>
        have call : onDerived ((recorder answer).validate (changeParams none iter.changes).1
            (changeParams none iter.changes).2) state = .ok answer { state with
              derived := state.derived ++ [changeParams none iter.changes] } :=
          focus_ok derived (recorder_validate answer _ _ state.derived)
        rw [call] at recorded
        injection recorded with _ same
        have logs := congrArg HandlerState.derived same
        have params : changeParams none iter.changes =
            (newValues iter.changes, deletedValues iter.changes) := by
          simpa using logs
        rw [params] at nonempty
        exact ⟨ends, (newValues_ne_nil_iff _).mp nonempty,
          (changeParams_none_eq_iff _).mp params⟩

end Event

/-- A recorder that has not been asked yet. -/
def unasked : HandlerState (List (List YangParam × List YangParam)) where
  derived := []
  mReadOnlyPaths := []
  persist := YangPersist.savedOnce "/m:a" "1"
  file := none

/-- The events whose transaction is validated as a whole. -/
theorem validatedOnce_iff (iter : ChangeIter) : ValidatedOnce iter ↔ Collected iter := by
  constructor
  · intro validated
    have allowed : checkPseudoReadOnly unasked.mReadOnlyPaths iter = .ok := rfl
    have asked := validated.asked ⟨⟨fun _ => none⟩, true⟩ none .ok unasked allowed
    rw [module_change_change _ _ allowed] at asked
    exact collected_of_recorded asked
  · intro collected
    constructor
    · intro surroundings xpath answer state allowed
      rw [module_change_change surroundings xpath allowed]
      exact handleChangeEvent_of_collected collected (recorder_validate answer _ _ _)
    · intro σ hooks surroundings xpath state result after allowed validated
      rw [module_change_change surroundings xpath allowed]
      exact handleChangeEvent_of_collected collected validated

def leafValue (xpath text : String) : SrVal where
  xpath := xpath
  data := .string text
  valToString := xpath ++ " = " ++ text

/-- A transaction that only deletes. -/
def deletionEvent : ChangeIter where
  changes := [⟨.deleted, some (leafValue "/m:b" "3"), none⟩]
  throws := none

/-- Deletions alone are accepted without a validation. -/
theorem deletions_are_not_validated :
    ¬ ∀ iter : ChangeIter, HasContent iter.changes → ValidatedOnce iter := by
  intro always
  have validated := always deletionEvent ⟨_, List.mem_cons_self, by decide⟩
  have asked := validated.asked ⟨⟨fun _ => none⟩, true⟩ none .ok unasked rfl
  injection asked with _ same
  have lengths := congrArg (fun state => state.derived.length) same
  simp at lengths

end HandlerCallback

end OpenMplane
