import OpenMplane.HandlerCallback

/-!
# Read-only paths

A CHANGE event is refused before the handler validates it when a change touches
a path that the handler declares read-only.  `checkPseudoReadOnly` reads one
value of each change, as far as the iterator gets.  This file says which events
it refuses, and when these are the events with a protected change.
-/

namespace OpenMplane

open StatePrograms

namespace HandlerCallback

/-- The changes of an event.  The iterator over them may throw after it has
delivered some. -/
structure ChangeEvent where
  changes : List Change
  throwsAfter : Option (Nat × StdException)

def ChangeEvent.iter (event : ChangeEvent) : ChangeIter :=
  match event.throwsAfter with
  | none => ⟨event.changes, none⟩
  | some (delivered, exception) => ⟨event.changes.take delivered, some exception⟩

theorem ChangeEvent.mem_of_mem_iter {event : ChangeEvent} {change : Change}
    (delivered : change ∈ event.iter.changes) : change ∈ event.changes := by
  unfold iter at delivered
  cases stop : event.throwsAfter with
  | none =>
      rw [stop] at delivered
      exact delivered
  | some entry =>
      rw [stop] at delivered
      exact List.mem_of_mem_take delivered

section Paths

variable (readOnlyPaths : List String)

/-- Whether a path lies under a read-only one. -/
def readOnly (path : String) : Bool :=
  readOnlyPaths.any fun readOnlyPath => startsWith path readOnlyPath

/-- The paths of the values a change is about: the new one of a creation, the
old one of a deletion or a modification, either of a move. -/
def ownPaths (change : Change) : List String :=
  let values := match change.oper with
    | .created => change.newVal.toList
    | .deleted | .modified => change.oldVal.toList
    | .moved => change.oldVal.toList ++ change.newVal.toList
  values.map SrVal.xpath

/-- The change is about a value under a read-only path. -/
def Protected (change : Change) : Prop :=
  ∃ path ∈ ownPaths change, readOnly readOnlyPaths path = true

instance (change : Change) : Decidable (Protected readOnlyPaths change) :=
  inferInstanceAs (Decidable (∃ path ∈ ownPaths change, readOnly readOnlyPaths path = true))

/-- The path that the check reads from a change, if the values it needs are
there. -/
def checkedPath (change : Change) : Option String :=
  match change.oper, change.oldVal, change.newVal with
  | .created, _, some new => some new.xpath
  | .deleted, some old, _ => some old.xpath
  | .modified, some old, some _ => some old.xpath
  | .moved, some old, some _ => some old.xpath
  | .moved, none, some new => some new.xpath
  | _, _, _ => none

/-- What the check reads from the change lies under no read-only path. -/
def Overlooked (change : Change) : Prop :=
  ∀ path ∈ checkedPath change, path = "" ∨ readOnly readOnlyPaths path = false

theorem nextValuePath_eq (valuePath : String) (change : Change) :
    nextValuePath valuePath change = (checkedPath change).getD valuePath := by
  obtain ⟨oper, oldVal, newVal⟩ := change
  cases oper <;> cases oldVal <;> cases newVal <;> rfl

theorem mem_ownPaths_of_checked {change : Change} {path : String}
    (checked : path ∈ checkedPath change) : path ∈ ownPaths change := by
  obtain ⟨oper, oldVal, newVal⟩ := change
  cases oper <;> cases oldVal <;> cases newVal <;> simp_all [checkedPath, ownPaths]

theorem protected_of_not_overlooked {change : Change}
    (seen : ¬ Overlooked readOnlyPaths change) : Protected readOnlyPaths change := by
  unfold Overlooked at seen
  push Not at seen
  obtain ⟨path, checked, -, here⟩ := seen
  exact ⟨path, mem_ownPaths_of_checked checked, by simpa using here⟩

/-- The loop refuses exactly when it reads a protected path.  A path that is kept
from an earlier change has been let through there. -/
theorem refusesReadOnly_iff {valuePath : String}
    (passed : valuePath = "" ∨ readOnly readOnlyPaths valuePath = false)
    (changes : List Change) :
    refusesReadOnly readOnlyPaths valuePath changes = true ↔
      ∃ change ∈ changes, ¬ Overlooked readOnlyPaths change := by
  induction changes generalizing valuePath with
  | nil => simp [refusesReadOnly]
  | cons change changes ih =>
      have stops : (nextValuePath valuePath change ≠ "" ∧
          readOnly readOnlyPaths (nextValuePath valuePath change) = true) ↔
          ¬ Overlooked readOnlyPaths change := by
        rw [nextValuePath_eq]
        unfold Overlooked
        cases checkedPath change with
        | none => simpa [or_iff_not_imp_left] using passed
        | some path => simp
      rw [refusesReadOnly]
      simp only [List.mem_cons, exists_eq_or_imp]
      split
      · next refused => exact iff_of_true rfl (Or.inl (stops.mp refused))
      · next accepted =>
          have overlooked := fun seen => accepted (stops.mpr seen)
          rw [or_iff_right overlooked]
          refine ih ?_
          rcases not_and_or.mp accepted with empty | free
          · exact Or.inl (not_not.mp empty)
          · exact Or.inr (eq_false_of_ne_true free)

end Paths

section Watched

variable {σ : Type} (hooks : Hooks σ)

/-- The state of a handler next to a flag. -/
def beside : Member (σ × Bool) σ where
  get := Prod.fst
  put state part := (part, state.2)
  get_put _ _ := rfl
  put_get _ := rfl
  put_put _ _ _ := rfl

/-- The hooks of a handler, with a flag that `validate` raises. -/
def watched : Hooks (σ × Bool) where
  valueChange xpath oldValue newValue := focus beside (hooks.valueChange xpath oldValue newValue)
  paramDelete xpath oldValue := focus beside (hooks.paramDelete xpath oldValue)
  validate params deletedParams := do
    modify fun state => (state.1, true)
    focus beside (hooks.validate params deletedParams)

/-- The handler with the flag down. -/
def unvalidated (state : HandlerState σ) : HandlerState (σ × Bool) :=
  { state with derived := (state.derived, false) }

/-- The event is refused, the handler is as before, and its `validate` was not
called. -/
def RefusedUnvalidated (surroundings : Surroundings) (event : ChangeEvent)
    (xpath : Option String) (state : HandlerState σ) : Prop :=
  module_change (watched hooks) surroundings event.iter xpath .change (unvalidated state) =
    .ok .validationFailed (unvalidated state)

theorem validate_watched_flag (params deletedParams : List YangParam) (state : σ × Bool) :
    (finalState ((watched hooks).validate params deletedParams state)).2 = true := by
  dsimp only [watched]
  rw [bind_ok (modify_apply _ _), finalState_focus]
  rfl

/-- Without a refusal of the read-only check, the event is accepted or
validated. -/
theorem handleChangeEvent_watched (iter : ChangeIter) (state : HandlerState σ) :
    handleChangeEvent (watched hooks) iter (unvalidated state) ≠
      .ok .validationFailed (unvalidated state) := by
  intro refused
  unfold handleChangeEvent at refused
  split at refused
  · simp at refused
  · dsimp only at refused
    split at refused
    · simp at refused
    · have flag := validate_watched_flag hooks (changeParams none iter.changes).1
        (changeParams none iter.changes).2 (state.derived, false)
      cases run : (watched hooks).validate (changeParams none iter.changes).1
          (changeParams none iter.changes).2 (unvalidated state).derived with
      | ok result after =>
          have raised : after.2 = true := by
            rw [← flag]
            exact (congrArg (fun result => (finalState result).2) run).symm
          have hook : onDerived ((watched hooks).validate _ _) (unvalidated state) = _ :=
            focus_ok derived run
          rw [hook] at refused
          simp only [EStateM.Result.ok.injEq] at refused
          have lowered : after.2 = false := congrArg (fun state => state.derived.2) refused.2
          simp [raised] at lowered
      | error exception after =>
          have hook : onDerived ((watched hooks).validate _ _) (unvalidated state) = _ :=
            focus_error derived run
          rw [hook] at refused
          simp at refused

/-- An event is refused unseen exactly when the iterator delivers a change whose
checked value is protected. -/
theorem refusedUnvalidated_iff (surroundings : Surroundings) (event : ChangeEvent)
    (xpath : Option String) (state : HandlerState σ) :
    RefusedUnvalidated hooks surroundings event xpath state ↔
      ∃ change ∈ event.iter.changes, ¬ Overlooked state.mReadOnlyPaths change := by
  have checks := refusesReadOnly_iff state.mReadOnlyPaths (Or.inl rfl) event.iter.changes
  have run : module_change (watched hooks) surroundings event.iter xpath .change
      (unvalidated state) =
        (if checkPseudoReadOnly state.mReadOnlyPaths event.iter ≠ .ok then
          pure (checkPseudoReadOnly state.mReadOnlyPaths event.iter)
        else handleChangeEvent (watched hooks) event.iter) (unvalidated state) := rfl
  have check : checkPseudoReadOnly state.mReadOnlyPaths event.iter =
      if refusesReadOnly state.mReadOnlyPaths "" event.iter.changes then .validationFailed
      else .ok := by
    unfold checkPseudoReadOnly
    by_cases none : state.mReadOnlyPaths = []
    · have passes : refusesReadOnly state.mReadOnlyPaths "" event.iter.changes ≠ true := by
        rw [ne_eq, checks, none]
        simp [Overlooked, readOnly]
      rw [if_pos none, if_neg passes]
    · rw [if_neg none]
  rw [RefusedUnvalidated, run, check, ← checks]
  by_cases refuses : refusesReadOnly state.mReadOnlyPaths "" event.iter.changes = true
  · rw [if_pos refuses]
    exact iff_of_true rfl refuses
  · rw [if_neg refuses]
    exact iff_of_false (handleChangeEvent_watched hooks event.iter state) refuses

/-- The events refused unseen are those with a protected change exactly as far as
a protected change, if there is one, is delivered and not overlooked. -/
theorem refusedUnvalidated_iff_protected_iff (surroundings : Surroundings)
    (event : ChangeEvent) (xpath : Option String) (state : HandlerState σ) :
    (RefusedUnvalidated hooks surroundings event xpath state ↔
        ∃ change ∈ event.changes, Protected state.mReadOnlyPaths change) ↔
      ((∃ change ∈ event.changes, Protected state.mReadOnlyPaths change) →
        ∃ change ∈ event.iter.changes, Protected state.mReadOnlyPaths change ∧
          ¬ Overlooked state.mReadOnlyPaths change) := by
  have seen : (∃ change ∈ event.iter.changes, ¬ Overlooked state.mReadOnlyPaths change) ↔
      ∃ change ∈ event.iter.changes, Protected state.mReadOnlyPaths change ∧
        ¬ Overlooked state.mReadOnlyPaths change := by
    refine exists_congr fun change => and_congr_right fun _ => ?_
    exact ⟨fun seen => ⟨protected_of_not_overlooked _ seen, seen⟩, And.right⟩
  rw [refusedUnvalidated_iff, seen]
  constructor
  · exact Iff.mpr
  · refine fun delivered => ⟨?_, delivered⟩
    rintro ⟨change, member, guarded, -⟩
    exact ⟨change, ChangeEvent.mem_of_mem_iter member, guarded⟩

/-- The deletion of a read-only leaf, which the iterator does not get to. -/
def unreadDeletion : ChangeEvent where
  changes := [⟨.deleted, some ⟨"/m:info/serial", .string "1", "1"⟩, none⟩]
  throwsAfter := some (0, .sysrepo)

/-- An iterator that throws lets a protected change pass. -/
theorem unread_deletion_is_accepted :
    ¬ ∀ (hooks : Hooks Unit) (surroundings : Surroundings) (event : ChangeEvent)
        (xpath : Option String) (state : HandlerState Unit),
      RefusedUnvalidated hooks surroundings event xpath state ↔
        ∃ change ∈ event.changes, Protected state.mReadOnlyPaths change := by
  intro refuses
  have guarded : ∃ change ∈ unreadDeletion.changes, Protected ["/m:info"] change := by
    decide
  have refused := (refuses ⟨fun _ _ _ => pure (), fun _ _ => pure (), fun _ _ => pure .ok⟩
    ⟨⟨fun _ => none⟩, true⟩ unreadDeletion none
    ⟨(), ["/m:info"], ⟨⟨"m", by decide⟩, false, ∅, []⟩, none⟩).mpr guarded
  rw [refusedUnvalidated_iff] at refused
  obtain ⟨change, delivered, -⟩ := refused
  simp [ChangeEvent.iter, unreadDeletion] at delivered

end Watched

end HandlerCallback

end OpenMplane
