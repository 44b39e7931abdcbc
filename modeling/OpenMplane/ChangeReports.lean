import Mathlib.Data.List.Destutter

/-!
# Reports of changes

A system holds a value and keeps a log.  When every step adds to the log the
value it leaves behind, if that differs from the value it found, the log of a
run is the history of the value without repetitions.
-/

namespace ChangeReports

section Destutter

variable {α : Type*} [DecidableEq α]

theorem destutter'_eq_cons_tail (first : α) (values : List α) :
    values.destutter' (· ≠ ·) first = first :: (values.destutter' (· ≠ ·) first).tail := by
  induction values with
  | nil => rfl
  | cons value values ih =>
      by_cases differs : first ≠ value
      · rw [List.destutter'_cons_pos values differs, List.tail_cons]
      · rw [List.destutter'_cons_neg values differs]
        exact ih

theorem getLast?_destutter' (first : α) (values : List α) :
    (values.destutter' (· ≠ ·) first).getLast? = (first :: values).getLast? := by
  induction values generalizing first with
  | nil => rfl
  | cons value values ih =>
      rw [List.getLast?_cons_cons]
      by_cases differs : first ≠ value
      · rw [List.destutter'_cons_pos values differs, destutter'_eq_cons_tail,
          List.getLast?_cons_cons, ← destutter'_eq_cons_tail]
        exact ih value
      · obtain rfl := not_not.mp differs
        rw [List.destutter'_cons_neg values differs]
        exact ih first

end Destutter

variable {σ ι α : Type*} (held : σ → α) (log : σ → List α) (step : σ → ι → σ)

/-- The values held after each input of a run. -/
def history : σ → List ι → List α
  | _, [] => []
  | state, input :: inputs => held (step state input) :: history (step state input) inputs

theorem getLast?_history (state : σ) (inputs : List ι) :
    (held state :: history held step state inputs).getLast? =
      some (held (inputs.foldl step state)) := by
  induction inputs generalizing state with
  | nil => rfl
  | cons input inputs ih =>
      rw [history, List.getLast?_cons_cons]
      exact ih (step state input)

variable [DecidableEq α]

/-- The log grows by the value held afterwards, if it is a new one. -/
def Reports (before after : σ) : Prop :=
  log after = log before ++ if held before ≠ held after then [held after] else []

variable {held log step}

/-- The log of a run is the history of the value without repetitions. -/
theorem log_foldl (reports : ∀ state input, Reports held log state (step state input))
    (state : σ) (inputs : List ι) :
    log (inputs.foldl step state) = log state ++
      ((history held step state inputs).destutter' (· ≠ ·) (held state)).tail := by
  induction inputs generalizing state with
  | nil => simp [history]
  | cons input inputs ih =>
      have reported := reports state input
      rw [List.foldl_cons, ih, history, reported]
      by_cases differs : held state ≠ held (step state input)
      · rw [if_pos differs, List.destutter'_cons_pos _ differs, List.tail_cons, List.append_assoc,
          List.singleton_append, ← destutter'_eq_cons_tail]
      · rw [if_neg differs, List.destutter'_cons_neg _ differs, List.append_nil,
          ← not_not.mp differs]

end ChangeReports
