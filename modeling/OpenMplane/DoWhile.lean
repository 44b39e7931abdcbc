import Mathlib.Tactic.TypeStar

/-!
# Loops that run while a condition holds

The body of a `do … while` loop takes the variables to their next values or
fails.  A loop whose body makes a measure smaller each time it is to go on
ends, and it fails only as the body does.
-/

namespace DoWhile

variable {σ ε : Type*}

/-- The loop, for at most so many passes; nothing when it is not at its end by then. -/
def run (body : σ → Except ε σ) (again : σ → Bool) : Nat → σ → Option (Except ε σ)
  | 0, _ => none
  | passes + 1, values =>
      match body values with
      | .error failure => some (.error failure)
      | .ok after => if again after then run body again passes after else some (.ok after)

variable {body : σ → Except ε σ} {again : σ → Bool}

theorem run_error {values : σ} {failure : ε} (fails : body values = .error failure)
    (passes : Nat) : run body again (passes + 1) values = some (.error failure) := by
  rw [run, fails]

theorem run_ok {values after : σ} (goes : body values = .ok after) (passes : Nat) :
    run body again (passes + 1) values =
      if again after then run body again passes after else some (.ok after) := by
  rw [run, goes]

/-- What a pass may do from values of a measure, when the invariant is to hold and some
failures are allowed. -/
def Decreases (allowed : ε → Prop) (invariant : σ → Prop) (measure : σ → Nat) (again : σ → Bool)
    (before : Nat) : Except ε σ → Prop
  | .error failure => allowed failure
  | .ok after => again after = true → invariant after ∧ measure after < before

/-- A loop ends within as many passes as the measure is at its start. -/
theorem exists_outcome {allowed : ε → Prop} {invariant : σ → Prop} {measure : σ → Nat}
    (decreases : ∀ values, invariant values →
      Decreases allowed invariant measure again (measure values) (body values))
    (passes : Nat) {values : σ} (holds : invariant values)
    (bound : measure values ≤ passes) :
    ∃ outcome, run body again (passes + 1) values = some outcome ∧
      ∀ failure, outcome = .error failure → allowed failure := by
  induction passes generalizing values with
  | zero =>
      have pass := decreases values holds
      cases result : body values with
      | error failure =>
          rw [result] at pass
          exact ⟨_, run_error result 0, fun other same => by cases same; exact pass⟩
      | ok after =>
          rw [result] at pass
          have ends : ¬ again after = true := fun more => by
            have smaller := (pass more).2
            omega
          exact ⟨.ok after, by rw [run_ok result, if_neg ends], nofun⟩
  | succ passes ih =>
      have pass := decreases values holds
      cases result : body values with
      | error failure =>
          rw [result] at pass
          exact ⟨_, run_error result _, fun other same => by cases same; exact pass⟩
      | ok after =>
          rw [result] at pass
          by_cases more : again after = true
          · obtain ⟨invariant, smaller⟩ := pass more
            obtain ⟨outcome, ends, fails⟩ := ih invariant (by omega)
            exact ⟨outcome, by rw [run_ok result, if_pos more, ends], fails⟩
          · exact ⟨.ok after, by rw [run_ok result, if_neg more], nofun⟩

/-- What an outcome meets: one thing when the body fails, another when the loop ends. -/
def Meets (fails : ε → Prop) (ends : σ → Prop) : Except ε σ → Prop
  | .error failure => fails failure
  | .ok after => ends after

/-- What a pass comes to from values of a measure. -/
def Proceeds (fails : ε → Prop) (invariant ends : σ → Prop) (measure : σ → Nat) (again : σ → Bool)
    (before : Nat) : Except ε σ → Prop
  | .error failure => fails failure
  | .ok after => if again after then invariant after ∧ measure after < before else ends after

/-- A loop comes to its end within as many passes as the measure is at its start. -/
theorem exists_end {fails : ε → Prop} {invariant ends : σ → Prop} {measure : σ → Nat}
    (proceeds : ∀ values, invariant values →
      Proceeds fails invariant ends measure again (measure values) (body values))
    (passes : Nat) {values : σ} (holds : invariant values) (bound : measure values < passes) :
    ∃ outcome, run body again passes values = some outcome ∧ Meets fails ends outcome := by
  induction passes generalizing values with
  | zero => exact absurd bound (Nat.not_lt_zero _)
  | succ passes ih =>
      have pass := proceeds values holds
      cases result : body values with
      | error failure =>
          rw [result] at pass
          exact ⟨.error failure, run_error result passes, pass⟩
      | ok after =>
          rw [result, Proceeds] at pass
          rw [run_ok result]
          by_cases more : again after = true
          · rw [if_pos more] at pass ⊢
            exact ih pass.1 (by omega)
          · rw [if_neg more] at pass ⊢
            exact ⟨.ok after, rfl, pass⟩

end DoWhile
