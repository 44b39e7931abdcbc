import OpenMplane.ConditionalSignals

/-!
# The conditional as a flag

Every call on a conditional acts on its flag at one instant between its call and
its return.  Seen so, a conditional is a flag that a signal sets, a clear unsets
and a wait takes; a wait that timed out may have taken it too, unless no signal
meets a timer.  The modules of the tasks model their conditionals by these
operations.
-/

namespace OpenMplane

namespace Conditional

open GuardedRuns

variable {Thread : Type} [DecidableEq Thread]

/-- What a call does to the flag, at one instant. -/
inductive FlagOp
  | signal
  | clear
  | wait (result : Bool)
  deriving DecidableEq, Repr

namespace FlagOp

/-- A wait that returns as signalled has found the flag set; one that timed out
may have found it in any state. -/
def Enabled (flag : Bool) : FlagOp → Prop
  | .wait true => flag = true
  | .signal | .clear | .wait false => True

def next (_flag : Bool) : FlagOp → Bool
  | .signal => true
  | .clear | .wait _ => false

/-- A wait that timed out has found the flag unset. -/
def Kept (flag : Bool) : FlagOp → Prop
  | .wait false => flag = false
  | .signal | .clear | .wait true => True

end FlagOp

/-- The operation on the flag that a step completes. -/
def flagOp (state : Conditional Thread) : Step Thread → Option FlagOp
  | (thread, .proceed) =>
      match state.place thread with
      | .setting => some .signal
      | .clearing call stat => some (match call.result stat with
          | some result => .wait result
          | none => .clear)
      | _ => none
  | _ => none

theorem flagOp_matched {state : Conditional Thread} {step : Step Thread} {op : FlagOp}
    (consistent : Consistent state) (enabled : Enabled state step)
    (completes : flagOp state step = some op) :
    FlagOp.Enabled state.condFlag op ∧
      (next state step).condFlag = FlagOp.next state.condFlag op := by
  obtain ⟨thread, action⟩ := step
  cases action with
  | call | acquire | notify | wake => simp [flagOp] at completes
  | proceed =>
      cases here : state.place thread with
      | idle | locking | notifying | testing | asleep | relocking | unlocking =>
          simp [flagOp, here] at completes
      | setting =>
          simp only [flagOp, here, Option.some.injEq] at completes
          subst completes
          exact ⟨trivial, by simp [next, proceed, here, FlagOp.next]⟩
      | clearing call stat =>
          simp only [flagOp, here, Option.some.injEq] at completes
          subst completes
          by_cases isWait : call.IsWait
          · cases stat with
            | ok =>
                have flag := consistent.leaves thread call here isWait
                simp [Call.result, isWait, next, proceed, here, FlagOp.next, FlagOp.Enabled, flag]
            | ETIMEDOUT =>
                simp [Call.result, isWait, next, proceed, here, FlagOp.next, FlagOp.Enabled]
          · simp [Call.result, isWait, next, proceed, here, FlagOp.next, FlagOp.Enabled]

theorem flagOp_silent {state : Conditional Thread} {step : Step Thread}
    (enabled : Enabled state step) (silent : flagOp state step = none) :
    (next state step).condFlag = state.condFlag := by
  have effect := effect_of_enabled enabled
  generalize next state step = reached at effect
  cases effect with
  | set here | clear here => simp [flagOp, here] at silent
  | call | acquire | sleep | leave | unlock | notifyNone | notify | wake => rfl

/-- Seen from outside, the calls of a run are operations on the flag, each at one
instant between its call and its return. -/
theorem flag_simulates {steps : List (Step Thread)} (run : Guarded Enabled next initial steps) :
    Guarded FlagOp.Enabled FlagOp.next false (observations next flagOp initial steps) ∧
      (after steps).condFlag =
        (observations next flagOp initial steps).foldl FlagOp.next false := by
  have preserved : ∀ (state : Conditional Thread) step, Consistent state →
      Enabled state step → Consistent (next state step) :=
    fun _ _ consistent enabled => consistent_step consistent (effect_of_enabled enabled)
  exact run.simulates condFlag preserved
    (fun _ _ _ enabled silent => flagOp_silent enabled silent)
    (fun _ _ _ consistent enabled completes => flagOp_matched consistent enabled completes)
    consistent_initial

/-- Apart from the timers no operation on the flag loses a signal. -/
theorem flag_simulates_kept {steps : List (Step Thread)} (run : Guarded Meets next initial steps) :
    Guarded (fun flag op => FlagOp.Enabled flag op ∧ FlagOp.Kept flag op) FlagOp.next false
      (observations next flagOp initial steps) := by
  have kept : ∀ (state : Conditional Thread) step op, Sound state → Meets state step →
      flagOp state step = some op → (FlagOp.Enabled state.condFlag op ∧
        FlagOp.Kept state.condFlag op) ∧
          (next state step).condFlag = FlagOp.next state.condFlag op := by
    intro state step op sound meets completes
    obtain ⟨enabled, same⟩ := flagOp_matched sound.1 meets.1 completes
    refine ⟨⟨enabled, ?_⟩, same⟩
    obtain ⟨thread, action⟩ := step
    cases action with
    | call | acquire | notify | wake => simp [flagOp] at completes
    | proceed =>
        have expired := sound.2.1 thread
        cases here : state.place thread with
        | idle | locking | notifying | testing | asleep | relocking | unlocking =>
            simp [flagOp, here] at completes
        | setting =>
            simp only [flagOp, here, Option.some.injEq] at completes
            subst completes
            trivial
        | clearing call stat =>
            rw [here] at expired
            simp only [flagOp, here, Option.some.injEq] at completes
            subst completes
            by_cases isWait : call.IsWait
            · cases stat with
              | ok => simp [Call.result, isWait, FlagOp.Kept]
              | ETIMEDOUT => simpa [Call.result, isWait, FlagOp.Kept] using expired rfl
            · simp [Call.result, isWait, FlagOp.Kept]
  exact (run.simulates condFlag sound_step
    (fun _ _ _ meets silent => flagOp_silent meets.1 silent) kept sound_initial).1

end Conditional

end OpenMplane
