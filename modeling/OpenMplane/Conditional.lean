import OpenMplane.GuardedRuns
import Mathlib.Logic.Function.Basic

/-!
# The condition variable with its flag

`Conditional` of `common/task`: a mutex, a POSIX condition variable and a flag.
A thread in one of its calls goes through the places of `Place`; every step is
what one thread does between two points at which another may run.  A thread
blocked in `pthread_cond_wait` or `pthread_cond_timedwait` may be woken by a
signal, for no reason, or, when timed, by its timer, and then takes the mutex
again before it goes on, so the flag may have been set since the timer expired.

The wait loop clears the flag before it looks at the status, so that a wait
whose timer expired before another thread set the flag consumes the signal and
reports a timeout.
-/

namespace OpenMplane

/-- The status `pthread_cond_timedwait` returns, 0 or `ETIMEDOUT`. -/
inductive WaitStatus
  | ok
  | ETIMEDOUT
  deriving DecidableEq, Repr

namespace Conditional

/-- A call on the conditional: `signal()` under a `Lock`, `clear()`, `wait()`
and `wait(timeout)`. -/
inductive Call
  | signal
  | clear
  | wait
  | timedWait
  deriving DecidableEq, Repr

namespace Call

def IsWait (call : Call) : Prop := call = wait ∨ call = timedWait

instance (call : Call) : Decidable call.IsWait :=
  inferInstanceAs (Decidable (_ ∨ _))

end Call

/-- Where a thread is. -/
inductive Place
  | idle
  -- before `lock()` returns
  | locking (call : Call)
  -- before `condFlag = true`, and before `pthread_cond_signal`
  | setting
  | notifying
  -- at the condition of the wait loop, blocked, and woken without the mutex
  | testing (call : Call) (stat : WaitStatus)
  | asleep (call : Call)
  | relocking (call : Call) (stat : WaitStatus)
  -- before `condFlag = false`, and before `unlock()` with the result of a wait
  | clearing (call : Call) (stat : WaitStatus)
  | unlocking (result : Option Bool)
  deriving DecidableEq, Repr

namespace Place

/-- Between taking the mutex and releasing it. -/
def Inside : Place → Prop
  | setting | notifying | testing .. | clearing .. | unlocking _ => True
  | idle | locking _ | asleep _ | relocking .. => False

/-- In a wait whose timer has expired. -/
def TimedOut : Place → Prop
  | testing _ stat | relocking _ stat | clearing _ stat => stat = .ETIMEDOUT
  | unlocking result => result = some false
  | idle | locking _ | setting | notifying | asleep _ => False

/-- In a call of `wait()` or `wait(timeout)`. -/
def InWait : Place → Prop
  | locking call | testing call _ | asleep call | relocking call _ | clearing call _ =>
      call.IsWait
  | unlocking result => result.isSome
  | idle | setting | notifying => False

end Place

end Conditional

/-- The mutex with its owner, the flag, and where every thread is. -/
structure Conditional (Thread : Type) where
  mutex : Option Thread
  condFlag : Bool
  place : Thread → Conditional.Place

namespace Conditional

/-- What a thread does next: call, take the free mutex, go on with the mutex in
hand, signal the condition variable and wake a thread, or be woken. -/
inductive Action (Thread : Type)
  | call (call : Call)
  | acquire
  | proceed
  | notify (woken : Option Thread)
  | wake (stat : WaitStatus)
  deriving DecidableEq, Repr

abbrev Step (Thread : Type) := Thread × Action Thread

variable {Thread : Type}

def initial : Conditional Thread := ⟨none, false, fun _ => .idle⟩

variable [DecidableEq Thread]

def move (state : Conditional Thread) (thread : Thread) (place : Place) : Conditional Thread :=
  { state with place := Function.update state.place thread place }

/-- Where the mutex is waited for, and where a thread is once it has it. -/
def Place.entered : Place → Option Place
  | .locking .signal => some .setting
  | .locking .clear => some (.clearing .clear .ok)
  | .locking .wait => some (.testing .wait .ok)
  | .locking .timedWait => some (.testing .timedWait .ok)
  | .relocking call stat => some (.testing call stat)
  | _ => none

/-- `wait()` returns as signalled; `wait(timeout)` looks at the status. -/
def Call.result (call : Call) (stat : WaitStatus) : Option Bool :=
  if call.IsWait then some (stat ≠ .ETIMEDOUT) else none

/-- What holding the mutex the thread does. -/
def proceed (state : Conditional Thread) (thread : Thread) : Conditional Thread :=
  match state.place thread with
  | .setting => { state with condFlag := true }.move thread .notifying
  | .testing call stat =>
      if !state.condFlag && stat != .ETIMEDOUT then
        { state with mutex := none }.move thread (.asleep call)
      else state.move thread (.clearing call stat)
  | .clearing call stat =>
      { state with condFlag := false }.move thread (.unlocking (call.result stat))
  | .unlocking _ => { state with mutex := none }.move thread .idle
  | _ => state

/-- A woken thread has still to take the mutex. -/
def wake (state : Conditional Thread) (thread : Thread) (stat : WaitStatus) :
    Conditional Thread :=
  match state.place thread with
  | .asleep call => state.move thread (.relocking call stat)
  | _ => state

def next (state : Conditional Thread) : Step Thread → Conditional Thread
  | (thread, .call call) => state.move thread (.locking call)
  | (thread, .acquire) =>
      match (state.place thread).entered with
      | some place => { state with mutex := some thread }.move thread place
      | none => state
  | (thread, .proceed) => state.proceed thread
  | (thread, .notify woken) =>
      match woken with
      | some sleeper => (state.move thread (.unlocking none)).wake sleeper .ok
      | none => state.move thread (.unlocking none)
  | (thread, .wake stat) => state.wake thread stat

def Place.IsAsleep : Place → Prop
  | .asleep _ => True
  | _ => False

/-- A timer wakes a timed wait only. -/
def Place.WokenBy (stat : WaitStatus) : Place → Prop
  | .asleep call => stat = .ETIMEDOUT → call = .timedWait
  | _ => False

/-- The steps the threads and the library can take.  `pthread_cond_signal` wakes
a blocked thread when there is one. -/
def Enabled (state : Conditional Thread) : Step Thread → Prop
  | (thread, .call _) => state.place thread = .idle
  | (thread, .acquire) => state.mutex = none ∧ (state.place thread).entered ≠ none
  | (thread, .proceed) =>
      (state.place thread).Inside ∧ state.place thread ≠ .notifying
  | (thread, .notify woken) =>
      state.place thread = .notifying ∧
        match woken with
        | some sleeper => (state.place sleeper).IsAsleep
        | none => ∀ other, ¬ (state.place other).IsAsleep
  | (thread, .wake stat) => (state.place thread).WokenBy stat

inductive Effect (state : Conditional Thread) : Step Thread → Conditional Thread → Prop
  | call {thread} (call) (idle : state.place thread = .idle) :
      Effect state (thread, .call call) (state.move thread (.locking call))
  | acquire {thread place} (free : state.mutex = none)
      (waits : (state.place thread).entered = some place) :
      Effect state (thread, .acquire) ({ state with mutex := some thread }.move thread place)
  | set {thread} (here : state.place thread = .setting) :
      Effect state (thread, .proceed) ({ state with condFlag := true }.move thread .notifying)
  | sleep {thread call} (here : state.place thread = .testing call .ok)
      (unset : state.condFlag = false) :
      Effect state (thread, .proceed) ({ state with mutex := none }.move thread (.asleep call))
  | leave {thread call stat} (here : state.place thread = .testing call stat)
      (ends : state.condFlag = true ∨ stat = .ETIMEDOUT) :
      Effect state (thread, .proceed) (state.move thread (.clearing call stat))
  | clear {thread call stat} (here : state.place thread = .clearing call stat) :
      Effect state (thread, .proceed)
        ({ state with condFlag := false }.move thread (.unlocking (call.result stat)))
  | unlock {thread result} (here : state.place thread = .unlocking result) :
      Effect state (thread, .proceed) ({ state with mutex := none }.move thread .idle)
  | notifyNone {thread} (here : state.place thread = .notifying)
      (nobody : ∀ other, ¬ (state.place other).IsAsleep) :
      Effect state (thread, .notify none) (state.move thread (.unlocking none))
  | notify {thread sleeper call} (here : state.place thread = .notifying)
      (asleep : state.place sleeper = .asleep call) :
      Effect state (thread, .notify (some sleeper))
        ((state.move thread (.unlocking none)).move sleeper (.relocking call .ok))
  | wake {thread call stat} (asleep : state.place thread = .asleep call)
      (timed : stat = .ETIMEDOUT → call = .timedWait) :
      Effect state (thread, .wake stat) (state.move thread (.relocking call stat))

@[simp]
theorem move_place (state : Conditional Thread) (thread other : Thread) (place : Place) :
    (state.move thread place).place other =
      if other = thread then place else state.place other := by
  by_cases same : other = thread
  · subst same
    simp [move]
  · simp [move, same]

@[simp]
theorem move_mutex (state : Conditional Thread) (thread : Thread) (place : Place) :
    (state.move thread place).mutex = state.mutex :=
  rfl

@[simp]
theorem move_condFlag (state : Conditional Thread) (thread : Thread) (place : Place) :
    (state.move thread place).condFlag = state.condFlag :=
  rfl

theorem effect_proceed {state : Conditional Thread} {thread : Thread}
    (enabled : Enabled state (thread, .proceed)) :
    Effect state (thread, .proceed) (state.proceed thread) := by
  obtain ⟨inside, awake⟩ := enabled
  cases here : state.place thread with
  | idle | locking | asleep | relocking => simp [here, Place.Inside] at inside
  | notifying => exact absurd here awake
  | setting =>
      simp only [proceed, here]
      exact .set here
  | clearing call stat =>
      simp only [proceed, here]
      exact .clear here
  | unlocking result =>
      simp only [proceed, here]
      exact .unlock here
  | testing call stat =>
      simp only [proceed, here]
      split_ifs with continues
      · obtain ⟨unset, waits⟩ : state.condFlag = false ∧ stat ≠ .ETIMEDOUT := by
          simpa using continues
        obtain rfl : stat = .ok := by
          cases stat with
          | ok => rfl
          | ETIMEDOUT => exact absurd rfl waits
        exact .sleep here unset
      · refine .leave here ?_
        cases flag : state.condFlag with
        | true => exact Or.inl rfl
        | false =>
            have : ¬ stat ≠ .ETIMEDOUT := by simpa [flag] using continues
            exact Or.inr (not_not.mp this)

theorem effect_of_enabled {state : Conditional Thread} {step : Step Thread}
    (enabled : Enabled state step) : Effect state step (next state step) := by
  obtain ⟨thread, action⟩ := step
  cases action with
  | call call => exact .call call enabled
  | acquire =>
      obtain ⟨free, waits⟩ := enabled
      obtain ⟨place, waits⟩ := Option.ne_none_iff_exists'.mp waits
      simp only [next, waits]
      exact .acquire free waits
  | proceed => exact effect_proceed enabled
  | notify woken =>
      obtain ⟨here, wakes⟩ := enabled
      cases woken with
      | none => exact .notifyNone here wakes
      | some sleeper =>
          cases asleep : state.place sleeper with
          | asleep call =>
              have other : sleeper ≠ thread := by
                rintro rfl
                simp [here] at asleep
              simp only [next, Conditional.wake, move_place, if_neg other, asleep]
              exact .notify here asleep
          | idle | locking | setting | notifying | testing | relocking | clearing
          | unlocking => simp [asleep, Place.IsAsleep] at wakes
  | wake stat =>
      cases asleep : state.place thread with
      | asleep call =>
          simp only [Enabled, asleep, Place.WokenBy] at enabled
          simp only [next, Conditional.wake, asleep]
          exact .wake asleep enabled
      | idle | locking | setting | notifying | testing | relocking | clearing | unlocking =>
          simp [Enabled, asleep, Place.WokenBy] at enabled

end Conditional

end OpenMplane
