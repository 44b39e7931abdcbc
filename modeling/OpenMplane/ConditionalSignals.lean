import OpenMplane.ConditionalOwner

/-!
# What becomes of a signal

A wait consumes the flag when it clears it.  The timer of a timed wait can
expire before a signal sets the flag, and the wait takes the mutex after it:
that wait consumes the signal and returns false.  As long as no signal and no
timer meet in this way, a wait that returns false consumed nothing, and the
first wait to return after a signal returns as signalled.
-/

namespace OpenMplane

namespace Conditional

open GuardedRuns

variable {Thread : Type} [DecidableEq Thread]

/-- The state after a run from the constructor. -/
def after (steps : List (Step Thread)) : Conditional Thread :=
  steps.foldl next initial

/-- A thread about to set the flag in `signal()`. -/
def Signals (state : Conditional Thread) (step : Step Thread) : Prop :=
  step.2 = .proceed ∧ state.place step.1 = .setting

/-- A thread about to unset the flag in `clear()`. -/
def Clears (state : Conditional Thread) (step : Step Thread) : Prop :=
  step.2 = .proceed ∧ state.place step.1 = .clearing .clear .ok

def returns (state : Conditional Thread) : Step Thread → Option Bool
  | (thread, .proceed) =>
      match state.place thread with
      | .unlocking result => result
      | _ => none
  | _ => none

/-- What the waits that return in a run returned, in their order. -/
def returned (state : Conditional Thread) (steps : List (Step Thread)) : List Bool :=
  observations next returns state steps

def NoClear (state : Conditional Thread) (steps : List (Step Thread)) : Prop :=
  Guarded (fun state step => ¬ Clears state step) next state steps

/-- Woken by its timer, and waiting for the mutex. -/
def Place.Late : Place → Prop
  | .relocking _ .ETIMEDOUT => True
  | _ => False

/-- Steps that meet no timer: no timer expires while the flag is set, and no
signal sets the flag while a wait whose timer expired waits for the mutex. -/
def Apart (state : Conditional Thread) : Step Thread → Prop
  | (_, .wake .ETIMEDOUT) => state.condFlag = false
  | (thread, .proceed) => state.place thread = .setting →
      ∀ other, ¬ (state.place other).Late
  | _ => True

/-- A wait whose timer has expired finds the flag unset. -/
def Expired (state : Conditional Thread) : Prop :=
  ∀ thread, (state.place thread).TimedOut → state.condFlag = false

theorem expired_move {state : Conditional Thread} (expired : Expired state) {thread : Thread}
    {place : Place} (timedOut : place.TimedOut → state.condFlag = false) :
    Expired (state.move thread place) := by
  intro other isTimedOut
  rw [move_place] at isTimedOut
  split_ifs at isTimedOut with same
  · exact timedOut isTimedOut
  · exact expired other isTimedOut

theorem Place.timedOut_of_entered {place entered : Place}
    (waits : place.entered = some entered) (timedOut : entered.TimedOut) : place.TimedOut := by
  cases place with
  | locking call =>
      cases call <;> obtain rfl := Option.some.inj waits <;> simp [TimedOut] at timedOut
  | relocking call stat =>
      obtain rfl := Option.some.inj waits
      exact timedOut
  | idle | setting | notifying | testing | asleep | clearing | unlocking =>
      simp [Place.entered] at waits

/-- A timed-out wait other than one waiting for the mutex holds it. -/
theorem Place.TimedOut.inside_or {place : Place} (timedOut : place.TimedOut) :
    place.Inside ∨ place.Late := by
  cases place with
  | testing | clearing | unlocking => exact Or.inl trivial
  | relocking call stat =>
      obtain rfl : stat = .ETIMEDOUT := timedOut
      exact Or.inr trivial
  | idle | locking | setting | notifying | asleep => exact timedOut.elim

theorem Place.Late.timedOut {place : Place} (late : place.Late) : place.TimedOut := by
  cases place with
  | relocking call stat =>
      cases stat with
      | ok => exact late.elim
      | ETIMEDOUT => exact rfl
  | idle | locking | setting | notifying | testing | asleep | clearing | unlocking =>
      exact late.elim

theorem expired_step {state next : Conditional Thread} {step : Step Thread}
    (consistent : Consistent state) (expired : Expired state) (apart : Apart state step)
    (effect : Effect state step next) : Expired next := by
  cases effect with
  | call call idle => exact expired_move expired False.elim
  | @acquire thread place free waits =>
      have entered : place.TimedOut → state.condFlag = false := fun timedOut =>
        expired thread (Place.timedOut_of_entered waits timedOut)
      have locked : Expired { state with mutex := some thread } := expired
      exact expired_move locked entered
  | @set thread here =>
      intro other timedOut
      exfalso
      rw [move_place] at timedOut
      split_ifs at timedOut with same
      · exact timedOut
      · rcases Place.TimedOut.inside_or timedOut with inside | late
        · exact same (consistent.eq_of_inside inside (by simp [here, Place.Inside]))
        · exact apart here other late
  | @sleep thread call here unset =>
      have unlocked : Expired { state with mutex := none } := expired
      exact expired_move unlocked False.elim
  | @leave thread call stat here ends =>
      have before := expired thread
      rw [here] at before
      exact expired_move expired before
  | clear here => exact fun _ _ => rfl
  | @unlock thread result here =>
      have unlocked : Expired { state with mutex := none } := expired
      exact expired_move unlocked False.elim
  | notifyNone here nobody => exact expired_move expired (by simp [Place.TimedOut])
  | notify here asleep =>
      exact expired_move (expired_move expired (by simp [Place.TimedOut]))
        (by simp [Place.TimedOut])
  | @wake thread call stat asleep timed =>
      refine expired_move expired fun timedOut => ?_
      obtain rfl : stat = .ETIMEDOUT := timedOut
      exact apart

/-- A signal not yet returned to a wait: the flag is set, or the wait that found
it set is about to return. -/
def Pending (state : Conditional Thread) : Prop :=
  state.condFlag = true ∨ ∃ thread, state.place thread = .unlocking (some true)

/-- A step that keeps the flag and moves a thread that is not about to return
keeps a pending signal. -/
theorem pending_move {state : Conditional Thread} (pending : Pending state) {thread : Thread}
    {place : Place} (elsewhere : state.place thread ≠ .unlocking (some true)) :
    Pending (state.move thread place) := by
  rcases pending with flag | ⟨returning, here⟩
  · exact Or.inl flag
  · have other : returning ≠ thread := by
      rintro rfl
      exact elsewhere here
    exact Or.inr ⟨returning, by simp [other, here]⟩

theorem pending_step {state next : Conditional Thread} {step : Step Thread}
    (consistent : Consistent state) (expired : Expired state) (pending : Pending state)
    (keeps : ¬ Clears state step) (effect : Effect state step next) :
    returns state step = some true ∨ returns state step = none ∧ Pending next := by
  cases effect with
  | call call idle => exact Or.inr ⟨rfl, pending_move pending (by simp [idle])⟩
  | @acquire thread place free waits =>
      have locked : Pending { state with mutex := some thread } := pending
      refine Or.inr ⟨rfl, pending_move locked fun here => ?_⟩
      have here : state.place thread = .unlocking (some true) := here
      simp [here, Place.entered] at waits
  | set here => exact Or.inr ⟨by simp [returns, here], Or.inl rfl⟩
  | @sleep thread call here unset =>
      have unlocked : Pending { state with mutex := none } := pending
      exact Or.inr ⟨by simp [returns, here], pending_move unlocked (by simp [here])⟩
  | leave here ends => exact Or.inr ⟨by simp [returns, here], pending_move pending (by simp [here])⟩
  | @clear thread call stat here =>
      refine Or.inr ⟨by simp [returns, here], ?_⟩
      have formed := consistent.formed thread
      rw [here] at formed
      by_cases isWait : call.IsWait
      · cases stat with
        | ok => exact Or.inr ⟨thread, by simp [Call.result, isWait]⟩
        | ETIMEDOUT =>
            -- the flag is unset, and the wait about to return would hold the mutex too
            have unset := expired thread (by rw [here]; rfl)
            obtain ⟨returning, about⟩ := pending.resolve_left (by simp [unset])
            have same : returning = thread := consistent.eq_of_inside
              (by simp [about, Place.Inside]) (by simp [here, Place.Inside])
            rw [same, here] at about
            simp at about
      · simp only [Place.Formed, if_neg isWait] at formed
        obtain ⟨rfl, rfl⟩ := formed
        exact absurd ⟨rfl, here⟩ keeps
  | @unlock thread result here =>
      have returning : returns state (thread, .proceed) = result := by simp [returns, here]
      rw [returning]
      cases result with
      | none =>
          have unlocked : Pending { state with mutex := none } := pending
          exact Or.inr ⟨rfl, pending_move unlocked (by simp [here])⟩
      | some result =>
          cases result with
          | true => exact Or.inl rfl
          | false =>
              have unset := expired thread (by rw [here]; rfl)
              obtain ⟨other, about⟩ := pending.resolve_left (by simp [unset])
              have same : other = thread := consistent.eq_of_inside
                (by simp [about, Place.Inside]) (by simp [here, Place.Inside])
              rw [same, here] at about
              simp at about
  | notifyNone here nobody => exact Or.inr ⟨rfl, pending_move pending (by simp [here])⟩
  | @notify thread sleeper call here asleep =>
      have other : sleeper ≠ thread := by
        rintro rfl
        simp [here] at asleep
      have notified : Pending (state.move thread (.unlocking none)) :=
        pending_move pending (by simp [here])
      exact Or.inr ⟨rfl, pending_move notified (by simp [other, asleep])⟩
  | wake asleep timed => exact Or.inr ⟨rfl, pending_move pending (by simp [asleep])⟩

/-- A step the threads can take, apart from every timer. -/
def Meets (state : Conditional Thread) (step : Step Thread) : Prop :=
  Enabled state step ∧ Apart state step

/-- What holds in every state of a run whose signals and timers do not meet. -/
def Sound (state : Conditional Thread) : Prop :=
  Consistent state ∧ Expired state ∧ Heeded state

theorem sound_step (state : Conditional Thread) (step : Step Thread) (sound : Sound state)
    (meets : Meets state step) : Sound (next state step) :=
  have effect := effect_of_enabled meets.1
  ⟨consistent_step sound.1 effect, expired_step sound.1 sound.2.1 meets.2 effect,
    heeded_step sound.1 sound.2.2 effect⟩

omit [DecidableEq Thread] in
theorem sound_initial : Sound (initial : Conditional Thread) :=
  ⟨consistent_initial, fun _ => False.elim, heeded_initial⟩

theorem returned_cons {state : Conditional Thread} {step : Step Thread}
    {steps : List (Step Thread)} :
    returned state (step :: steps) =
      (returns state step).toList ++ returned (next state step) steps :=
  rfl

/-- The first wait to return returns as signalled, and until then the signal is
pending. -/
theorem pending_run {state : Conditional Thread} {steps : List (Step Thread)}
    (sound : Sound state) (pending : Pending state) (meets : Guarded Meets next state steps)
    (keeps : NoClear state steps) :
    returned state steps = [] ∧ Pending (steps.foldl next state) ∨
      ∃ rest, returned state steps = true :: rest := by
  induction steps generalizing state with
  | nil => exact Or.inl ⟨rfl, pending⟩
  | cons step steps ih =>
      rw [returned_cons]
      rcases pending_step sound.1 sound.2.1 pending keeps.1 (effect_of_enabled meets.1.1) with
        signalled | ⟨silent, stays⟩
      · exact Or.inr ⟨_, by rw [signalled]; rfl⟩
      · rw [silent]
        exact ih (sound_step state step sound meets.1) stays meets.2 keeps.2

end Conditional

end OpenMplane
