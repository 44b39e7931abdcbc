import OpenMplane.ConditionalSignals

/-!
# Signals that reach a wait

Under the mutex discipline a set flag can always be brought to a wait: the owner
of the mutex finishes, and the wait that heeds the flag takes it, without a new
call and without a wake-up but that of the signal.  With this no signal is lost
in a run whose signals and timers do not meet, and one is lost when they do.
-/

namespace OpenMplane

namespace Conditional

open GuardedRuns

variable {Thread : Type} [DecidableEq Thread]

section Delivery

variable {state : Conditional Thread}

/-- Goes on with what is begun: no new call, and no wake-up for no reason or by a
timer. -/
def Action.Continues : Action Thread → Prop
  | .acquire | .proceed | .notify _ => True
  | .call _ | .wake _ => False

/-- The threads, going on with what they have begun, bring a wait to return as
signalled. -/
def Delivers (state : Conditional Thread) : Prop :=
  ∃ steps, Guarded Meets next state steps ∧ NoClear state steps ∧
    (∀ step ∈ steps, step.2.Continues) ∧ returned state steps = [true]

theorem Delivers.step (step : Step Thread) (meets : Meets state step)
    (keeps : ¬ Clears state step) (continues : step.2.Continues)
    (silent : returns state step = none) (rest : Delivers (next state step)) :
    Delivers state := by
  obtain ⟨steps, guarded, noClear, allContinue, signalled⟩ := rest
  refine ⟨step :: steps, ⟨meets, guarded⟩, ⟨keeps, noClear⟩,
    List.forall_mem_cons.mpr ⟨continues, allContinue⟩, ?_⟩
  rw [returned_cons, silent, signalled]
  rfl

omit [DecidableEq Thread] in
theorem meets_proceed {thread : Thread} (inside : (state.place thread).Inside)
    (notNotifying : state.place thread ≠ .notifying) (notSetting : state.place thread ≠ .setting) :
    Meets state (thread, .proceed) :=
  ⟨⟨inside, notNotifying⟩, fun here => absurd here notSetting⟩

theorem delivers_of_returning (thread : Thread) (here : state.place thread = .unlocking (some true)) :
    Delivers state := by
  have meets : Meets state (thread, .proceed) :=
    meets_proceed (by simp [here, Place.Inside]) (by simp [here]) (by simp [here])
  exact ⟨[(thread, .proceed)], ⟨meets, trivial⟩, ⟨by simp [Clears, here], trivial⟩,
    by simp [Action.Continues], by simp [returned, observations, emitted, returns, here]⟩

theorem delivers_of_clearing (thread : Thread) {call : Call} (isWait : call.IsWait)
    (here : state.place thread = .clearing call .ok) : Delivers state := by
  have notClear : call ≠ .clear := by
    rintro rfl
    simp [Call.IsWait] at isWait
  refine .step (thread, .proceed) (meets_proceed (by simp [here, Place.Inside]) (by simp [here]) (by simp [here]))
    (by simp [Clears, here, notClear]) trivial (by simp [returns, here])
    (delivers_of_returning thread ?_)
  simp [next, proceed, here, Call.result, isWait]

theorem delivers_of_testing (thread : Thread) {call : Call} (isWait : call.IsWait)
    (flag : state.condFlag = true) (here : state.place thread = .testing call .ok) :
    Delivers state := by
  refine .step (thread, .proceed) (meets_proceed (by simp [here, Place.Inside]) (by simp [here]) (by simp [here]))
    (by simp [Clears, here]) trivial (by simp [returns, here])
    (delivers_of_clearing thread isWait ?_)
  simp [next, proceed, here, flag]

theorem delivers_of_acquire (thread : Thread) {call : Call} (isWait : call.IsWait)
    (flag : state.condFlag = true) (free : state.mutex = none)
    (waits : (state.place thread).entered = some (.testing call .ok)) : Delivers state := by
  refine .step (thread, .acquire) ⟨⟨free, by simp [waits]⟩, trivial⟩
    (by simp [Clears]) trivial rfl (delivers_of_testing thread isWait ?_ ?_)
  · simpa [next, waits] using flag
  · simp [next, waits]

/-- With the mutex free and the flag set, a wait that heeds the flag can take it. -/
theorem delivers_of_heeds (thread : Thread) (sound : Sound state) (flag : state.condFlag = true)
    (free : state.mutex = none) (heeds : (state.place thread).Heeds) : Delivers state := by
  have outside : ¬ (state.place thread).Inside := fun inside => by
    have owned := (sound.1.owner thread).mp inside
    simp [free] at owned
  cases here : state.place thread with
  | idle | setting | asleep | unlocking => simp [here, Place.Heeds] at heeds
  | notifying | testing | clearing => simp [here, Place.Inside] at outside
  | locking call =>
      rw [here] at heeds
      rcases heeds with rfl | rfl
      · exact delivers_of_acquire thread (Or.inl rfl) flag free (by rw [here]; rfl)
      · exact delivers_of_acquire thread (Or.inr rfl) flag free (by rw [here]; rfl)
  | relocking call stat =>
      rw [here] at heeds
      cases stat with
      | ok => exact delivers_of_acquire thread heeds flag free (by rw [here]; rfl)
      | ETIMEDOUT =>
          have unset := sound.2.1 thread (by rw [here]; rfl)
          simp [flag] at unset

/-- With the mutex free and the flag set, a wait in progress can return. -/
theorem delivers_of_free (waiter : Thread) (sound : Sound state) (flag : state.condFlag = true)
    (free : state.mutex = none) (inWait : (state.place waiter).InWait) : Delivers state := by
  cases here : state.place waiter with
  | idle | setting | notifying => simp [here, Place.InWait] at inWait
  | locking | testing | relocking | clearing =>
      exact delivers_of_heeds waiter sound flag free
        (by simpa [here, Place.InWait, Place.Heeds] using inWait)
  | asleep call =>
      -- the sleeper waits for the thread that heeds the flag in its place
      obtain ⟨thread, heeds⟩ := sound.2.2 flag waiter (by rw [here]; trivial)
      exact delivers_of_heeds thread sound flag free heeds
  | unlocking result =>
      have owned := (sound.1.owner waiter).mp (by rw [here]; trivial)
      simp [free] at owned

theorem delivers_of_unlocking (thread waiter : Thread) (sound : Sound state) (flag : state.condFlag = true)
    (inWait : (state.place waiter).InWait) (here : state.place thread = .unlocking none) :
    Delivers state := by
  have meets : Meets state (thread, .proceed) :=
    meets_proceed (by simp [here, Place.Inside]) (by simp [here]) (by simp [here])
  have other : waiter ≠ thread := by
    rintro rfl
    simp [here, Place.InWait] at inWait
  refine .step (thread, .proceed) meets (by simp [Clears, here]) trivial (by simp [returns, here])
    (delivers_of_free waiter (sound_step _ _ sound meets) ?_ ?_ ?_)
  · simpa [next, proceed, here] using flag
  · simp [next, proceed, here]
  · simpa [next, proceed, here, other] using inWait

theorem delivers_of_notifying (thread waiter : Thread) (sound : Sound state) (flag : state.condFlag = true)
    (inWait : (state.place waiter).InWait) (here : state.place thread = .notifying) :
    Delivers state := by
  have other : waiter ≠ thread := by
    rintro rfl
    simp [here, Place.InWait] at inWait
  by_cases sleeps : ∃ sleeper, (state.place sleeper).IsAsleep
  · obtain ⟨sleeper, asleep⟩ := sleeps
    have meets : Meets state (thread, .notify (some sleeper)) := ⟨⟨here, asleep⟩, trivial⟩
    have notified := sound_step _ _ sound meets
    refine .step _ meets (by simp [Clears]) trivial rfl ?_
    cases place : state.place sleeper with
    | asleep call =>
        have woken : next state (thread, .notify (some sleeper)) =
            (state.move thread (.unlocking none)).move sleeper (.relocking call .ok) := by
          have : sleeper ≠ thread := by
            rintro rfl
            simp [here] at place
          simp [next, Conditional.wake, this, place]
        rw [woken] at notified ⊢
        have awake : thread ≠ sleeper := by
          rintro rfl
          simp [here] at place
        refine delivers_of_unlocking thread waiter notified flag ?_
          (by simp [awake])
        rw [move_place]
        split_ifs with same
        · rw [same, place] at inWait
          exact inWait
        · simpa [other] using inWait
    | idle | locking | setting | notifying | testing | relocking | clearing | unlocking =>
        simp [place, Place.IsAsleep] at asleep
  · have meets : Meets state (thread, .notify none) :=
      ⟨⟨here, fun sleeper asleep => sleeps ⟨sleeper, asleep⟩⟩, trivial⟩
    refine .step _ meets (by simp [Clears]) trivial rfl
      (delivers_of_unlocking thread waiter
        (sound_step _ _ sound meets) flag ?_ ?_)
    · simpa [next, other] using inWait
    · simp [next]

theorem delivers_of_setting (thread waiter : Thread) (sound : Sound state) (flag : state.condFlag = true)
    (inWait : (state.place waiter).InWait) (here : state.place thread = .setting) :
    Delivers state := by
  have apart : Apart state (thread, .proceed) := fun _ other late => by
    have unset := sound.2.1 other late.timedOut
    simp [flag] at unset
  have meets : Meets state (thread, .proceed) :=
    ⟨⟨by simp [here, Place.Inside], by simp [here]⟩, apart⟩
  have other : waiter ≠ thread := by
    rintro rfl
    simp [here, Place.InWait] at inWait
  refine .step (thread, .proceed) meets (by simp [Clears, here]) trivial (by simp [returns, here])
    (delivers_of_notifying thread waiter
      (sound_step _ _ sound meets) ?_ ?_ ?_)
  · simp [next, proceed, here]
  · simpa [next, proceed, here, other] using inWait
  · simp [next, proceed, here]

/-- With the flag set and no `clear()` holding the mutex, a wait in progress can
be brought to return as signalled. -/
theorem delivers_of_flag (waiter : Thread) (sound : Sound state) (flag : state.condFlag = true)
    (noClear : ∀ thread, state.place thread ≠ .clearing .clear .ok)
    (inWait : (state.place waiter).InWait) : Delivers state := by
  cases owned : state.mutex with
  | none => exact delivers_of_free waiter sound flag owned inWait
  | some owner =>
      have inside := (sound.1.owner owner).mpr owned
      have formed := sound.1.formed owner
      have expired := sound.2.1 owner
      cases here : state.place owner with
      | idle | locking | asleep | relocking => simp [here, Place.Inside] at inside
      | setting => exact delivers_of_setting owner waiter sound flag inWait here
      | notifying => exact delivers_of_notifying owner waiter sound flag inWait here
      | testing call stat =>
          rw [here] at formed expired
          cases stat with
          | ok => exact delivers_of_testing owner formed.1 flag here
          | ETIMEDOUT => simp [flag] at expired; exact absurd rfl expired
      | clearing call stat =>
          rw [here] at formed expired
          by_cases isWait : call.IsWait
          · cases stat with
            | ok => exact delivers_of_clearing owner isWait here
            | ETIMEDOUT => simp [flag] at expired; exact absurd rfl expired
          · simp only [Place.Formed, if_neg isWait] at formed
            obtain ⟨rfl, rfl⟩ := formed
            exact absurd here (noClear owner)
      | unlocking result =>
          rw [here] at expired
          cases result with
          | none => exact delivers_of_unlocking owner waiter sound flag inWait here
          | some result =>
              cases result with
              | true => exact delivers_of_returning owner here
              | false => simp [flag] at expired; exact absurd rfl expired

end Delivery

/-- No signal is lost in a run: a wait that is to return false finds the flag
unset when it clears it, and after a signal that no clear follows the first wait
to return returns as signalled, which a wait in progress can be brought to as
long as no `clear()` holds the mutex. -/
structure NoSignalLost (steps : List (Step Thread)) : Prop where
  kept : ∀ earlier, earlier <+: steps → ∀ thread call,
    (after earlier).place thread = .clearing call .ETIMEDOUT → (after earlier).condFlag = false
  delivered : ∀ earlier signal later, steps = earlier ++ signal :: later →
    Signals (after earlier) signal → NoClear (after (earlier ++ [signal])) later →
      (returned (after (earlier ++ [signal])) later).head? ≠ some false
  answered : ∀ earlier signal later, steps = earlier ++ signal :: later →
    Signals (after earlier) signal → NoClear (after (earlier ++ [signal])) later →
      returned (after (earlier ++ [signal])) later = [] →
        ∀ waiter, ((after steps).place waiter).InWait →
          (∀ thread, (after steps).place thread ≠ .clearing .clear .ok) →
            Delivers (after steps)

theorem pending_of_signals {state : Conditional Thread} {signal : Step Thread}
    (signals : Signals state signal) : Pending (next state signal) := by
  obtain ⟨thread, action⟩ := signal
  obtain ⟨rfl, here⟩ := signals
  have here : state.place thread = .setting := here
  exact Or.inl (by simp [next, proceed, here])

theorem noSignalLost_of_apart {steps : List (Step Thread)}
    (meets : Guarded Meets next initial steps) : NoSignalLost steps := by
  have sound : ∀ {earlier later : List (Step Thread)}, steps = earlier ++ later →
      Sound (after earlier) := by
    rintro earlier later rfl
    exact meets.of_append.invariant sound_step sound_initial
  have follows : ∀ {earlier signal later}, steps = earlier ++ signal :: later →
      Signals (after earlier) signal → NoClear (after (earlier ++ [signal])) later →
        returned (after (earlier ++ [signal])) later = [] ∧ Pending (after steps) ∨
          ∃ rest, returned (after (earlier ++ [signal])) later = true :: rest := by
    rintro earlier signal later rfl signals keeps
    have split : earlier ++ signal :: later = (earlier ++ [signal]) ++ later := by simp
    have ends : after (earlier ++ signal :: later) =
        later.foldl next (after (earlier ++ [signal])) := by
      rw [split, after, List.foldl_append]
      rfl
    have reached : after (earlier ++ [signal]) = next (after earlier) signal := by
      simp [after]
    have guarded : Guarded Meets next (after (earlier ++ [signal])) later := by
      rw [split] at meets
      exact meets.rest_of_append
    have pending : Pending (after (earlier ++ [signal])) := by
      rw [reached]
      exact pending_of_signals signals
    rw [ends]
    exact pending_run (sound split) pending guarded keeps
  constructor
  · rintro earlier ⟨later, rfl⟩ thread call here
    exact (sound rfl).2.1 thread (by rw [here]; rfl)
  · intro earlier signal later splits signals keeps
    rcases follows splits signals keeps with ⟨none, -⟩ | ⟨rest, first⟩
    · simp [none]
    · simp [first]
  · intro earlier signal later splits signals keeps silent waiter inWait noClear
    obtain ⟨-, pending⟩ | ⟨rest, first⟩ := follows splits signals keeps
    · rcases pending with flag | ⟨returning, here⟩
      · have atEnd : Sound (after steps) := sound (List.append_nil steps).symm
        exact delivers_of_flag waiter atEnd flag noClear inWait
      · exact delivers_of_returning returning here
    · simp [silent] at first

section TwoThreads

/-- A thread that signals and a thread that waits. -/
inductive Role
  | signalling
  | waiting
  deriving DecidableEq, Repr

instance {property : Role → Prop} [DecidablePred property] : Decidable (∀ role, property role) :=
  decidable_of_iff (property .signalling ∧ property .waiting)
    ⟨fun both role => by cases role with
      | signalling => exact both.1
      | waiting => exact both.2, fun all => ⟨all _, all _⟩⟩

instance : DecidablePred Place.Inside
  | .setting | .notifying | .testing .. | .clearing .. | .unlocking _ => isTrue trivial
  | .idle | .locking _ | .asleep _ | .relocking .. => isFalse id

instance : DecidablePred Place.IsAsleep
  | .asleep _ => isTrue trivial
  | .idle | .locking _ | .setting | .notifying | .testing .. | .relocking .. | .clearing ..
  | .unlocking _ => isFalse id

instance (stat : WaitStatus) : DecidablePred (Place.WokenBy stat)
  | .asleep call => inferInstanceAs (Decidable (stat = .ETIMEDOUT → call = .timedWait))
  | .idle | .locking _ | .setting | .notifying | .testing .. | .relocking .. | .clearing ..
  | .unlocking _ => isFalse id

instance (state : Conditional Role) : ∀ step, Decidable (Enabled state step)
  | (thread, .call _) => inferInstanceAs (Decidable (state.place thread = .idle))
  | (thread, .acquire) =>
      inferInstanceAs (Decidable (state.mutex = none ∧ (state.place thread).entered ≠ none))
  | (thread, .proceed) =>
      inferInstanceAs (Decidable ((state.place thread).Inside ∧ state.place thread ≠ .notifying))
  | (thread, .notify (some sleeper)) => inferInstanceAs
      (Decidable (state.place thread = .notifying ∧ (state.place sleeper).IsAsleep))
  | (thread, .notify none) => inferInstanceAs
      (Decidable (state.place thread = .notifying ∧ ∀ other, ¬ (state.place other).IsAsleep))
  | (thread, .wake stat) => inferInstanceAs (Decidable ((state.place thread).WokenBy stat))

instance : DecidablePred Place.Late
  | .relocking _ .ETIMEDOUT => isTrue trivial
  | .relocking _ .ok | .idle | .locking _ | .setting | .notifying | .testing .. | .asleep _
  | .clearing .. | .unlocking _ => isFalse id

instance (state : Conditional Role) : ∀ step, Decidable (Meets state step)
  | (thread, .wake .ETIMEDOUT) => inferInstanceAs
      (Decidable (Enabled state (thread, .wake .ETIMEDOUT) ∧ state.condFlag = false))
  | (thread, .proceed) => inferInstanceAs
      (Decidable (Enabled state (thread, .proceed) ∧
        (state.place thread = .setting → ∀ other, ¬ (state.place other).Late)))
  | (thread, .call call) => inferInstanceAs (Decidable (Enabled state (thread, .call call) ∧ True))
  | (thread, .acquire) => inferInstanceAs (Decidable (Enabled state (thread, .acquire) ∧ True))
  | (thread, .notify woken) =>
      inferInstanceAs (Decidable (Enabled state (thread, .notify woken) ∧ True))
  | (thread, .wake .ok) => inferInstanceAs (Decidable (Enabled state (thread, .wake .ok) ∧ True))

def signalCall : List (Step Role) :=
  [(.signalling, .call .signal), (.signalling, .acquire), (.signalling, .proceed)]

/-- A timed wait that goes to sleep. -/
def timedWaitCall : List (Step Role) :=
  [(.waiting, .call .timedWait), (.waiting, .acquire), (.waiting, .proceed)]

/-- From taking the mutex again to the return. -/
def waitEnds : List (Step Role) :=
  [(.waiting, .acquire), (.waiting, .proceed), (.waiting, .proceed), (.waiting, .proceed)]

/-- The timer expires, the signal sets the flag, and only then does the wait take
the mutex. -/
def metTimer : List (Step Role) :=
  timedWaitCall ++ [(.waiting, .wake .ETIMEDOUT)] ++ signalCall ++
    [(.signalling, .notify none), (.signalling, .proceed)] ++ waitEnds

/-- The wait consumes the signal and returns false, and so does the next one. -/
theorem signal_is_lost :
    ¬ (∀ steps : List (Step Role), Guarded Enabled next initial steps → NoSignalLost steps) ∧
      Guarded Enabled next initial (metTimer ++ timedWaitCall ++
        [(.waiting, .wake .ETIMEDOUT)] ++ waitEnds) ∧
      returned initial (metTimer ++ timedWaitCall ++
        [(.waiting, .wake .ETIMEDOUT)] ++ waitEnds) = [false, false] := by
  refine ⟨fun always => ?_, by decide, by decide⟩
  have run : Guarded Enabled next initial metTimer := by decide
  have found := (always metTimer run).kept (metTimer.take 11) (List.take_prefix _ _) .waiting
    .timedWait (by decide)
  exact absurd found (by decide)

/-- A signal that wakes a timed wait. -/
def signalledWait : List (Step Role) :=
  timedWaitCall ++ signalCall ++
    [(.signalling, .notify (some .waiting)), (.signalling, .proceed)] ++ waitEnds

theorem noSignalLost_signalledWait :
    Guarded Meets next initial signalledWait ∧ NoSignalLost signalledWait :=
  ⟨by decide, noSignalLost_of_apart (by decide)⟩

end TwoThreads

end Conditional

end OpenMplane
