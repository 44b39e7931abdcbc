import OpenMplane.Conditional

/-!
# The owner of the conditional's mutex

Only the thread that holds the mutex is between taking and releasing it, so that
nobody else touches the flag there, and a wait leaves its loop without a timeout
only when the flag is set.  While the flag is set nobody is left asleep: some
thread is about to wake a sleeper, or a wait that is awake is on its way to the
flag.
-/

namespace OpenMplane

namespace Conditional

variable {Thread : Type} [DecidableEq Thread]

def Place.Formed : Place → Prop
  | testing call stat | relocking call stat =>
      call.IsWait ∧ (stat = .ETIMEDOUT → call = .timedWait)
  | asleep call => call.IsWait
  | clearing call stat =>
      if call.IsWait then stat = .ETIMEDOUT → call = .timedWait else call = .clear ∧ stat = .ok
  | idle | locking _ | setting | notifying | unlocking _ => True

/-- The owner of the mutex is the thread inside, and a wait leaves its loop
without a timeout only when the flag is set. -/
structure Consistent (state : Conditional Thread) : Prop where
  owner : ∀ thread, (state.place thread).Inside ↔ state.mutex = some thread
  formed : ∀ thread, (state.place thread).Formed
  leaves : ∀ thread call, state.place thread = .clearing call .ok → call.IsWait →
    state.condFlag = true

omit [DecidableEq Thread] in
theorem consistent_initial : Consistent (initial : Conditional Thread) := by
  constructor
  · simp [initial, Place.Inside]
  · simp [initial, Place.Formed]
  · simp [initial]

theorem Place.inside_of_entered {place entered : Place}
    (waits : place.entered = some entered) : entered.Inside := by
  cases place with
  | locking call =>
      cases call <;> obtain rfl := Option.some.inj waits <;> trivial
  | relocking call stat =>
      obtain rfl := Option.some.inj waits
      trivial
  | idle | setting | notifying | testing | asleep | clearing | unlocking =>
      simp [Place.entered] at waits

theorem Place.formed_of_entered {place entered : Place} (formed : place.Formed)
    (waits : place.entered = some entered) : entered.Formed := by
  cases place with
  | locking call =>
      cases call <;> obtain rfl := Option.some.inj waits <;>
        simp [Place.Formed, Call.IsWait]
  | relocking call stat =>
      obtain rfl := Option.some.inj waits
      exact formed
  | idle | setting | notifying | testing | asleep | clearing | unlocking =>
      simp [Place.entered] at waits

theorem Place.eq_clear_of_entered {place : Place} {call : Call} {stat : WaitStatus}
    (waits : place.entered = some (.clearing call stat)) : call = .clear := by
  cases place with
  | locking called =>
      cases called <;> simp [Place.entered] at waits
      exact waits.1.symm
  | relocking | idle | setting | notifying | testing | asleep | clearing | unlocking =>
      simp [Place.entered] at waits

omit [DecidableEq Thread] in
theorem Consistent.eq_of_inside {state : Conditional Thread} (consistent : Consistent state)
    {first second : Thread} (firstInside : (state.place first).Inside)
    (secondInside : (state.place second).Inside) : first = second :=
  Option.some.inj (((consistent.owner first).mp firstInside).symm.trans
    ((consistent.owner second).mp secondInside))

theorem Consistent.acquire {state : Conditional Thread} (consistent : Consistent state)
    {thread : Thread} {place : Place} (free : state.mutex = none)
    (waits : (state.place thread).entered = some place) :
    Consistent ({ state with mutex := some thread }.move thread place) := by
  have inside := Place.inside_of_entered waits
  have formed := Place.formed_of_entered (consistent.formed thread) waits
  have outside : ∀ other, ¬ (state.place other).Inside := fun other isInside => by
    have owned := (consistent.owner other).mp isInside
    simp [free] at owned
  constructor
  · intro other
    by_cases same : other = thread
    · subst same
      simpa using inside
    · have : ¬ thread = other := fun eq => same eq.symm
      simp [same, outside, this]
  · intro other
    rw [move_place]
    split_ifs with same
    · exact formed
    · exact consistent.formed other
  · intro other call here isWait
    rw [move_place] at here
    split_ifs at here with same
    · subst here
      rw [Place.eq_clear_of_entered waits] at isWait
      simp [Call.IsWait] at isWait
    · exact consistent.leaves other call here isWait

/-- A step that leaves the mutex and the flag alone. -/
theorem Consistent.move {state : Conditional Thread} (consistent : Consistent state)
    {thread : Thread} {place : Place}
    (same : place.Inside ↔ (state.place thread).Inside) (formed : place.Formed)
    (leaves : ∀ call, place = .clearing call .ok → call.IsWait → state.condFlag = true) :
    Consistent (state.move thread place) := by
  constructor
  · intro other
    rw [move_place, move_mutex]
    split_ifs with eq
    · rw [same, eq]
      exact consistent.owner thread
    · exact consistent.owner other
  · intro other
    rw [move_place]
    split_ifs with eq
    · exact formed
    · exact consistent.formed other
  · intro other call here isWait
    rw [move_place] at here
    split_ifs at here with eq
    · exact leaves call here isWait
    · exact consistent.leaves other call here isWait

theorem Consistent.release {state : Conditional Thread} (consistent : Consistent state)
    {thread : Thread} {place : Place} (inside : (state.place thread).Inside)
    (outside : ¬ place.Inside) (formed : place.Formed) :
    Consistent ({ state with mutex := none }.move thread place) := by
  constructor
  · intro other
    rw [move_place, move_mutex]
    split_ifs with eq
    · simp [outside]
    · have : ¬ (state.place other).Inside := fun isInside =>
        eq (consistent.eq_of_inside isInside inside)
      simp [this]
  · intro other
    rw [move_place]
    split_ifs with eq
    · exact formed
    · exact consistent.formed other
  · intro other call here isWait
    rw [move_place] at here
    split_ifs at here with eq
    · subst here
      exact absurd trivial outside
    · exact consistent.leaves other call here isWait

theorem Consistent.writeFlag {state : Conditional Thread} (consistent : Consistent state)
    {thread : Thread} {place : Place} (flag : Bool) (was : (state.place thread).Inside)
    (inside : place.Inside) (formed : place.Formed)
    (leaves : ∀ call, place ≠ .clearing call .ok) :
    Consistent ({ state with condFlag := flag }.move thread place) := by
  constructor
  · intro other
    rw [move_place, move_mutex]
    split_ifs with eq
    · subst eq
      exact ⟨fun _ => (consistent.owner other).mp was, fun _ => inside⟩
    · exact consistent.owner other
  · intro other
    rw [move_place]
    split_ifs with eq
    · exact formed
    · exact consistent.formed other
  · intro other call here isWait
    rw [move_place] at here
    split_ifs at here with eq
    · exact absurd here (leaves call)
    · have isInside : (state.place other).Inside := by
        have here : state.place other = _ := here
        rw [here]
        trivial
      exact absurd (consistent.eq_of_inside isInside was) eq

theorem consistent_step {state after : Conditional Thread} {step : Step Thread}
    (consistent : Consistent state) (effect : Effect state step after) : Consistent after := by
  have formedAt := consistent.formed
  cases effect with
  | call call idle =>
      exact consistent.move (by simp [idle, Place.Inside]) trivial (by simp)
  | acquire free waits => exact consistent.acquire free waits
  | set here =>
      exact consistent.writeFlag true (by simp [here, Place.Inside]) trivial trivial (by simp)
  | @sleep thread call here unset =>
      have formed := formedAt thread
      rw [here] at formed
      exact consistent.release (by simp [here, Place.Inside]) id formed.1
  | @leave thread call stat here ends =>
      have formed := formedAt thread
      rw [here] at formed
      refine consistent.move (by simp [here, Place.Inside]) ?_ ?_
      · simp only [Place.Formed, if_pos formed.1]
        exact formed.2
      · rintro other isClearing -
        obtain ⟨rfl, rfl⟩ := Place.clearing.inj isClearing
        exact ends.resolve_right (by simp)
  | clear here =>
      exact consistent.writeFlag false (by simp [here, Place.Inside]) trivial trivial (by simp)
  | unlock here => exact consistent.release (by simp [here, Place.Inside]) id trivial
  | notifyNone here nobody =>
      exact consistent.move (by simp [here, Place.Inside]) trivial (by simp)
  | @notify thread sleeper call here asleep =>
      have formed := formedAt sleeper
      rw [asleep] at formed
      have other : sleeper ≠ thread := by
        rintro rfl
        simp [here] at asleep
      have notified : Consistent (state.move thread (.unlocking none)) :=
        consistent.move (by simp [here, Place.Inside]) trivial (by simp)
      exact notified.move (by simp [other, asleep, Place.Inside]) ⟨formed, by simp⟩ (by simp)
  | @wake thread call stat asleep timed =>
      have formed := formedAt thread
      rw [asleep] at formed
      exact consistent.move (by simp [asleep, Place.Inside]) ⟨formed, timed⟩ (by simp)

/-- About to wake a sleeper, or in a wait on its way to the flag. -/
def Place.Heeds : Place → Prop
  | notifying => True
  | locking call | testing call _ | relocking call _ | clearing call _ => call.IsWait
  | idle | setting | asleep _ | unlocking _ => False

/-- Nobody sleeps on a set flag unless some other thread heeds it. -/
def Heeded (state : Conditional Thread) : Prop :=
  state.condFlag = true → ∀ sleeper, (state.place sleeper).IsAsleep →
    ∃ thread, (state.place thread).Heeds

omit [DecidableEq Thread] in
theorem heeded_initial : Heeded (initial : Conditional Thread) := by
  simp [Heeded, initial]

omit [DecidableEq Thread] in
theorem heeded_of_unset {state : Conditional Thread} (unset : state.condFlag = false) :
    Heeded state := by
  simp [Heeded, unset]

omit [DecidableEq Thread] in
theorem heeded_of_heeds {state : Conditional Thread} (thread : Thread)
    (heeds : (state.place thread).Heeds) : Heeded state :=
  fun _ _ _ => ⟨thread, heeds⟩

/-- A step that puts nobody to sleep and lets nobody stop heeding. -/
theorem Heeded.move {state : Conditional Thread} (heeded : Heeded state) {thread : Thread}
    {place : Place} (awake : ¬ place.IsAsleep)
    (heeds : (state.place thread).Heeds → place.Heeds) : Heeded (state.move thread place) := by
  intro flag sleeper asleep
  rw [move_place] at asleep
  split_ifs at asleep with same
  · exact absurd asleep awake
  · obtain ⟨other, otherHeeds⟩ := heeded flag sleeper asleep
    refine ⟨other, ?_⟩
    rw [move_place]
    split_ifs with eq
    · subst eq
      exact heeds otherHeeds
    · exact otherHeeds

theorem Place.heeds_of_entered {place entered : Place} (waits : place.entered = some entered)
    (heeds : place.Heeds) : entered.Heeds := by
  cases place with
  | locking call =>
      rcases heeds with rfl | rfl <;> obtain rfl := Option.some.inj waits <;>
        simp [Heeds, Call.IsWait]
  | relocking call stat =>
      obtain rfl := Option.some.inj waits
      exact heeds
  | idle | setting | notifying | testing | asleep | clearing | unlocking =>
      simp [Place.entered] at waits

theorem Place.Inside.awake {place : Place} (inside : place.Inside) : ¬ place.IsAsleep := by
  cases place with
  | asleep => exact inside.elim
  | idle | locking | setting | notifying | testing | relocking | clearing | unlocking => exact id

theorem heeded_step {state after : Conditional Thread} {step : Step Thread}
    (consistent : Consistent state) (heeded : Heeded state) (effect : Effect state step after) :
    Heeded after := by
  have formedAt := consistent.formed
  cases effect with
  | call call idle => exact heeded.move id (by simp [idle, Place.Heeds])
  | @acquire thread place free waits =>
      have locked : Heeded { state with mutex := some thread } := heeded
      exact locked.move (Place.inside_of_entered waits).awake (Place.heeds_of_entered waits)
  | @set thread here => exact heeded_of_heeds thread (by simp [Place.Heeds])
  | sleep here unset => exact heeded_of_unset unset
  | leave here ends => exact heeded.move id (by simp [here, Place.Heeds])
  | clear here => exact heeded_of_unset rfl
  | unlock here =>
      have unlocked : Heeded { state with mutex := none } := heeded
      exact unlocked.move id (by simp [here, Place.Heeds])
  | notifyNone here nobody =>
      -- with nobody asleep there is nobody left to wake
      intro flag sleeper asleep
      rw [move_place] at asleep
      split_ifs at asleep
      · exact asleep.elim
      · exact absurd asleep (nobody sleeper)
  | @notify thread sleeper call here asleep =>
      have formed := formedAt sleeper
      rw [asleep] at formed
      exact heeded_of_heeds sleeper (by rw [move_place, if_pos rfl]; exact formed)
  | @wake thread call stat asleep timed =>
      have formed := formedAt thread
      rw [asleep] at formed
      exact heeded_of_heeds thread (by rw [move_place, if_pos rfl]; exact formed)

end Conditional

end OpenMplane
