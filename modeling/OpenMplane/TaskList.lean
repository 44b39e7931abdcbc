import Mathlib.Data.List.Basic
import Mathlib.Data.Nat.Init
import OpenMplane.GuardedRuns
import Mathlib.Algebra.Group.Nat.Defs
import Mathlib.Algebra.Ring.Int.Defs

/-!
# Tasks that are stuck

The model of `TaskList` and of `ServicesMonitor`, which looks at its tasks from time to time
and cancels one that has not kicked the watchdog.  A task stands in the list with the count
of its kicks that was last seen; beside the members stands what has happened since the check
before: whether the thread of now was active then, how often the task has kicked since, and
whether that check came to the entry.
-/

namespace OpenMplane

open GuardedRuns

/-- What the system tells of the thread of a task: there is none, it is active, or its
identifier was kept when it was cancelled. -/
inductive TaskThread
  | none
  | active
  | cancelled
  deriving DecidableEq

/-- A task and its entry in the list. -/
structure TaskEntry where
  mRunForever : Bool
  mThread : TaskThread
  mKickCount : Nat
  mLastKickCount : Nat
  wasActive : Bool
  kicked : Nat
  seen : Bool
  deriving DecidableEq

namespace TaskEntry

/-- The entry of a new task. -/
def construct (mRunForever : Bool) : TaskEntry := ⟨mRunForever, .none, 0, 0, false, 0, false⟩

/-- A check looks at the count of the task. -/
def Watched (entry : TaskEntry) : Prop := entry.mRunForever = true ∧ entry.mThread = .active

/-- The count is the one that was last seen. -/
def Stands (entry : TaskEntry) : Prop := entry.mKickCount = entry.mLastKickCount

/-- The thread was active at both checks and has not kicked between them. -/
def Stuck (entry : TaskEntry) : Prop := entry.Watched ∧ entry.wasActive = true ∧ entry.kicked = 0

instance (entry : TaskEntry) : Decidable entry.Watched := inferInstanceAs (Decidable (_ ∧ _))

instance (entry : TaskEntry) : Decidable entry.Stands := inferInstanceAs (Decidable (_ = _))

def checkKickCount (entry : TaskEntry) : Bool × TaskEntry :=
  if entry.mKickCount ≠ entry.mLastKickCount then
    (true, { entry with mLastKickCount := entry.mKickCount })
  else (false, entry)

/-- `start`; a thread that is active goes on. -/
def start (entry : TaskEntry) : TaskEntry :=
  if entry.mThread = .active then entry
  else { entry with mThread := .active, wasActive := false, seen := false }

def exit (entry : TaskEntry) : TaskEntry := { entry with mThread := .none }

/-- `cancel`, which keeps the identifier of the thread. -/
def cancel (entry : TaskEntry) : TaskEntry := { entry with mThread := .cancelled }

/-- `kickSoftwareWatchdog`; the count has 32 bits. -/
def kickSoftwareWatchdog (entry : TaskEntry) : TaskEntry :=
  { entry with mKickCount := (entry.mKickCount + 1) % 2 ^ 32, kicked := entry.kicked + 1 }

/-- What has happened since a check that comes, or does not come, to the entry. -/
def mark (reached : Bool) (entry : TaskEntry) : TaskEntry :=
  { entry with
    wasActive := decide (entry.mThread = .active)
    kicked := 0
    seen := reached && decide entry.Watched }

end TaskEntry

/-- `checkStuckTask`: the place of the task that it returns, and the entries after it. -/
def checkStuckTask : List TaskEntry → Option Nat × List TaskEntry
  | [] => (none, [])
  | entry :: rest =>
      if entry.Watched then
        let (kicks, entry) := entry.checkKickCount
        if !kicks then (some 0, entry :: rest)
        else ((checkStuckTask rest).1.map (· + 1), entry :: (checkStuckTask rest).2)
      else ((checkStuckTask rest).1.map (· + 1), entry :: (checkStuckTask rest).2)

/-- The entries with the marks of a check that has returned one of them or none. -/
def markAll : Option Nat → List TaskEntry → List TaskEntry
  | _, [] => []
  | none, entry :: rest => entry.mark true :: markAll none rest
  | some 0, entry :: rest => entry.mark true :: rest.map (TaskEntry.mark false)
  | some (place + 1), entry :: rest => entry.mark true :: markAll (some place) rest

/-- The monitor and the list of tasks. -/
structure ServicesMonitor where
  mServiceCheckCount : Nat
  mTaskList : List TaskEntry
  deriving DecidableEq

/-- What happens to the tasks: one is constructed, destroyed or started, returns from its
`run`, is cancelled or kicks, and the monitor calls `monitorServices`. -/
inductive TaskEvent
  | add (mRunForever : Bool)
  | remove (place : Nat)
  | start (place : Nat)
  | exit (place : Nat)
  | cancel (place : Nat)
  | kick (place : Nat)
  | monitorServices
  deriving DecidableEq

namespace ServicesMonitor

def initial : ServicesMonitor := ⟨0, []⟩

def SERVICE_CHECK_RATE : Nat := 5

/-- `monitorServices`: the task that is cancelled, and the monitor after it. -/
def monitorServices (monitor : ServicesMonitor) : Option Nat × ServicesMonitor :=
  if monitor.mServiceCheckCount + 1 = SERVICE_CHECK_RATE then
    ((checkStuckTask monitor.mTaskList).1, ⟨0, (checkStuckTask monitor.mTaskList).2⟩)
  else (none, { monitor with mServiceCheckCount := monitor.mServiceCheckCount + 1 })

/-- This call of `monitorServices` makes a check. -/
def Checks (monitor : ServicesMonitor) : Prop :=
  monitor.mServiceCheckCount + 1 = SERVICE_CHECK_RATE

instance (monitor : ServicesMonitor) : Decidable monitor.Checks :=
  inferInstanceAs (Decidable (_ = _))

def step (monitor : ServicesMonitor) : TaskEvent → ServicesMonitor
  | .add mRunForever =>
      { monitor with mTaskList := monitor.mTaskList ++ [.construct mRunForever] }
  | .remove place => { monitor with mTaskList := monitor.mTaskList.eraseIdx place }
  | .start place => { monitor with mTaskList := monitor.mTaskList.modify place .start }
  | .exit place => { monitor with mTaskList := monitor.mTaskList.modify place .exit }
  | .cancel place => { monitor with mTaskList := monitor.mTaskList.modify place .cancel }
  | .kick place =>
      { monitor with mTaskList := monitor.mTaskList.modify place .kickSoftwareWatchdog }
  | .monitorServices =>
      let (task, after) := monitor.monitorServices
      if monitor.Checks then { after with mTaskList := markAll task after.mTaskList } else after

/-- There are fewer than 2^32 kicks between two checks. -/
def Few (monitor : ServicesMonitor) (event : TaskEvent) : Prop :=
  ∀ entry ∈ (monitor.step event).mTaskList, entry.kicked < 2 ^ 32

instance (monitor : ServicesMonitor) (event : TaskEvent) : Decidable (monitor.Few event) :=
  inferInstanceAs (Decidable (∀ entry ∈ (monitor.step event).mTaskList, entry.kicked < 2 ^ 32))

/-- What is expected of a call of `monitorServices`: the task that it cancels is stuck, and if
it makes a check and cancels none, no task is. -/
structure Good (monitor : ServicesMonitor) (event : TaskEvent) : Prop where
  cancels : event = .monitorServices → ∀ place, monitor.monitorServices.1 = some place →
    ∃ entry, monitor.mTaskList[place]? = some entry ∧ entry.Stuck
  spares : event = .monitorServices → monitor.Checks → monitor.monitorServices.1 = none →
    ∀ entry ∈ monitor.mTaskList, ¬entry.Stuck

/-- The checks that go as they should.  What matters are the tasks that the check before did not
come to, or that were started since: such a task that stands at the count seen earlier is
stuck or comes behind another that stands, and where such a task is stuck some task stands. -/
structure Meets (monitor : ServicesMonitor) (event : TaskEvent) : Prop where
  unseen : event = .monitorServices → monitor.Checks →
    ∀ (place : Nat) entry, monitor.mTaskList[place]? = some entry → entry.seen = false →
      entry.Watched → entry.Stands →
        (entry.wasActive = true ∧ entry.kicked = 0) ∨
          ∃ earlier < place, ∃ other, monitor.mTaskList[earlier]? = some other ∧
            other.Watched ∧ other.Stands
  missed : event = .monitorServices → monitor.Checks →
    ∀ entry ∈ monitor.mTaskList, entry.seen = false → entry.Stuck →
      ∃ other ∈ monitor.mTaskList, other.Watched ∧ other.Stands

end ServicesMonitor

/-- What holds of every entry: one that the check before has come to was active then, and has
kicked as often as its count has grown since. -/
structure TaskEntry.Settled (entry : TaskEntry) : Prop where
  last : entry.mLastKickCount < 2 ^ 32
  count : entry.mKickCount < 2 ^ 32
  seen : entry.seen = true → entry.wasActive = true ∧
    entry.mKickCount = (entry.mLastKickCount + entry.kicked) % 2 ^ 32

section Checks

variable {tasks rest : List TaskEntry} {entry : TaskEntry}

theorem checkKickCount_stands (stands : entry.Stands) :
    entry.checkKickCount = (false, entry) := if_neg (not_not_intro stands)

theorem checkKickCount_kicked (moved : ¬entry.Stands) :
    entry.checkKickCount = (true, { entry with mLastKickCount := entry.mKickCount }) :=
  if_pos moved

theorem checkStuckTask_stands (watched : entry.Watched) (stands : entry.Stands) :
    checkStuckTask (entry :: rest) = (some 0, entry :: rest) := by
  rw [checkStuckTask, if_pos watched, checkKickCount_stands stands]
  rfl

theorem checkStuckTask_kicked (watched : entry.Watched) (moved : ¬entry.Stands) :
    checkStuckTask (entry :: rest) = ((checkStuckTask rest).1.map (· + 1),
      { entry with mLastKickCount := entry.mKickCount } :: (checkStuckTask rest).2) := by
  rw [checkStuckTask, if_pos watched, checkKickCount_kicked moved]
  rfl

theorem checkStuckTask_unwatched (unwatched : ¬entry.Watched) :
    checkStuckTask (entry :: rest) =
      ((checkStuckTask rest).1.map (· + 1), entry :: (checkStuckTask rest).2) := by
  rw [checkStuckTask, if_neg unwatched]

theorem checkStuckTask_fst (tasks : List TaskEntry) : (checkStuckTask tasks).1 =
    tasks.findIdx? fun entry => decide (entry.Watched ∧ entry.Stands) := by
  induction tasks with
  | nil => rfl
  | cons entry rest ih =>
      rw [List.findIdx?_cons, ← ih]
      by_cases watched : entry.Watched
      · by_cases stands : entry.Stands
        · rw [checkStuckTask_stands watched stands, decide_eq_true ⟨watched, stands⟩]
          rfl
        · rw [checkStuckTask_kicked watched stands, decide_eq_false fun both => stands both.2]
          rfl
      · rw [checkStuckTask_unwatched watched, decide_eq_false fun both => watched both.1]
        rfl

theorem checkStuckTask_eq_none : (checkStuckTask tasks).1 = none ↔
    ∀ entry ∈ tasks, ¬(entry.Watched ∧ entry.Stands) := by
  rw [checkStuckTask_fst, List.findIdx?_eq_none_iff]
  exact forall₂_congr fun entry _ => decide_eq_false_iff_not

theorem checkStuckTask_eq_some {place : Nat} (returned : (checkStuckTask tasks).1 = some place) :
    (∃ entry, tasks[place]? = some entry ∧ entry.Watched ∧ entry.Stands) ∧
      ∀ earlier < place, ∀ entry, tasks[earlier]? = some entry →
        ¬(entry.Watched ∧ entry.Stands) := by
  rw [checkStuckTask_fst, List.findIdx?_eq_some_iff_getElem] at returned
  obtain ⟨within, stands, first⟩ := returned
  refine ⟨⟨tasks[place], List.getElem?_eq_getElem within, of_decide_eq_true stands⟩, ?_⟩
  rintro earlier before entry found
  obtain ⟨inside, rfl⟩ := List.getElem?_eq_some_iff.mp found
  exact fun both => first earlier before (decide_eq_true both)

end Checks

namespace TaskEntry

variable {entry : TaskEntry}

/-- An entry that the check before has come to stands as long as its task has not kicked. -/
theorem Settled.stands_iff (settled : entry.Settled) (seen : entry.seen = true)
    (few : entry.kicked < 2 ^ 32) : entry.Stands ↔ entry.kicked = 0 := by
  have last := settled.last
  have count := (settled.seen seen).2
  unfold Stands
  omega

theorem settled_construct (mRunForever : Bool) : (construct mRunForever).Settled :=
  ⟨Nat.two_pow_pos 32, Nat.two_pow_pos 32, nofun⟩

theorem Settled.start (settled : entry.Settled) : entry.start.Settled := by
  rw [TaskEntry.start]
  split
  · exact settled
  · exact ⟨settled.last, settled.count, nofun⟩

theorem Settled.exit (settled : entry.Settled) : entry.exit.Settled :=
  ⟨settled.last, settled.count, settled.seen⟩

theorem Settled.cancel (settled : entry.Settled) : entry.cancel.Settled :=
  ⟨settled.last, settled.count, settled.seen⟩

theorem Settled.kick (settled : entry.Settled) : entry.kickSoftwareWatchdog.Settled := by
  refine ⟨settled.last, Nat.mod_lt _ (Nat.two_pow_pos 32), fun seen => ?_⟩
  obtain ⟨active, count⟩ := settled.seen seen
  refine ⟨active, ?_⟩
  change (entry.mKickCount + 1) % 2 ^ 32 = (entry.mLastKickCount + (entry.kicked + 1)) % 2 ^ 32
  omega

/-- A check that does not come to the entry, or has no look at it, leaves nothing known. -/
theorem settled_mark (last : entry.mLastKickCount < 2 ^ 32) (count : entry.mKickCount < 2 ^ 32)
    {reached : Bool} (known : reached = true → entry.Watched → entry.Stands) :
    (entry.mark reached).Settled := by
  refine ⟨last, count, fun seen => ?_⟩
  obtain ⟨comes, watched⟩ := Bool.and_eq_true_iff.mp seen
  have looks := of_decide_eq_true watched
  refine ⟨decide_eq_true looks.2, ?_⟩
  have stands : entry.mKickCount = entry.mLastKickCount := known comes looks
  change entry.mKickCount = (entry.mLastKickCount + 0) % 2 ^ 32
  rw [← stands, Nat.add_zero, Nat.mod_eq_of_lt count]

end TaskEntry

theorem markAll_map_succ (returned : Option Nat) (entry : TaskEntry) (rest : List TaskEntry) :
    markAll (returned.map (· + 1)) (entry :: rest) = entry.mark true :: markAll returned rest := by
  cases returned <;> rfl

open TaskEntry in
theorem settled_markAll {tasks : List TaskEntry} (settled : ∀ entry ∈ tasks, entry.Settled) :
    ∀ entry ∈ markAll (checkStuckTask tasks).1 (checkStuckTask tasks).2, entry.Settled := by
  induction tasks with
  | nil => exact nofun
  | cons first rest ih =>
      obtain ⟨own, others⟩ := List.forall_mem_cons.mp settled
      by_cases watched : first.Watched
      · by_cases stands : first.Stands
        · rw [checkStuckTask_stands watched stands]
          refine List.forall_mem_cons.mpr
            ⟨settled_mark own.last own.count fun _ _ => stands, fun entry member => ?_⟩
          obtain ⟨other, there, rfl⟩ := List.mem_map.mp member
          exact settled_mark (others other there).last (others other there).count nofun
        · rw [checkStuckTask_kicked watched stands]
          dsimp only
          rw [markAll_map_succ]
          have refreshed := @settled_mark { first with mLastKickCount := first.mKickCount }
            own.count own.count true fun _ _ => rfl
          exact List.forall_mem_cons.mpr ⟨refreshed, ih others⟩
      · rw [checkStuckTask_unwatched watched]
        dsimp only
        rw [markAll_map_succ]
        exact List.forall_mem_cons.mpr
          ⟨settled_mark own.last own.count fun _ looks => absurd looks watched, ih others⟩

theorem forall_mem_modify {property : TaskEntry → Prop} {tasks : List TaskEntry}
    {change : TaskEntry → TaskEntry} (holds : ∀ entry ∈ tasks, property entry)
    (kept : ∀ entry, property entry → property (change entry)) (place : Nat) :
    ∀ entry ∈ tasks.modify place change, property entry := by
  intro entry member
  obtain ⟨index, found⟩ := List.mem_iff_getElem?.mp member
  rw [List.getElem?_modify] at found
  obtain ⟨before, there, rfl⟩ := Option.map_eq_some_iff.mp found
  have own := holds before (List.mem_of_getElem? there)
  split
  · exact kept before own
  · exact own

namespace ServicesMonitor

variable {monitor : ServicesMonitor} {event : TaskEvent}

/-- What holds in every state of a run. -/
structure Invariant (monitor : ServicesMonitor) : Prop where
  settled : ∀ entry ∈ monitor.mTaskList, entry.Settled
  few : ∀ entry ∈ monitor.mTaskList, entry.kicked < 2 ^ 32

theorem monitorServices_checks (checks : monitor.Checks) : monitor.monitorServices =
    ((checkStuckTask monitor.mTaskList).1, ⟨0, (checkStuckTask monitor.mTaskList).2⟩) :=
  if_pos checks

theorem monitorServices_idle (idle : ¬monitor.Checks) : monitor.monitorServices =
    (none, { monitor with mServiceCheckCount := monitor.mServiceCheckCount + 1 }) := if_neg idle

/-- A watched entry that the check before has come to stands as long as it is stuck. -/
theorem Invariant.stuck_of_seen (invariant : monitor.Invariant) {entry : TaskEntry}
    (member : entry ∈ monitor.mTaskList) (seen : entry.seen = true) (watched : entry.Watched) :
    entry.Stands ↔ entry.Stuck := by
  have settled := invariant.settled entry member
  rw [settled.stands_iff seen (invariant.few entry member)]
  exact ⟨fun none => ⟨watched, (settled.seen seen).1, none⟩, fun stuck => stuck.2.2⟩

theorem good_of_meets (invariant : monitor.Invariant) (meets : monitor.Meets event) :
    monitor.Good event := by
  constructor
  · intro called place cancelled
    by_cases checks : monitor.Checks
    · rw [monitorServices_checks checks] at cancelled
      obtain ⟨⟨entry, found, watched, stands⟩, first⟩ := checkStuckTask_eq_some cancelled
      refine ⟨entry, found, ?_⟩
      cases seen : entry.seen with
      | true =>
          exact (invariant.stuck_of_seen (List.mem_of_getElem? found) seen watched).mp stands
      | false =>
          rcases meets.unseen called checks place entry found seen watched stands with
            ⟨active, none⟩ | ⟨earlier, before, other, there, both⟩
          · exact ⟨watched, active, none⟩
          · exact absurd both (first earlier before other there)
    · rw [monitorServices_idle checks] at cancelled
      cases cancelled
  · intro called checks spared entry member stuck
    rw [monitorServices_checks checks, checkStuckTask_eq_none] at spared
    cases seen : entry.seen with
    | true =>
        have stands := (invariant.stuck_of_seen member seen stuck.1).mpr stuck
        exact spared entry member ⟨stuck.1, stands⟩
    | false =>
        obtain ⟨other, there, both⟩ := meets.missed called checks entry member seen stuck
        exact spared other there both

theorem meets_of_good (good : monitor.Good event) : monitor.Meets event := by
  constructor
  · intro called checks place entry found _ watched stands
    cases cancelled : (checkStuckTask monitor.mTaskList).1 with
    | none =>
        exact absurd ⟨watched, stands⟩
          (checkStuckTask_eq_none.mp cancelled entry (List.mem_of_getElem? found))
    | some first =>
        obtain ⟨⟨other, there, both⟩, least⟩ := checkStuckTask_eq_some cancelled
        rcases Nat.lt_trichotomy first place with earlier | rfl | later
        · exact Or.inr ⟨first, earlier, other, there, both⟩
        · have stuck := good.cancels called first (by
            rw [monitorServices_checks checks]
            exact cancelled)
          obtain ⟨same, here, stuck⟩ := stuck
          rw [found] at here
          obtain rfl := Option.some.inj here
          exact Or.inl stuck.2
        · exact absurd ⟨watched, stands⟩ (least place later entry found)
  · intro called checks entry member _ stuck
    cases cancelled : (checkStuckTask monitor.mTaskList).1 with
    | none =>
        refine absurd stuck (good.spares called checks ?_ entry member)
        rw [monitorServices_checks checks]
        exact cancelled
    | some first =>
        obtain ⟨⟨other, there, both⟩, -⟩ := checkStuckTask_eq_some cancelled
        exact ⟨other, List.mem_of_getElem? there, both⟩

/-- Every event settles the entries again. -/
theorem step_invariant (invariant : monitor.Invariant) (few : monitor.Few event) :
    (monitor.step event).Invariant := by
  refine ⟨?_, few⟩
  have settled := invariant.settled
  cases event with
  | add mRunForever =>
      intro entry member
      rcases List.mem_append.mp member with before | new
      · exact settled entry before
      · rw [List.mem_singleton.mp new]
        exact TaskEntry.settled_construct mRunForever
  | remove place => exact fun entry member => settled entry (List.mem_of_mem_eraseIdx member)
  | start place => exact forall_mem_modify settled (fun _ => TaskEntry.Settled.start) place
  | exit place => exact forall_mem_modify settled (fun _ => TaskEntry.Settled.exit) place
  | cancel place => exact forall_mem_modify settled (fun _ => TaskEntry.Settled.cancel) place
  | kick place => exact forall_mem_modify settled (fun _ => TaskEntry.Settled.kick) place
  | monitorServices =>
      by_cases checks : monitor.Checks
      · have after : (monitor.step .monitorServices).mTaskList =
            markAll (checkStuckTask monitor.mTaskList).1 (checkStuckTask monitor.mTaskList).2 := by
          rw [step, monitorServices_checks checks]
          dsimp only
          rw [if_pos checks]
        rw [after]
        exact settled_markAll settled
      · have after : (monitor.step .monitorServices).mTaskList = monitor.mTaskList := by
          rw [step, monitorServices_idle checks]
          dsimp only
          rw [if_neg checks]
        rw [after]
        exact settled

theorem initial_invariant : initial.Invariant := ⟨nofun, nofun⟩

/-- From any state with the invariant, the checks of a run go as they should exactly when each
of them meets the condition. -/
theorem guarded_iff {events : List TaskEvent} (invariant : monitor.Invariant)
    (few : Guarded Few step monitor events) :
    Guarded Good step monitor events ↔ Guarded Meets step monitor events := by
  induction events generalizing monitor with
  | nil => exact Iff.rfl
  | cons event events ih =>
      have later := ih (step_invariant invariant few.1) few.2
      constructor
      · exact fun good => ⟨meets_of_good good.1, later.mp good.2⟩
      · exact fun meets => ⟨good_of_meets invariant meets.1, later.mpr meets.2⟩

end ServicesMonitor

open ServicesMonitor in
/-- The monitor cancels a task only if it is stuck, and none only if none is, exactly when its
checks meet the condition on the tasks that the check before has not come to. -/
theorem watches_iff (events : List TaskEvent) (few : Guarded Few step initial events) :
    Guarded Good step initial events ↔ Guarded Meets step initial events :=
  guarded_iff initial_invariant few

namespace ServicesMonitor

/-- Both tasks have kicked at the first check, and one of them at the second. -/
def stuckRun : List TaskEvent :=
  [.add true, .add true, .start 0, .start 1, .kick 0, .kick 1] ++
    List.replicate 5 .monitorServices ++ .kick 0 :: List.replicate 4 .monitorServices

/-- The second check cancels the other one. -/
theorem watches_iff_stuckRun :
    (Guarded Good step initial (stuckRun ++ [.monitorServices]) ↔
        Guarded Meets step initial (stuckRun ++ [.monitorServices])) ∧
      (stuckRun.foldl step initial).monitorServices.1 = some 1 :=
  ⟨watches_iff _ (by decide +kernel), by decide +kernel⟩

end ServicesMonitor

open ServicesMonitor in
/-- A task that has just been started is cancelled by the first check. -/
theorem new_task_is_cancelled : ¬ ∀ events, Guarded Few step initial events →
    Guarded Good step initial events := by
  intro always
  have few : Guarded Few step initial [.monitorServices, .monitorServices, .monitorServices,
      .monitorServices, .add true, .start 0, .monitorServices] := by decide +kernel
  have good := (always _ few).2.2.2.2.2.2.1
  obtain ⟨entry, found, stuck⟩ := good.cancels rfl 0 (by decide)
  cases found
  exact absurd stuck.2.1 (by decide)

end OpenMplane
