import OpenMplane.SystemTaskHandover

/-!
# What a run of commands keeps

Beside the phase of the handover: the executions are the accepted commands in
order, the child that is awaited is the one of the last execution, and the status
a call is about to return is the one of its own execution.
-/

namespace OpenMplane

open Conditional GuardedRuns

/-- In `simpleSystem` after `fork`. -/
def TaskStage.HasForked : TaskStage → Prop
  | assigning | calling | inWaitpid => True
  | waiting | forking | storing | signalling | clearing => False

namespace Handover

variable {handover : Handover}

theorem Phase.of_busy (phase : Phase handover) (busy : handover.stage.Busy) :
    (∃ place, handover.caller = some place ∧ place.Waits) ∧ handover.mCondStart = false ∧
      handover.mCondEnd = false := by
  cases phase with
  | executing waits => exact ⟨⟨_, rfl, waits⟩, rfl, rfl⟩
  | free | freeSoon | accepted | started | ended | endedIdle | returning | returningIdle =>
      exact busy.elim

theorem Phase.not_pending_of_none (phase : Phase handover) (free : handover.caller = none) :
    ¬ Pending handover := by
  cases phase <;> simp_all [Pending]

theorem Phase.idle_of_none (phase : Phase handover) (free : handover.caller = none)
    (rests : handover.stage ≠ .clearing) : handover.mExecuting = false := by
  cases phase <;> simp_all

/-- The status of the command has been stored for the caller. -/
def Stored (handover : Handover) : Prop :=
  handover.stage = .signalling ∨ handover.mCondEnd = true ∨ handover.caller = some .ending

theorem Phase.not_stored_of_none (phase : Phase handover) (free : handover.caller = none) :
    ¬ Stored handover := by
  cases phase <;> simp_all [Stored]

theorem Phase.not_pending_of_stored (phase : Phase handover) (stored : Stored handover) :
    ¬ Pending handover ∧ ¬ handover.stage.HasForked ∧ handover.stage ≠ .storing := by
  cases phase with
  | free | freeSoon | accepted => simp [Stored] at stored
  | started waits =>
      simp only [Stored] at stored
      rcases stored with absurdity | absurdity | ending
      · simp at absurdity
      · simp at absurdity
      · rw [Option.some.inj ending] at waits
        exact waits.elim
  | executing waits busy =>
      simp only [Stored] at stored
      rcases stored with stage | absurdity | ending
      · subst stage
        refine ⟨?_, id, by simp⟩
        rintro (signalling | absurdity | absurdity)
        · rw [Option.some.inj signalling] at waits
          exact waits.elim
        · simp at absurdity
        · simp at absurdity
      · simp at absurdity
      · rw [Option.some.inj ending] at waits
        exact waits.elim
  | ended waits | endedIdle waits =>
      refine ⟨?_, id, by simp⟩
      rintro (signalling | absurdity | absurdity)
      · rw [Option.some.inj signalling] at waits
        exact waits.elim
      · simp at absurdity
      · simp at absurdity
  | returning | returningIdle => exact ⟨by simp [Pending], id, by simp⟩

end Handover

namespace CommandSystem

variable {Client : Type}

/-- Accepted commands are executed in order, all but the one that is pending. -/
structure OrderKeeps (isPending : Prop) (mCmd : String)
    (accepted : List (AcceptedCommand Client)) (executions : List Execution) : Prop where
  pending : isPending → accepted.map (SystemTask.redirected ·.cmd) =
    executions.map (·.cmd) ++ [mCmd]
  settled : ¬ isPending → accepted.map (SystemTask.redirected ·.cmd) = executions.map (·.cmd)

/-- The child that was forked last and runs. -/
def LastChild (executions : List Execution) (running : List Int) (child : Int) : Prop :=
  (∃ execution, executions.getLast? = some execution ∧ execution.child = some child) ∧
    0 < child ∧ child ∈ running

structure ChildKeeps (stage : TaskStage) (value mChildPid : Int) (running : List Int)
    (executions : List Execution) (exits : List (Option ChildExit)) : Prop where
  forked : stage.HasForked → executions.length = exits.length + 1
  done : ¬ stage.HasForked → executions.length = exits.length
  assigning : stage = .assigning → value = -1 ∨ LastChild executions running value
  known : stage = .calling ∨ stage = .inWaitpid → LastChild executions running mChildPid
  awaited : stage = .inWaitpid → value = mChildPid
  exited : ∀ (number : Nat) (exit : ChildExit), exits[number]? = some (some exit) →
    ∃ execution : Execution, executions[number]? = some execution ∧
      execution.child = some exit.child

structure StatusKeeps (isStored storing : Prop) (value mCmdStatus : Int)
    (exits : List (Option ChildExit)) : Prop where
  value : storing → ∃ exit, exits.getLast? = some exit ∧ value = exitValue exit
  stored : isStored → ∃ exit, exits.getLast? = some exit ∧ mCmdStatus = exitValue exit

/-- A return is the one the executions of its call account for. -/
def ReturnKeeps (exits : List (Option ChildExit)) : RunCmdReturn Client → Prop
  | .invalidArg _ cmd => cmd = ""
  | .alreadyRunning .. => False
  | .timeout number _ => number < exits.length
  | .status number cmdStatus _ =>
      ∃ exit, exits[number]? = some exit ∧ cmdStatus = exitValue exit

structure Kept (system : CommandSystem Client) : Prop where
  phase : system.handover.Phase
  number : ∀ call, system.caller = some call → call.number + 1 = system.accepted.length
  order : OrderKeeps system.handover.Pending system.task.mCmd system.accepted system.executions
  child : ChildKeeps system.stage system.value system.task.mChildPid system.running
    system.executions system.exits
  status : StatusKeeps system.handover.Stored (system.stage = .storing) system.value
    system.task.mCmdStatus system.exits
  returns : ∀ ret ∈ system.returns, ReturnKeeps system.exits ret
  kills : ∀ kill ∈ system.kills, 0 < kill.pid ∧ kill.pid ∈ kill.running

theorem kept_initial : Kept (initial : CommandSystem Client) where
  phase := phase_initial
  number := by simp [initial]
  order := ⟨by simp [initial, handover, Handover.Pending, SystemTask.constructed],
    by simp [initial]⟩
  child := ⟨False.elim, by simp [initial], by simp [initial], by simp [initial], by simp [initial],
    by simp [initial]⟩
  status := ⟨by simp [initial],
    by simp [initial, handover, Handover.Stored, SystemTask.constructed]⟩
  returns := by simp [initial]
  kills := by simp [initial]

section Lemmas

variable {isPending other : Prop} {mCmd : String} {stage after : TaskStage}
  {value mChildPid mCmdStatus : Int} {running : List Int}
  {accepted : List (AcceptedCommand Client)} {executions : List Execution}
  {exits : List (Option ChildExit)}

theorem OrderKeeps.congr (keeps : OrderKeeps isPending mCmd accepted executions)
    (same : other ↔ isPending) : OrderKeeps other mCmd accepted executions := by
  rwa [propext same]

theorem ReturnKeeps.append {ret : RunCmdReturn Client} (keeps : ReturnKeeps exits ret)
    (later : List (Option ChildExit)) : ReturnKeeps (exits ++ later) ret := by
  cases ret with
  | invalidArg => exact keeps
  | alreadyRunning => exact keeps
  | timeout number reports =>
      have bound : number < exits.length := keeps
      exact Nat.lt_of_lt_of_le bound (by simp)
  | status number cmdStatus reports =>
      obtain ⟨exit, here, same⟩ := keeps
      have bound := (List.getElem?_eq_some_iff.mp here).1
      exact ⟨exit, (List.getElem?_append_left bound).trans here, same⟩

/-- A move of the task that neither forks nor ends an execution. -/
theorem ChildKeeps.move (keeps : ChildKeeps stage value mChildPid running executions exits)
    (rests : ¬ stage.HasForked) (stays : ¬ after.HasForked) (newValue newPid : Int) :
    ChildKeeps after newValue newPid running executions exits where
  forked runs := absurd runs stays
  done _ := keeps.done rests
  assigning here := absurd (here ▸ trivial) stays
  known here := by
    rcases here with rfl | rfl
    · exact absurd trivial stays
    · exact absurd trivial stays
  awaited here := absurd (here ▸ trivial) stays
  exited := keeps.exited

theorem ChildKeeps.fork {child : Option Int}
    (keeps : ChildKeeps stage value mChildPid running executions exits)
    (rests : ¬ stage.HasForked) (valid : ∀ pid, child = some pid → 0 < pid ∧ pid ∉ running) :
    ChildKeeps .assigning (child.getD (-1)) mChildPid (running ++ child.toList)
      (executions ++ [⟨mCmd, child⟩]) exits where
  forked _ := by simp [keeps.done rests]
  done rests := absurd trivial rests
  assigning _ := by
    cases child with
    | none => exact Or.inl rfl
    | some pid =>
        exact Or.inr ⟨⟨⟨mCmd, some pid⟩, by simp, rfl⟩, (valid pid rfl).1, by simp⟩
  known := by simp
  awaited := by simp
  exited number exit here := by
    obtain ⟨execution, there, same⟩ := keeps.exited number exit here
    have bound := (List.getElem?_eq_some_iff.mp there).1
    exact ⟨execution, (List.getElem?_append_left bound).trans there, same⟩

theorem ChildKeeps.exit {exit : Option ChildExit}
    (keeps : ChildKeeps stage value mChildPid running executions exits)
    (forked : stage.HasForked)
    (own : ∀ ended, exit = some ended →
      ∃ execution, executions.getLast? = some execution ∧ execution.child = some ended.child)
    (newValue newPid : Int) (left : List Int) :
    ChildKeeps .storing newValue newPid left executions (exits ++ [exit]) where
  forked := False.elim
  done _ := by simp [keeps.forked forked]
  assigning := by simp
  known := by simp
  awaited := by simp
  exited number ended here := by
    rcases Nat.lt_or_ge number exits.length with before | last
    · rw [List.getElem?_append_left before] at here
      exact keeps.exited number ended here
    · have atEnd : number = exits.length := by
        have := (List.getElem?_eq_some_iff.mp here).1
        simp only [List.length_append, List.length_singleton] at this
        omega
      subst atEnd
      simp only [List.getElem?_concat_length, Option.some.injEq] at here
      obtain ⟨execution, isLast, same⟩ := own ended here
      have count := keeps.forked forked
      rw [List.getLast?_eq_getElem?, count, Nat.add_sub_cancel] at isLast
      exact ⟨execution, isLast, same⟩

end Lemmas

theorem not_hasForked {stage : TaskStage} (rests : ¬ stage.Busy) : ¬ stage.HasForked := by
  cases stage <;> simp_all [TaskStage.Busy, TaskStage.HasForked]

variable {system : CommandSystem Client} {step : Step Client}

theorem Kept.not_busy (kept : Kept system)
    (alone : ∀ call, system.caller = some call → ¬ call.place.Waits) : ¬ system.stage.Busy := by
  intro busy
  obtain ⟨⟨place, inside, waits⟩, -⟩ := kept.phase.of_busy busy
  obtain ⟨call, here, rfl⟩ := Option.map_eq_some_iff.mp inside
  exact alone call here waits

theorem Kept.call {client : Client} {cmd : String} {expectedRuntimeSecs timeoutSecs : UInt32}
    (kept : Kept system) (free : system.caller = none) (idle : system.task.mExecuting = false)
    (valid : ¬ cmd.isEmpty = true)
    (phase :
      (system.callStep client cmd expectedRuntimeSecs timeoutSecs).handover.Phase) :
    Kept (system.callStep client cmd expectedRuntimeSecs timeoutSecs) := by
  have rests := not_hasForked (kept.not_busy (by simp [free]))
  have settled := kept.phase.not_pending_of_none (by simp [handover, free])
  have unstored := kept.phase.not_stored_of_none (by simp [handover, free])
  have notStoring : system.stage ≠ .storing := by
    intro storing
    exact kept.not_busy (by simp [free]) (by simp [storing, TaskStage.Busy])
  simp only [callStep, valid, idle, if_false, Bool.false_eq_true] at phase ⊢
  refine ⟨phase, ?_, ⟨fun _ => ?_, fun unset => absurd (Or.inl rfl) unset⟩,
    kept.child.move rests rests _ _, ⟨fun storing => absurd storing notStoring, ?_⟩,
    kept.returns, kept.kills⟩
  · intro call inside
    rw [← Option.some.inj inside]
    simp [RunCmd.begun]
  · simp [kept.order.settled settled]
  · intro stored
    exact absurd (Or.inl rfl) (phase.not_pending_of_stored stored).1

theorem Kept.finish {call : RunCmd} (kept : Kept system) (inside : system.caller = some call)
    (place : call.place = .ending) (phase : (system.callerStep call .finish).handover.Phase) :
    Kept (system.callerStep call .finish) := by
  have stored : system.handover.Stored := Or.inr (Or.inr (by simp [handover, inside, place]))
  obtain ⟨exit, last, same⟩ := kept.status.stored stored
  obtain ⟨settled, rests, notStoring⟩ := kept.phase.not_pending_of_stored stored
  have count := kept.child.done rests
  have order := congrArg List.length (kept.order.settled settled)
  have number := kept.number call inside
  simp only [List.length_map] at order
  have here : system.exits[call.number]? = some exit := by
    rw [← last, List.getLast?_eq_getElem?]
    congr 1
    omega
  refine ⟨phase, by simp [callerStep], ?_, kept.child.move rests rests _ _,
    ⟨fun storing => absurd storing notStoring, fun stored => ?_⟩, ?_, kept.kills⟩
  · exact kept.order.congr (iff_of_false (phase.not_pending_of_none rfl) settled)
  · exact absurd stored (phase.not_stored_of_none rfl)
  · intro ret member
    rcases List.mem_append.mp member with old | new
    · exact kept.returns ret old
    · rw [List.mem_singleton.mp new]
      by_cases timedOut : call.timedOut = true
      · rw [if_pos timedOut]
        exact (List.getElem?_eq_some_iff.mp here).1
      · rw [if_neg timedOut]
        exact ⟨exit, here, same⟩

theorem Kept.fork {child : Option Int} (kept : Kept system) (forks : system.stage = .forking)
    (valid : ∀ pid, child = some pid → 0 < pid ∧ pid ∉ system.running)
    (phase : (next system (.fork child)).handover.Phase) : Kept (next system (.fork child)) := by
  have busy : system.stage.Busy := by simp [forks, TaskStage.Busy]
  have rests : ¬ system.stage.HasForked := by simp [forks, TaskStage.HasForked]
  have settled : ¬ (next system (.fork child)).handover.Pending := by
    obtain ⟨⟨place, inside, waits⟩, unset, -⟩ := kept.phase.of_busy busy
    rintro (signalling | set | forking)
    · rw [show system.handover.caller = some .signalling from signalling] at inside
      rw [← Option.some.inj inside] at waits
      exact waits.elim
    · rw [show system.handover.mCondStart = true from set] at unset
      simp at unset
    · simp [handover, next] at forking
  have order := kept.order.pending (Or.inr (Or.inr forks))
  refine ⟨phase, kept.number, ⟨fun pending => absurd pending settled, fun _ => ?_⟩,
    kept.child.fork rests valid, ⟨by simp [next], fun stored => ?_⟩, kept.returns, kept.kills⟩
  · simp [next, order]
  · exact absurd trivial (phase.not_pending_of_stored stored).2.1

theorem Kept.exit {task : SystemTask} {running : List Int}
    (kept : Kept system) (exit : Option ChildExit) (forked : system.stage.HasForked)
    (own : ∀ ended, exit = some ended → ∃ execution : Execution,
      system.executions.getLast? = some execution ∧ execution.child = some ended.child)
    (same : task = { system.task with mChildPid := task.mChildPid })
    (phase : ({ system with
      task := task, stage := .storing, value := exitValue exit, running := running,
      exits := system.exits ++ [exit] } : CommandSystem Client).handover.Phase) :
    Kept { system with
      task := task, stage := .storing, value := exitValue exit, running := running,
      exits := system.exits ++ [exit] } := by
  rw [same] at phase ⊢
  have notForking : system.stage ≠ .forking := by
    rintro stage
    simp [stage, TaskStage.HasForked] at forked
  refine ⟨phase, kept.number, kept.order.congr ?_, kept.child.exit forked own _ _ _,
    ⟨fun _ => ⟨exit, by simp, rfl⟩, fun stored => ?_⟩, fun ret member => ?_, kept.kills⟩
  · simp [Handover.Pending, handover, notForking]
  · exact absurd rfl (phase.not_pending_of_stored stored).2.2
  · exact (kept.returns ret member).append [exit]

end CommandSystem

end OpenMplane
