import OpenMplane.SystemTaskKept

/-!
# Every command is run once and answered

In a run of steps that meet the condition, in which moreover no `fork` and no
`waitpid` fails, every accepted command is executed by one child of its own, and
the status its call returns is the one of that child.  Without the condition a
command is refused although none is running, and the kill of a timeout goes to
every process of the group, or to every process there is.
-/

namespace OpenMplane

open Conditional GuardedRuns

namespace CommandSystem

variable {Client : Type} {system : CommandSystem Client} {step : Step Client}

theorem exists_fresh (running : List Int) : ∃ pid, 0 < pid ∧ pid ∉ running := by
  have bounded : ∃ bound, 0 < bound ∧ ∀ pid ∈ running, pid < bound := by
    induction running with
    | nil => exact ⟨1, by simp, by simp⟩
    | cons first rest ih =>
        obtain ⟨bound, positive, below⟩ := ih
        refine ⟨max bound (first + 1), by omega, fun pid member => ?_⟩
        rcases List.mem_cons.mp member with rfl | later
        · omega
        · have := below pid later
          omega
  obtain ⟨bound, positive, below⟩ := bounded
  exact ⟨bound, positive, fun member => absurd (below bound member) (by omega)⟩

/-- `fork` and `waitpid` do not fail. -/
def Succeeds : Step Client → Prop
  | .fork none | .waitpid none => False
  | _ => True

instance decidableSucceeds : ∀ step : Step Client, Decidable (Succeeds step)
  | .fork none | .waitpid none => isFalse id
  | .fork (some _) | .waitpid (some _) | .call .. | .signalStart | .endWait _ | .kill | .finish
  | .startWait _ | .assign | .callWaitpid | .store | .signalEnd | .clear => isTrue trivial

/-- Every execution has its child, and every child its exit. -/
structure Executed (system : CommandSystem Client) : Prop where
  children : ∀ execution ∈ system.executions, execution.child ≠ none
  exits : ∀ exit ∈ system.exits, exit ≠ none
  value : system.stage = .assigning → system.value ≠ -1

theorem executed_initial : Executed (initial : CommandSystem Client) :=
  ⟨by simp [initial], by simp [initial], by simp [initial]⟩

/-- A caller's step leaves the task where it is. -/
theorem callerStep_executed {call : RunCmd} (executed : Executed system) :
    Executed (system.callerStep call step) := by
  cases step <;> exact ⟨executed.children, executed.exits, executed.value⟩

theorem executed_next (executed : Executed system) (enabled : Enabled system step)
    (succeeds : Succeeds step) : Executed (next system step) := by
  cases step with
  | call client cmd expectedRuntimeSecs timeoutSecs =>
      simp only [next, callStep]
      split_ifs <;> exact ⟨executed.children, executed.exits, executed.value⟩
  | signalStart | endWait result | kill | finish =>
      unfold next
      cases system.caller with
      | none => exact executed
      | some call => exact callerStep_executed executed
  | startWait result =>
      refine ⟨executed.children, executed.exits, fun assigning => ?_⟩
      cases result <;> simp [next] at assigning
  | fork child =>
      cases child with
      | none => exact succeeds.elim
      | some pid =>
          refine ⟨fun execution member => ?_, executed.exits, fun _ => ?_⟩
          · rcases List.mem_append.mp member with old | new
            · exact executed.children execution old
            · rw [List.mem_singleton.mp new]
              simp
          · have positive := (enabled.2 pid rfl).1
            simp only [next, Option.getD_some]
            omega
  | assign =>
      have known := executed.value enabled
      refine ⟨executed.children, ?_, fun assigning => ?_⟩
      · simpa [next, known] using executed.exits
      · simp [next, known] at assigning
  | waitpid exit =>
      cases exit with
      | none => exact succeeds.elim
      | some exit =>
          refine ⟨executed.children, fun other member => ?_, by simp [next]⟩
          rcases List.mem_append.mp member with old | new
          · exact executed.exits other old
          · rw [List.mem_singleton.mp new]
            simp
  | callWaitpid | store | signalEnd | clear =>
      exact ⟨executed.children, executed.exits, by simp [next]⟩

def Step.IsCall : Step Client → Prop
  | .call .. => True
  | _ => False

/-- With no further call, and nothing failing, the call in progress returns and
every accepted command has been executed. -/
def Completes (system : CommandSystem Client) : Prop :=
  ∃ later, (∀ step ∈ later, ¬ step.IsCall) ∧
    Guarded (fun state step => Enabled state step ∧ Succeeds step) next system later ∧
    (later.foldl next system).caller = none ∧
    (later.foldl next system).accepted = system.accepted ∧
    system.accepted.map (SystemTask.redirected ·.cmd) =
      (later.foldl next system).executions.map (·.cmd)

theorem Completes.cons (step : Step Client) (notCall : ¬ step.IsCall)
    (succeeds : Succeeds step) (enabled : Enabled system step)
    (same : (next system step).accepted = system.accepted)
    (completes : Completes (next system step)) : Completes system := by
  obtain ⟨later, noCall, goesOn, returned, accepted, executed⟩ := completes
  refine ⟨step :: later, ?_, ⟨⟨enabled, succeeds⟩, goesOn⟩, returned, accepted.trans same, ?_⟩
  · intro other member
    rcases List.mem_cons.mp member with rfl | after
    · exact notCall
    · exact noCall other after
  · rw [← same]
    exact executed

section Completion

variable {call : RunCmd}
  (settled : system.accepted.map (SystemTask.redirected ·.cmd) = system.executions.map (·.cmd))
  (inside : system.caller = some call)

include settled

theorem completes_of_none (free : system.caller = none) : Completes system :=
  ⟨[], by simp, trivial, free, rfl, settled⟩

include inside

theorem completes_of_ending (place : call.place = .ending) : Completes system := by
  have moved : next system .finish = system.callerStep call .finish := by simp [next, inside]
  refine Completes.cons .finish id trivial ⟨call, inside, place⟩ ?_ ?_
  · rw [moved]
    rfl
  · rw [moved]
    exact completes_of_none settled rfl

theorem completes_of_waiting (place : call.place = .waiting) (ended : system.task.mCondEnd = true) :
    Completes system := by
  have moved : next system (.endWait true) = system.callerStep call (.endWait true) := by
    simp [next, inside]
  refine Completes.cons (.endWait true) id trivial ⟨⟨call, inside, place⟩, ended⟩ ?_ ?_
  · rw [moved]
    rfl
  · rw [moved]
    exact completes_of_ending settled rfl rfl

theorem completes_of_ended (waits : call.place.Waits) (ended : system.task.mCondEnd = true) :
    Completes system := by
  cases place : call.place with
  | waiting => exact completes_of_waiting settled inside place ended
  | killing =>
      have moved : next system .kill = system.callerStep call .kill := by simp [next, inside]
      refine Completes.cons .kill id trivial ⟨call, inside, place⟩ ?_ ?_
      · rw [moved]
        rfl
      · rw [moved]
        exact completes_of_waiting settled rfl rfl ended
  | signalling | ending => simp [place, RunCmdAt.Waits] at waits

theorem completes_of_signalling (waits : call.place.Waits)
    (stage : system.stage = .signalling) : Completes system :=
  Completes.cons .signalEnd id trivial stage rfl (completes_of_ended settled inside waits rfl)

theorem completes_of_storing (waits : call.place.Waits) (stage : system.stage = .storing) :
    Completes system :=
  Completes.cons .store id trivial stage rfl (completes_of_signalling settled inside waits rfl)

theorem completes_of_inWaitpid (waits : call.place.Waits) (stage : system.stage = .inWaitpid)
    (runs : system.value ∈ system.running) : Completes system :=
  Completes.cons (.waitpid (some ⟨system.value, 0⟩)) id trivial ⟨stage, runs, Or.inl rfl⟩ rfl
    (completes_of_storing settled inside waits rfl)

theorem completes_of_calling (waits : call.place.Waits) (stage : system.stage = .calling)
    (runs : system.task.mChildPid ∈ system.running) : Completes system :=
  Completes.cons .callWaitpid id trivial stage rfl
    (completes_of_inWaitpid settled inside waits rfl runs)

theorem completes_of_assigning (waits : call.place.Waits) (stage : system.stage = .assigning)
    (runs : system.value = -1 ∨ system.value ∈ system.running) : Completes system := by
  refine Completes.cons .assign id trivial stage rfl ?_
  by_cases failed : system.value = -1
  · exact completes_of_storing settled inside waits (by simp [next, failed])
  · exact completes_of_calling settled inside waits (by simp [next, failed])
      (runs.resolve_left failed)

omit settled

theorem completes_of_forking (waits : call.place.Waits) (stage : system.stage = .forking)
    (pending : system.accepted.map (SystemTask.redirected ·.cmd) =
      system.executions.map (·.cmd) ++ [system.task.mCmd]) : Completes system := by
  obtain ⟨pid, positive, fresh⟩ := exists_fresh system.running
  have valid : ∀ child, some pid = some child → 0 < child ∧ child ∉ system.running := by
    rintro child ⟨⟩
    exact ⟨positive, fresh⟩
  refine Completes.cons (.fork (some pid)) id trivial ⟨stage, valid⟩ rfl ?_
  refine completes_of_assigning ?_ inside waits rfl (Or.inr (by simp [next]))
  simpa [next] using pending

theorem completes_of_started (waits : call.place.Waits) (stage : system.stage = .waiting)
    (started : system.task.mCondStart = true)
    (pending : system.accepted.map (SystemTask.redirected ·.cmd) =
      system.executions.map (·.cmd) ++ [system.task.mCmd]) : Completes system :=
  Completes.cons (.startWait true) id trivial ⟨stage, started⟩ rfl
    (completes_of_forking inside waits rfl pending)

theorem completes_of_accepted (place : call.place = .signalling)
    (stage : system.stage = .waiting)
    (pending : system.accepted.map (SystemTask.redirected ·.cmd) =
      system.executions.map (·.cmd) ++ [system.task.mCmd]) : Completes system := by
  have moved : next system .signalStart = system.callerStep call .signalStart := by
    simp [next, inside]
  refine Completes.cons .signalStart id trivial ⟨call, inside, place⟩ ?_ ?_
  · rw [moved]
    rfl
  · rw [moved]
    exact completes_of_started rfl trivial stage rfl pending

end Completion

theorem Kept.settled (kept : Kept system) (settled : ¬ system.handover.Pending) :
    system.accepted.map (SystemTask.redirected ·.cmd) = system.executions.map (·.cmd) :=
  kept.order.settled settled

/-- From any state of a run the call in progress can return. -/
theorem Kept.completes (kept : Kept system) : Completes system := by
  have phase := kept.phase
  have shape : system.handover = ⟨system.caller.map (·.place), system.stage,
    system.task.mExecuting, system.task.mCondStart, system.task.mCondEnd⟩ := rfl
  generalize here : system.handover = handover at phase
  rw [here] at shape
  cases phase with
  | free | freeSoon =>
      simp only [Handover.mk.injEq] at shape
      have free : system.caller = none := Option.map_eq_none_iff.mp shape.1.symm
      exact completes_of_none (kept.settled (by simp [here, Handover.Pending])) free
  | accepted =>
      simp only [Handover.mk.injEq] at shape
      obtain ⟨call, inside, place⟩ := Option.map_eq_some_iff.mp shape.1.symm
      exact completes_of_accepted inside place shape.2.1.symm
        (kept.order.pending (by simp [here, Handover.Pending]))
  | started waits =>
      simp only [Handover.mk.injEq] at shape
      obtain ⟨call, inside, place⟩ := Option.map_eq_some_iff.mp shape.1.symm
      exact completes_of_started inside (place ▸ waits) shape.2.1.symm shape.2.2.2.1.symm
        (kept.order.pending (by simp [here, Handover.Pending]))
  | @executing at' stage waits busy =>
      simp only [Handover.mk.injEq] at shape
      obtain ⟨call, inside, place⟩ := Option.map_eq_some_iff.mp shape.1.symm
      have atStage : system.stage = stage := shape.2.1.symm
      have callWaits : call.place.Waits := place ▸ waits
      by_cases forks : system.stage = .forking
      · exact completes_of_forking inside callWaits forks
          (kept.order.pending (Or.inr (Or.inr forks)))
      · have settled : ¬ system.handover.Pending := by
          rw [here]
          rintro (signalling | set | forking)
          · rw [Option.some.inj signalling] at waits
            exact waits.elim
          · simp at set
          · exact forks (atStage.trans forking)
        have done := kept.settled settled
        rw [atStage] at forks
        cases stage with
        | forking => exact absurd rfl forks
        | assigning =>
            exact completes_of_assigning done inside callWaits atStage
              ((kept.child.assigning atStage).imp_right fun child => child.2.2)
        | calling =>
            exact completes_of_calling done inside callWaits atStage
              (kept.child.known (Or.inl atStage)).2.2
        | inWaitpid =>
            have child := (kept.child.known (Or.inr atStage)).2.2
            rw [← kept.child.awaited atStage] at child
            exact completes_of_inWaitpid done inside callWaits atStage child
        | storing => exact completes_of_storing done inside callWaits atStage
        | signalling => exact completes_of_signalling done inside callWaits atStage
        | waiting | clearing => exact busy.elim
  | ended waits | endedIdle waits =>
      simp only [Handover.mk.injEq] at shape
      obtain ⟨call, inside, place⟩ := Option.map_eq_some_iff.mp shape.1.symm
      have settled := (kept.phase.not_pending_of_stored (by simp [here, Handover.Stored])).1
      exact completes_of_ended (kept.settled settled) inside (place ▸ waits) shape.2.2.2.2.symm
  | returning | returningIdle =>
      simp only [Handover.mk.injEq] at shape
      obtain ⟨call, inside, place⟩ := Option.map_eq_some_iff.mp shape.1.symm
      have settled := (kept.phase.not_pending_of_stored (by simp [here, Handover.Stored])).1
      exact completes_of_ending (kept.settled settled) inside place

/-- What the callers of `runCmd` count on. -/
structure CommandsServed (system : CommandSystem Client) : Prop where
  -- executed once each, in turn, all but at most the last
  once : ∃ pending, pending.length ≤ 1 ∧
    system.accepted.map (SystemTask.redirected ·.cmd) = system.executions.map (·.cmd) ++ pending
  executed : ∀ execution ∈ system.executions, execution.child ≠ none
  -- a call that has not timed out returns the status of its own command
  own : ∀ number cmdStatus reports, .status number cmdStatus reports ∈ system.returns →
    ∃ command execution exit, system.accepted[number]? = some command ∧
      system.executions[number]? = some execution ∧ system.exits[number]? = some (some exit) ∧
      execution.cmd = SystemTask.redirected command.cmd ∧ execution.child = some exit.child ∧
      cmdStatus = exit.status
  timedOut : ∀ number reports, .timeout number reports ∈ system.returns →
    number < system.executions.length
  invalid : ∀ client cmd, .invalidArg client cmd ∈ system.returns → cmd = ""
  -- refused only while a command is running
  refused : ∀ client running, .alreadyRunning client running ∈ system.returns → running ≠ []
  killed : ∀ kill ∈ system.kills, 0 < kill.pid ∧ kill.pid ∈ kill.running
  completes : Completes system

def CommandsMeet (system : CommandSystem Client) (step : Step Client) : Prop :=
  Meets system step ∧ Succeeds step

instance decidableCommandsMeet (system : CommandSystem Client) (step : Step Client) :
    Decidable (CommandsMeet system step) :=
  inferInstanceAs (Decidable ((Enabled system step ∧ Apart system step) ∧ Succeeds step))

theorem Kept.length_exits_le (kept : Kept system) :
    system.exits.length ≤ system.executions.length := by
  by_cases forked : system.stage.HasForked
  · have := kept.child.forked forked
    omega
  · exact Nat.le_of_eq (kept.child.done forked).symm

/-- Also where a `fork` or a `waitpid` fails, a call returns what its own execution gave. -/
theorem Kept.own (kept : Kept system) {number : Nat} {cmdStatus : Int} {reports : List UInt32}
    (returned : .status number cmdStatus reports ∈ system.returns) :
    ∃ command execution exit, system.accepted[number]? = some command ∧
      system.executions[number]? = some execution ∧ system.exits[number]? = some exit ∧
      execution.cmd = SystemTask.redirected command.cmd ∧ cmdStatus = exitValue exit := by
  obtain ⟨exit, here, same⟩ := kept.returns _ returned
  have bound : number < system.executions.length :=
    Nat.lt_of_lt_of_le (List.getElem?_eq_some_iff.mp here).1 kept.length_exits_le
  obtain ⟨pending, order⟩ : ∃ pending,
      system.accepted.map (SystemTask.redirected ·.cmd) =
        system.executions.map (·.cmd) ++ pending := by
    by_cases waits : system.handover.Pending
    · exact ⟨_, kept.order.pending waits⟩
    · exact ⟨[], by simpa using kept.order.settled waits⟩
  have place := congrArg (fun cmds => cmds[number]?) order
  rw [List.getElem?_append_left (by simpa using bound), List.getElem?_map, List.getElem?_map,
    List.getElem?_eq_getElem bound] at place
  obtain ⟨command, there, cmd⟩ := Option.map_eq_some_iff.mp place
  exact ⟨command, _, exit, there, List.getElem?_eq_getElem bound, here, cmd.symm, same⟩

theorem Kept.commandsServed (kept : Kept system) (executed : Executed system) :
    CommandsServed system where
  once := by
    by_cases waits : system.handover.Pending
    · exact ⟨[_], by simp, kept.order.pending waits⟩
    · exact ⟨[], by simp, by simpa using kept.order.settled waits⟩
  executed := executed.children
  own := by
    intro number cmdStatus reports returned
    obtain ⟨command, execution, exit, accepted, here, ended, cmd, same⟩ := kept.own returned
    cases exit with
    | none => exact absurd rfl (executed.exits none (List.mem_of_getElem? ended))
    | some exit =>
        obtain ⟨other, there, child⟩ := kept.child.exited number exit ended
        rw [Option.some.inj (there.symm.trans here)] at child
        exact ⟨command, execution, exit, accepted, here, ended, cmd, child, same⟩
  timedOut := by
    intro number reports returned
    exact Nat.lt_of_lt_of_le (kept.returns _ returned) kept.length_exits_le
  invalid := fun client cmd returned => kept.returns _ returned
  refused := fun client running returned => (kept.returns _ returned).elim
  killed := kept.kills
  completes := kept.completes

/-- In every run that keeps the condition the commands are run and answered. -/
theorem commandsServed_of_meets (steps : List (Step Client))
    (run : Guarded CommandsMeet next initial steps) :
    CommandsServed (steps.foldl next initial) := by
  have preserved : ∀ (system : CommandSystem Client) step, Kept system ∧ Executed system →
      CommandsMeet system step → Kept (next system step) ∧ Executed (next system step) :=
    fun _ _ holds meets => ⟨kept_next holds.1 meets.1, executed_next holds.2 meets.1.1 meets.2⟩
  have invariant := run.invariant preserved ⟨kept_initial, executed_initial⟩
  exact invariant.1.commandsServed invariant.2

/-- Where a `fork` or a `waitpid` fails, the call returns -1 and the rest holds as before. -/
theorem own_of_apart {steps : List (Step Client)} (run : Guarded Meets next initial steps)
    {number : Nat} {cmdStatus : Int} {reports : List UInt32}
    (returned : .status number cmdStatus reports ∈ (steps.foldl next initial).returns) :
    ∃ command execution exit, (steps.foldl next initial).accepted[number]? = some command ∧
      (steps.foldl next initial).executions[number]? = some execution ∧
      (steps.foldl next initial).exits[number]? = some exit ∧
      execution.cmd = SystemTask.redirected command.cmd ∧ cmdStatus = exitValue exit :=
  (run.invariant (fun _ _ => kept_next) kept_initial).own returned

section Runs

/-- A command that succeeds, run with a progress report and no timeout. -/
def commandRun : List (Step Nat) :=
  [.call 0 "true" 10 0, .signalStart, .startWait true, .fork (some 7), .assign, .callWaitpid,
    .waitpid (some ⟨7, 0⟩), .store, .signalEnd, .endWait true, .finish]

/-- A second of waits that time out. -/
def second : List (Step Nat) :=
  List.replicate 20 (.endWait false)

/-- Another client's command follows and is killed after a second; a third client
gives no command. -/
def clientsRun : List (Step Nat) :=
  commandRun ++
    [.clear, .call 1 "sleep 9" 0 1, .signalStart, .startWait true, .fork (some 8), .assign,
      .callWaitpid] ++
    second ++
    [.kill, .waitpid (some ⟨8, 9⟩), .store, .signalEnd, .endWait true, .finish, .call 2 "" 0 0]

theorem commandsServed_clientsRun :
    CommandsServed (clientsRun.foldl next initial) ∧
      (clientsRun.foldl next initial).returns =
        [.status 0 0 [0, 100], .timeout 1 [], .invalidArg 2 ""] ∧
      (clientsRun.foldl next initial).kills = [⟨8, [8]⟩] :=
  ⟨commandsServed_of_meets clientsRun (by decide +kernel), by decide +kernel, by decide +kernel⟩

/-- The next command follows at once. -/
def eagerRun : List (Step Nat) :=
  commandRun ++ [.call 1 "false" 0 0]

/-- It is refused although no command is running. -/
theorem eager_command_refused :
    Guarded Enabled next initial eagerRun ∧ ¬ CommandsServed (eagerRun.foldl next initial) := by
  refine ⟨by decide +kernel, fun served => served.refused 1 [] ?_ rfl⟩
  decide +kernel

/-- The start is signalled as the task's wait times out. -/
def unheardRun : List (Step Nat) :=
  [.call 0 "true" 0 1, .signalStart, .startWait false] ++ second ++ [.kill]

/-- The kill goes to the processes of the caller's group. -/
theorem group_is_killed :
    Guarded Enabled next initial unheardRun ∧
      (unheardRun.foldl next initial).kills = [⟨0, []⟩] ∧
      ¬ CommandsServed (unheardRun.foldl next initial) := by
  have kills : (unheardRun.foldl next initial).kills = [⟨0, []⟩] := by decide +kernel
  refine ⟨by decide +kernel, kills, fun served => ?_⟩
  have sent := served.killed ⟨0, []⟩ (by simp [kills])
  simp at sent

/-- The fork fails and the timeout expires before the end is signalled. -/
def failedForkRun : List (Step Nat) :=
  [.call 0 "true" 0 1, .signalStart, .startWait true, .fork none, .assign] ++ second ++ [.kill]

theorem every_process_is_killed :
    Guarded Enabled next initial failedForkRun ∧
      (failedForkRun.foldl next initial).kills = [⟨-1, []⟩] ∧
      ¬ CommandsServed (failedForkRun.foldl next initial) := by
  have kills : (failedForkRun.foldl next initial).kills = [⟨-1, []⟩] := by decide +kernel
  refine ⟨by decide +kernel, kills, fun served => ?_⟩
  have sent := served.killed ⟨-1, []⟩ (by simp [kills])
  simp at sent

end Runs

end CommandSystem

end OpenMplane
