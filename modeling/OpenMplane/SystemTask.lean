import OpenMplane.ConditionalFlag
import OpenMplane.GuardedRuns

/-!
# Shell commands run by a task

`SystemTask` with the clients that call `runCmd`.  A call holds `mMutex` from its
first statement to its last, so that at most one is under way and a call that is
accepted is known by its place among the accepted ones.  The task's loop goes on
beside it, and both write the members without the mutex.  A step is one access of
one side to what the other side uses too.  The children that have been forked and
not reaped are part of the state; what was accepted, executed, returned and killed
is kept beside it and read by no step.
-/

namespace OpenMplane

open GuardedRuns Conditional

namespace SystemTaskExit

def STEXIT_INVALID_ARG : Int := -1
def STEXIT_ALREADY_RUNNING : Int := -2
def STEXIT_TIMEOUT : Int := -3

end SystemTaskExit

structure SystemTask where
  mCmd : String
  mExecuting : Bool
  mCmdStatus : Int
  mChildPid : Int
  -- the flags of the conditionals
  mCondStart : Bool
  mCondEnd : Bool
  deriving DecidableEq, Repr

namespace SystemTask

def TASK_TICK_MS : UInt32 := 50

def TICKS_PER_SEC : UInt32 := 1000 / TASK_TICK_MS

def constructed : SystemTask :=
  ⟨"", false, 0, 0, false, false⟩

/-- The command as the shell is given it. -/
def redirected (cmd : String) : String :=
  if '>' ∈ cmd.toList then cmd else cmd ++ " 2>&1 >/dev/null"

end SystemTask

/-- Where the task is: in its timed wait, before `fork`, before `mChildPid` is
set, before `waitpid`, in it, before the status is set, before the end signal,
before `mExecuting` is cleared. -/
inductive TaskStage
  | waiting
  | forking
  | assigning
  | calling
  | inWaitpid
  | storing
  | signalling
  | clearing
  deriving DecidableEq, Repr

/-- Where an accepted call is: before the start signal, in the timed wait for the
end, before `kill`, after its last wait. -/
inductive RunCmdAt
  | signalling
  | waiting
  | killing
  | ending
  deriving DecidableEq, Repr

/-- The locals of an accepted call, and the progress it has reported. -/
structure RunCmd where
  number : Nat
  place : RunCmdAt
  timedOut : Bool
  expectedRuntimeSecs : UInt32
  timeoutSecs : UInt32
  runtimeTimer : UInt32
  timeoutTimer : UInt32
  tick : UInt32
  reports : List UInt32
  deriving DecidableEq, Repr

namespace RunCmd

def begun (number : Nat) (expectedRuntimeSecs timeoutSecs : UInt32) : RunCmd where
  number := number
  place := .signalling
  timedOut := false
  expectedRuntimeSecs := expectedRuntimeSecs
  timeoutSecs := timeoutSecs
  runtimeTimer := 0
  timeoutTimer := timeoutSecs
  tick := 0
  reports := if 0 < expectedRuntimeSecs then [0] else []

/-- The progress report of a second. -/
def report (call : RunCmd) : RunCmd :=
  if 0 < call.expectedRuntimeSecs then
    let progress := 100 * (call.runtimeTimer + 1) / call.expectedRuntimeSecs
    { call with
      runtimeTimer := call.runtimeTimer + 1
      reports := call.reports ++ [if 100 ≤ progress then 99 else progress] }
  else call

/-- What follows a wait that timed out, up to `kill` when the timeout has expired. -/
def timeUp (call : RunCmd) : RunCmd :=
  if call.tick + 1 < SystemTask.TICKS_PER_SEC then { call with tick := call.tick + 1 }
  else if 0 < call.timeoutSecs then
    if call.timeoutTimer - 1 = 0 then
      { call with tick := 0, timeoutTimer := 0, timedOut := true, place := .killing }
    else { call with tick := 0, timeoutTimer := call.timeoutTimer - 1 }.report
  else { call with tick := 0 }.report

end RunCmd

structure AcceptedCommand (Client : Type) where
  client : Client
  cmd : String
  deriving DecidableEq, Repr

/-- A run of `simpleSystem`, with the child it forked if it could. -/
structure Execution where
  cmd : String
  child : Option Int
  deriving DecidableEq, Repr

/-- What `waitpid` returns of a child. -/
structure ChildExit where
  child : Int
  status : Int
  deriving DecidableEq, Repr

/-- What `simpleSystem` returns. -/
def exitValue : Option ChildExit → Int
  | some exit => exit.status
  | none => -1

/-- A `kill`, with the children running then. -/
structure SentKill where
  pid : Int
  running : List Int
  deriving DecidableEq, Repr

/-- How a `runCmd` returns; a refused one with its command or the children running
then. -/
inductive RunCmdReturn (Client : Type)
  | invalidArg (client : Client) (cmd : String)
  | alreadyRunning (client : Client) (running : List Int)
  | timeout (number : Nat) (reports : List UInt32)
  | status (number : Nat) (cmdStatus : Int) (reports : List UInt32)
  deriving DecidableEq, Repr

def RunCmdReturn.code {Client : Type} : RunCmdReturn Client → Int
  | invalidArg .. => SystemTaskExit.STEXIT_INVALID_ARG
  | alreadyRunning .. => SystemTaskExit.STEXIT_ALREADY_RUNNING
  | timeout .. => SystemTaskExit.STEXIT_TIMEOUT
  | status _ cmdStatus _ => cmdStatus

structure CommandSystem (Client : Type) where
  task : SystemTask
  stage : TaskStage
  -- what fork returned, what waitpid was called with, what is returned
  value : Int
  caller : Option RunCmd
  running : List Int
  accepted : List (AcceptedCommand Client)
  executions : List Execution
  exits : List (Option ChildExit)
  returns : List (RunCmdReturn Client)
  kills : List SentKill

namespace CommandSystem

variable {Client : Type}

def initial : CommandSystem Client where
  task := SystemTask.constructed
  stage := .waiting
  value := 0
  caller := none
  running := []
  accepted := []
  executions := []
  exits := []
  returns := []
  kills := []

inductive Step (Client : Type)
  | call (client : Client) (cmd : String) (expectedRuntimeSecs timeoutSecs : UInt32)
  | signalStart
  | endWait (result : Bool)
  | kill
  | finish
  | startWait (result : Bool)
  | fork (child : Option Int)
  | assign
  | callWaitpid
  | waitpid (exit : Option ChildExit)
  | store
  | signalEnd
  | clear
  deriving DecidableEq, Repr

def CallerAt (system : CommandSystem Client) (place : RunCmdAt) : Prop :=
  ∃ call, system.caller = some call ∧ call.place = place

/-- `waitpid` of 0 or -1 waits for any child. -/
def Reapable (system : CommandSystem Client) : Option ChildExit → Prop
  | none => True
  | some exit => exit.child ∈ system.running ∧
      (system.value = exit.child ∨ system.value = 0 ∨ system.value = -1)

def Enabled (system : CommandSystem Client) : Step Client → Prop
  -- the mutex is free
  | .call .. => system.caller = none
  | .signalStart => system.CallerAt .signalling
  | .endWait result =>
      system.CallerAt .waiting ∧ FlagOp.Enabled system.task.mCondEnd (.wait result)
  | .kill => system.CallerAt .killing
  | .finish => system.CallerAt .ending
  | .startWait result =>
      system.stage = .waiting ∧ FlagOp.Enabled system.task.mCondStart (.wait result)
  | .fork child =>
      system.stage = .forking ∧ ∀ pid, child = some pid → 0 < pid ∧ pid ∉ system.running
  | .assign => system.stage = .assigning
  | .callWaitpid => system.stage = .calling
  | .waitpid exit => system.stage = .inWaitpid ∧ system.Reapable exit
  | .store => system.stage = .storing
  | .signalEnd => system.stage = .signalling
  | .clear => system.stage = .clearing

instance (system : CommandSystem Client) (place : RunCmdAt) : Decidable (system.CallerAt place) :=
  decidable_of_iff (system.caller.map (·.place) = some place) Option.map_eq_some_iff

instance (system : CommandSystem Client) : ∀ exit, Decidable (system.Reapable exit)
  | none => isTrue trivial
  | some exit => inferInstanceAs (Decidable (exit.child ∈ system.running ∧ _))

instance decidableEnabled (system : CommandSystem Client) :
    ∀ step, Decidable (Enabled system step)
  | .call .. => decidable_of_iff (system.caller.isNone = true) Option.isNone_iff_eq_none
  | .signalStart => inferInstanceAs (Decidable (system.CallerAt .signalling))
  | .endWait true => inferInstanceAs (Decidable (_ ∧ system.task.mCondEnd = true))
  | .endWait false => inferInstanceAs (Decidable (_ ∧ True))
  | .kill => inferInstanceAs (Decidable (system.CallerAt .killing))
  | .finish => inferInstanceAs (Decidable (system.CallerAt .ending))
  | .startWait true => inferInstanceAs (Decidable (_ ∧ system.task.mCondStart = true))
  | .startWait false => inferInstanceAs (Decidable (_ ∧ True))
  | .fork child => inferInstanceAs (Decidable (_ ∧ ∀ pid, child = some pid → _))
  | .assign => inferInstanceAs (Decidable (system.stage = .assigning))
  | .callWaitpid => inferInstanceAs (Decidable (system.stage = .calling))
  | .waitpid exit => inferInstanceAs (Decidable (_ ∧ system.Reapable exit))
  | .store => inferInstanceAs (Decidable (system.stage = .storing))
  | .signalEnd => inferInstanceAs (Decidable (system.stage = .signalling))
  | .clear => inferInstanceAs (Decidable (system.stage = .clearing))

/-- `runCmd` up to the start signal. -/
def callStep (system : CommandSystem Client) (client : Client) (cmd : String)
    (expectedRuntimeSecs timeoutSecs : UInt32) : CommandSystem Client :=
  if cmd.isEmpty then { system with returns := system.returns ++ [.invalidArg client cmd] }
  else if system.task.mExecuting then
    { system with returns := system.returns ++ [.alreadyRunning client system.running] }
  else
    { system with
      task :=
        { system.task with
          mExecuting := true
          mCmd := SystemTask.redirected cmd
          mCmdStatus := 0
          mChildPid := 0 }
      caller := some (RunCmd.begun system.accepted.length expectedRuntimeSecs timeoutSecs)
      accepted := system.accepted ++ [⟨client, cmd⟩] }

/-- A step of the accepted call. -/
def callerStep (system : CommandSystem Client) (call : RunCmd) :
    Step Client → CommandSystem Client
  | .signalStart =>
      { system with
        task := { system.task with mCondStart := FlagOp.next system.task.mCondStart .signal }
        caller := some { call with place := .waiting } }
  | .endWait result =>
      { system with
        task := { system.task with mCondEnd := FlagOp.next system.task.mCondEnd (.wait result) }
        caller := some (if result then { call with place := .ending } else call.timeUp) }
  | .kill =>
      { system with
        caller := some { call.report with place := .waiting }
        kills := system.kills ++ [⟨system.task.mChildPid, system.running⟩] }
  | .finish =>
      { system with
        task := { system.task with mChildPid := 0 }
        caller := none
        returns := system.returns ++
          [if call.timedOut then .timeout call.number call.reports
          else .status call.number system.task.mCmdStatus
            (call.reports ++ if 0 < call.expectedRuntimeSecs then [100] else [])] }
  | _ => system

def next (system : CommandSystem Client) : Step Client → CommandSystem Client
  | .call client cmd expectedRuntimeSecs timeoutSecs =>
      system.callStep client cmd expectedRuntimeSecs timeoutSecs
  | .startWait result =>
      { system with
        task :=
          { system.task with mCondStart := FlagOp.next system.task.mCondStart (.wait result) }
        stage := if result then .forking else .waiting }
  | .fork child =>
      { system with
        stage := .assigning
        value := child.getD (-1)
        running := system.running ++ child.toList
        executions := system.executions ++ [⟨system.task.mCmd, child⟩] }
  | .assign =>
      { system with
        task := { system.task with mChildPid := system.value }
        stage := if system.value = -1 then .storing else .calling
        exits := if system.value = -1 then system.exits ++ [none] else system.exits }
  | .callWaitpid => { system with stage := .inWaitpid, value := system.task.mChildPid }
  | .waitpid exit =>
      { system with
        stage := .storing
        value := exitValue exit
        running := system.running.filter fun pid => some pid ≠ exit.map (·.child)
        exits := system.exits ++ [exit] }
  | .store =>
      { system with
        task := { system.task with mCmdStatus := system.value }
        stage := .signalling }
  | .signalEnd =>
      { system with
        task := { system.task with mCondEnd := FlagOp.next system.task.mCondEnd .signal }
        stage := .clearing }
  | .clear =>
      { system with task := { system.task with mExecuting := false }, stage := .waiting }
  | step =>
      match system.caller with
      | some call => system.callerStep call step
      | none => system

end CommandSystem

end OpenMplane
