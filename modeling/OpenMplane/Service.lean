import OpenMplane.ConditionalFlag
import OpenMplane.GuardedRuns
import Mathlib.Logic.Function.Basic

/-!
# A controlled service

The base class `Service`: any number of threads call `reset`, `suspend`, `resume`,
`shutdown` and `eventNotify`, each under the mutex of `mNotify`, while `run` reads
and writes the state and the control without it.  A step is one access of a thread
or of the loop to what the others use.  The run begins where the task, started by
`start`, calls `run`; how long `service` and the waits take is left out.
-/

namespace OpenMplane

open GuardedRuns Conditional

inductive ServiceState
  | ServiceCreated
  | ServiceStarted
  | ServiceReset
  | ServiceSuspended
  | ServiceResumed
  | ServiceRunning
  | ServiceFault
  | ServiceShutdown
  deriving DecidableEq, Repr

inductive CtlState
  | Noop
  | Start
  | Reset
  | Suspend
  | Resume
  | Shutdown
  deriving DecidableEq, Repr

inductive ServiceCall
  | reset
  | suspend
  | resume
  | shutdown
  | eventNotify
  deriving DecidableEq, Repr

namespace ServiceCall

/-- The state in which the call is accepted, and the control it sets then. -/
def request : ServiceCall → Option (ServiceState × CtlState)
  | reset => some (.ServiceRunning, .Reset)
  | suspend => some (.ServiceRunning, .Suspend)
  | resume => some (.ServiceSuspended, .Resume)
  | shutdown => some (.ServiceRunning, .Shutdown)
  | eventNotify => none

end ServiceCall

/-- Where a thread is: out of the service, in `shutdown` of a service whose task is
not running, before the mutex, and with the mutex before the check of the state,
before the control is set, before the signal. -/
inductive ServiceClientAt
  | idle
  | stopping
  | locking (call : ServiceCall)
  | checking (required : ServiceState) (control : CtlState)
  | writing (control : CtlState)
  | signalling (control : CtlState)
  deriving DecidableEq, Repr

def ServiceClientAt.Holds : ServiceClientAt → Prop
  | checking .. | writing _ | signalling _ => True
  | idle | stopping | locking _ => False

/-- Where `run` is: before its two first statements, at the test of the loop, at the
two tests before `service`, in `service`, before the state is set after an error,
in the timed wait, before the switch, in the branch of a control, in `doReset`,
before the state is set after it, before the control is cleared, after the loop,
and out of `run`. -/
inductive ServiceLoopAt
  | entering
  | starting
  | testing
  | checkingControl
  | checkingState
  | serving
  | failing
  | waiting
  | looking
  | applying (control : CtlState)
  | inReset
  | running
  | clearing
  | returning
  | ended
  deriving DecidableEq, Repr

structure Service (Thread : Type) where
  mState : ServiceState
  mControl : CtlState
  -- the flag of the conditional and the thread that has its mutex
  mNotify : Bool
  lock : Option Thread
  mRunning : Bool
  serviceError : Int
  loop : ServiceLoopAt
  client : Thread → ServiceClientAt

namespace Service

variable {Thread : Type}

/-- As `start` leaves it, when the task has come to `run`. -/
def initial : Service Thread where
  mState := .ServiceCreated
  mControl := .Start
  mNotify := false
  lock := none
  mRunning := true
  serviceError := 0
  loop := .entering
  client _ := .idle

inductive Step (Thread : Type)
  | call (thread : Thread) (call : ServiceCall)
  | stop (thread : Thread)
  | lock (thread : Thread)
  | check (thread : Thread)
  | write (thread : Thread)
  | signal (thread : Thread)
  | proceed
  | serve (serviceError : Int)
  | wait (result : Bool)
  deriving DecidableEq, Repr

def Enabled (service : Service Thread) : Step Thread → Prop
  | .call thread _ => service.client thread = .idle
  | .stop thread => service.client thread = .stopping
  | .lock thread => (∃ call, service.client thread = .locking call) ∧ service.lock = none
  | .check thread => ∃ required control, service.client thread = .checking required control
  | .write thread => ∃ control, service.client thread = .writing control
  | .signal thread => ∃ control, service.client thread = .signalling control
  | .proceed => service.loop ≠ .serving ∧ service.loop ≠ .waiting ∧ service.loop ≠ .ended
  | .serve _ => service.loop = .serving
  | .wait result => service.loop = .waiting ∧ service.lock = none ∧
      FlagOp.Enabled service.mNotify (.wait result)

section Decidable

variable (place : ServiceClientAt)

instance : Decidable (∃ call, place = .locking call) :=
  match place with
  | .locking call => isTrue ⟨call, rfl⟩
  | .idle | .stopping | .checking .. | .writing _ | .signalling _ => isFalse nofun

instance : Decidable (∃ required control, place = .checking required control) :=
  match place with
  | .checking required control => isTrue ⟨required, control, rfl⟩
  | .idle | .stopping | .locking _ | .writing _ | .signalling _ => isFalse nofun

instance : Decidable (∃ control, place = .writing control) :=
  match place with
  | .writing control => isTrue ⟨control, rfl⟩
  | .idle | .stopping | .locking _ | .checking .. | .signalling _ => isFalse nofun

instance : Decidable (∃ control, place = .signalling control) :=
  match place with
  | .signalling control => isTrue ⟨control, rfl⟩
  | .idle | .stopping | .locking _ | .checking .. | .writing _ => isFalse nofun

end Decidable

instance decidableEnabled [DecidableEq Thread] (service : Service Thread) :
    ∀ step, Decidable (Enabled service step)
  | .call thread _ => inferInstanceAs (Decidable (service.client thread = .idle))
  | .stop thread => inferInstanceAs (Decidable (service.client thread = .stopping))
  | .lock _ => inferInstanceAs (Decidable (_ ∧ service.lock = none))
  | .check thread => inferInstanceAs (Decidable (∃ required control,
      service.client thread = .checking required control))
  | .write thread => inferInstanceAs (Decidable (∃ control,
      service.client thread = .writing control))
  | .signal thread => inferInstanceAs (Decidable (∃ control,
      service.client thread = .signalling control))
  | .proceed => inferInstanceAs (Decidable (_ ∧ _ ∧ service.loop ≠ .ended))
  | .serve _ => inferInstanceAs (Decidable (service.loop = .serving))
  | .wait true => inferInstanceAs (Decidable (_ ∧ service.lock = none ∧ service.mNotify = true))
  | .wait false => inferInstanceAs (Decidable (_ ∧ service.lock = none ∧ True))

variable [DecidableEq Thread]

def move (service : Service Thread) (thread : Thread) (place : ServiceClientAt) :
    Service Thread :=
  { service with client := Function.update service.client thread place }

/-- What a thread does; the mutex is released on every return. -/
def clientStep (service : Service Thread) (thread : Thread) : Service Thread :=
  match service.client thread with
  | .idle => service
  | .stopping => { service with mState := .ServiceShutdown }.move thread .idle
  | .locking call =>
      { service with lock := some thread }.move thread (match call.request with
        | some (required, control) => .checking required control
        | none => .signalling .Noop)
  | .checking required control =>
      if service.mState = required then service.move thread (.writing control)
      else { service with lock := none }.move thread .idle
  | .writing control => { service with mControl := control }.move thread (.signalling control)
  | .signalling _ =>
      { service with mNotify := FlagOp.next service.mNotify .signal, lock := none }.move thread
        .idle

/-- The switch on the control. -/
def look (service : Service Thread) : Service Thread :=
  match service.mControl with
  | .Noop | .Start => { service with loop := .clearing }
  | control => { service with loop := .applying control }

def apply (service : Service Thread) : CtlState → Service Thread
  | .Noop | .Start => { service with loop := .clearing }
  | .Reset => { service with mState := .ServiceReset, loop := .inReset }
  | .Suspend => { service with mState := .ServiceSuspended, loop := .clearing }
  | .Resume => { service with mState := .ServiceRunning, loop := .clearing }
  | .Shutdown => { service with mState := .ServiceShutdown, loop := .clearing }

/-- What `run` does next, out of its wait and of `service`. -/
def loopStep (service : Service Thread) : Service Thread :=
  match service.loop with
  | .entering => { service with mState := .ServiceRunning, loop := .starting }
  | .starting => { service with mControl := .Noop, loop := .testing }
  | .testing =>
      { service with
        loop := if service.mState = .ServiceShutdown then .returning else .checkingControl }
  | .checkingControl =>
      { service with
        loop := if service.mControl = .Noop then .checkingState
          else if service.serviceError = 0 then .waiting else .testing }
  | .checkingState =>
      { service with
        loop := if service.mState = .ServiceRunning then .serving
          else if service.serviceError = 0 then .waiting else .testing }
  | .failing => { service with mState := .ServiceShutdown, loop := .testing }
  | .looking => service.look
  | .applying control => service.apply control
  | .inReset => { service with loop := .running }
  | .running => { service with mState := .ServiceRunning, loop := .clearing }
  | .clearing => { service with mControl := .Noop, loop := .testing }
  | .returning => { service with mRunning := false, loop := .ended }
  | .serving | .waiting | .ended => service

def next (service : Service Thread) : Step Thread → Service Thread
  | .call thread call =>
      service.move thread
        (if call = .shutdown ∧ service.mRunning = false then .stopping else .locking call)
  | .stop thread | .lock thread | .check thread | .write thread | .signal thread =>
      service.clientStep thread
  | .proceed => service.loopStep
  | .serve serviceError =>
      { service with
        serviceError := serviceError
        loop := if serviceError = 0 then .waiting else .failing }
  | .wait result =>
      { service with
        mNotify := FlagOp.next service.mNotify (.wait result)
        loop := if result then .looking else .testing }

/-- What the users of a service see of a step: a control set by a call, a control
seen by the loop's switch, a call of `doReset`, a call of `service`. -/
inductive Event
  | accepted (control : CtlState)
  | looked (control : CtlState)
  | reset
  | serviced
  deriving DecidableEq, Repr

def observe (service : Service Thread) : Step Thread → Option Event
  | .write thread =>
      match service.client thread with
      | .writing control => some (.accepted control)
      | _ => none
  | .proceed =>
      match service.loop with
      | .looking => some (.looked service.mControl)
      | .inReset => some .reset
      | .checkingState => if service.mState = .ServiceRunning then some .serviced else none
      | _ => none
  | _ => none

/-- The control that a call returns when it has set it.  A call that is not accepted
returns `Noop`, a `shutdown` of a stopped task `Shutdown`. -/
def returned (service : Service Thread) : Step Thread → Option CtlState
  | .signal thread =>
      match service.client thread with
      | .signalling control => if control = .Noop then none else some control
      | _ => none
  | _ => none

end Service

end OpenMplane
