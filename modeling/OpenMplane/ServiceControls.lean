import OpenMplane.Service

/-!
# The controls of a service

What a service is for: a slot holds the control accepted last until the loop looks
at it, an accepted shutdown stays in the slot, a reset that the loop has looked at is
carried out before anything else, and `service` is called only in the running mode.
The state of a service stands for such a slot and mode, and the
invariant below says where a pending control is announced, so that the loop comes
to look at it.
-/

namespace OpenMplane

open GuardedRuns Conditional

inductive ServiceMode
  | running
  | suspended
  | stopped
  deriving DecidableEq, Repr

structure ServiceControls where
  slot : Option CtlState
  mode : ServiceMode
  -- a reset has been looked at, and `doReset` is still to be called
  owes : Bool
  deriving DecidableEq, Repr

namespace ServiceControls

def initial : ServiceControls :=
  ⟨none, .running, false⟩

/-- The mode after the loop has taken a control. -/
def modeAfter (mode : ServiceMode) : CtlState → ServiceMode
  | .Suspend => .suspended
  | .Resume => .running
  | .Shutdown => .stopped
  | .Noop | .Start | .Reset => mode

def Allowed (controls : ServiceControls) : Service.Event → Prop
  | .accepted control => controls.slot = some .Shutdown → control = .Shutdown
  | .looked control => control = controls.slot.getD .Noop ∧ controls.owes = false
  | .reset => controls.owes = true
  | .serviced => controls.mode = .running ∧ controls.owes = false

instance decidableAllowed (controls : ServiceControls) :
    ∀ event, Decidable (Allowed controls event)
  | .accepted control =>
      inferInstanceAs (Decidable (controls.slot = some .Shutdown → control = .Shutdown))
  | .looked control =>
      inferInstanceAs (Decidable (control = controls.slot.getD .Noop ∧ controls.owes = false))
  | .reset => inferInstanceAs (Decidable (controls.owes = true))
  | .serviced => inferInstanceAs (Decidable (controls.mode = .running ∧ controls.owes = false))

def next (controls : ServiceControls) : Service.Event → ServiceControls
  | .accepted control => { controls with slot := some control }
  | .looked control => ⟨none, modeAfter controls.mode control, decide (control = .Reset)⟩
  | .reset => { controls with owes := false }
  | .serviced => controls

end ServiceControls

/-- The control has been looked at, or is the one of `start`, and will be cleared. -/
def ServiceLoopAt.looked : ServiceLoopAt → Bool
  | entering | starting | applying _ | inReset | running | clearing => true
  | testing | checkingControl | checkingState | serving | failing | waiting | looking
  | returning | ended => false

/-- A reset has been looked at, and `doReset` has not been called yet. -/
def ServiceLoopAt.owes : ServiceLoopAt → Bool
  | applying control => decide (control = .Reset)
  | inReset => true
  | entering | starting | testing | checkingControl | checkingState | serving | failing | waiting
  | looking | running | clearing | returning | ended => false

def ServiceState.mode : ServiceState → ServiceMode
  | ServiceSuspended => .suspended
  | ServiceShutdown => .stopped
  | ServiceCreated | ServiceStarted | ServiceReset | ServiceResumed | ServiceRunning
  | ServiceFault => .running

/-- The control a thread with the mutex is about to set. -/
def ServiceClientAt.sets : ServiceClientAt → Option CtlState
  | checking _ control | writing control => some control
  | idle | stopping | locking _ | signalling _ => none

namespace Service

variable {Thread : Type}

def slot (service : Service Thread) : Option CtlState :=
  if service.loop.looked = true ∨ service.mControl = .Noop then none else some service.mControl

/-- A control that has been looked at counts before the state is set. -/
def mode (service : Service Thread) : ServiceMode :=
  match service.loop with
  | .applying control => ServiceControls.modeAfter service.mState.mode control
  | _ => service.mState.mode

def controls (service : Service Thread) : ServiceControls :=
  ⟨service.slot, service.mode, service.loop.owes⟩

/-- No signal of a pending control is lost, and a control is set only while the loop
will look at it: not when it is about to clear the control, not over a shutdown,
not after one, and no reset in a state other than running. -/
def Apart (service : Service Thread) : Step Thread → Prop
  | .wait false => service.mNotify = true → service.mControl = .Noop
  | .write thread =>
      match service.client thread with
      | .writing control => service.loop.looked = false ∧ service.mState ≠ .ServiceShutdown ∧
          (control = .Reset → service.mState = .ServiceRunning) ∧
          (service.mControl = .Shutdown → control = .Shutdown)
      | _ => True
  | _ => True

/-- `service` returns 0. -/
def Works : Step Thread → Prop
  | .serve serviceError => serviceError = 0
  | _ => True

instance decidableApart (service : Service Thread) : ∀ step, Decidable (Apart service step)
  | .wait false => inferInstanceAs (Decidable (service.mNotify = true → service.mControl = .Noop))
  | .write thread =>
      match here : service.client thread with
      | .writing control =>
          decidable_of_iff (service.loop.looked = false ∧ service.mState ≠ .ServiceShutdown ∧
            (control = .Reset → service.mState = .ServiceRunning) ∧
            (service.mControl = .Shutdown → control = .Shutdown)) (by simp [Apart, here])
      | .idle | .stopping | .locking _ | .checking .. | .signalling _ =>
          isTrue (by simp [Apart, here])
  | .wait true | .call .. | .stop _ | .lock _ | .check _ | .signal _ | .proceed | .serve _ =>
      isTrue trivial

instance decidableWorks : ∀ step : Step Thread, Decidable (Works step)
  | .serve serviceError => inferInstanceAs (Decidable (serviceError = 0))
  | .wait _ | .call .. | .stop _ | .lock _ | .check _ | .write _ | .signal _ | .proceed =>
      isTrue trivial

def Meets (service : Service Thread) (step : Step Thread) : Prop :=
  Enabled service step ∧ Works step ∧ Apart service step

instance decidableMeets [DecidableEq Thread] (service : Service Thread) (step : Step Thread) :
    Decidable (Meets service step) :=
  inferInstanceAs (Decidable (Enabled service step ∧ Works step ∧ Apart service step))

structure ClientsKeep (lock : Option Thread) (mRunning : Bool) (loop : ServiceLoopAt)
    (client : Thread → ServiceClientAt) : Prop where
  locks : ∀ thread, (client thread).Holds ↔ lock = some thread
  stopping : ∀ thread, client thread = .stopping → loop = .ended
  ended : mRunning = false → loop = .ended
  sets : ∀ thread control, (client thread).sets = some control → control ≠ .Noop

structure LoopKeeps (mState : ServiceState) (mControl : CtlState) (serviceError : Int)
    (loop : ServiceLoopAt) : Prop where
  works : serviceError = 0 ∧ loop ≠ .failing
  created : loop = .entering → mState = .ServiceCreated
  inReset : loop = .inReset ∨ loop = .running → mState = .ServiceReset
  reset : loop.looked = false ∧ mControl = .Reset ∨ loop = .applying .Reset →
    mState = .ServiceRunning
  shutdown : mState = .ServiceShutdown → loop = .clearing ∨
    (loop = .testing ∨ loop = .returning ∨ loop = .ended) ∧ mControl = .Noop
  ended : loop = .returning ∨ loop = .ended → mState = .ServiceShutdown
  running : mState.mode = .running → mState = .ServiceRunning ∨ loop = .entering ∨
    loop = .inReset ∨ loop = .running

/-- A pending control is about to be looked at, or the wait will hear of it. -/
def Announced (service : Service Thread) : Prop :=
  service.slot ≠ none → service.mNotify = true ∨
    (∃ thread control, service.client thread = .signalling control) ∨ service.loop = .looking

structure Kept (service : Service Thread) : Prop where
  clients : ClientsKeep service.lock service.mRunning service.loop service.client
  loop : LoopKeeps service.mState service.mControl service.serviceError service.loop
  announced : Announced service

theorem kept_initial : Kept (initial : Service Thread) where
  clients := ⟨by simp [initial, ServiceClientAt.Holds], by simp [initial], by simp [initial],
    by simp [initial, ServiceClientAt.sets]⟩
  loop := ⟨by simp [initial], fun _ => rfl, by simp [initial],
    by simp [initial, ServiceLoopAt.looked], by simp [initial], by simp [initial],
    fun _ => Or.inr (Or.inl rfl)⟩
  announced := by simp [Announced, slot, initial, ServiceLoopAt.looked]

variable {lock newLock : Option Thread} {mRunning : Bool} {loop after : ServiceLoopAt}
  {client : Thread → ServiceClientAt} {service : Service Thread} {thread : Thread}

theorem ClientsKeep.goOn (keeps : ClientsKeep lock mRunning loop client)
    (still : loop = .ended → after = .ended) : ClientsKeep lock mRunning after client :=
  ⟨keeps.locks, fun thread stops => still (keeps.stopping thread stops),
    fun ended => still (keeps.ended ended), keeps.sets⟩

variable [DecidableEq Thread]

theorem ClientsKeep.move (keeps : ClientsKeep lock mRunning loop client) (thread : Thread)
    (place : ServiceClientAt) (newLock : Option Thread)
    (own : place.Holds ↔ newLock = some thread)
    (others : ∀ other, other ≠ thread → (newLock = some other ↔ lock = some other))
    (stops : place = .stopping → loop = .ended)
    (sets : ∀ control, place.sets = some control → control ≠ .Noop) :
    ClientsKeep newLock mRunning loop (Function.update client thread place) := by
  refine ⟨fun other => ?_, fun other stopping => ?_, keeps.ended, fun other control here => ?_⟩
  · by_cases same : other = thread
    · subst same
      rwa [Function.update_self]
    · rw [Function.update_of_ne same, keeps.locks other, others other same]
  · by_cases same : other = thread
    · subst same
      rw [Function.update_self] at stopping
      exact stops stopping
    · rw [Function.update_of_ne same] at stopping
      exact keeps.stopping other stopping
  · by_cases same : other = thread
    · subst same
      rw [Function.update_self] at here
      exact sets control here
    · rw [Function.update_of_ne same] at here
      exact keeps.sets other control here

theorem ClientsKeep.release (keeps : ClientsKeep lock mRunning loop client)
    (holds : (client thread).Holds) :
    ClientsKeep none mRunning loop (Function.update client thread .idle) := by
  have mine := (keeps.locks thread).mp holds
  refine keeps.move thread .idle none (by simp [ServiceClientAt.Holds]) ?_ (by simp)
    (by simp [ServiceClientAt.sets])
  intro other different
  rw [mine]
  simp [different.symm]

theorem announced_move {place : ServiceClientAt} {mNotify : Bool} {newLock : Option Thread}
    (announced : Announced service)
    (stays : ∀ control, service.client thread = .signalling control →
      mNotify = true) (sets : service.mNotify = true → mNotify = true) :
    Announced ({ service with mNotify := mNotify, lock := newLock }.move thread place) := by
  intro pending
  rcases announced pending with set | ⟨other, control, signals⟩ | looks
  · exact Or.inl (sets set)
  · by_cases same : other = thread
    · subst same
      exact Or.inl (stays control signals)
    · exact Or.inr (Or.inl ⟨other, control, by simp [move, Function.update_of_ne same, signals]⟩)
  · exact Or.inr (Or.inr looks)

theorem Kept.afterCall (kept : Kept service) {call : ServiceCall} (idle : service.client thread = .idle) :
    Kept (next service (.call thread call)) := by
  have unlocked : service.lock ≠ some thread := by
    rw [Ne, ← kept.clients.locks thread, idle]
    exact id
  refine ⟨?_, kept.loop, announced_move kept.announced (by simp [idle]) id⟩
  refine kept.clients.move thread _ service.lock ?_ (fun _ _ => Iff.rfl) ?_ ?_
  · split_ifs <;> exact iff_of_false id unlocked
  · split_ifs with stopped
    · exact fun _ => kept.clients.ended stopped.2
    · simp
  · split_ifs <;> simp [ServiceClientAt.sets]

theorem Kept.afterStop (kept : Kept service) (stopping : service.client thread = .stopping) :
    Kept (service.clientStep thread) := by
  have ended := kept.clients.stopping thread stopping
  have shutdown := kept.loop.ended (Or.inr ended)
  have unlocked : service.lock ≠ some thread := by
    rw [Ne, ← kept.clients.locks thread, stopping]
    exact id
  simp only [clientStep, stopping]
  rw [← shutdown]
  refine ⟨?_, kept.loop, announced_move kept.announced (by simp [stopping]) id⟩
  exact kept.clients.move thread .idle service.lock (iff_of_false id unlocked)
    (fun _ _ => Iff.rfl) (by simp) (by simp [ServiceClientAt.sets])

theorem Kept.afterLock (kept : Kept service) {call : ServiceCall}
    (locking : service.client thread = .locking call) (free : service.lock = none) :
    Kept (service.clientStep thread) := by
  have others : ∀ other, other ≠ thread →
      (some thread = some other ↔ service.lock = some other) := by
    intro other different
    simp [free, different.symm]
  simp only [clientStep, locking]
  refine ⟨?_, kept.loop, announced_move kept.announced (by simp [locking]) id⟩
  refine kept.clients.move thread _ (some thread) (iff_of_true ?_ rfl) others ?_ ?_
  · cases call <;> trivial
  · cases call <;> simp [ServiceCall.request]
  · cases call <;> simp [ServiceCall.request, ServiceClientAt.sets]

theorem Kept.afterCheck (kept : Kept service) {required : ServiceState} {control : CtlState}
    (checking : service.client thread = .checking required control) :
    Kept (service.clientStep thread) := by
  have holds : (service.client thread).Holds := by simp [checking, ServiceClientAt.Holds]
  have sets := kept.clients.sets thread control (by simp [checking, ServiceClientAt.sets])
  simp only [clientStep, checking]
  split_ifs with accepts
  · refine ⟨?_, kept.loop, announced_move kept.announced (by simp [checking]) id⟩
    exact kept.clients.move thread _ service.lock
      (iff_of_true trivial ((kept.clients.locks thread).mp holds)) (fun _ _ => Iff.rfl) (by simp)
      (by simpa [ServiceClientAt.sets] using sets)
  · exact ⟨kept.clients.release holds, kept.loop,
      announced_move kept.announced (by simp [checking]) id⟩

theorem Kept.afterSignal (kept : Kept service) {control : CtlState}
    (signalling : service.client thread = .signalling control) :
    Kept (service.clientStep thread) := by
  have holds : (service.client thread).Holds := by simp [signalling, ServiceClientAt.Holds]
  simp only [clientStep, signalling]
  exact ⟨kept.clients.release holds, kept.loop, fun _ => Or.inl rfl⟩

theorem Kept.afterWrite (kept : Kept service) (meets : Meets service (.write thread)) :
    Kept (service.clientStep thread) := by
  obtain ⟨⟨control, writing⟩, -, apart⟩ := meets
  simp only [Apart, writing] at apart
  obtain ⟨notLooked, notShutdown, reset, -⟩ := apart
  have holds : (service.client thread).Holds := by simp [writing, ServiceClientAt.Holds]
  simp only [clientStep, writing]
  refine ⟨?_, ?_, fun _ => Or.inr (Or.inl ⟨thread, control, by simp [move]⟩)⟩
  · exact kept.clients.move thread _ service.lock
      (iff_of_true trivial ((kept.clients.locks thread).mp holds)) (fun _ _ => Iff.rfl) (by simp)
      (by simp [ServiceClientAt.sets])
  · refine ⟨kept.loop.works, kept.loop.created, kept.loop.inReset, ?_,
      fun shutdown => absurd shutdown notShutdown, kept.loop.ended, kept.loop.running⟩
    rintro (⟨-, isReset⟩ | applying)
    · exact reset isReset
    · rw [show service.loop = .applying .Reset from applying] at notLooked
      simp [ServiceLoopAt.looked] at notLooked

end Service

end OpenMplane
