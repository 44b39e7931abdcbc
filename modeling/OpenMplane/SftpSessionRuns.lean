import OpenMplane.SftpSession

/-!
# The jobs of a session over a run

What clients queue is what the task has run, the job it runs and what is still
queued, in this order; what a call has queued and has still to queue are its own
jobs.  A job may only be left in the queue of a waiting task when its call has
still to signal the event, or the event is set.
-/

namespace OpenMplane

open GuardedRuns Conditional

namespace SftpClientAt

variable {Client : Type}

def toQueue : SftpClientAt Client → List (SftpJob Client)
  | queueing job later => job :: later
  | idle | signalling _ => []

/-- The call in progress. -/
def inCall : SftpClientAt Client → List (SftpCaller Client)
  | queueing job _ => [job.caller]
  | signalling caller => [caller]
  | idle => []

@[simp]
theorem toQueue_idle : (idle : SftpClientAt Client).toQueue = [] :=
  rfl

@[simp]
theorem toQueue_queueing (job : SftpJob Client) (later : List (SftpJob Client)) :
    (queueing job later).toQueue = job :: later :=
  rfl

@[simp]
theorem toQueue_signalling (caller : SftpCaller Client) :
    (signalling caller).toQueue = [] :=
  rfl

@[simp]
theorem inCall_idle : (idle : SftpClientAt Client).inCall = [] :=
  rfl

@[simp]
theorem inCall_queueing (job : SftpJob Client) (later : List (SftpJob Client)) :
    (queueing job later).inCall = [job.caller] :=
  rfl

@[simp]
theorem inCall_signalling (caller : SftpCaller Client) :
    (signalling caller).inCall = [caller] :=
  rfl

end SftpClientAt

theorem SftpRequest.schedule_ok {Client : Type} {request : SftpRequest}
    {caller : SftpCaller Client} {mConnected localExists : Bool} {jobs : List (SftpJob Client)}
    (scheduled : request.schedule caller mConnected localExists = .ok jobs) :
    ∃ path : SftpPath, jobs =
      (if request.IsUpload then SftpSession.addMkdir caller path.mPath else []) ++
        [request.job caller path] := by
  simp only [schedule, bind, Except.bind, throw, throwThe, MonadExceptOf.throw, pure,
    Except.pure] at scheduled
  cases mConnected with
  | false => simp at scheduled
  | true =>
      simp only [Bool.not_true, Bool.false_eq_true, ↓reduceIte] at scheduled
      split at scheduled
      · simp at scheduled
      · cases parsed : SftpPath.parse request.remoteFile with
        | error error =>
            rw [parsed] at scheduled
            simp at scheduled
        | ok path =>
            rw [parsed] at scheduled
            exact ⟨path, (Except.ok.inj scheduled).symm⟩

namespace SftpSession

variable {Client : Type}

theorem caller_of_mem_addMkdir {caller : SftpCaller Client} {path : String}
    {job : SftpJob Client} (member : job ∈ addMkdir caller path) : job.caller = caller := by
  unfold addMkdir at member
  split at member
  · simp at member
  · rw [List.mem_singleton.mp member]

theorem mkdir_of_mem_addMkdir {caller : SftpCaller Client} {path : String}
    {job : SftpJob Client} (member : job ∈ addMkdir caller path) : job.mType = .JOB_MKDIR := by
  unfold addMkdir at member
  split at member
  · simp at member
  · rw [List.mem_singleton.mp member]

theorem caller_of_schedule {request : SftpRequest} {caller : SftpCaller Client}
    {mConnected localExists : Bool} {jobs : List (SftpJob Client)}
    (scheduled : request.schedule caller mConnected localExists = .ok jobs) :
    ∀ job ∈ jobs, job.caller = caller := by
  obtain ⟨path, rfl⟩ := SftpRequest.schedule_ok scheduled
  intro job member
  rcases List.mem_append.mp member with directory | transfer
  · split_ifs at directory
    · exact caller_of_mem_addMkdir directory
    · simp at directory
  · rw [List.mem_singleton.mp transfer]
    rfl

section Observed

/-- The job in the task's hands. -/
def running (session : SftpSession Client) : List (SftpJob Client) :=
  match session.task with
  | .running job _ => [job]
  | .waiting | .taking _ => []

def queuedBy (session : SftpSession Client) : Step Client → List (SftpJob Client)
  | .queue client =>
      match session.client client with
      | .queueing job _ => [job]
      | .idle | .signalling _ => []
  | _ => []

def ranBy (session : SftpSession Client) : Step Client → List (SftpJob Client × SftpAnswers)
  | .run answers => session.running.map (·, answers)
  | _ => []

/-- The call that returns true in a step. -/
def returnedBy (session : SftpSession Client) : Step Client → List (SftpCaller Client)
  | .event client =>
      match session.client client with
      | .signalling caller => [caller]
      | .idle | .queueing .. => []
  | _ => []

/-- The call that goes on past its checks in a step, with its jobs. -/
def acceptedBy (session : SftpSession Client) :
    Step Client → List (SftpCaller Client × List (SftpJob Client))
  | .call client request localExists =>
      match request.schedule ⟨client, session.calls⟩ session.mConnected localExists with
      | .ok jobs => [(⟨client, session.calls⟩, jobs)]
      | .error _ => []
  | _ => []

variable [DecidableEq Client]

/-- The jobs in the order they were queued. -/
def queued (session : SftpSession Client) (steps : List (Step Client)) : List (SftpJob Client) :=
  emitted next queuedBy session steps

/-- The jobs in the order they were run. -/
def ran (session : SftpSession Client) (steps : List (Step Client)) : List (SftpJob Client) :=
  (emitted next ranBy session steps).map Prod.fst

def invocations (session : SftpSession Client) (steps : List (Step Client)) :
    List (SftpInvocation Client) :=
  (emitted next ranBy session steps).flatMap fun (job, answers) => job.handle answers

def returnedTrue (session : SftpSession Client) (steps : List (Step Client)) :
    List (SftpCaller Client) :=
  emitted next returnedBy session steps

def accepted (session : SftpSession Client) (steps : List (Step Client)) :
    List (SftpCaller Client × List (SftpJob Client)) :=
  emitted next acceptedBy session steps

end Observed

section Steps

@[simp]
theorem toQueue_placeFor (caller : SftpCaller Client) (jobs : List (SftpJob Client)) :
    (placeFor caller jobs).toQueue = jobs := by
  cases jobs <;> rfl

theorem inCall_placeFor {caller : SftpCaller Client} {jobs : List (SftpJob Client)}
    (own : ∀ job ∈ jobs, job.caller = caller) : (placeFor caller jobs).inCall = [caller] := by
  cases jobs with
  | nil => rfl
  | cons job later => simp [placeFor, SftpClientAt.inCall, own job (by simp)]

variable [DecidableEq Client]

@[simp]
theorem move_client (session : SftpSession Client) (client other : Client)
    (place : SftpClientAt Client) :
    (session.move client place).client other =
      if other = client then place else session.client other := by
  by_cases same : other = client
  · subst same
    simp [move]
  · simp [move, same]

/-- A client queues the jobs of one call at a time, numbered by the calls made. -/
structure Tagged (session : SftpSession Client) : Prop where
  own : ∀ client, ∀ caller ∈ (session.client client).inCall,
    caller.client = client ∧ caller.number < session.calls ∧
      ∀ job ∈ (session.client client).toQueue, job.caller = caller

omit [DecidableEq Client] in
theorem tagged_initial (mConnected : Bool) :
    Tagged (initial mConnected : SftpSession Client) :=
  ⟨by simp [initial]⟩

/-- What a step does, in the terms of what was there before. -/
inductive Effect (session : SftpSession Client) : Step Client → SftpSession Client → Prop
  | refuse {client request localExists error} (idle : session.client client = .idle)
      (refused : request.schedule ⟨client, session.calls⟩ session.mConnected localExists =
        .error error) :
      Effect session (.call client request localExists)
        ({ session with calls := session.calls + 1 }.setError error)
  | accept {client request localExists jobs} (idle : session.client client = .idle)
      (scheduled : request.schedule ⟨client, session.calls⟩ session.mConnected localExists =
        .ok jobs) :
      Effect session (.call client request localExists)
        ({ session with calls := session.calls + 1 }.move client
          (placeFor ⟨client, session.calls⟩ jobs))
  | queue {client job later} (here : session.client client = .queueing job later) :
      Effect session (.queue client)
        ({ session with mJobs := session.mJobs ++ [job] }.move client
          (placeFor job.caller later))
  | event {client caller} (here : session.client client = .signalling caller) :
      Effect session (.event client) ({ session with mEvent := true }.move client .idle)
  | wake (waits : session.task = .waiting) (set : session.mEvent = true) :
      Effect session .wake { session with mEvent := false, task := .taking true }
  | leave {done} (takes : session.task = .taking done) (empty : session.mJobs = []) :
      Effect session .take { session with task := .waiting }
  | take {done job later} (takes : session.task = .taking done)
      (front : session.mJobs = job :: later) :
      Effect session .take
        { session with mJobs := later, task := .running job (done && later.isEmpty) }
  | run {answers job done} (runs : session.task = .running job done) :
      Effect session (.run answers)
        { session with task := if done then .waiting else .taking done }

theorem effect_of_enabled {session : SftpSession Client} {step : Step Client}
    (enabled : Enabled session step) : Effect session step (next session step) := by
  cases step with
  | call client request localExists =>
      have idle : session.client client = .idle := enabled
      simp only [next]
      split
      · rename_i error refused
        exact .refuse idle refused
      · rename_i jobs scheduled
        exact .accept idle scheduled
  | queue client =>
      obtain ⟨job, later, here⟩ := enabled
      simp only [next, here]
      exact .queue here
  | event client =>
      obtain ⟨caller, here⟩ := enabled
      exact .event here
  | wake => exact .wake enabled.1 enabled.2
  | take =>
      obtain ⟨done, takes⟩ := enabled
      cases front : session.mJobs with
      | nil =>
          simp only [next, takes, front]
          have effect := Effect.leave takes front
          rwa [front] at effect
      | cons job later =>
          simp only [next, takes, front]
          exact .take takes front
  | run answers =>
      obtain ⟨job, done, runs⟩ := enabled
      simp only [next, runs]
      exact .run runs

theorem tagged_step {session after : SftpSession Client} {step : Step Client}
    (tagged : Tagged session) (effect : Effect session step after) : Tagged after := by
  obtain ⟨own⟩ := tagged
  cases effect with
  | refuse idle refused =>
      refine ⟨fun other caller member => ?_⟩
      obtain ⟨client, number, jobs⟩ := own other caller member
      exact ⟨client, Nat.lt_succ_of_lt number, jobs⟩
  | @accept client request localExists jobs idle scheduled =>
      have same := caller_of_schedule scheduled
      refine ⟨fun other caller member => ?_⟩
      rw [move_client] at member ⊢
      split_ifs at member ⊢ with eq
      · rw [inCall_placeFor same, List.mem_singleton] at member
        subst member
        exact ⟨eq.symm, Nat.lt_succ_self _, by simpa using same⟩
      · obtain ⟨client, number, jobs⟩ := own other caller member
        exact ⟨client, Nat.lt_succ_of_lt number, jobs⟩
  | @queue client job later here =>
      have before := own client job.caller (by simp [here])
      rw [here] at before
      have same : ∀ other ∈ later, other.caller = job.caller := fun other member =>
        before.2.2 other (List.mem_cons_of_mem job member)
      refine ⟨fun other caller member => ?_⟩
      rw [move_client] at member ⊢
      split_ifs at member ⊢ with eq
      · rw [inCall_placeFor same, List.mem_singleton] at member
        subst member eq
        exact ⟨before.1, before.2.1, by simpa using same⟩
      · exact own other caller member
  | @event client caller here =>
      refine ⟨fun other caller member => ?_⟩
      rw [move_client] at member ⊢
      split_ifs at member ⊢ with eq
      · simp at member
      · exact own other caller member
  | wake | leave | take | run => exact ⟨own⟩

/-- Nothing is queued that is not run, in hand or still in the queue. -/
theorem jobs_balance {session after : SftpSession Client} {step : Step Client}
    (effect : Effect session step after) :
    (session.running ++ session.mJobs) ++ queuedBy session step =
      (ranBy session step).map Prod.fst ++ (after.running ++ after.mJobs) := by
  cases effect with
  | refuse | accept => simp [queuedBy, ranBy, running, setError, move]
  | queue here => simp [queuedBy, ranBy, running, here, move]
  | event here => simp [queuedBy, ranBy, running, move]
  | wake waits set => simp [queuedBy, ranBy, running, waits]
  | leave takes empty => simp [queuedBy, ranBy, running, takes]
  | take takes front => simp [queuedBy, ranBy, running, takes, front]
  | @run answers job done runs => cases done <;> simp [queuedBy, ranBy, running, runs]

/-- The jobs of a call, and those of them it has still to queue. -/
def ofCall (caller : SftpCaller Client) (jobs : List (SftpJob Client)) : List (SftpJob Client) :=
  jobs.filter (·.caller = caller)

def unqueued (caller : SftpCaller Client) (session : SftpSession Client) :
    List (SftpJob Client) :=
  ofCall caller (session.client caller.client).toQueue

theorem ofCall_of_forall {caller : SftpCaller Client} {jobs : List (SftpJob Client)}
    (own : ∀ job ∈ jobs, job.caller = caller) : ofCall caller jobs = jobs :=
  List.filter_eq_self.mpr fun job member => by simp [own job member]

theorem ofCall_eq_nil {caller : SftpCaller Client} {jobs : List (SftpJob Client)}
    (other : ∀ job ∈ jobs, job.caller ≠ caller) : ofCall caller jobs = [] :=
  List.filter_eq_nil_iff.mpr fun job member => by simp [other job member]

/-- A call queues its own jobs, once each. -/
theorem call_balance (caller : SftpCaller Client) {session after : SftpSession Client}
    {step : Step Client} (tagged : Tagged session) (effect : Effect session step after) :
    unqueued caller session ++ (acceptedBy session step).flatMap (fun made => ofCall caller made.2) =
      ofCall caller (queuedBy session step) ++ unqueued caller after := by
  cases effect with
  | refuse idle refused => simp [unqueued, acceptedBy, queuedBy, refused, ofCall, setError]
  | @accept client request localExists jobs idle scheduled =>
      have same := caller_of_schedule scheduled
      by_cases eq : caller.client = client
      · simp [unqueued, acceptedBy, queuedBy, scheduled, ofCall, eq, idle]
      · have none : ofCall caller jobs = [] := ofCall_eq_nil fun job member isOwn => by
          rw [same job member] at isOwn
          exact eq (by rw [← isOwn])
        have before : ofCall caller (queuedBy session (.call client request localExists)) = [] :=
          rfl
        simp [unqueued, acceptedBy, scheduled, none, before, eq]
  | @queue client job later here =>
      have own := tagged.own client job.caller (by simp [here])
      by_cases eq : caller.client = client
      · simp only [unqueued, acceptedBy, queuedBy, eq, here, move_client, if_true,
          SftpClientAt.toQueue_queueing, toQueue_placeFor, List.flatMap_nil, List.append_nil, ofCall]
        exact List.filter_append [job] later
      · have none : ofCall caller [job] = [] := ofCall_eq_nil fun other member isOwn => by
          rw [List.mem_singleton.mp member] at isOwn
          exact eq (by rw [← isOwn, own.1])
        simp [unqueued, acceptedBy, queuedBy, here, none, eq]
  | @event client signalled here =>
      by_cases eq : caller.client = client
      · simp [unqueued, acceptedBy, queuedBy, here, eq, ofCall]
      · simp [unqueued, acceptedBy, queuedBy, eq, ofCall]
  | wake | leave | take | run => simp [unqueued, acceptedBy, queuedBy, ofCall]

theorem returns_balance (client : Client) {session after : SftpSession Client}
    {step : Step Client} (tagged : Tagged session) (effect : Effect session step after) :
    (session.client client).inCall ++
        ((acceptedBy session step).map Prod.fst).filter (·.client = client) =
      (returnedBy session step).filter (·.client = client) ++ (after.client client).inCall := by
  cases effect with
  | refuse idle refused => simp [acceptedBy, returnedBy, refused, setError]
  | @accept other request localExists jobs idle scheduled =>
      have same := caller_of_schedule scheduled
      by_cases eq : client = other
      · subst eq
        simp [acceptedBy, returnedBy, scheduled, idle, inCall_placeFor same]
      · have : ¬ other = client := fun back => eq back.symm
        simp [acceptedBy, returnedBy, scheduled, eq, this]
  | @queue other job later here =>
      have own := tagged.own other job.caller (by simp [here])
      rw [here] at own
      have same : ∀ rest ∈ later, rest.caller = job.caller := fun rest member =>
        own.2.2 rest (List.mem_cons_of_mem job member)
      by_cases eq : client = other
      · subst eq
        simp [acceptedBy, returnedBy, here, inCall_placeFor same]
      · simp [acceptedBy, returnedBy, eq]
  | @event other caller here =>
      have own := tagged.own other caller (by simp [here])
      by_cases eq : client = other
      · subst eq
        simp [acceptedBy, returnedBy, here, own.1]
      · have : ¬ caller.client = client := fun back => eq (by rw [← back, own.1])
        simp [acceptedBy, returnedBy, here, eq, this]
  | wake | leave | take | run => simp [acceptedBy, returnedBy]

end Steps

end SftpSession

end OpenMplane
