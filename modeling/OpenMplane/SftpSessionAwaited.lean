import OpenMplane.SftpSessionRuns

/-!
# Jobs that are awaited

When the task is back at its wait, a job in the queue has a call that is still to
signal the event, or the event is set.  So the steps of the task alone run the
queue empty of the jobs whose calls have returned.
-/

namespace OpenMplane

open GuardedRuns Conditional

namespace SftpSession

variable {Client : Type}

/-- The event is set, or the call of the job is still to set it. -/
def Awaited (session : SftpSession Client) (job : SftpJob Client) : Prop :=
  session.mEvent = true ∨ (session.client job.caller.client).inCall = [job.caller]

/-- When the task waits, or will without a look at the queue, every job in the
queue is awaited. -/
def Heard (session : SftpSession Client) : Prop :=
  (session.task = .waiting ∨ ∃ job, session.task = .running job true) →
    ∀ job ∈ session.mJobs, Awaited session job

theorem heard_initial (mConnected : Bool) : Heard (initial mConnected : SftpSession Client) := by
  simp [Heard, initial]

variable [DecidableEq Client]

theorem heard_step {session after : SftpSession Client} {step : Step Client}
    (tagged : Tagged session) (heard : Heard session) (effect : Effect session step after) :
    Heard after := by
  cases effect with
  | refuse idle refused => exact heard
  | @accept client request localExists jobs idle scheduled =>
      intro rests job member
      rcases heard rests job member with set | inCall
      · exact Or.inl set
      · have other : job.caller.client ≠ client := by
          intro same
          rw [same, idle] at inCall
          simp at inCall
        exact Or.inr (by simpa [other] using inCall)
  | @queue client job later here =>
      have own := tagged.own client job.caller (by simp [here])
      rw [here] at own
      have same : ∀ rest ∈ later, rest.caller = job.caller := fun rest member =>
        own.2.2 rest (List.mem_cons_of_mem job member)
      intro rests other member
      rcases List.mem_append.mp member with old | new
      · rcases heard rests other old with set | inCall
        · exact Or.inl set
        · refine Or.inr ?_
          rw [move_client]
          split_ifs with eq
          · rw [inCall_placeFor same]
            rw [eq, here] at inCall
            exact inCall
          · exact inCall
      · rw [List.mem_singleton.mp new]
        exact Or.inr (by simp [own.1, inCall_placeFor same])
  | event here => exact fun _ _ _ => Or.inl rfl
  | wake waits set => simp [Heard]
  | leave takes empty => simp [Heard, empty]
  | @take done job later takes front =>
      rintro (waits | ⟨other, runs⟩) queued member
      · simp at waits
      · have ends : (done && later.isEmpty) = true := (SftpTaskAt.running.inj runs).2
        have empty : later = [] := by
          simp only [Bool.and_eq_true, List.isEmpty_iff] at ends
          exact ends.2
        rw [empty] at member
        simp at member
  | @run answers job done runs =>
      cases done with
      | true => exact fun _ => heard (Or.inr ⟨job, runs⟩)
      | false => simp [Heard]

def Sound (session : SftpSession Client) : Prop :=
  Tagged session ∧ Heard session

theorem sound_step (session : SftpSession Client) (step : Step Client) (sound : Sound session)
    (enabled : Enabled session step) : Sound (next session step) :=
  have effect := effect_of_enabled enabled
  ⟨tagged_step sound.1 effect, heard_step sound.1 sound.2 effect⟩

section Runs

variable {session : SftpSession Client} {steps : List (Step Client)}

theorem jobs_run (sound : Sound session) (run : Guarded Enabled next session steps) :
    (session.running ++ session.mJobs) ++ queued session steps =
      ran session steps ++
        ((steps.foldl next session).running ++ (steps.foldl next session).mJobs) := by
  have balanced := run.conserved (fun session => session.running ++ session.mJobs) queuedBy
    (fun session step => (ranBy session step).map Prod.fst) sound_step
    (fun _ _ _ enabled => jobs_balance (effect_of_enabled enabled)) sound
  rwa [emitted_map] at balanced

theorem call_run (caller : SftpCaller Client) (sound : Sound session)
    (run : Guarded Enabled next session steps) :
    unqueued caller session ++
        (accepted session steps).flatMap (fun made => ofCall caller made.2) =
      ofCall caller (queued session steps) ++ unqueued caller (steps.foldl next session) := by
  have balanced := run.conserved (unqueued caller)
    (fun session step => (acceptedBy session step).flatMap fun made => ofCall caller made.2)
    (fun session step => ofCall caller (queuedBy session step)) sound_step
    (fun _ _ sound enabled => call_balance caller sound.1 (effect_of_enabled enabled)) sound
  simp only [ofCall] at balanced ⊢
  rwa [emitted_flatMap, emitted_filter] at balanced

theorem returns_run (client : Client) (sound : Sound session)
    (run : Guarded Enabled next session steps) :
    (session.client client).inCall ++
        ((accepted session steps).map Prod.fst).filter (·.client = client) =
      (returnedTrue session steps).filter (·.client = client) ++
        ((steps.foldl next session).client client).inCall := by
  have balanced := run.conserved (fun session => (session.client client).inCall)
    (fun session step => ((acceptedBy session step).map Prod.fst).filter (·.client = client))
    (fun session step => (returnedBy session step).filter (·.client = client)) sound_step
    (fun _ _ sound enabled => returns_balance client sound.1 (effect_of_enabled enabled)) sound
  rwa [emitted_filter, emitted_filter, emitted_map] at balanced

theorem calls_le_next (step : Step Client) (enabled : Enabled session step) :
    session.calls ≤ (next session step).calls := by
  have effect := effect_of_enabled enabled
  generalize next session step = after at effect
  cases effect with
  | refuse | accept => exact Nat.le_succ _
  | queue | event | wake | leave | take | run => exact Nat.le_refl _

theorem accepted_fresh (run : Guarded Enabled next session steps) :
    (∀ made ∈ accepted session steps, session.calls ≤ made.1.number) ∧
      ((accepted session steps).map Prod.fst).Nodup := by
  induction steps generalizing session with
  | nil => simp [accepted, emitted]
  | cons step steps ih =>
      obtain ⟨fresh, nodup⟩ := ih run.2
      have le := calls_le_next step run.1
      have split : accepted session (step :: steps) =
          acceptedBy session step ++ accepted (next session step) steps := rfl
      rw [split]
      have effect := effect_of_enabled run.1
      generalize next session step = after at fresh nodup le effect
      have later : ∀ made ∈ accepted after steps, session.calls ≤ made.1.number :=
        fun made member => le.trans (fresh made member)
      cases effect with
      | @accept client request localExists jobs idle scheduled =>
          have made : acceptedBy session (.call client request localExists) =
              [(⟨client, session.calls⟩, jobs)] := by
            simp [acceptedBy, scheduled]
          rw [made]
          constructor
          · simpa using later
          · have new : ∀ other ∈ accepted _ steps, other.1.number ≠ session.calls :=
              fun other member same => by
                have above := fresh other member
                rw [same] at above
                exact absurd above (Nat.not_succ_le_self _)
            refine List.nodup_cons.mpr ⟨?_, nodup⟩
            simp only [List.mem_map, not_exists, not_and]
            intro other member same
            exact new other member (by rw [same])
      | @refuse client request localExists error idle refused =>
          have none : acceptedBy session (.call client request localExists) = [] := by
            simp [acceptedBy, refused]
          rw [none]
          exact ⟨later, nodup⟩
      | queue | event | wake | leave | take | run => exact ⟨later, nodup⟩

omit [DecidableEq Client] in
theorem schedule_of_mem_acceptedBy {step : Step Client} {caller : SftpCaller Client}
    {jobs : List (SftpJob Client)} (member : (caller, jobs) ∈ acceptedBy session step) :
    ∃ (request : SftpRequest) (localExists : Bool),
      request.schedule caller session.mConnected localExists = .ok jobs := by
  cases step with
  | call client request localExists =>
      cases scheduled : request.schedule ⟨client, session.calls⟩ session.mConnected localExists with
      | error error => simp [acceptedBy, scheduled] at member
      | ok made =>
          simp only [acceptedBy, scheduled, List.mem_singleton, Prod.mk.injEq] at member
          obtain ⟨rfl, rfl⟩ := member
          exact ⟨request, localExists, scheduled⟩
  | queue | event | wake | take | run => simp [acceptedBy] at member

theorem schedule_of_mem_accepted {caller : SftpCaller Client} {jobs : List (SftpJob Client)}
    (member : (caller, jobs) ∈ accepted session steps) :
    ∃ (request : SftpRequest) (mConnected localExists : Bool),
      request.schedule caller mConnected localExists = .ok jobs := by
  obtain ⟨earlier, step, later, -, here⟩ := exists_of_mem_emitted member
  obtain ⟨request, localExists, scheduled⟩ := schedule_of_mem_acceptedBy here
  exact ⟨request, _, localExists, scheduled⟩

end Runs

/-- Among calls with their own numbers, the jobs of a call are its own. -/
theorem flatMap_ofCall {calls : List (SftpCaller Client × List (SftpJob Client))}
    (nodup : (calls.map Prod.fst).Nodup)
    (own : ∀ made ∈ calls, ∀ job ∈ made.2, job.caller = made.1)
    {caller : SftpCaller Client} {jobs : List (SftpJob Client)}
    (member : (caller, jobs) ∈ calls) :
    calls.flatMap (fun made => ofCall caller made.2) = jobs := by
  induction calls with
  | nil => simp at member
  | cons made calls ih =>
      obtain ⟨fresh, nodup⟩ := List.nodup_cons.mp nodup
      have ownLater : ∀ other ∈ calls, ∀ job ∈ other.2, job.caller = other.1 :=
        fun other later => own other (List.mem_cons_of_mem made later)
      rw [List.flatMap_cons]
      rcases List.mem_cons.mp member with rfl | later
      · have others : calls.flatMap (fun made => ofCall caller made.2) = [] := by
          refine List.flatMap_eq_nil_iff.mpr fun other later => ?_
          refine ofCall_eq_nil fun job inside isOwn => fresh ?_
          have same : other.1 = caller := (ownLater other later job inside).symm.trans isOwn
          exact List.mem_map.mpr ⟨other, later, same⟩
        rw [others, List.append_nil]
        exact ofCall_of_forall (own (caller, jobs) List.mem_cons_self)
      · have none : ofCall caller made.2 = [] := by
          refine ofCall_eq_nil fun job inside isOwn => fresh ?_
          have same : made.1 = caller := (own made List.mem_cons_self job inside).symm.trans isOwn
          exact List.mem_map.mpr ⟨(caller, jobs), later, same.symm⟩
        rw [none, List.nil_append]
        exact ih nodup ownLater later

section Settled

def Step.IsTask : Step Client → Prop
  | .wake | .take | .run _ => True
  | .call .. | .queue _ | .event _ => False

/-- The task alone can go on until it waits with nothing to hear. -/
def Settles (session : SftpSession Client) : Prop :=
  ∃ steps, (∀ step ∈ steps, step.IsTask) ∧ Guarded Enabled next session steps ∧
    (steps.foldl next session).task = .waiting ∧
      ((steps.foldl next session).mJobs = [] ∨ (steps.foldl next session).mEvent = false) ∧
        (steps.foldl next session).client = session.client

variable {session : SftpSession Client}

theorem Settles.step (step : Step Client) (isTask : step.IsTask) (enabled : Enabled session step)
    (still : (next session step).client = session.client)
    (settles : Settles (next session step)) : Settles session := by
  obtain ⟨steps, task, run, waits, silent, clients⟩ := settles
  refine ⟨step :: steps, ?_, ⟨enabled, run⟩, waits, silent, clients.trans still⟩
  intro other member
  rcases List.mem_cons.mp member with rfl | later
  · exact isTask
  · exact task other later

def noAnswers : SftpAnswers := ⟨false, false, false, "", "", "", false, ""⟩

/-- The loop of `runEvent` ends, with the queue empty. -/
theorem settles_of_taking {done : Bool} (takes : session.task = .taking done) :
    Settles session := by
  generalize queue : session.mJobs = jobs
  induction jobs generalizing session done with
  | nil =>
      refine ⟨[.take], by simp [Step.IsTask], ⟨⟨done, takes⟩, trivial⟩, ?_, ?_, ?_⟩
      · simp [next, takes, queue]
      · simp [next, takes, queue]
      · simp [next, takes, queue]
  | cons job later ih =>
      refine .step .take trivial ⟨done, takes⟩ (by simp [next, takes, queue]) ?_
      have taken : next session .take =
          { session with mJobs := later, task := .running job (done && later.isEmpty) } := by
        simp [next, takes, queue]
      rw [taken]
      cases ends : done && later.isEmpty with
      | true =>
          have empty : later = [] := by
            simp only [Bool.and_eq_true, List.isEmpty_iff] at ends
            exact ends.2
          refine ⟨[.run noAnswers], by simp [Step.IsTask], ⟨⟨job, true, rfl⟩, trivial⟩, rfl,
            Or.inl empty, rfl⟩
      | false =>
          exact .step (.run noAnswers) trivial ⟨job, false, rfl⟩ rfl (ih rfl rfl)

theorem settles_of_waiting (waits : session.task = .waiting) : Settles session := by
  cases event : session.mEvent with
  | true => exact .step .wake trivial ⟨waits, event⟩ rfl (settles_of_taking rfl)
  | false => exact ⟨[], by simp, trivial, waits, Or.inr event, rfl⟩

theorem settles (session : SftpSession Client) : Settles session := by
  cases task : session.task with
  | waiting => exact settles_of_waiting task
  | taking done => exact settles_of_taking task
  | running job done =>
      have ran : next session (.run noAnswers) =
          { session with task := if done then .waiting else .taking done } := by
        simp [next, task]
      refine .step (.run noAnswers) trivial ⟨job, done, task⟩ (by rw [ran]) ?_
      rw [ran]
      cases done with
      | true => exact settles_of_waiting rfl
      | false => exact settles_of_taking rfl

end Settled

end SftpSession

end OpenMplane
