import OpenMplane.SftpSessionAwaited

/-!
# Every job of a session is run

A run of a session runs the jobs of its calls in the order they were queued, the
directory of an upload before the upload, and calls the callback of a call once.
-/

namespace OpenMplane

open GuardedRuns Conditional

namespace SftpSession

variable {Client : Type} [DecidableEq Client]

/-- The session after a run from its constructor. -/
def after (mConnected : Bool) (steps : List (Step Client)) : SftpSession Client :=
  steps.foldl next (initial mConnected)

/-- What holds of a run: the jobs are run in the order they were queued; a call
that returned true has queued its jobs, once each; the directory of an upload is
made before the upload; every transfer run has called its callback once; a task
back at its wait has the event set or has been told of no job in the queue; and
the task alone can go on until each call that returned true has had its jobs run,
once each, and its callback called once. -/
structure Serves (mConnected : Bool) (steps : List (Step Client)) : Prop where
  inOrder : queued (initial mConnected) steps = ran (initial mConnected) steps ++
    ((after mConnected steps).running ++ (after mConnected steps).mJobs)
  own : ∀ caller jobs, (caller, jobs) ∈ accepted (initial mConnected) steps →
    caller ∈ returnedTrue (initial mConnected) steps →
      ofCall caller (queued (initial mConnected) steps) = jobs
  directoryFirst : ∀ earlier upload later,
    ran (initial mConnected) steps = earlier ++ upload :: later →
      upload.mType = .JOB_TRANSACTION →
        (upload.mTransaction = .SFTP_UPLOAD_FILE ∨ upload.mTransaction = .SFTP_UPLOAD_DATA) →
          ∀ directory ∈ addMkdir upload.caller upload.mRemotePath, directory ∈ earlier
  calledBack : (invocations (initial mConnected) steps).map (·.caller) =
    ((ran (initial mConnected) steps).filter (·.mType = .JOB_TRANSACTION)).map (·.caller)
  notStranded : (after mConnected steps).task = .waiting →
    ∀ job ∈ (after mConnected steps).mJobs, (after mConnected steps).mEvent = true ∨
      ((after mConnected steps).client job.caller.client).inCall = [job.caller]
  completes : ∃ later, (∀ step ∈ later, step.IsTask) ∧
    Guarded Enabled next (after mConnected steps) later ∧
      ∀ caller jobs, (caller, jobs) ∈ accepted (initial mConnected) steps →
        caller ∈ returnedTrue (initial mConnected) steps →
          ofCall caller (ran (initial mConnected) (steps ++ later)) = jobs ∧
            ((invocations (initial mConnected) (steps ++ later)).map (·.caller)).count caller = 1

section Properties

variable {mConnected : Bool} {steps : List (Step Client)}

omit [DecidableEq Client] in
theorem sound_initial : Sound (initial mConnected : SftpSession Client) :=
  ⟨tagged_initial mConnected, heard_initial mConnected⟩

theorem inOrder (run : Guarded Enabled next (initial mConnected) steps) :
    queued (initial mConnected) steps = ran (initial mConnected) steps ++
      ((after mConnected steps).running ++ (after mConnected steps).mJobs) := by
  have balanced := jobs_run sound_initial run
  have none : (initial mConnected : SftpSession Client).running ++
      (initial mConnected : SftpSession Client).mJobs = [] := rfl
  rwa [none, List.nil_append] at balanced

theorem calledBack (session : SftpSession Client) (steps : List (Step Client)) :
    (invocations session steps).map (·.caller) =
      ((ran session steps).filter (·.mType = .JOB_TRANSACTION)).map (·.caller) := by
  unfold invocations ran
  induction emitted next ranBy session steps with
  | nil => rfl
  | cons run runs ih =>
      have called := SftpJob.handle_callers run.1 run.2
      rw [List.flatMap_cons, List.map_append, ih, called, List.map_cons, List.filter_cons]
      by_cases transfer : run.1.mType = .JOB_TRANSACTION
      · simp [transfer]
      · simp [transfer]

/-- The jobs of an accepted call are those it queued and those it has to queue. -/
theorem jobs_of_accepted (run : Guarded Enabled next (initial mConnected) steps)
    {caller : SftpCaller Client} {jobs : List (SftpJob Client)}
    (member : (caller, jobs) ∈ accepted (initial mConnected) steps) :
    jobs = ofCall caller (queued (initial mConnected) steps) ++
      unqueued caller (after mConnected steps) := by
  have balanced := call_run caller sound_initial run
  have own : ∀ made ∈ accepted (initial mConnected) steps, ∀ job ∈ made.2,
      job.caller = made.1 := fun made inside => by
    obtain ⟨request, _, _, scheduled⟩ := schedule_of_mem_accepted inside
    exact caller_of_schedule scheduled
  rw [flatMap_ofCall (accepted_fresh run).2 own member] at balanced
  exact balanced

/-- A job that was queued was made by an accepted call. -/
theorem accepted_of_mem_queued (run : Guarded Enabled next (initial mConnected) steps)
    {job : SftpJob Client} (member : job ∈ queued (initial mConnected) steps) :
    ∃ jobs, (job.caller, jobs) ∈ accepted (initial mConnected) steps := by
  have balanced := call_run job.caller sound_initial run
  have inside : job ∈ ofCall job.caller (queued (initial mConnected) steps) ++
      unqueued job.caller (steps.foldl next (initial mConnected)) :=
    List.mem_append_left _ (List.mem_filter.mpr ⟨member, by simp⟩)
  rw [← balanced] at inside
  rcases List.mem_append.mp inside with start | made
  · simp [unqueued, initial, ofCall] at start
  · obtain ⟨⟨caller, jobs⟩, accepts, isOwn⟩ := List.mem_flatMap.mp made
    obtain ⟨ofJobs, -⟩ := List.mem_filter.mp isOwn
    obtain ⟨request, _, _, scheduled⟩ := schedule_of_mem_accepted accepts
    rw [caller_of_schedule scheduled job ofJobs]
    exact ⟨jobs, accepts⟩

theorem not_inCall_of_returned (run : Guarded Enabled next (initial mConnected) steps)
    {caller : SftpCaller Client}
    (returned : caller ∈ returnedTrue (initial mConnected) steps) :
    caller ∉ ((after mConnected steps).client caller.client).inCall := by
  intro inCall
  have balanced := returns_run caller.client sound_initial run
  have idle : ((initial mConnected : SftpSession Client).client caller.client).inCall = [] := rfl
  rw [idle, List.nil_append] at balanced
  have nodup := (accepted_fresh run).2.filter (·.client = caller.client)
  rw [balanced] at nodup
  have first : caller ∈ (returnedTrue (initial mConnected) steps).filter
      (·.client = caller.client) := List.mem_filter.mpr ⟨returned, by simp⟩
  exact (List.nodup_append.mp nodup).2.2 caller first caller inCall rfl

theorem own (run : Guarded Enabled next (initial mConnected) steps)
    {caller : SftpCaller Client} {jobs : List (SftpJob Client)}
    (member : (caller, jobs) ∈ accepted (initial mConnected) steps)
    (returned : caller ∈ returnedTrue (initial mConnected) steps) :
    ofCall caller (queued (initial mConnected) steps) = jobs := by
  have notInCall := not_inCall_of_returned run returned
  have none : unqueued caller (after mConnected steps) = [] := by
    unfold unqueued
    have sound : Sound (after mConnected steps) := run.invariant sound_step sound_initial
    have tagged := sound.1.own caller.client
    cases place : (after mConnected steps).client caller.client with
    | idle | signalling => rfl
    | queueing job later =>
        have own := tagged job.caller (by simp [place])
        rw [place] at own notInCall
        refine ofCall_eq_nil fun other inside isOwn => notInCall ?_
        rw [← isOwn, own.2.2 other inside]
        simp
  rw [jobs_of_accepted run member, none, List.append_nil]

omit [DecidableEq Client] in
theorem eq_of_append_transfer {directories earlier later : List (SftpJob Client)}
    {upload transfer : SftpJob Client}
    (made : ∀ directory ∈ directories, directory.mType = .JOB_MKDIR)
    (isTransfer : upload.mType = .JOB_TRANSACTION)
    (same : earlier ++ upload :: later = directories ++ [transfer]) :
    earlier = directories ∧ upload = transfer := by
  rcases List.append_eq_append_iff.mp same with ⟨rest, split, front⟩ | ⟨rest, split, front⟩
  · cases rest with
    | nil =>
        simp only [List.append_nil, List.nil_append, List.cons.injEq] at split front
        exact ⟨split.symm, front.1⟩
    | cons first rest =>
        obtain ⟨rfl, -⟩ := List.cons.inj front
        have isMkdir := made upload (by simp [split])
        simp [isTransfer] at isMkdir
  · cases rest with
    | nil =>
        simp only [List.append_nil, List.nil_append, List.cons.injEq] at split front
        exact ⟨split, front.1.symm⟩
    | cons first rest =>
        have lengths := congrArg List.length front
        simp at lengths

theorem directoryFirst (run : Guarded Enabled next (initial mConnected) steps)
    {earlier later : List (SftpJob Client)} {upload : SftpJob Client}
    (order : ran (initial mConnected) steps = earlier ++ upload :: later)
    (isTransfer : upload.mType = .JOB_TRANSACTION)
    (isUpload : upload.mTransaction = .SFTP_UPLOAD_FILE ∨
      upload.mTransaction = .SFTP_UPLOAD_DATA) :
    ∀ directory ∈ addMkdir upload.caller upload.mRemotePath, directory ∈ earlier := by
  have all := inOrder run
  have member : upload ∈ queued (initial mConnected) steps := by simp [all, order]
  obtain ⟨jobs, accepts⟩ := accepted_of_mem_queued run member
  have made := jobs_of_accepted run accepts
  obtain ⟨request, _, _, scheduled⟩ := schedule_of_mem_accepted accepts
  obtain ⟨path, rfl⟩ := SftpRequest.schedule_ok scheduled
  have isMkdir : ∀ directory ∈ (if request.IsUpload then addMkdir upload.caller path.mPath else []),
      directory.mType = .JOB_MKDIR := by
    intro directory member
    split_ifs at member
    · exact mkdir_of_mem_addMkdir member
    · simp at member
  have split := made.symm
  rw [all, order] at split
  simp only [ofCall, List.filter_append, List.filter_cons, decide_true, if_true,
    List.append_assoc, List.cons_append] at split
  obtain ⟨before, same⟩ := eq_of_append_transfer isMkdir isTransfer split
  have remote : upload.mRemotePath = path.mPath := by
    rw [same]
    rfl
  have asks : request.IsUpload := by
    have transaction : upload.mTransaction = request.transaction := by
      rw [same]
      rfl
    rwa [transaction] at isUpload
  rw [if_pos asks] at before
  intro directory member
  rw [remote, ← before] at member
  exact (List.mem_filter.mp member).1

theorem notStranded (run : Guarded Enabled next (initial mConnected) steps)
    (waits : (after mConnected steps).task = .waiting) :
    ∀ job ∈ (after mConnected steps).mJobs, (after mConnected steps).mEvent = true ∨
      ((after mConnected steps).client job.caller.client).inCall = [job.caller] :=
  have sound : Sound (after mConnected steps) := run.invariant sound_step sound_initial
  sound.2 (Or.inl waits)

/-- Once the task waits with nothing to hear, the jobs of a returned call are run. -/
theorem ran_of_settled (run : Guarded Enabled next (initial mConnected) steps)
    (waits : (after mConnected steps).task = .waiting)
    (settled : (after mConnected steps).mJobs = [] ∨ (after mConnected steps).mEvent = false)
    {caller : SftpCaller Client} {jobs : List (SftpJob Client)}
    (member : (caller, jobs) ∈ accepted (initial mConnected) steps)
    (returned : caller ∈ returnedTrue (initial mConnected) steps) :
    ofCall caller (ran (initial mConnected) steps) = jobs := by
  have idle : (after mConnected steps).running = [] := by
    simp [running, waits]
  have none : ofCall caller (after mConnected steps).mJobs = [] := by
    refine ofCall_eq_nil fun job inside isOwn => ?_
    rcases settled with empty | silent
    · simp [empty] at inside
    · have inCall := (notStranded run waits job inside).resolve_left (by simp [silent])
      rw [isOwn] at inCall
      exact not_inCall_of_returned run returned (by simp [inCall])
  have whole := own run member returned
  rw [inOrder run, idle, List.nil_append] at whole
  simp only [ofCall, List.filter_append] at whole none
  rwa [none, List.append_nil] at whole

theorem count_invocations (session : SftpSession Client) (steps : List (Step Client))
    (caller : SftpCaller Client) :
    ((invocations session steps).map (·.caller)).count caller =
      ((ofCall caller (ran session steps)).filter (·.mType = .JOB_TRANSACTION)).length := by
  rw [calledBack]
  induction ran session steps with
  | nil => rfl
  | cons job jobs ih =>
      by_cases transfer : job.mType = .JOB_TRANSACTION <;>
        by_cases isOwn : job.caller = caller <;>
          simp_all [ofCall]

omit [DecidableEq Client] in
theorem transfers_of_schedule {request : SftpRequest} {caller : SftpCaller Client}
    {mConnected localExists : Bool} {jobs : List (SftpJob Client)}
    (scheduled : request.schedule caller mConnected localExists = .ok jobs) :
    (jobs.filter (·.mType = .JOB_TRANSACTION)).length = 1 := by
  obtain ⟨path, rfl⟩ := SftpRequest.schedule_ok scheduled
  have none : (if request.IsUpload then addMkdir caller path.mPath else []).filter
      (·.mType = .JOB_TRANSACTION) = [] := by
    refine List.filter_eq_nil_iff.mpr fun directory member => ?_
    split_ifs at member
    · simp [mkdir_of_mem_addMkdir member]
    · simp at member
  rw [List.filter_append, none]
  simp [SftpRequest.job]

theorem completes (run : Guarded Enabled next (initial mConnected) steps) :
    ∃ later, (∀ step ∈ later, step.IsTask) ∧
      Guarded Enabled next (after mConnected steps) later ∧
        ∀ caller jobs, (caller, jobs) ∈ accepted (initial mConnected) steps →
          caller ∈ returnedTrue (initial mConnected) steps →
            ofCall caller (ran (initial mConnected) (steps ++ later)) = jobs ∧
              ((invocations (initial mConnected) (steps ++ later)).map (·.caller)).count caller =
                1 := by
  obtain ⟨later, isTask, goesOn, waits, settled, -⟩ := settles (after mConnected steps)
  refine ⟨later, isTask, goesOn, fun caller jobs member returned => ?_⟩
  have whole : Guarded Enabled next (initial mConnected) (steps ++ later) := run.append goesOn
  have ends : after mConnected (steps ++ later) = later.foldl next (after mConnected steps) :=
    List.foldl_append ..
  have accepts : (caller, jobs) ∈ accepted (initial mConnected) (steps ++ later) := by
    rw [accepted, emitted_append]
    exact List.mem_append_left _ member
  have returns : caller ∈ returnedTrue (initial mConnected) (steps ++ later) := by
    rw [returnedTrue, emitted_append]
    exact List.mem_append_left _ returned
  rw [← ends] at waits settled
  have runs := ran_of_settled whole waits settled accepts returns
  obtain ⟨request, _, _, scheduled⟩ := schedule_of_mem_accepted accepts
  refine ⟨runs, ?_⟩
  rw [count_invocations, runs]
  exact transfers_of_schedule scheduled

/-- Every run of a session serves its calls. -/
theorem serves_of_run (run : Guarded Enabled next (initial mConnected) steps) :
    Serves mConnected steps where
  inOrder := inOrder run
  own _ _ := own run
  directoryFirst _ _ _ := directoryFirst run
  calledBack := calledBack _ _
  notStranded := notStranded run
  completes := completes run

end Properties

section Upload

/-- A client uploads a file into a directory, and the task runs both jobs. -/
def uploadRun : List (Step Unit) :=
  [.call () (fileUpload "sftp://user@host/dir/file" "local" 0) true, .queue (), .queue (),
    .event (), .wake, .take, .run noAnswers, .take, .run noAnswers, .take]

theorem uploadRun_runs : Guarded Enabled next (initial true) uploadRun := by
  refine ⟨rfl, ⟨_, _, rfl⟩, ⟨_, _, rfl⟩, ⟨_, rfl⟩, ⟨rfl, rfl⟩, ⟨_, rfl⟩, ⟨_, _, rfl⟩, ⟨_, rfl⟩,
    ⟨_, _, rfl⟩, ⟨_, rfl⟩, trivial⟩

theorem serves_uploadRun :
    Guarded Enabled next (initial true) uploadRun ∧ Serves true uploadRun ∧
      ran (initial true) uploadRun =
        [⟨.SFTP_UPLOAD_FILE, "dir", "", "", 0, .JOB_MKDIR, 0, ⟨(), 0⟩⟩,
          ⟨.SFTP_UPLOAD_FILE, "dir/file", "local", "", 0, .JOB_TRANSACTION, 0, ⟨(), 0⟩⟩] :=
  ⟨uploadRun_runs, serves_of_run uploadRun_runs, by decide +kernel⟩

end Upload

end SftpSession

end OpenMplane
