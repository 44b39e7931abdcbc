import OpenMplane.ConfigDownloadInvariant

/-!
# Every download that is asked for is run and answered

A step that meets the condition keeps the invariant, so that in every run of
such steps the requests are run in the order they were taken, a blocking call
returns the outcome of its own download, and no client is refused because of a
download it has already been told the end of.  Without the condition one more
client is enough for a failed download to be reported as a success.
-/

namespace OpenMplane

open GuardedRuns Conditional

variable {Client : Type}

namespace DownloadSystem

section History

variable {requests : List (DownloadRequest Client)} {runs : List DownloadRun}
  {results : List (Nat × Bool)} {refusals : List (Client × Nat)}

theorem HistoryKeeps.append (keeps : HistoryKeeps requests runs results refusals)
    (laterRequests : List (DownloadRequest Client)) (laterRuns : List DownloadRun) :
    HistoryKeeps (requests ++ laterRequests) (runs ++ laterRuns) results refusals := by
  constructor
  · intro number result member
    obtain ⟨run, here, ok⟩ := keeps.returned number result member
    exact ⟨run, (List.getElem?_append_left (List.getElem?_eq_some_iff.mp here).1).trans here, ok⟩
  · intro client number member
    obtain ⟨request, here, foreign⟩ := keeps.refused client number member
    exact ⟨request, (List.getElem?_append_left (List.getElem?_eq_some_iff.mp here).1).trans here,
      foreign⟩

theorem HistoryKeeps.return {number : Nat} {result : Bool} {run : DownloadRun}
    (keeps : HistoryKeeps requests runs results refusals)
    (ran : runs[number]? = some run) (ok : run.ok = result) :
    HistoryKeeps requests runs (results ++ [(number, result)]) refusals := by
  refine ⟨fun count answer member => ?_, keeps.refused⟩
  rcases List.mem_append.mp member with old | new
  · exact keeps.returned count answer old
  · obtain ⟨rfl, rfl⟩ : count = number ∧ answer = result := by simpa using new
    exact ⟨run, ran, ok⟩

theorem HistoryKeeps.refuse {client : Client} {request : DownloadRequest Client}
    (keeps : HistoryKeeps requests runs results refusals)
    (last : requests.getLast? = some request) (foreign : ¬ request.BlockingOf client) :
    HistoryKeeps requests runs results (refusals ++ [(client, requests.length - 1)]) := by
  refine ⟨keeps.returned, fun one number member => ?_⟩
  rcases List.mem_append.mp member with old | new
  · exact keeps.refused one number old
  · obtain ⟨rfl, rfl⟩ : one = client ∧ number = requests.length - 1 := by simpa using new
    exact ⟨request, by rwa [← List.getLast?_eq_getElem?], foreign⟩

end History

variable {system : DownloadSystem Client} {step : Step Client}

theorem Over.congr {core after : DownloadCore} {task other : DownloadTaskAt}
    (downloads : core.mIsDownloading = true) (stays : task ≠ .idling)
    (still : after.mIsDownloading = true) (moves : other ≠ .idling) :
    Over after other ↔ Over core task := by
  simp [Over, downloads, stays, still, moves]

/-- A refused client is not the one whose blocking call is in progress. -/
theorem Kept.foreign (kept : Kept system) (apart : Apart system step) {client : Client}
    (asks : step.requester = some client) (checks : Checks system step)
    (free : ¬ (system.client client).Blocked)
    (downloading : system.manager.mIsDownloading = true) {request : DownloadRequest Client}
    (last : system.requests.getLast? = some request) : ¬ request.BlockingOf client := by
  rintro ⟨rfl, blocking⟩
  by_cases idles : system.task = .idling
  · exact apart.again request.client asks checks idles request last ⟨rfl, blocking⟩
  · have going : ¬ Over system.manager.core system.task := by
      rintro (idle | idling)
      · rw [show system.manager.core.mIsDownloading = true from downloading] at idle
        simp at idle
      · exact idles idling
    exact free (kept.clients.owner going request last blocking)

theorem Kept.advance {manager : ConfigDownloadManagement} {place : DownloadTaskAt}
    (kept : Kept system) (ran : system.task = .completing ∨ system.task = .tidying)
    (goes : place = .tidying ∨ place = .ending) (same : manager.core = system.manager.core) :
    Kept { system with manager := manager, task := place } := by
  obtain ⟨task, clients, history⟩ := kept
  have notWaiting : system.task ≠ .waiting := by
    rcases ran with here | here <;> simp [here]
  have notDownloading : system.task ≠ .downloading := by
    rcases ran with here | here <;> simp [here]
  have notIdling : system.task ≠ .idling := by
    rcases ran with here | here <;> simp [here]
  have downloading := task.busy notWaiting
  have stays : place ≠ .waiting ∧ place ≠ .downloading ∧ place ≠ .idling := by
    rcases goes with rfl | rfl <;> simp
  refine ⟨?_, ?_, history⟩
  · simp only [same]
    exact task.move ⟨notWaiting, notDownloading⟩ ⟨stays.1, stays.2.1⟩
  · simp only [same]
    exact clients.congr (Over.congr downloading notIdling downloading stays.2.2)

variable [DecidableEq Client]

theorem kept_next (kept : Kept system) (meets : Meets system step) :
    Kept (next system step) := by
  obtain ⟨enabled, apart⟩ := meets
  obtain ⟨task, clients, history⟩ := kept
  have effect := effect_of_enabled enabled
  generalize next system step = after at effect
  cases effect with
  | keep asks free stays same =>
      refine ⟨?_, ?_, history⟩
      · simpa only [move, same] using task
      · simp only [move, same]
        exact clients.move free stays
  | refuse asks checks free downloading =>
      obtain ⟨request, last⟩ : ∃ request, system.requests.getLast? = some request := by
        cases last : system.requests.getLast? with
        | none => exact absurd (List.getLast?_eq_none_iff.mp last) (task.asked downloading)
        | some request => exact ⟨request, rfl⟩
      have foreign := Kept.foreign ⟨task, clients, history⟩ apart asks checks free downloading last
      exact ⟨task, clients.move free id, history.refuse last foreign⟩
  | accept takes asks mine free idle core own foreign =>
      subst mine
      refine ⟨?_, ?_, ?_⟩
      · simp only [move, core]
        exact task.accept idle
      · simp only [move, core]
        exact (clients.accept (apart.result takes idle) own foreign).congr
          (by simp [Over, task.waits idle])
      · simpa [move] using history.append [_] []
  | awaken waits set => exact ⟨task, clients.awaken waits set, history⟩
  | read reads =>
      rename_i client number
      obtain ⟨atEnd, -⟩ := clients.own client number (Or.inr reads)
      have none := pending_of_over (clients.reads client number reads)
      have order := task.order
      rw [none, List.append_nil] at order
      have count : system.requests.length = system.runs.length := by
        simpa using congrArg List.length order
      obtain ⟨run, ran⟩ : ∃ run, system.runs[number]? = some run :=
        ⟨system.runs[number], List.getElem?_eq_getElem (by omega)⟩
      have last : system.runs.getLast? = some run := by
        rw [List.getLast?_eq_getElem?, show system.runs.length - 1 = number by omega, ran]
      exact ⟨task, clients.read reads, history.return ran (task.outcome none run last)⟩
  | timeout waits core =>
      have unset : system.manager.core.mCondStart = false := apart.start rfl
      have same : { system.manager.core with mCondStart := false } = system.manager.core := by
        rw [← unset]
      rw [same] at core
      refine ⟨?_, ?_, history⟩
      · simp only [core, ← waits]
        exact task
      · simp only [core, ← waits]
        exact clients
  | start waits set core =>
      rw [waits] at task clients
      have downloading := (task.started.mp set).1
      refine ⟨?_, ?_, history⟩
      · simp only [core]
        exact task.start set
      · simp only [core]
        exact clients.congr (Over.congr downloading (by simp) downloading (by simp))
  | download downloads core =>
      rw [downloads] at task clients
      have downloading := task.busy (by simp)
      refine ⟨?_, ?_, ?_⟩
      · simp only [core]
        exact task.download
      · simp only [core]
        exact clients.congr (Over.congr downloading (by simp) downloading (by simp))
      · simpa using history.append [] [_]
  | complete completes same =>
      exact Kept.advance ⟨task, clients, history⟩ (Or.inl completes) (Or.inl rfl) same
  | tidy tidies same =>
      exact Kept.advance ⟨task, clients, history⟩ (Or.inr tidies) (Or.inr rfl) same
  | signalEnd ends signalled =>
      rw [ends] at task clients
      have going : Over system.manager.core .ending ↔ False := by
        simp [Over, task.busy]
      have finished : Over system.manager.core .idling ↔ True := by
        simp [Over]
      exact ⟨task.move (by simp) (by simp),
        ((clients.congr going.symm).signalEnd signalled).congr finished, history⟩
  | goIdle idles core =>
      rw [idles] at task clients
      refine ⟨?_, ?_, history⟩
      · simp only [core]
        exact task.goIdle
      · simp only [core]
        exact clients.congr (by simp [Over])

/-- A step of the task's loop. -/
def Step.IsTask : Step Client → Prop
  | .startWait _ | .download .. | .complete | .tidy | .signalEnd | .goIdle => True
  | _ => False

omit [DecidableEq Client] in
theorem apart_of_isTask (isTask : step.IsTask) (hears : step ≠ .startWait false) :
    Apart system step where
  start lost := absurd lost hears
  result takes := by
    cases step <;> first | exact takes.elim | exact isTask.elim
  again client asks := by
    cases step <;> first | exact isTask.elim | simp [Step.requester] at asks

/-- Steps of the task alone end the request in progress. -/
def Completes (system : DownloadSystem Client) : Prop :=
  ∃ later, (∀ step ∈ later, step.IsTask) ∧ Guarded Meets next system later ∧
    (later.foldl next system).requests = system.requests ∧
    (later.foldl next system).client = system.client ∧
    (later.foldl next system).manager.mIsDownloading = false

theorem Completes.cons (step : Step Client) (isTask : step.IsTask) (hears : step ≠ .startWait false)
    (enabled : Enabled system step) (sameRequests : (next system step).requests = system.requests)
    (sameClient : (next system step).client = system.client)
    (completes : Completes (next system step)) : Completes system := by
  obtain ⟨later, allTask, meets, requests, client, idle⟩ := completes
  refine ⟨step :: later, ?_, ⟨⟨enabled, apart_of_isTask isTask hears⟩, meets⟩,
    requests.trans sameRequests, client.trans sameClient, idle⟩
  intro other member
  rcases List.mem_cons.mp member with rfl | after
  · exact isTask
  · exact allTask other after

theorem completes_of_idle (idle : system.manager.mIsDownloading = false) : Completes system :=
  ⟨[], by simp, trivial, rfl, rfl, idle⟩

theorem completes_of_idling (idles : system.task = .idling) : Completes system :=
  Completes.cons .goIdle trivial (by simp) idles rfl rfl (completes_of_idle rfl)

theorem completes_of_ending (ends : system.task = .ending) : Completes system :=
  Completes.cons .signalEnd trivial (by simp) ends rfl rfl (completes_of_idling rfl)

theorem completes_of_tidying (tidies : system.task = .tidying) : Completes system :=
  Completes.cons .tidy trivial (by simp) tidies rfl rfl (completes_of_ending rfl)

theorem completes_of_completing (completes : system.task = .completing) : Completes system :=
  Completes.cons .complete trivial (by simp) completes rfl rfl (completes_of_tidying rfl)

theorem completes_of_downloading (downloads : system.task = .downloading) : Completes system :=
  Completes.cons (.download true "") trivial (by simp) downloads rfl rfl
    (completes_of_completing rfl)

/-- From any state of a run the task gets through the request in progress. -/
theorem Kept.completes (kept : Kept system) : Completes system := by
  cases task : system.task with
  | waiting =>
      by_cases downloading : system.manager.mIsDownloading = true
      · have set : system.manager.mCondStart = true :=
          kept.task.started.mpr ⟨downloading, task⟩
        have enabled : Enabled system (.startWait true) := ⟨task, set⟩
        exact Completes.cons (.startWait true) trivial (by simp) enabled rfl rfl (completes_of_downloading rfl)
      · exact completes_of_idle (by simpa using downloading)
  | downloading => exact completes_of_downloading task
  | completing => exact completes_of_completing task
  | tidying => exact completes_of_tidying task
  | ending => exact completes_of_ending task
  | idling => exact completes_of_idling task

/-- What the clients of the manager count on. -/
structure DownloadsServed (system : DownloadSystem Client) : Prop where
  -- run once each, in turn, with their own type and file, all but at most the last
  once : ∃ pending, pending.length ≤ 1 ∧
    system.requests.map (·.asked) = system.runs.map (·.ran) ++ pending
  -- a blocking call returns true exactly when its own download succeeded
  returned : ∀ number result, (number, result) ∈ system.results →
    ∃ request run, system.requests[number]? = some request ∧ system.runs[number]? = some run ∧
      run.ran = request.asked ∧ (result = true ↔ run.ok = true)
  -- no one is refused because of a blocking call of his own
  refused : ∀ client number, (client, number) ∈ system.refusals →
    ∀ request, system.requests[number]? = some request → ¬ request.BlockingOf client
  -- the task can run all of them, and then every blocking call wakes
  completes : ∃ later, (∀ step ∈ later, step.IsTask) ∧ Guarded Enabled next system later ∧
    (later.foldl next system).runs.map (·.ran) = system.requests.map (·.asked) ∧
    (later.foldl next system).client = system.client ∧
    ∀ client number, system.client client = .awaiting number →
      Enabled (later.foldl next system) (.awaken client)

theorem Kept.downloadsServed (kept : Kept system) : DownloadsServed system where
  once := by
    refine ⟨pending system.manager.core system.task, ?_, kept.task.order⟩
    unfold pending
    split_ifs <;> simp
  returned := by
    intro number result member
    obtain ⟨run, ran, ok⟩ := kept.history.returned number result member
    have order := congrArg (fun asked => asked[number]?) kept.task.order
    rw [List.getElem?_append_left (by simpa using (List.getElem?_eq_some_iff.mp ran).1),
      List.getElem?_map, List.getElem?_map, ran] at order
    obtain ⟨request, here, asked⟩ := Option.map_eq_some_iff.mp order
    exact ⟨request, run, here, ran, asked.symm, by rw [ok]⟩
  refused := by
    intro client number member request here
    obtain ⟨other, there, foreign⟩ := kept.history.refused client number member
    rwa [Option.some.inj (here.symm.trans there)]
  completes := by
    obtain ⟨later, allTask, meets, requests, client, idle⟩ := kept.completes
    have after : Kept (later.foldl next system) :=
      meets.invariant (fun _ _ => kept_next) kept
    have order := after.task.order
    rw [pending_of_idle idle, List.append_nil, requests] at order
    refine ⟨later, allTask, meets.mono fun _ _ => And.left, order.symm, client, ?_⟩
    intro who number waits
    rw [← client] at waits
    exact ⟨number, waits, after.clients.signalled who number waits (Or.inl idle)⟩

/-- In every run that keeps the condition the requests are run and answered. -/
theorem downloadsServed_of_apart (types : StdMap ConfigDownload) (steps : List (Step Client))
    (run : Guarded Meets next (initial types) steps) :
    DownloadsServed (steps.foldl next (initial types)) :=
  (run.invariant (fun _ _ => kept_next) (kept_initial types)).downloadsServed

section Runs

def filterTypes : StdMap ConfigDownload :=
  (∅ : StdMap ConfigDownload).insert "FILTER" ⟨.CONFIGDOWNLOAD_IDLE, "", "", 0, none⟩

/-- One client's blocking call whose download fails, up to where it wakes. -/
def failedDownload : List (Step Bool) :=
  [.call false "filter" "host/file.xml" 0 .blocking, .install false, .startWait true,
    .download false "no file", .complete, .tidy, .signalEnd, .goIdle, .awaken false]

/-- It reads the failure before anyone asks again. -/
def reportedDownload : List (Step Bool) :=
  failedDownload ++ [.readResult false]

theorem reportedDownload_meets :
    Guarded Meets next (initial filterTypes) reportedDownload := by
  have task : ∀ {system : DownloadSystem Bool} {step : Step Bool}, Enabled system step →
      step.IsTask → step ≠ .startWait false → Meets system step :=
    fun enabled isTask hears => ⟨enabled, apart_of_isTask isTask hears⟩
  have wakes : ∀ {system : DownloadSystem Bool} {client : Bool},
      Apart system (.awaken client) ∧ Apart system (.readResult client) :=
    ⟨⟨nofun, nofun, nofun⟩, ⟨nofun, nofun, nofun⟩⟩
  refine ⟨⟨rfl, nofun, nofun, fun _ _ _ idles => ?_⟩,
    ⟨⟨_, _, _, _, rfl⟩, nofun, fun _ _ client => ?_, fun _ _ _ idles => ?_⟩,
    task ⟨rfl, rfl⟩ trivial nofun, task rfl trivial nofun, task rfl trivial nofun,
    task rfl trivial nofun, task rfl trivial nofun, task rfl trivial nofun,
    ⟨⟨_, rfl, rfl⟩, wakes.1⟩, ⟨⟨_, rfl⟩, wakes.2⟩, trivial⟩
  · exact absurd idles (by decide)
  · cases client <;> exact id
  · exact absurd idles (by decide)

theorem downloadsServed_reportedDownload :
    DownloadsServed (reportedDownload.foldl next (initial filterTypes)) ∧
      (reportedDownload.foldl next (initial filterTypes)).results = [(0, false)] :=
  ⟨downloadsServed_of_apart filterTypes _ reportedDownload_meets, by decide +kernel⟩

/-- Another client's request is taken before the failure is read. -/
def overtakenDownload : List (Step Bool) :=
  failedDownload ++ [.configInstall true "filter" 0 (some 0) none, .readResult false]

theorem overtakenDownload_runs :
    Guarded Enabled next (initial filterTypes) overtakenDownload := by
  refine ⟨rfl, ⟨_, _, _, _, rfl⟩, ⟨rfl, rfl⟩, rfl, rfl, rfl, rfl, rfl, ⟨_, rfl, rfl⟩, rfl,
    ⟨_, rfl⟩, trivial⟩

/-- The call whose download failed returns true. -/
theorem failure_returned_true :
    Guarded Enabled next (initial filterTypes) overtakenDownload ∧
      ¬ DownloadsServed (overtakenDownload.foldl next (initial filterTypes)) := by
  refine ⟨overtakenDownload_runs, fun served => ?_⟩
  have results : (overtakenDownload.foldl next (initial filterTypes)).results = [(0, true)] := by
    decide +kernel
  have outcome : (overtakenDownload.foldl next (initial filterTypes)).runs[0]?.map (·.ok) =
      some false := by
    decide +kernel
  obtain ⟨-, run, -, ran, -, same⟩ := served.returned 0 true (by simp [results])
  rw [ran, Option.map_some, Option.some.injEq] at outcome
  exact absurd (same.mp rfl) (by simp [outcome])

/-- The task's wait times out although it is signalled. -/
def unheardDownload : List (Step Bool) :=
  [.call false "filter" "host/file.xml" 0 .blocking, .install false, .startWait false]

theorem runs_of_unstarted {system : DownloadSystem Client} {later : List (Step Client)}
    (waits : system.task = .waiting) (unset : system.manager.mCondStart = false)
    (allTask : ∀ step ∈ later, step.IsTask) (goesOn : Guarded Enabled next system later) :
    (later.foldl next system).runs = system.runs := by
  induction later generalizing system with
  | nil => rfl
  | cons step later ih =>
      have isTask := allTask step (by simp)
      have enabled := goesOn.1
      cases step with
      | startWait result =>
          cases result with
          | true => exact absurd enabled.2 (by simp [FlagOp.Enabled, unset])
          | false => exact ih rfl rfl (fun other member => allTask other (by simp [member])) goesOn.2
      | call | install | configInstall | setRemoteUrl | awaken | readResult => exact isTask.elim
      | download | complete | tidy | signalEnd | goIdle =>
          exact absurd (waits.symm.trans enabled) (by simp)

/-- The request is never run. -/
theorem start_is_lost :
    Guarded Enabled next (initial filterTypes) unheardDownload ∧
      ¬ DownloadsServed (unheardDownload.foldl next (initial filterTypes)) := by
  refine ⟨⟨rfl, ⟨_, _, _, _, rfl⟩, ⟨rfl, trivial⟩, trivial⟩, fun served => ?_⟩
  obtain ⟨later, allTask, goesOn, all, -⟩ := served.completes
  have none : (unheardDownload.foldl next (initial filterTypes)).runs = [] := by decide +kernel
  have one : (unheardDownload.foldl next (initial filterTypes)).requests.length = 1 := by
    decide +kernel
  have counted := congrArg List.length all
  rw [runs_of_unstarted rfl rfl allTask goesOn, none, List.length_map, List.length_map, one]
    at counted
  exact absurd counted (by simp)

/-- The client asks again before the task is idle. -/
def eagerDownload : List (Step Bool) :=
  [.call false "filter" "host/file.xml" 0 .blocking, .install false, .startWait true,
    .download true "", .complete, .tidy, .signalEnd, .awaken false, .readResult false,
    .call false "filter" "host/next.xml" 0 .blocking]

theorem next_request_refused :
    Guarded Enabled next (initial filterTypes) eagerDownload ∧
      ¬ DownloadsServed (eagerDownload.foldl next (initial filterTypes)) := by
  refine ⟨⟨rfl, ⟨_, _, _, _, rfl⟩, ⟨rfl, rfl⟩, rfl, rfl, rfl, rfl, ⟨_, rfl, rfl⟩, ⟨_, rfl⟩, rfl,
    trivial⟩, fun served => ?_⟩
  have refusals : (eagerDownload.foldl next (initial filterTypes)).refusals = [(false, 0)] := by
    decide +kernel
  have request : (eagerDownload.foldl next (initial filterTypes)).requests =
      [⟨false, true, some "FILTER", "file.xml"⟩] := by
    decide +kernel
  exact served.refused false 0 (by simp [refusals]) _ (by rw [request]; rfl) ⟨rfl, rfl⟩

end Runs

end DownloadSystem

end OpenMplane
