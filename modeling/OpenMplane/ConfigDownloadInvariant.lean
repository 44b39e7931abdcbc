import OpenMplane.ConfigDownloadRuns

/-!
# What the download manager keeps

The condition under which clients and task keep out of each other's way, and
the invariant it gives: the task's part says which requests have been run, the
clients' part where the end signal of a blocking call is, and the history's part
what has been returned and refused.
-/

namespace OpenMplane

open GuardedRuns Conditional

variable {Client : Type}

def DownloadRequest.asked (request : DownloadRequest Client) : Option String × String :=
  (request.configDownload, request.fileName)

def DownloadRequest.BlockingOf (request : DownloadRequest Client) (client : Client) : Prop :=
  request.client = client ∧ request.blocking = true

def DownloadRun.ran (run : DownloadRun) : Option String × String :=
  (run.configDownload, run.fileName)

namespace DownloadSystem

/-- No start signal is lost, no request is taken before a blocking call has read
its result, and no client whose blocking call has been signalled looks at the
downloading flag before the task is idle. -/
structure Apart (system : DownloadSystem Client) (step : Step Client) : Prop where
  start : step = .startWait false → system.manager.mCondStart = false
  result : Takes system step → system.manager.mIsDownloading = false →
    ∀ client, ¬ (system.client client).Blocked
  again : ∀ client, step.requester = some client → Checks system step → system.task = .idling →
    ∀ request, system.requests.getLast? = some request → ¬ request.BlockingOf client

def Meets (system : DownloadSystem Client) (step : Step Client) : Prop :=
  Enabled system step ∧ Apart system step

/-- The request taken but not run. -/
def pending (core : DownloadCore) (task : DownloadTaskAt) : List (Option String × String) :=
  if core.mIsDownloading ∧ (task = .waiting ∨ task = .downloading) then
    [(core.mDownload, core.mFileName)]
  else []

structure TaskKeeps (core : DownloadCore) (task : DownloadTaskAt)
    (requests : List (DownloadRequest Client)) (runs : List DownloadRun) : Prop where
  busy : task ≠ .waiting → core.mIsDownloading = true
  started : core.mCondStart = true ↔ core.mIsDownloading = true ∧ task = .waiting
  asked : core.mIsDownloading = true → requests ≠ []
  order : requests.map (·.asked) = runs.map (·.ran) ++ pending core task
  outcome : pending core task = [] → ∀ run, runs.getLast? = some run → run.ok = core.mDownloadOk

/-- The end signal of the last request has been made. -/
def Over (core : DownloadCore) (task : DownloadTaskAt) : Prop :=
  core.mIsDownloading = false ∨ task = .idling

structure ClientsKeep (finished : Prop) (condEnd : Option EndSignal)
    (requests : List (DownloadRequest Client)) (ended : EndSignal → Bool)
    (client : Client → DownloadClientAt) : Prop where
  own : ∀ who number, client who = .awaiting number ∨ client who = .reading number →
    number + 1 = requests.length ∧
      ∃ request, requests.getLast? = some request ∧ request.BlockingOf who
  reads : ∀ who number, client who = .reading number → finished
  signalled : ∀ who number, client who = .awaiting number → finished → ended (.own number) = true
  awaited : ∀ who number, client who = .awaiting number → ¬ finished →
    condEnd = some (.own number) ∧ ended (.own number) = false
  fresh : ∀ number, ended (.own number) = true ∨ condEnd = some (.own number) →
    number < requests.length
  owner : ¬ finished → ∀ request, requests.getLast? = some request → request.blocking = true →
    (client request.client).Blocked

structure HistoryKeeps (requests : List (DownloadRequest Client)) (runs : List DownloadRun)
    (results : List (Nat × Bool)) (refusals : List (Client × Nat)) : Prop where
  returned : ∀ number result, (number, result) ∈ results →
    ∃ run, runs[number]? = some run ∧ run.ok = result
  refused : ∀ client number, (client, number) ∈ refusals →
    ∃ request, requests[number]? = some request ∧ ¬ request.BlockingOf client

structure Kept (system : DownloadSystem Client) : Prop where
  task : TaskKeeps system.manager.core system.task system.requests system.runs
  clients : ClientsKeep (Over system.manager.core system.task) system.manager.core.mCondEnd
    system.requests system.ended system.client
  history : HistoryKeeps system.requests system.runs system.results system.refusals

theorem kept_initial (types : StdMap ConfigDownload) :
    Kept (initial types : DownloadSystem Client) where
  task := ⟨fun moved => absurd rfl moved, by simp [initial, ConfigDownloadManagement.core],
    by simp [initial, ConfigDownloadManagement.core],
    by simp [initial, pending, ConfigDownloadManagement.core], by simp [initial]⟩
  clients := ⟨by simp [initial], by simp [initial], by simp [initial], by simp [initial],
    by simp [initial, ConfigDownloadManagement.core], by simp [initial]⟩
  history := ⟨by simp [initial], by simp [initial]⟩

section Task

variable {core after : DownloadCore} {task : DownloadTaskAt}
  {requests : List (DownloadRequest Client)} {runs : List DownloadRun}

theorem pending_of_idle (idle : core.mIsDownloading = false) : pending core task = [] := by
  simp [pending, idle]

theorem pending_of_run (ran : task ≠ .waiting) (past : task ≠ .downloading) :
    pending core task = [] := by
  simp [pending, ran, past]

theorem TaskKeeps.waits (keeps : TaskKeeps core task requests runs)
    (idle : core.mIsDownloading = false) : task = .waiting := by
  by_contra moved
  rw [keeps.busy moved] at idle
  exact absurd idle (by simp)

theorem pending_of_over (finished : Over core task) : pending core task = [] := by
  rcases finished with idle | idles
  · exact pending_of_idle idle
  · exact pending_of_run (by simp [idles]) (by simp [idles])

theorem TaskKeeps.accept {request : DownloadRequest Client} {endSignal : Option EndSignal}
    (keeps : TaskKeeps core task requests runs) (idle : core.mIsDownloading = false) :
    TaskKeeps ⟨true, request.fileName, endSignal, request.configDownload, true, true⟩ task
      (requests ++ [request]) runs where
  busy _ := rfl
  started := by simp [keeps.waits idle]
  asked _ := by simp
  order := by
    have order := keeps.order
    rw [pending_of_idle idle, List.append_nil] at order
    rw [List.map_append, order]
    simp [pending, keeps.waits idle, DownloadRequest.asked]
  outcome none := by simp [pending, keeps.waits idle] at none

theorem TaskKeeps.start (keeps : TaskKeeps core .waiting requests runs)
    (set : core.mCondStart = true) :
    TaskKeeps { core with mCondStart := false } .downloading requests runs := by
  have downloading := (keeps.started.mp set).1
  refine ⟨fun _ => downloading, by simp, keeps.asked, ?_, ?_⟩
  · rw [keeps.order]
    simp [pending, downloading]
  · intro none
    simp [pending, downloading] at none

theorem TaskKeeps.download {ok : Bool} (keeps : TaskKeeps core .downloading requests runs) :
    TaskKeeps { core with mDownloadOk := ok } .completing requests
      (runs ++ [⟨core.mDownload, core.mFileName, ok⟩]) := by
  have downloading := keeps.busy (by simp)
  have unset : core.mCondStart ≠ true := fun set => by simpa using (keeps.started.mp set).2
  refine ⟨fun _ => downloading, by simpa using unset, keeps.asked, ?_, ?_⟩
  · rw [keeps.order]
    simp [pending, downloading, DownloadRun.ran]
  · intro none run last
    simp at last
    rw [← last]

theorem TaskKeeps.move {other : DownloadTaskAt} (keeps : TaskKeeps core task requests runs)
    (ran : task ≠ .waiting ∧ task ≠ .downloading)
    (stays : other ≠ .waiting ∧ other ≠ .downloading) : TaskKeeps core other requests runs := by
  have downloading := keeps.busy ran.1
  have unset : core.mCondStart ≠ true := fun set => ran.1 (keeps.started.mp set).2
  have none : pending core task = [] := pending_of_run ran.1 ran.2
  have noneThen : pending core other = [] := pending_of_run stays.1 stays.2
  refine ⟨fun _ => downloading, ?_, keeps.asked, ?_, fun _ => keeps.outcome none⟩
  · simp [unset, stays.1]
  · rw [keeps.order, none, noneThen]

theorem TaskKeeps.goIdle (keeps : TaskKeeps core .idling requests runs) :
    TaskKeeps { core with mIsDownloading := false } .waiting requests runs := by
  have unset : core.mCondStart ≠ true := fun set => by simpa using (keeps.started.mp set).2
  have none : pending core .idling = [] := pending_of_run (by simp) (by simp)
  refine ⟨by simp, by simpa using unset, by simp, ?_, fun _ => keeps.outcome none⟩
  rw [keeps.order, none, pending_of_idle rfl]

end Task

section Clients

variable {finished other : Prop} {condEnd : Option EndSignal}
  {requests : List (DownloadRequest Client)} {ended : EndSignal → Bool}
  {client : Client → DownloadClientAt} {who : Client} {place : DownloadClientAt}

theorem blocked_iff :
    place.Blocked ↔ ∃ number, place = .awaiting number ∨ place = .reading number := by
  cases place <;> simp [DownloadClientAt.Blocked]

theorem ClientsKeep.congr
    (keeps : ClientsKeep finished condEnd requests ended client) (same : other ↔ finished) :
    ClientsKeep other condEnd requests ended client := by
  rwa [propext same]

theorem ClientsKeep.eq_of_blocked (keeps : ClientsKeep finished condEnd requests ended client)
    {one another : Client} (first : (client one).Blocked) (second : (client another).Blocked) :
    one = another := by
  obtain ⟨number, here⟩ := blocked_iff.mp first
  obtain ⟨count, there⟩ := blocked_iff.mp second
  obtain ⟨-, request, last, mine, -⟩ := keeps.own one number here
  obtain ⟨-, same, lastAgain, yours, -⟩ := keeps.own another count there
  have eq : request = same := Option.some.inj (last.symm.trans lastAgain)
  rw [← mine, ← yours, eq]

/-- The task makes the end signal of the request. -/
theorem ClientsKeep.signalEnd {signalled : EndSignal → Bool}
    (keeps : ClientsKeep False condEnd requests ended client)
    (signals : ∀ signal, signalled signal =
      if condEnd = some signal then true else ended signal) :
    ClientsKeep True condEnd requests signalled client := by
  refine ⟨keeps.own, fun _ _ _ => trivial, ?_, fun _ _ _ going => absurd trivial going, ?_,
    fun going => absurd trivial going⟩
  · intro one number here _
    rw [signals, if_pos (keeps.awaited one number here id).1]
  · intro number known
    refine keeps.fresh number ?_
    rcases known with set | ends
    · rw [signals] at set
      split_ifs at set with ends
      · exact Or.inr ends
      · exact Or.inl set
    · exact Or.inr ends

variable [DecidableEq Client]

/-- A client in no blocking call goes elsewhere. -/
theorem ClientsKeep.move (keeps : ClientsKeep finished condEnd requests ended client)
    (free : ¬ (client who).Blocked) (stays : ¬ place.Blocked) :
    ClientsKeep finished condEnd requests ended (Function.update client who place) := by
  have before : ∀ {one : Client} {spot : DownloadClientAt}, spot.Blocked →
      Function.update client who place one = spot → client one = spot := by
    intro one where' blocked here
    by_cases same : one = who
    · subst same
      rw [Function.update_self] at here
      exact absurd (here ▸ blocked) stays
    · rwa [Function.update_of_ne same] at here
  refine ⟨fun one number here => keeps.own one number ?_,
    fun one number here => keeps.reads one number (before trivial here),
    fun one number here => keeps.signalled one number (before trivial here),
    fun one number here => keeps.awaited one number (before trivial here), keeps.fresh, ?_⟩
  · exact here.imp (before trivial) (before trivial)
  · intro going request last blocking
    have blocked := keeps.owner going request last blocking
    have elsewhere : request.client ≠ who := fun same => free (same ▸ blocked)
    rwa [Function.update_of_ne elsewhere]

/-- A request is taken while no client is in a blocking call. -/
theorem ClientsKeep.accept {request : DownloadRequest Client} {endSignal : Option EndSignal}
    (keeps : ClientsKeep finished condEnd requests ended client)
    (none : ∀ one, ¬ (client one).Blocked)
    (own : request.blocking = true → endSignal = some (.own requests.length))
    (foreign : ∀ number, endSignal = some (.own number) →
      number = requests.length ∨ condEnd = some (.own number)) :
    ClientsKeep False endSignal (requests ++ [request]) ended
      (Function.update client request.client
        (if request.blocking then .awaiting requests.length else .idle)) := by
  have placed : ∀ one number, Function.update client request.client
      (if request.blocking then .awaiting requests.length else .idle) one = .awaiting number ∨
      Function.update client request.client
        (if request.blocking then .awaiting requests.length else .idle) one = .reading number →
      one = request.client ∧ number = requests.length ∧ request.blocking = true := by
    intro one number here
    by_cases same : one = request.client
    · subst same
      rw [Function.update_self] at here
      split_ifs at here with blocking
      · rcases here with here | here
        · exact ⟨rfl, (DownloadClientAt.awaiting.inj here).symm, blocking⟩
        · simp at here
      · simp at here
    · rw [Function.update_of_ne same] at here
      exact absurd (blocked_iff.mpr ⟨number, here⟩) (none one)
  have unended : ended (.own requests.length) = false := by
    by_contra set
    have := keeps.fresh requests.length (Or.inl (by simpa using set))
    omega
  refine ⟨?_, ?_, fun _ _ _ finished => finished.elim, ?_, ?_, ?_⟩
  · intro one number here
    obtain ⟨mine, atEnd, blocking⟩ := placed one number here
    exact ⟨by simp [atEnd], request, by simp, mine.symm, blocking⟩
  · intro one number here
    obtain ⟨rfl, -, blocking⟩ := placed one number (Or.inr here)
    rw [Function.update_self, if_pos blocking] at here
    simp at here
  · intro one number here _
    obtain ⟨-, atEnd, blocking⟩ := placed one number (Or.inl here)
    rw [atEnd]
    exact ⟨own blocking, unended⟩
  · intro number set
    have known : number < requests.length ∨ number = requests.length := by
      rcases set with set | ends
      · exact Or.inl (keeps.fresh number (Or.inl set))
      · rcases foreign number ends with mine | old
        · exact Or.inr mine
        · exact Or.inl (keeps.fresh number (Or.inr old))
    simp only [List.length_append, List.length_singleton]
    omega
  · intro _ last isLast blocking
    simp only [List.getLast?_append, List.getLast?_singleton, Option.some_or,
      Option.some.injEq] at isLast
    subst isLast
    rw [Function.update_self, if_pos blocking]
    trivial

/-- The waiting call consumes its end signal. -/
theorem ClientsKeep.awaken {number : Nat} (keeps : ClientsKeep finished condEnd requests ended client)
    (waits : client who = .awaiting number) (set : ended (.own number) = true) :
    ClientsKeep finished condEnd requests (Function.update ended (.own number) false)
      (Function.update client who (.reading number)) := by
  have isOver : finished := by
    by_contra going
    have unset := (keeps.awaited who number waits going).2
    rw [set] at unset
    simp at unset
  have alone : ∀ one, one ≠ who → ¬ (client one).Blocked := fun one other blocked =>
    other (keeps.eq_of_blocked blocked (by rw [waits]; trivial))
  have placed : ∀ one count, Function.update client who (.reading number) one = .awaiting count ∨
      Function.update client who (.reading number) one = .reading count →
      one = who ∧ Function.update client who (.reading number) one = .reading number ∧
        count = number := by
    intro one count here
    by_cases same : one = who
    · subst same
      rw [Function.update_self] at here ⊢
      simpa [eq_comm] using here
    · rw [Function.update_of_ne same] at here
      exact absurd (blocked_iff.mpr ⟨count, here⟩) (alone one same)
  refine ⟨?_, fun _ _ _ => isOver, ?_, fun _ _ _ going => absurd isOver going, ?_,
    fun going => absurd isOver going⟩
  · intro one count here
    obtain ⟨rfl, -, rfl⟩ := placed one count here
    exact keeps.own one count (Or.inl waits)
  · intro one count here
    obtain ⟨-, reading, -⟩ := placed one count (Or.inl here)
    rw [here] at reading
    simp at reading
  · intro count known
    refine keeps.fresh count (known.imp_left fun set => ?_)
    by_cases same : EndSignal.own count = .own number
    · simp [same] at set
    · rwa [Function.update_of_ne same] at set

/-- The blocking call reads its result and returns. -/
theorem ClientsKeep.read {number : Nat} (keeps : ClientsKeep finished condEnd requests ended client)
    (reads : client who = .reading number) :
    ClientsKeep finished condEnd requests ended (Function.update client who .idle) := by
  have isOver := keeps.reads who number reads
  have free : ∀ one, ¬ (Function.update client who .idle one).Blocked := by
    intro one blocked
    by_cases same : one = who
    · subst same
      rw [Function.update_self] at blocked
      exact blocked
    · rw [Function.update_of_ne same] at blocked
      exact same (keeps.eq_of_blocked blocked (by rw [reads]; trivial))
  exact ⟨fun one count here => absurd (blocked_iff.mpr ⟨count, here⟩) (free one),
    fun _ _ _ => isOver,
    fun one count here => absurd (blocked_iff.mpr ⟨count, Or.inl here⟩) (free one),
    fun _ _ _ going => absurd isOver going, keeps.fresh, fun going => absurd isOver going⟩

end Clients

end DownloadSystem

end OpenMplane
