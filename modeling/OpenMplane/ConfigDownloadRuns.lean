import OpenMplane.ConfigDownloadTask

/-!
# What a step of the download manager does

The task and its clients share six members of the manager; every step keeps or
sets them in one of the ways of `Effect`.  `Takes` and `Checks` say, of the state
before a step, when the step asks for a download and when it looks at the
downloading flag.
-/

namespace OpenMplane

open GuardedRuns Conditional StatePrograms

/-- What the task and its clients share of the manager. -/
structure DownloadCore where
  mIsDownloading : Bool
  mFileName : String
  mCondEnd : Option EndSignal
  mDownload : Option String
  mDownloadOk : Bool
  mCondStart : Bool
  deriving DecidableEq, Repr

namespace ConfigDownloadManagement

def core (manager : ConfigDownloadManagement) : DownloadCore :=
  ⟨manager.mIsDownloading, manager.mFileName, manager.mCondEnd, manager.mDownload,
    manager.mDownloadOk, manager.mCondStart⟩

variable (manager : ConfigDownloadManagement)

@[simp]
theorem core_setRemoteUrlNoMutex (url : String) :
    (manager.setRemoteUrlNoMutex url).core = manager.core :=
  rfl

@[simp]
theorem core_setStatusObject (status : Nat) :
    (manager.setStatusObject status).core = manager.core :=
  rfl

@[simp]
theorem core_modifyDownload (change : ConfigDownload → ConfigDownload) :
    (manager.modifyDownload change).core = manager.core := by
  unfold modifyDownload
  split
  · rfl
  · split <;> rfl

@[simp]
theorem core_start (status : Nat) :
    (manager.start status).core = { manager.core with mCondStart := true } :=
  rfl

@[simp]
theorem core_ensureUrl : manager.ensureUrl.core = manager.core := by
  unfold ensureUrl
  split_ifs <;> rfl

theorem core_takeRequest (typeName fileName configDownload : String)
    (endSignal : Option EndSignal) :
    (manager.takeRequest typeName fileName configDownload endSignal).core =
      ⟨true, fileName, endSignal, some configDownload, true, manager.mCondStart⟩ :=
  rfl

theorem core_takeTransfer (typeName configDownload : String) (status : Nat)
    (done : DownloadDone) :
    (manager.takeTransfer typeName configDownload status done).core =
      ⟨true, "dummy.xml", manager.mCondEnd, some configDownload, true, manager.mCondStart⟩ :=
  rfl

theorem notInstalled_ne (typeName : String) :
    "Config type " ++ typeName ++ " not installed" ≠ alreadyDownloading := by
  intro same
  have letters := congrArg (fun text => text.toList.take 2) same
  simp [alreadyDownloading] at letters

variable {manager} {typeName fileName : String} {status : Nat} {after : ConfigDownloadManagement}

theorem core_of_install {endSignal : Option EndSignal}
    (accepted : install typeName fileName status endSignal manager = .ok () after) :
    manager.mServerUrl ≠ "" ∧ manager.getConfigDownload typeName ≠ none ∧
      manager.mIsDownloading = false ∧
      after.core = ⟨true, fileName, endSignal, manager.getConfigDownload typeName, true, true⟩ := by
  rw [install_apply] at accepted
  split_ifs at accepted with noUrl downloading
  cases installed : manager.getConfigDownload typeName with
  | none => simp [installed] at accepted
  | some key =>
      simp only [installed, EStateM.Result.ok.injEq, true_and] at accepted
      rw [← accepted]
      exact ⟨noUrl, by simp, by simpa using downloading, by simp [core_takeRequest]⟩

theorem of_install_error {endSignal : Option EndSignal} {reason : String}
    (refused : install typeName fileName status endSignal manager = .error reason after)
    (inProgress : reason = alreadyDownloading) :
    manager.mServerUrl ≠ "" ∧ manager.mIsDownloading = true := by
  rw [install_apply] at refused
  split_ifs at refused with noUrl downloading
  · simp only [EStateM.Result.error.injEq] at refused
    rw [← refused.1] at inProgress
    exact absurd inProgress (by decide)
  · exact ⟨noUrl, downloading⟩
  · cases installed : manager.getConfigDownload typeName with
    | none =>
        simp only [installed, EStateM.Result.error.injEq] at refused
        rw [← refused.1] at inProgress
        exact absurd inProgress (notInstalled_ne typeName)
    | some key => simp [installed] at refused

theorem core_of_configInstall {configWriteFunc configCompleteFunc : Option Nat}
    (accepted : configInstall typeName status configWriteFunc configCompleteFunc manager =
      .ok () after) :
    configWriteFunc ≠ none ∧ manager.getConfigDownload typeName ≠ none ∧
      manager.mIsDownloading = false ∧
      after.core =
        ⟨true, "dummy.xml", manager.mCondEnd, manager.getConfigDownload typeName, true, true⟩ := by
  rw [configInstall_apply] at accepted
  split_ifs at accepted with downloading
  cases configWriteFunc with
  | none => simp at accepted
  | some write =>
      cases installed : manager.getConfigDownload typeName with
      | none => simp [installed] at accepted
      | some key =>
          simp only [installed, EStateM.Result.ok.injEq, true_and] at accepted
          have sameEnd : manager.ensureUrl.mCondEnd = manager.mCondEnd :=
            congrArg DownloadCore.mCondEnd (core_ensureUrl manager)
          rw [← accepted, ← sameEnd]
          exact ⟨by simp, by simp, by simpa using downloading, by simp [core_takeTransfer]⟩

theorem of_configInstall_error {configWriteFunc configCompleteFunc : Option Nat} {reason : String}
    (refused : configInstall typeName status configWriteFunc configCompleteFunc manager =
      .error reason after) :
    after.core = manager.core ∧ (reason = alreadyDownloading → manager.mIsDownloading = true) := by
  rw [configInstall_apply] at refused
  split_ifs at refused with downloading
  · simp only [EStateM.Result.error.injEq] at refused
    rw [← refused.2]
    exact ⟨rfl, fun _ => downloading⟩
  · cases configWriteFunc with
    | none =>
        simp only [EStateM.Result.error.injEq] at refused
        rw [← refused.1, ← refused.2]
        exact ⟨rfl, fun inProgress => absurd inProgress (by decide)⟩
    | some write =>
        cases installed : manager.getConfigDownload typeName with
        | none =>
            simp only [installed, EStateM.Result.error.injEq] at refused
            rw [← refused.1, ← refused.2]
            exact ⟨core_ensureUrl manager, fun inProgress =>
              absurd inProgress (notInstalled_ne typeName)⟩
        | some key => simp [installed] at refused

end ConfigDownloadManagement

namespace DownloadSystem

variable {Client : Type} [DecidableEq Client]

theorem core_runCallback (manager : ConfigDownloadManagement) :
    (runCallback manager).core = manager.core := by
  unfold runCallback
  split
  · rfl
  · split_ifs <;> simp

/-- The client that asks for something in a step. -/
def Step.requester : Step Client → Option Client
  | .call client .. | .install client | .configInstall client .. | .setRemoteUrl client _ =>
      some client
  | _ => none

/-- The step takes a request when none is in progress. -/
def Takes (system : DownloadSystem Client) : Step Client → Prop
  | .install client =>
      match system.client client with
      | .installing typeName .. => system.manager.mServerUrl ≠ "" ∧
          system.manager.getConfigDownload typeName ≠ none
      | _ => False
  | .configInstall _ typeName _ configWriteFunc _ =>
      configWriteFunc ≠ none ∧ system.manager.getConfigDownload typeName ≠ none
  | _ => False

/-- The step is refused while a request is in progress. -/
def Checks (system : DownloadSystem Client) : Step Client → Prop
  | .call _ _ fileName _ _ => fileName ≠ "" ∧ ConfigDownloadManagement.splitUrl fileName ≠ none
  | .install _ => system.manager.mServerUrl ≠ ""
  | .configInstall .. | .setRemoteUrl .. => True
  | _ => False

inductive Effect (system : DownloadSystem Client) : Step Client → DownloadSystem Client → Prop
  | keep {step client place} {manager : ConfigDownloadManagement}
      (asks : step.requester = some client)
      (free : ¬ (system.client client).Blocked) (stays : ¬ place.Blocked)
      (same : manager.core = system.manager.core) :
      Effect system step ({ system with manager := manager }.move client place)
  | refuse {step client} (asks : step.requester = some client) (checks : Checks system step)
      (free : ¬ (system.client client).Blocked)
      (downloading : system.manager.mIsDownloading = true) :
      Effect system step ((system.refuse client).move client .idle)
  | accept {step client} {manager : ConfigDownloadManagement} {request : DownloadRequest Client}
      {endSignal : Option EndSignal} (takes : Takes system step)
      (asks : step.requester = some client) (mine : request.client = client)
      (free : ¬ (system.client client).Blocked)
      (idle : system.manager.mIsDownloading = false)
      (core : manager.core =
        ⟨true, request.fileName, endSignal, request.configDownload, true, true⟩)
      (own : request.blocking = true → endSignal = some (.own system.requests.length))
      (foreign : ∀ other, endSignal = some (.own other) →
        other = system.requests.length ∨ system.manager.mCondEnd = some (.own other)) :
      Effect system step
        ({ system with manager := manager, requests := system.requests ++ [request] }.move client
          (if request.blocking then .awaiting system.requests.length else .idle))
  | awaken {client request} (waits : system.client client = .awaiting request)
      (set : system.ended (.own request) = true) :
      Effect system (.awaken client)
        ({ system with ended := Function.update system.ended (.own request) false }.move client
          (.reading request))
  | read {client request} (reads : system.client client = .reading request) :
      Effect system (.readResult client)
        ({ system with
            results := system.results ++ [(request, system.manager.mDownloadOk)] }.move client .idle)
  | timeout {manager : ConfigDownloadManagement} (waits : system.task = .waiting)
      (core : manager.core = { system.manager.core with mCondStart := false }) :
      Effect system (.startWait false) { system with manager := manager, task := .waiting }
  | start {manager : ConfigDownloadManagement} (waits : system.task = .waiting)
      (set : system.manager.mCondStart = true)
      (core : manager.core = { system.manager.core with mCondStart := false }) :
      Effect system (.startWait true) { system with manager := manager, task := .downloading }
  | download {ok reason} {manager : ConfigDownloadManagement}
      (downloads : system.task = .downloading)
      (core : manager.core = { system.manager.core with mDownloadOk := ok }) :
      Effect system (.download ok reason)
        { system with
          manager := manager
          runs := system.runs ++ [⟨system.manager.mDownload, system.manager.mFileName, ok⟩]
          task := .completing }
  | complete {manager : ConfigDownloadManagement} (completes : system.task = .completing)
      (same : manager.core = system.manager.core) :
      Effect system .complete { system with manager := manager, task := .tidying }
  | tidy {manager : ConfigDownloadManagement} (tidies : system.task = .tidying)
      (same : manager.core = system.manager.core) :
      Effect system .tidy { system with manager := manager, task := .ending }
  | signalEnd {ended : EndSignal → Bool} (ends : system.task = .ending)
      (signalled : ∀ signal, ended signal =
        if system.manager.mCondEnd = some signal then true else system.ended signal) :
      Effect system .signalEnd { system with ended := ended, task := .idling }
  | goIdle {manager : ConfigDownloadManagement} (idles : system.task = .idling)
      (core : manager.core = { system.manager.core with mIsDownloading := false }) :
      Effect system .goIdle { system with manager := manager, task := .waiting }

theorem move_of_eq {system : DownloadSystem Client} {client : Client} {place : DownloadClientAt}
    (here : system.client client = place) : system.move client place = system := by
  subst here
  simp [move]

variable {system : DownloadSystem Client}

omit [DecidableEq Client] in
theorem free_of_idle {client : Client} (idle : system.client client = .idle) :
    ¬ (system.client client).Blocked := by
  simp [idle, DownloadClientAt.Blocked]

theorem effect_refuse {client : Client} {step : Step Client}
    (asks : step.requester = some client) (checks : Checks system step) (idle : system.client client = .idle)
    (downloading : system.manager.mIsDownloading = true) :
    Effect system step (system.refuse client) := by
  have refuse : Effect system step ((system.refuse client).move client .idle) :=
    .refuse asks checks (free_of_idle idle) downloading
  have here : (system.refuse client).client client = .idle := idle
  rwa [move_of_eq here] at refuse

theorem effect_keep {client : Client} {step : Step Client} {manager : ConfigDownloadManagement}
    (asks : step.requester = some client) (idle : system.client client = .idle)
    (same : manager.core = system.manager.core) :
    Effect system step { system with manager := manager } := by
  have keep : Effect system step ({ system with manager := manager }.move client .idle) :=
    .keep asks (free_of_idle idle) id same
  have here : ({ system with manager := manager } : DownloadSystem Client).client client = .idle :=
    idle
  rwa [move_of_eq here] at keep

theorem effect_call {client : Client} {typeName fileName : String} {status : Nat}
    {mode : DownloadMode} (idle : system.client client = .idle) :
    Effect system (.call client typeName fileName status mode)
      (system.callStep client typeName fileName status mode) := by
  unfold callStep
  split_ifs with empty
  · exact effect_keep rfl idle rfl
  · split
    · exact .keep rfl (free_of_idle idle) id rfl
    · rename_i url name splits
      split
      · rename_i done manager set
        rw [ConfigDownloadManagement.setRemoteUrl_apply] at set
        split_ifs at set
        simp only [EStateM.Result.ok.injEq] at set
        exact .keep rfl (free_of_idle idle) id (by rw [← set.2]; rfl)
      · rename_i reason manager refused
        rw [ConfigDownloadManagement.setRemoteUrl_apply] at refused
        split_ifs at refused with downloading
        exact effect_refuse rfl ⟨empty, by simp [splits]⟩ idle downloading

theorem effect_install {client : Client} {typeName fileName : String} {status : Nat}
    {mode : DownloadMode}
    (here : system.client client = .installing typeName fileName status mode) :
    Effect system (.install client) (system.installStep client) := by
  have free : ¬ (system.client client).Blocked := by
    simp [here, DownloadClientAt.Blocked]
  unfold installStep
  rw [here]
  dsimp only
  split
  · rename_i done manager accepted
    obtain ⟨url, installed, idle, core⟩ := ConfigDownloadManagement.core_of_install accepted
    have takes : Takes system (.install client) := by
      simp only [Takes, here]
      exact ⟨url, installed⟩
    refine .accept takes rfl rfl free idle core ?_ ?_
    · intro blocks
      cases mode with
      | blocking => rfl
      | nonBlocking endSignal => simp [DownloadMode.isBlocking] at blocks
    · intro other isOwn
      cases mode with
      | blocking => exact Or.inl (EndSignal.own.inj (Option.some.inj isOwn)).symm
      | nonBlocking endSignal => simp [DownloadMode.endSignal] at isOwn
  · rename_i reason manager refused
    split_ifs with inProgress
    · obtain ⟨url, downloading⟩ := ConfigDownloadManagement.of_install_error refused inProgress
      exact .refuse rfl url free downloading
    · exact .keep rfl free id rfl

theorem effect_configInstall {client : Client} {typeName : String} {status : Nat}
    {configWriteFunc configCompleteFunc : Option Nat} (idle : system.client client = .idle) :
    Effect system (.configInstall client typeName status configWriteFunc configCompleteFunc)
      (system.configInstallStep client typeName status configWriteFunc configCompleteFunc) := by
  unfold configInstallStep
  split
  · rename_i done manager accepted
    obtain ⟨write, installed, free, core⟩ :=
      ConfigDownloadManagement.core_of_configInstall accepted
    have effect : Effect system
        (.configInstall client typeName status configWriteFunc configCompleteFunc)
        ({ system with
            manager := manager
            requests := system.requests ++ [DownloadRequest.mk client false
              (system.manager.getConfigDownload typeName) "dummy.xml"] }.move client .idle) :=
      .accept ⟨write, installed⟩ rfl rfl (free_of_idle idle) free core (by simp) (fun other => Or.inr)
    rw [move_of_eq] at effect
    · exact effect
    · exact idle
  · rename_i reason manager refused
    obtain ⟨same, inProgress⟩ := ConfigDownloadManagement.of_configInstall_error refused
    split_ifs with eq
    · exact effect_refuse rfl trivial idle (inProgress eq)
    · exact effect_keep rfl idle same

theorem effect_of_enabled {step : Step Client} (enabled : Enabled system step) :
    Effect system step (next system step) := by
  cases step with
  | call client typeName fileName status mode => exact effect_call enabled
  | install client =>
      obtain ⟨typeName, fileName, status, mode, here⟩ := enabled
      exact effect_install here
  | configInstall client typeName status configWriteFunc configCompleteFunc =>
      exact effect_configInstall enabled
  | setRemoteUrl client url =>
      have idle : system.client client = .idle := enabled
      simp only [next, ConfigDownloadManagement.setRemoteUrl_apply]
      split_ifs with downloading
      · exact effect_refuse rfl trivial idle downloading
      · exact effect_keep rfl idle rfl
  | awaken client =>
      obtain ⟨request, waits, set⟩ := enabled
      simp only [next, waits]
      exact .awaken waits set
  | readResult client =>
      obtain ⟨request, reads⟩ := enabled
      simp only [next, reads]
      exact .read reads
  | startWait result =>
      cases result with
      | false => exact .timeout enabled.1 rfl
      | true => exact .start enabled.1 enabled.2 rfl
  | download ok reason => exact .download enabled rfl
  | complete => exact .complete enabled (core_runCallback system.manager)
  | tidy => exact .tidy enabled rfl
  | signalEnd =>
      refine .signalEnd enabled fun signal => ?_
      cases condEnd : system.manager.mCondEnd with
      | none => simp
      | some own =>
          by_cases same : own = signal
          · subst same
            simp [FlagOp.next]
          · have : ¬ signal = own := fun back => same back.symm
            simp [same, this]
  | goIdle => exact .goIdle enabled rfl

end DownloadSystem

end OpenMplane
