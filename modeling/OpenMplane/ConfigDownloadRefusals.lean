import OpenMplane.ConfigDownloadManagement

/-!
# Calls that are refused

A call of the download manager that returns false leaves the manager as it was,
unless it had set the server URL before it was refused: the URL in the file name
of a `getAndInstall` is set before the URL and the type are checked, and the
dummy URL of a `configInstall` before the type is.
-/

namespace OpenMplane

open StatePrograms

/-- A call that can be refused. -/
inductive DownloadCall
  | getAndInstall (typeName fileName : String) (status : Nat) (endSignal : Option EndSignal)
  | getAndInstallDefault (typeName : String) (status : Nat) (endSignal : Option EndSignal)
  | configInstall (typeName : String) (status : Nat) (configWriteFunc configCompleteFunc : Option Nat)
  deriving DecidableEq, Repr

namespace ConfigDownloadManagement

def call : DownloadCall → CallM
  | .getAndInstall typeName fileName status endSignal =>
      getAndInstall typeName fileName status endSignal
  | .getAndInstallDefault typeName status endSignal =>
      getAndInstallDefault typeName status endSignal
  | .configInstall typeName status configWriteFunc configCompleteFunc =>
      configInstall typeName status configWriteFunc configCompleteFunc

variable {manager : ConfigDownloadManagement}

/-- The manager and every type that would take it have this URL. -/
def HasUrl (manager : ConfigDownloadManagement) (url : String) : Prop :=
  manager.mServerUrl = url ∧ ∀ (key : String) (download : ConfigDownload),
    manager.mConfigDownloadMap[key]? = some download →
      download.mStatus = .CONFIGDOWNLOAD_IDLE → download.mServerUrl = url

/-- A file name with a URL that is set before the call is refused. -/
def SetsUrl (manager : ConfigDownloadManagement) (typeName fileName : String) : Prop :=
  manager.mIsDownloading = false ∧ ∃ url name, splitUrl fileName = some (url, name) ∧
    (url = "" ∨ manager.getConfigDownload typeName = none) ∧ ¬ manager.HasUrl url

/-- A call that is refused after it has changed a URL. -/
def ChangesUrl (manager : ConfigDownloadManagement) : DownloadCall → Prop
  | .getAndInstall typeName fileName _ _ => manager.SetsUrl typeName fileName
  | .getAndInstallDefault typeName _ _ =>
      manager.SetsUrl typeName (manager.getInstallFileName typeName)
  | .configInstall typeName _ configWriteFunc _ =>
      manager.mIsDownloading = false ∧ configWriteFunc ≠ none ∧ manager.mServerUrl = "" ∧
        manager.getConfigDownload typeName = none

theorem setRemoteUrl_eq_self_iff {url : String} {download : ConfigDownload} :
    download.setRemoteUrl url = download ↔
      (download.mStatus = .CONFIGDOWNLOAD_IDLE → download.mServerUrl = url) := by
  obtain ⟨status, serverUrl, fileName, statusObject, transfer⟩ := download
  cases status with
  | CONFIGDOWNLOAD_RUNNING => simp [ConfigDownload.setRemoteUrl]
  | CONFIGDOWNLOAD_IDLE => simpa [ConfigDownload.setRemoteUrl] using eq_comm

theorem setRemoteUrlNoMutex_eq_self_iff {url : String} :
    manager.setRemoteUrlNoMutex url = manager ↔ manager.HasUrl url := by
  constructor
  · intro same
    refine ⟨(congrArg mServerUrl same).symm, fun key download registered => ?_⟩
    have here := congrArg (fun after => after.mConfigDownloadMap[key]?) same
    simp only [setRemoteUrlNoMutex, Std.ExtTreeMap.getElem?_map, registered, Option.map_some,
      Option.some.injEq] at here
    exact setRemoteUrl_eq_self_iff.mp here
  · rintro ⟨same, types⟩
    have map : manager.mConfigDownloadMap.map (fun _ => ConfigDownload.setRemoteUrl url) =
        manager.mConfigDownloadMap := by
      refine Std.ExtTreeMap.ext_getElem? fun key => ?_
      rw [Std.ExtTreeMap.getElem?_map]
      cases registered : manager.mConfigDownloadMap[key]? with
      | none => rfl
      | some download =>
          rw [Option.map_some, setRemoteUrl_eq_self_iff.mpr (types key download registered)]
    rw [setRemoteUrlNoMutex, map, ← same]

/-- The call is refused, and whatever it is refused with, nothing has changed. -/
def RefusedUnchanged (manager : ConfigDownloadManagement) (download : DownloadCall) : Prop :=
  ∀ reason after, call download manager = .error reason after → after = manager

theorem install_unchanged {typeName fileName : String} {status : Nat}
    {endSignal : Option EndSignal} {reason : String} {after : ConfigDownloadManagement}
    (refused : install typeName fileName status endSignal manager = .error reason after) :
    after = manager ∧ (manager.mServerUrl = "" ∨ manager.mIsDownloading = true ∨
      manager.getConfigDownload typeName = none) := by
  rw [install_apply] at refused
  split_ifs at refused with noUrl downloading
  · cases refused
    exact ⟨rfl, Or.inl noUrl⟩
  · cases refused
    exact ⟨rfl, Or.inr (Or.inl downloading)⟩
  · cases installed : manager.getConfigDownload typeName with
    | none =>
        simp only [installed, EStateM.Result.error.injEq] at refused
        exact ⟨refused.2.symm, Or.inr (Or.inr rfl)⟩
    | some key => simp [installed] at refused

theorem install_refuses {typeName fileName : String} {status : Nat}
    {endSignal : Option EndSignal}
    (lacks : manager.mServerUrl = "" ∨ manager.getConfigDownload typeName = none) :
    ∃ reason, install typeName fileName status endSignal manager = .error reason manager := by
  rw [install_apply]
  split_ifs with noUrl
  · exact ⟨_, rfl⟩
  · exact ⟨_, rfl⟩
  · rw [lacks.resolve_left noUrl]
    exact ⟨_, rfl⟩

theorem getAndInstall_refusedUnchanged_iff {typeName fileName : String} {status : Nat}
    {endSignal : Option EndSignal} :
    (∀ reason after, getAndInstall typeName fileName status endSignal manager =
      .error reason after → after = manager) ↔ ¬ manager.SetsUrl typeName fileName := by
  rw [getAndInstall_apply]
  by_cases empty : fileName = ""
  · have noSlash : splitUrl "" = none := rfl
    rw [if_pos empty, empty]
    refine iff_of_true ?_ ?_
    · rintro reason after ⟨⟩
      rfl
    · rintro ⟨-, url, name, splits, -⟩
      simp [noSlash] at splits
  · rw [if_neg empty]
    cases splits : splitUrl fileName with
    | none =>
        refine iff_of_true (fun reason after refused => (install_unchanged refused).1) ?_
        rintro ⟨-, url, name, other, -⟩
        simp [splits] at other
    | some parts =>
        obtain ⟨url, name⟩ := parts
        cases downloading : manager.mIsDownloading with
        | true =>
            refine iff_of_true ?_ ?_
            · simp only [if_true]
              rintro reason after ⟨⟩
              rfl
            · rintro ⟨idle, -⟩
              simp [downloading] at idle
        | false =>
            simp only [Bool.false_eq_true, if_false]
            constructor
            · rintro unchanged ⟨-, other, rest, same, lacks, hasNot⟩
              obtain ⟨rfl, rfl⟩ : url = other ∧ name = rest := by
                simpa [splits] using same
              have lacksThen : (manager.setRemoteUrlNoMutex url).mServerUrl = "" ∨
                  (manager.setRemoteUrlNoMutex url).getConfigDownload typeName = none := by
                rw [getConfigDownload_setRemoteUrlNoMutex]
                exact lacks
              obtain ⟨reason, refused⟩ := install_refuses lacksThen
              exact hasNot (setRemoteUrlNoMutex_eq_self_iff.mp (unchanged reason _ refused))
            · intro keeps reason after refused
              obtain ⟨rfl, lacks⟩ := install_unchanged refused
              have idle : (manager.setRemoteUrlNoMutex url).mIsDownloading = false := downloading
              simp only [idle, Bool.false_eq_true, false_or,
                getConfigDownload_setRemoteUrlNoMutex] at lacks
              by_contra changed
              exact keeps ⟨downloading, url, name, splits, lacks, fun has =>
                changed (setRemoteUrlNoMutex_eq_self_iff.mpr has)⟩

theorem configInstall_refusedUnchanged_iff {typeName : String} {status : Nat}
    {configWriteFunc configCompleteFunc : Option Nat} :
    (∀ reason after, configInstall typeName status configWriteFunc configCompleteFunc manager =
      .error reason after → after = manager) ↔
        ¬ manager.ChangesUrl (.configInstall typeName status configWriteFunc configCompleteFunc) := by
  rw [configInstall_apply]
  cases downloading : manager.mIsDownloading with
  | true =>
      simp only [if_true]
      refine iff_of_true ?_ ?_
      · rintro reason after ⟨⟩
        rfl
      · rintro ⟨idle, -⟩
        simp [downloading] at idle
  | false =>
      simp only [Bool.false_eq_true, if_false]
      cases configWriteFunc with
      | none =>
          refine iff_of_true ?_ ?_
          · rintro reason after ⟨⟩
            rfl
          · rintro ⟨-, writes, -⟩
            exact writes rfl
      | some write =>
          cases installed : manager.getConfigDownload typeName with
          | some key =>
              refine iff_of_true (by simp) ?_
              rintro ⟨-, -, -, none⟩
              simp [installed] at none
          | none =>
              by_cases noUrl : manager.mServerUrl = ""
              · refine iff_of_false ?_ (not_not.mpr ⟨downloading, by simp, noUrl, installed⟩)
                intro unchanged
                have same := congrArg mServerUrl (unchanged _ _ rfl)
                simp [ensureUrl, noUrl, setRemoteUrlNoMutex] at same
              · refine iff_of_true ?_ (fun changes => noUrl changes.2.2.1)
                rintro reason after ⟨⟩
                simp [ensureUrl, noUrl]

/-- A refused call leaves the manager as it was exactly when it has not set a URL
before it was refused. -/
theorem refusedUnchanged_iff (manager : ConfigDownloadManagement) (download : DownloadCall) :
    manager.RefusedUnchanged download ↔ ¬ manager.ChangesUrl download := by
  cases download with
  | getAndInstall typeName fileName status endSignal =>
      exact getAndInstall_refusedUnchanged_iff
  | getAndInstallDefault typeName status endSignal =>
      exact getAndInstall_refusedUnchanged_iff
  | configInstall typeName status configWriteFunc configCompleteFunc =>
      exact configInstall_refusedUnchanged_iff

/-- A manager with a URL and no types. -/
def bareManager : ConfigDownloadManagement :=
  ⟨"old", false, "", "", none, none, true, "", 0, none, false, ∅⟩

/-- A download of an unknown type is refused with the new URL set. -/
theorem refusal_changes_url :
    (call (.getAndInstall "nosuch" "host/file.xml" 0 none) bareManager =
      .error "Config type nosuch not installed" (bareManager.setRemoteUrlNoMutex "host")) ∧
    ¬ ∀ manager download, RefusedUnchanged manager download := by
  have refused : call (.getAndInstall "nosuch" "host/file.xml" 0 none) bareManager =
      .error "Config type nosuch not installed" (bareManager.setRemoteUrlNoMutex "host") := rfl
  refine ⟨refused, fun always => ?_⟩
  have same := congrArg mServerUrl (always _ _ _ _ refused)
  exact absurd same (by decide)

end ConfigDownloadManagement

end OpenMplane
