import OpenMplane.ConditionalFlag
import OpenMplane.StatePrograms
import OpenMplane.StdString

/-!
# The configuration download manager

`ConfigDownloadManagement` with the download types registered with it.  A call
that returns false throws its fail reason, and what it wrote before stays.  A
status object, a conditional and a function handed to a call are known by a
number; the null status object is number 0.  A shared pointer to a registered
type is its key in the map.
-/

namespace OpenMplane

open ListCut StatePrograms Conditional

inductive ConfigDownloadStatus
  | CONFIGDOWNLOAD_IDLE
  | CONFIGDOWNLOAD_RUNNING
  deriving DecidableEq, Repr

/-- A registered download type, `ConfigDownload`. -/
structure ConfigDownload where
  mStatus : ConfigDownloadStatus
  mServerUrl : String
  mInstallFileName : String
  mStatusObject : Nat
  mTcpTransfer : Option Nat
  deriving DecidableEq, Repr

namespace ConfigDownload

/-- A running type keeps its URL; the caller does not look at the result. -/
def setRemoteUrl (url : String) (download : ConfigDownload) : ConfigDownload :=
  if download.mStatus = .CONFIGDOWNLOAD_RUNNING then download
  else { download with mServerUrl := url }

def setStatusObject (status : Nat) (download : ConfigDownload) : ConfigDownload :=
  { download with mStatusObject := status }

def startTcpTransfer (configTransfer : Nat) (download : ConfigDownload) : ConfigDownload :=
  { download with mTcpTransfer := some configTransfer }

def endTcpTransfer (download : ConfigDownload) : ConfigDownload :=
  { download with mTcpTransfer := none }

end ConfigDownload

/-- What the callback of `configInstall` captures: the completion function of
the caller and whether a dummy URL was set. -/
structure DownloadDone where
  configCompleteFunc : Option Nat
  cleanUrl : Bool
  deriving DecidableEq, Repr

/-- The conditional that is signalled at the end of a download: one that a
blocking call made for itself, by the number of its request, or one the caller
gave. -/
inductive EndSignal
  | own (request : Nat)
  | given (conditional : Nat)
  deriving DecidableEq, Repr

structure ConfigDownloadManagement where
  mServerUrl : String
  mIsDownloading : Bool
  mTypeDownloading : String
  mFileName : String
  mCondEnd : Option EndSignal
  mDownload : Option String
  mDownloadOk : Bool
  mDownloadFailReason : String
  mStatusObject : Nat
  mDownloadDoneCallback : Option DownloadDone
  -- the flag of the conditional
  mCondStart : Bool
  mConfigDownloadMap : StdMap ConfigDownload

namespace ConfigDownloadManagement

/-- `toUpper` in the C locale. -/
def toUpper (text : String) : String :=
  String.ofList (text.toList.map Char.toUpper)

def configSuffix : String := "ConfigDownload"

/-- The key of the type: its name, or its name with the suffix. -/
def getConfigDownload (manager : ConfigDownloadManagement) (typeName : String) : Option String :=
  let ucTypeName := toUpper typeName
  if ucTypeName ∈ manager.mConfigDownloadMap then some ucTypeName
  else if ucTypeName ++ toUpper configSuffix ∈ manager.mConfigDownloadMap then
    some (ucTypeName ++ toUpper configSuffix)
  else none

def getInstallFileName (manager : ConfigDownloadManagement) (typeName : String) : String :=
  match manager.getConfigDownload typeName with
  | none => ""
  | some key => (manager.mConfigDownloadMap[key]?.map (·.mInstallFileName)).getD ""

def setRemoteUrlNoMutex (manager : ConfigDownloadManagement) (url : String) :
    ConfigDownloadManagement :=
  { manager with
    mServerUrl := url
    mConfigDownloadMap := manager.mConfigDownloadMap.map fun _ => ConfigDownload.setRemoteUrl url }

def setStatusObject (manager : ConfigDownloadManagement) (status : Nat) :
    ConfigDownloadManagement :=
  { manager with
    mStatusObject := status
    mConfigDownloadMap :=
      manager.mConfigDownloadMap.map fun _ => ConfigDownload.setStatusObject status }

def setState (manager : ConfigDownloadManagement) (downloading : Bool) (typeName : String) :
    ConfigDownloadManagement :=
  { manager with mTypeDownloading := typeName, mIsDownloading := downloading }

/-- A change of the type that is downloaded. -/
def modifyDownload (manager : ConfigDownloadManagement)
    (change : ConfigDownload → ConfigDownload) : ConfigDownloadManagement :=
  match manager.mDownload with
  | none => manager
  | some key =>
      match manager.mConfigDownloadMap[key]? with
      | none => manager
      | some download =>
          { manager with
            mConfigDownloadMap := manager.mConfigDownloadMap.insert key (change download) }

/-- A call: it ends with a fail reason when it returns false. -/
abbrev CallM := EStateM String ConfigDownloadManagement Unit

def setRemoteUrl (url : String) : CallM := do
  if (← get).mIsDownloading then
    throw "Unable to change server url while download is in progress"
  modify (setRemoteUrlNoMutex · url)

def alreadyDownloading : String :=
  "Cannot start a new download until existing download completes"

/-- What the task is given, and the signal that starts it. -/
def start (manager : ConfigDownloadManagement) (status : Nat) : ConfigDownloadManagement :=
  { manager.setStatusObject status with mCondStart := FlagOp.next manager.mCondStart .signal }

/-- The request of a `getAndInstall`. -/
def takeRequest (manager : ConfigDownloadManagement) (typeName fileName configDownload : String)
    (endSignal : Option EndSignal) : ConfigDownloadManagement :=
  { manager with
    mTypeDownloading := typeName
    mIsDownloading := true
    mFileName := fileName
    mCondEnd := endSignal
    mDownloadOk := true
    mDownloadFailReason := ""
    mDownload := some configDownload
    mDownloadDoneCallback := none }

/-- The request of a `configInstall`; the end signal of an earlier request stays. -/
def takeTransfer (manager : ConfigDownloadManagement) (typeName configDownload : String)
    (status : Nat) (done : DownloadDone) : ConfigDownloadManagement :=
  { manager with
    mTypeDownloading := typeName
    mIsDownloading := true
    mFileName := "dummy.xml"
    mDownloadOk := true
    mDownloadFailReason := ""
    mDownload := some configDownload
    mStatusObject := status
    mDownloadDoneCallback := some done }

/-- `getAndInstall` from where it takes the mutex. -/
def install (typeName fileName : String) (status : Nat) (endSignal : Option EndSignal) : CallM := do
  let manager ← get
  if manager.mServerUrl.isEmpty then throw "Remote URL not set"
  if manager.mIsDownloading then throw alreadyDownloading
  match manager.getConfigDownload typeName with
  | none => throw ("Config type " ++ typeName ++ " not installed")
  | some configDownload =>
      set ((manager.takeRequest typeName fileName configDownload endSignal).start status)

/-- The URL in front of the last slash of a file name, and the name behind it. -/
def splitUrl (fileName : String) : Option (String × String) :=
  (cutLast '/' fileName.toList).map fun (url, name) => (String.ofList url, String.ofList name)

def getAndInstall (typeName fileName : String) (status : Nat) (endSignal : Option EndSignal) :
    CallM := do
  if fileName.isEmpty then throw "Filename not set"
  match splitUrl fileName with
  | some (url, name) =>
      setRemoteUrl url
      install typeName name status endSignal
  | none => install typeName fileName status endSignal

/-- The overloads without a file name take the one of the type. -/
def getAndInstallDefault (typeName : String) (status : Nat) (endSignal : Option EndSignal) :
    CallM := do
  getAndInstall typeName ((← get).getInstallFileName typeName) status endSignal

def configInstall (typeName : String) (status : Nat)
    (configWriteFunc configCompleteFunc : Option Nat) : CallM := do
  if (← get).mIsDownloading then throw alreadyDownloading
  let some write := configWriteFunc | throw "Internal error"
  let cleanUrl := (← get).mServerUrl.isEmpty
  if cleanUrl then modify (setRemoteUrlNoMutex · "tcp-download")
  let manager ← get
  match manager.getConfigDownload typeName with
  | none => throw ("Config type " ++ typeName ++ " not installed")
  | some configDownload =>
      let manager := manager.takeTransfer typeName configDownload status ⟨configCompleteFunc, cleanUrl⟩
      set ((manager.modifyDownload (·.startTcpTransfer write)).start status)

section Results

variable (manager : ConfigDownloadManagement) {typeName fileName : String} {status : Nat}

theorem setRemoteUrl_apply (url : String) :
    setRemoteUrl url manager =
      if manager.mIsDownloading then
        .error "Unable to change server url while download is in progress" manager
      else .ok () (manager.setRemoteUrlNoMutex url) := by
  rw [setRemoteUrl, bind_apply, get_apply]
  cases downloading : manager.mIsDownloading with
  | true => simp [downloading, bind_apply]
  | false => simp [downloading]

/-- What `getAndInstall` does under the mutex. -/
theorem install_apply (endSignal : Option EndSignal) :
    install typeName fileName status endSignal manager =
      if manager.mServerUrl = "" then .error "Remote URL not set" manager
      else if manager.mIsDownloading then .error alreadyDownloading manager
      else match manager.getConfigDownload typeName with
        | none => .error ("Config type " ++ typeName ++ " not installed") manager
        | some key =>
            .ok () ((manager.takeRequest typeName fileName key endSignal).start status) := by
  rw [install, bind_apply, get_apply]
  by_cases noUrl : manager.mServerUrl = ""
  · simp [noUrl, bind_apply]
  · cases downloading : manager.mIsDownloading with
    | true => simp [noUrl, downloading, bind_apply]
    | false =>
        cases installed : manager.getConfigDownload typeName with
        | none => simp [noUrl, downloading, installed]
        | some key =>
            simp only [noUrl, downloading, installed, String.isEmpty_iff, if_false,
              Bool.false_eq_true]
            rfl

/-- What `getAndInstall` does, the URL of its file name first. -/
theorem getAndInstall_apply (endSignal : Option EndSignal) :
    getAndInstall typeName fileName status endSignal manager =
      if fileName = "" then .error "Filename not set" manager
      else match splitUrl fileName with
        | none => install typeName fileName status endSignal manager
        | some (url, name) =>
            if manager.mIsDownloading then
              .error "Unable to change server url while download is in progress" manager
            else install typeName name status endSignal (manager.setRemoteUrlNoMutex url) := by
  rw [getAndInstall]
  by_cases empty : fileName = ""
  · simp [empty, bind_apply]
  · cases splits : splitUrl fileName with
    | none => simp [empty]
    | some parts =>
        obtain ⟨url, name⟩ := parts
        cases downloading : manager.mIsDownloading with
        | true => simp [empty, bind_apply, setRemoteUrl_apply, downloading]
        | false => simp [empty, bind_apply, setRemoteUrl_apply, downloading]

/-- The manager with a URL, the dummy one when it had none. -/
def ensureUrl : ConfigDownloadManagement :=
  if manager.mServerUrl = "" then manager.setRemoteUrlNoMutex "tcp-download" else manager

@[simp]
theorem getConfigDownload_setRemoteUrlNoMutex (url typeName : String) :
    (manager.setRemoteUrlNoMutex url).getConfigDownload typeName =
      manager.getConfigDownload typeName := by
  simp [getConfigDownload, setRemoteUrlNoMutex]

theorem configInstall_apply (configWriteFunc configCompleteFunc : Option Nat) :
    configInstall typeName status configWriteFunc configCompleteFunc manager =
      if manager.mIsDownloading then .error alreadyDownloading manager
      else match configWriteFunc with
        | none => .error "Internal error" manager
        | some write =>
            match manager.getConfigDownload typeName with
            | none => .error ("Config type " ++ typeName ++ " not installed") manager.ensureUrl
            | some key =>
                .ok () (((manager.ensureUrl.takeTransfer typeName key status
                  ⟨configCompleteFunc, manager.mServerUrl.isEmpty⟩).modifyDownload
                    (·.startTcpTransfer write)).start status) := by
  unfold configInstall
  rw [bind_apply, get_apply]
  cases downloading : manager.mIsDownloading with
  | true => simp [downloading, bind_apply]
  | false =>
      cases configWriteFunc with
      | none => simp [downloading]
      | some write =>
          by_cases noUrl : manager.mServerUrl = ""
          · cases installed : manager.getConfigDownload typeName with
            | none => simp [downloading, bind_apply, noUrl, installed, ensureUrl]
            | some key => simp [downloading, bind_apply, noUrl, installed, ensureUrl]
          · cases installed : manager.getConfigDownload typeName with
            | none => simp [downloading, bind_apply, noUrl, installed, ensureUrl]
            | some key => simp [downloading, bind_apply, noUrl, installed, ensureUrl]

end Results

end ConfigDownloadManagement

end OpenMplane
