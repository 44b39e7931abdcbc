import OpenMplane.ConfigDownloadManagement
import OpenMplane.GuardedRuns
import Mathlib.Logic.Function.Basic

/-!
# The download manager with its task and its clients

Any number of clients call the manager while its task waits for a start, runs
the download, signals the end and returns to idle.  A step is one critical
section of a client, one return of a wait, or one statement of the task's loop
between two points at which a client may run.  What was requested, run, returned
and refused is kept beside the state and read by no step; a request is known by
its place among the requests, which also names the end signal that a blocking
call makes.
-/

namespace OpenMplane

open GuardedRuns Conditional

/-- How a `getAndInstall` is called. -/
inductive DownloadMode
  | blocking
  | nonBlocking (endSignal : Option Nat)
  deriving DecidableEq, Repr

def DownloadMode.endSignal (mode : DownloadMode) (request : Nat) : Option EndSignal :=
  match mode with
  | blocking => some (.own request)
  | nonBlocking endSignal => endSignal.map .given

def DownloadMode.isBlocking : DownloadMode → Bool
  | blocking => true
  | nonBlocking _ => false

structure DownloadRequest (Client : Type) where
  client : Client
  blocking : Bool
  configDownload : Option String
  fileName : String
  deriving DecidableEq, Repr

/-- A download the task has run, with its outcome. -/
structure DownloadRun where
  configDownload : Option String
  fileName : String
  ok : Bool
  deriving DecidableEq, Repr

/-- Where the task is in its loop: in its timed wait, or before the download, the
callback, the reset of the status object, the end signal, the switch to idle. -/
inductive DownloadTaskAt
  | waiting
  | downloading
  | completing
  | tidying
  | ending
  | idling
  deriving DecidableEq, Repr

/-- Where a client is: out of the manager, between the two critical sections of
`getAndInstall`, in the wait for its end signal, or before `isDownloadOk`. -/
inductive DownloadClientAt
  | idle
  | installing (typeName fileName : String) (status : Nat) (mode : DownloadMode)
  | awaiting (request : Nat)
  | reading (request : Nat)
  deriving DecidableEq, Repr

/-- In a blocking call whose request was accepted. -/
def DownloadClientAt.Blocked : DownloadClientAt → Prop
  | awaiting _ | reading _ => True
  | idle | installing .. => False

structure DownloadSystem (Client : Type) where
  manager : ConfigDownloadManagement
  ended : EndSignal → Bool
  task : DownloadTaskAt
  client : Client → DownloadClientAt
  requests : List (DownloadRequest Client)
  runs : List DownloadRun
  results : List (Nat × Bool)
  -- who was refused for which request in progress
  refusals : List (Client × Nat)

namespace DownloadSystem

variable {Client : Type}

/-- The manager as constructed, with the types registered since. -/
def initial (types : StdMap ConfigDownload) : DownloadSystem Client where
  manager := ⟨"", false, "", "", none, none, true, "", 0, none, false, types⟩
  ended _ := false
  task := .waiting
  client _ := .idle
  requests := []
  runs := []
  results := []
  refusals := []

inductive Step (Client : Type)
  | call (client : Client) (typeName fileName : String) (status : Nat) (mode : DownloadMode)
  | install (client : Client)
  | configInstall (client : Client) (typeName : String) (status : Nat)
      (configWriteFunc configCompleteFunc : Option Nat)
  | setRemoteUrl (client : Client) (url : String)
  | awaken (client : Client)
  | readResult (client : Client)
  | startWait (result : Bool)
  | download (ok : Bool) (reason : String)
  | complete
  | tidy
  | signalEnd
  | goIdle
  deriving DecidableEq, Repr

variable [DecidableEq Client]

def move (system : DownloadSystem Client) (client : Client) (place : DownloadClientAt) :
    DownloadSystem Client :=
  { system with client := Function.update system.client client place }

/-- A refusal because of the request in progress. -/
def refuse (system : DownloadSystem Client) (client : Client) : DownloadSystem Client :=
  { system with refusals := system.refusals ++ [(client, system.requests.length - 1)] }

def Enabled (system : DownloadSystem Client) : Step Client → Prop
  | .call client .. | .configInstall client .. | .setRemoteUrl client _ =>
      system.client client = .idle
  | .install client => ∃ typeName fileName status mode,
      system.client client = .installing typeName fileName status mode
  | .awaken client => ∃ request, system.client client = .awaiting request ∧
      FlagOp.Enabled (system.ended (.own request)) (.wait true)
  | .readResult client => ∃ request, system.client client = .reading request
  | .startWait result =>
      system.task = .waiting ∧ FlagOp.Enabled system.manager.mCondStart (.wait result)
  | .download .. => system.task = .downloading
  | .complete => system.task = .completing
  | .tidy => system.task = .tidying
  | .signalEnd => system.task = .ending
  | .goIdle => system.task = .idling

/-- `getAndInstall` up to the end of its first critical section. -/
def callStep (system : DownloadSystem Client) (client : Client) (typeName fileName : String)
    (status : Nat) (mode : DownloadMode) : DownloadSystem Client :=
  if fileName = "" then system
  else match ConfigDownloadManagement.splitUrl fileName with
    | none => system.move client (.installing typeName fileName status mode)
    | some (url, name) =>
        match ConfigDownloadManagement.setRemoteUrl url system.manager with
        | .ok _ manager =>
            { system with manager := manager }.move client (.installing typeName name status mode)
        | .error _ _ => system.refuse client

/-- The second critical section. -/
def installStep (system : DownloadSystem Client) (client : Client) : DownloadSystem Client :=
  match system.client client with
  | .installing typeName fileName status mode =>
      let request := system.requests.length
      match ConfigDownloadManagement.install typeName fileName status (mode.endSignal request)
          system.manager with
      | .ok _ manager =>
          { system with
            manager := manager
            requests := system.requests ++ [DownloadRequest.mk client mode.isBlocking
              (system.manager.getConfigDownload typeName) fileName] }.move client
                (if mode.isBlocking then .awaiting request else .idle)
      | .error reason _ =>
          if reason = ConfigDownloadManagement.alreadyDownloading then
            (system.refuse client).move client .idle
          else system.move client .idle
  | _ => system

def configInstallStep (system : DownloadSystem Client) (client : Client) (typeName : String)
    (status : Nat) (configWriteFunc configCompleteFunc : Option Nat) : DownloadSystem Client :=
  match ConfigDownloadManagement.configInstall typeName status configWriteFunc configCompleteFunc
      system.manager with
  | .ok _ manager =>
      { system with
        manager := manager
        requests := system.requests ++ [DownloadRequest.mk client false
          (system.manager.getConfigDownload typeName) "dummy.xml"] }
  | .error reason manager =>
      if reason = ConfigDownloadManagement.alreadyDownloading then system.refuse client
      else { system with manager := manager }

/-- The callback of a `configInstall`. -/
def runCallback (manager : ConfigDownloadManagement) : ConfigDownloadManagement :=
  match manager.mDownloadDoneCallback with
  | none => manager
  | some done =>
      let manager := manager.modifyDownload ConfigDownload.endTcpTransfer
      if done.cleanUrl then manager.setRemoteUrlNoMutex "" else manager

def next (system : DownloadSystem Client) : Step Client → DownloadSystem Client
  | .call client typeName fileName status mode =>
      system.callStep client typeName fileName status mode
  | .install client => system.installStep client
  | .configInstall client typeName status configWriteFunc configCompleteFunc =>
      system.configInstallStep client typeName status configWriteFunc configCompleteFunc
  | .setRemoteUrl client url =>
      match ConfigDownloadManagement.setRemoteUrl url system.manager with
      | .ok _ manager => { system with manager := manager }
      | .error _ _ => system.refuse client
  | .awaken client =>
      match system.client client with
      | .awaiting request =>
          { system with
            ended := Function.update system.ended (.own request)
              (FlagOp.next (system.ended (.own request)) (.wait true)) }.move client
                (.reading request)
      | _ => system
  | .readResult client =>
      match system.client client with
      | .reading request =>
          { system with
            results := system.results ++ [(request, system.manager.mDownloadOk)] }.move client .idle
      | _ => system
  | .startWait result =>
      { system with
        manager :=
          { system.manager with
            mCondStart := FlagOp.next system.manager.mCondStart (.wait result) }
        task := if result then .downloading else .waiting }
  | .download ok reason =>
      { system with
        manager := { system.manager with mDownloadOk := ok, mDownloadFailReason := reason }
        runs := system.runs ++ [⟨system.manager.mDownload, system.manager.mFileName, ok⟩]
        task := .completing }
  | .complete => { system with manager := runCallback system.manager, task := .tidying }
  | .tidy => { system with manager := system.manager.setStatusObject 0, task := .ending }
  | .signalEnd =>
      { system with
        ended := match system.manager.mCondEnd with
          | some signal =>
              Function.update system.ended signal (FlagOp.next (system.ended signal) .signal)
          | none => system.ended
        task := .idling }
  | .goIdle => { system with manager := system.manager.setState false "", task := .waiting }

end DownloadSystem

end OpenMplane
