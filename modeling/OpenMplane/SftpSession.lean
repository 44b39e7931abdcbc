import OpenMplane.ConditionalFlag
import OpenMplane.SftpPathParts

/-!
# The jobs of an SFTP session

`SftpSession` of the SSH manager and the `TaskEvent` it is: clients queue jobs
under the session's mutex and then signal the event, and the session's task
waits for the event and takes jobs until it finds none.  A step is one critical
section of a client, one return of the task's wait, or one turn of the loop of
`runEvent`.  A job carries the call that made it, by the client and a number of
its own, to say whose job it is; the code has no such field.
-/

namespace OpenMplane

open ListCut Conditional

inductive SftpTransaction
  | SFTP_UPLOAD_FILE
  | SFTP_DOWNLOAD_FILE
  | SFTP_UPLOAD_DATA
  | SFTP_DOWNLOAD_DATA
  deriving DecidableEq, Repr

inductive JobType
  | JOB_TRANSACTION
  | JOB_MKDIR
  deriving DecidableEq, Repr

/-- The call a job or a callback belongs to. -/
structure SftpCaller (Client : Type) where
  client : Client
  number : Nat
  deriving DecidableEq, Repr

structure SftpJob (Client : Type) where
  mTransaction : SftpTransaction
  mRemotePath : String
  mLocalPath : String
  mData : String
  mDataFileOptions : Int
  mType : JobType
  mTimeout : Nat
  caller : SftpCaller Client
  deriving DecidableEq, Repr

/-- What a client asks for in one of the four calls. -/
structure SftpRequest where
  transaction : SftpTransaction
  remoteFile : String
  localFile : String
  data : String
  fileOptions : Int
  timeoutSecs : Nat
  deriving DecidableEq, Repr

namespace SftpSession

section Calls

def fileUpload (remoteFile localFile : String) (timeoutSecs : Nat) : SftpRequest :=
  ⟨.SFTP_UPLOAD_FILE, remoteFile, localFile, "", 0, timeoutSecs⟩

def fileDownload (remoteFile localFile : String) (timeoutSecs : Nat) : SftpRequest :=
  ⟨.SFTP_DOWNLOAD_FILE, remoteFile, localFile, "", 0, timeoutSecs⟩

def dataUpload (remoteFile data : String) (timeoutSecs : Nat) (fileOptions : Int) :
    SftpRequest :=
  ⟨.SFTP_UPLOAD_DATA, remoteFile, "", data, fileOptions, timeoutSecs⟩

def dataDownload (remoteFile : String) (timeoutSecs : Nat) : SftpRequest :=
  ⟨.SFTP_DOWNLOAD_DATA, remoteFile, "", "", 0, timeoutSecs⟩

variable {Client : Type}

/-- The job of `addMkdir`: the directory of the path, if it names one. -/
def addMkdir (caller : SftpCaller Client) (remotePath : String) : List (SftpJob Client) :=
  match cutLast '/' remotePath.toList with
  | none => []
  | some (directory, _) =>
      [⟨.SFTP_UPLOAD_FILE, String.ofList directory, "", "", 0, .JOB_MKDIR, 0, caller⟩]

end Calls

end SftpSession

namespace SftpRequest

variable {Client : Type}

def IsUpload (request : SftpRequest) : Prop :=
  request.transaction = .SFTP_UPLOAD_FILE ∨ request.transaction = .SFTP_UPLOAD_DATA

instance (request : SftpRequest) : Decidable request.IsUpload :=
  inferInstanceAs (Decidable (_ ∨ _))

/-- The job of the transfer. -/
def job (request : SftpRequest) (caller : SftpCaller Client) (path : SftpPath) : SftpJob Client :=
  ⟨request.transaction, path.mPath, request.localFile, request.data, request.fileOptions,
    .JOB_TRANSACTION, request.timeoutSecs, caller⟩

/-- The jobs a call queues, or the error it sets before it returns false. -/
def schedule (request : SftpRequest) (caller : SftpCaller Client) (mConnected localExists : Bool) :
    Except String (List (SftpJob Client)) := do
  if !mConnected then throw "SFTP session not created"
  if request.transaction = .SFTP_UPLOAD_FILE && !localExists then
    throw "Unable to read local file"
  let path ← SftpPath.parse request.remoteFile
  let directory := if request.IsUpload then SftpSession.addMkdir caller path.mPath else []
  return directory ++ [request.job caller path]

end SftpRequest

/-- What the file system and the server answer while a job is handled. -/
structure SftpAnswers where
  localOpened : Bool
  remoteOpened : Bool
  statted : Bool
  -- the texts of `ssh_get_error` and `strerror_r`
  sshError : String
  systemError : String
  -- what `doUpload` or `doDownload` leaves
  transferError : String
  timedOut : Bool
  downloaded : String
  deriving DecidableEq, Repr

/-- A callback as it is called. -/
structure SftpInvocation (Client : Type) where
  caller : SftpCaller Client
  remoteFile : String
  localFileOrData : String
  transaction : SftpTransaction
  error : String
  timedOut : Bool
  deriving DecidableEq, Repr

namespace SftpJob

variable {Client : Type}

def callback (job : SftpJob Client) (localFileOrData error : String) (timedOut : Bool) :
    SftpInvocation Client :=
  ⟨job.caller, job.mRemotePath, localFileOrData, job.mTransaction, error, timedOut⟩

def handleFileUpload (job : SftpJob Client) (answers : SftpAnswers) :
    List (SftpInvocation Client) :=
  if !answers.localOpened then
    [job.callback job.mLocalPath "Unable to read local file" false]
  else [job.callback job.mLocalPath answers.transferError answers.timedOut]

def handleFileDownload (job : SftpJob Client) (answers : SftpAnswers) :
    List (SftpInvocation Client) :=
  if !answers.remoteOpened then
    [job.callback job.mLocalPath ("Can't open file for reading: " ++ answers.sshError) false]
  else if !answers.statted then
    [job.callback job.mLocalPath ("Can't get file stats: " ++ answers.sshError) false]
  else if !answers.localOpened then
    [job.callback job.mLocalPath ("Unable to write local file " ++ answers.systemError) false]
  else [job.callback job.mLocalPath answers.transferError answers.timedOut]

def handleDataUpload (job : SftpJob Client) (answers : SftpAnswers) :
    List (SftpInvocation Client) :=
  [job.callback "" answers.transferError answers.timedOut]

def handleDataDownload (job : SftpJob Client) (answers : SftpAnswers) :
    List (SftpInvocation Client) :=
  [job.callback answers.downloaded answers.transferError answers.timedOut]

/-- The job as `runEvent` hands it to its handler; making a directory calls
nobody back. -/
def handle (job : SftpJob Client) (answers : SftpAnswers) : List (SftpInvocation Client) :=
  match job.mType, job.mTransaction with
  | .JOB_MKDIR, _ => []
  | .JOB_TRANSACTION, .SFTP_UPLOAD_FILE => job.handleFileUpload answers
  | .JOB_TRANSACTION, .SFTP_DOWNLOAD_FILE => job.handleFileDownload answers
  | .JOB_TRANSACTION, .SFTP_UPLOAD_DATA => job.handleDataUpload answers
  | .JOB_TRANSACTION, .SFTP_DOWNLOAD_DATA => job.handleDataDownload answers

theorem handle_callers (job : SftpJob Client) (answers : SftpAnswers) :
    (job.handle answers).map (·.caller) =
      if job.mType = .JOB_TRANSACTION then [job.caller] else [] := by
  cases kind : job.mType with
  | JOB_MKDIR => simp [handle, kind]
  | JOB_TRANSACTION =>
      cases transaction : job.mTransaction with
      | SFTP_UPLOAD_FILE =>
          simp only [handle, kind, transaction, handleFileUpload]
          split_ifs <;> rfl
      | SFTP_DOWNLOAD_FILE =>
          simp only [handle, kind, transaction, handleFileDownload]
          split_ifs <;> rfl
      | SFTP_UPLOAD_DATA | SFTP_DOWNLOAD_DATA => simp only [handle, kind, transaction]; rfl

end SftpJob

/-- Where a client is: with jobs still to queue, or about to signal the event. -/
inductive SftpClientAt (Client : Type)
  | idle
  | queueing (job : SftpJob Client) (later : List (SftpJob Client))
  | signalling (caller : SftpCaller Client)
  deriving DecidableEq, Repr

/-- Where the task is: in `mEvent.wait()`, before it looks at the queue, or with
a job in hand. -/
inductive SftpTaskAt (Client : Type)
  | waiting
  | taking (done : Bool)
  | running (job : SftpJob Client) (done : Bool)
  deriving DecidableEq, Repr

structure SftpSession (Client : Type) where
  mConnected : Bool
  mError : String
  mJobs : List (SftpJob Client)
  -- the flag of the conditional
  mEvent : Bool
  task : SftpTaskAt Client
  client : Client → SftpClientAt Client
  -- how many calls were made, which numbers them
  calls : Nat

namespace SftpSession

variable {Client : Type}

/-- A constructed session whose task has reached its wait. -/
def initial (mConnected : Bool) : SftpSession Client :=
  ⟨mConnected, "", [], false, .waiting, fun _ => .idle, 0⟩

inductive Step (Client : Type)
  | call (client : Client) (request : SftpRequest) (localExists : Bool)
  | queue (client : Client)
  | event (client : Client)
  | wake
  | take
  | run (answers : SftpAnswers)
  deriving DecidableEq, Repr

def setError (session : SftpSession Client) (error : String) : SftpSession Client :=
  { session with mError :=
      (if session.mError.isEmpty then session.mError else session.mError ++ "\n") ++ error }

variable [DecidableEq Client]

def move (session : SftpSession Client) (client : Client) (place : SftpClientAt Client) :
    SftpSession Client :=
  { session with client := Function.update session.client client place }

def Enabled (session : SftpSession Client) : Step Client → Prop
  | .call client _ _ => session.client client = .idle
  | .queue client => ∃ job later, session.client client = .queueing job later
  | .event client => ∃ caller, session.client client = .signalling caller
  | .wake => session.task = .waiting ∧ FlagOp.Enabled session.mEvent (.wait true)
  | .take => ∃ done, session.task = .taking done
  | .run _ => ∃ job done, session.task = .running job done

/-- The jobs a client queues from its place on. -/
def placeFor (caller : SftpCaller Client) : List (SftpJob Client) → SftpClientAt Client
  | [] => .signalling caller
  | job :: later => .queueing job later

def next (session : SftpSession Client) : Step Client → SftpSession Client
  | .call client request localExists =>
      let caller := ⟨client, session.calls⟩
      match request.schedule caller session.mConnected localExists with
      | .error error => { session with calls := session.calls + 1 }.setError error
      | .ok jobs => { session with calls := session.calls + 1 }.move client (placeFor caller jobs)
  | .queue client =>
      match session.client client with
      | .queueing job later =>
          { session with mJobs := session.mJobs ++ [job] }.move client (placeFor job.caller later)
      | _ => session
  | .event client =>
      { session with mEvent := FlagOp.next session.mEvent .signal }.move client .idle
  | .wake => { session with mEvent := FlagOp.next session.mEvent (.wait true), task := .taking true }
  | .take =>
      match session.task, session.mJobs with
      -- `break`: the event has been handled
      | .taking _, [] => { session with task := .waiting }
      | .taking done, job :: later =>
          { session with mJobs := later, task := .running job (done && later.isEmpty) }
      | _, _ => session
  | .run _ =>
      match session.task with
      | .running _ done => { session with task := if done then .waiting else .taking done }
      | _ => session

end SftpSession

end OpenMplane
