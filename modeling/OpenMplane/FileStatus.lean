import Mathlib.Data.Nat.Init
import Mathlib.Algebra.Group.Nat.Defs
import Mathlib.Algebra.Ring.Int.Defs

/-!
# The status of file operations

The model of `FileStatus`, which follows files that are handled one after the other: how
many there are and which is the current one, the progress of that file and the progress of
all.  Numbers are unsigned and of 32 bits, and what the output function is called with is
returned beside the new state.
-/

namespace OpenMplane

structure FileStatus where
  mNumFiles : Nat
  mCurrentFile : Nat
  mOp : String
  mFile : String
  mFileProgress : Nat
  mTotalProgress : Nat
  mDone : Bool
  mError : String
  mOutputFunc : Bool
  mPrevProgress : Int
  deriving DecidableEq

/-- `padRight`, which puts the padding before the text. -/
def padRight (str : String) (padWidth : Nat) : String :=
  String.ofList (List.replicate (padWidth - str.length) ' ') ++ str

namespace FileStatus

/-- The state and what was given to the output function. -/
abbrev Reported := FileStatus × List String

/-- A new object, with or without an output function. -/
def initial (mOutputFunc : Bool) : FileStatus :=
  ⟨1, 0, "", "", 0, 0, false, "", mOutputFunc, -1⟩

/-- `unsigned` arithmetic. -/
def unsigned (number : Nat) : Nat := number % 2 ^ 32

def outputStart (op filename : String) : String := op ++ ": " ++ filename ++ "   0%"

def outputPercent (progress : Nat) : String :=
  "\x08\x08\x08\x08    \x08\x08\x08\x08" ++ padRight (toString progress) 3 ++ "%"

def outputEnd : String := "\n"

/-- `updateProgress`: whether the status has changed, and the new one. -/
def updateProgress (status : FileStatus) (progress : Nat) : Bool × FileStatus :=
  let progress := if progress > 100 then 100 else progress
  let currentProgress : Int := status.mFileProgress
  (status.mPrevProgress != currentProgress,
    { status with
      mPrevProgress := currentProgress
      mFileProgress := progress
      mTotalProgress :=
        if progress = 100 then unsigned (status.mCurrentFile * 100) / status.mNumFiles
        else
          unsigned (unsigned (unsigned (status.mCurrentFile + (2 ^ 32 - 1)) * 100) + progress) /
            status.mNumFiles })

def restart (status : FileStatus) (num : Nat) : Reported :=
  ({ status with
     mNumFiles := if num > 0 then num else status.mNumFiles
     mCurrentFile := 0
     mOp := ""
     mFile := ""
     mFileProgress := 0
     mTotalProgress := 0
     mDone := false
     mError := ""
     mPrevProgress := -1 }, [])

def operation (status : FileStatus) (op : String) : Reported :=
  ({ status with mOp := op }, [])

def start (status : FileStatus) (filename : String) : Reported :=
  let mCurrentFile := unsigned (status.mCurrentFile + 1)
  let status := { status with
    mCurrentFile
    mFile := filename
    mFileProgress := 0
    mNumFiles := if mCurrentFile > status.mNumFiles then mCurrentFile else status.mNumFiles }
  if !status.mOutputFunc then (status, [])
  else if status.mOp = "" then (status, [])
  else if status.mFile = "" then (status, [])
  else (status, [outputStart status.mOp status.mFile])

def startOperation (status : FileStatus) (op filename : String) : Reported :=
  (status.operation op).1.start filename

def progress (status : FileStatus) (progressPercent : Nat) : Reported :=
  if status.mCurrentFile < 1 then (status, [])
  else
    let (changed, status) := status.updateProgress progressPercent
    if !changed then (status, [])
    else if !status.mOutputFunc then (status, [])
    else (status, [outputPercent progressPercent])

def «end» (status : FileStatus) : Reported :=
  let (_, status) := status.updateProgress 100
  if !status.mOutputFunc then (status, [])
  else if status.mFile = "" then (status, [])
  else (status, [outputPercent 100, outputEnd])

def skip (status : FileStatus) : Reported :=
  let (status, output) := status.start ""
  ((status.updateProgress 100).2, output)

/-- `skip` with a number of files. -/
def skipFiles (status : FileStatus) : Nat → Reported
  | 0 => (status, [])
  | numFiles + 1 =>
      let (status, output) := status.skip
      let (status, outputs) := skipFiles status numFiles
      (status, output ++ outputs)

def fail (status : FileStatus) (error : String) : Reported :=
  let status := { status with mError := error, mDone := true }
  if !status.mOutputFunc then (status, []) else (status, ["\n"])

def success (status : FileStatus) : Reported :=
  let (status, output) := if status.mFileProgress < 100 then status.end else (status, [])
  ({ status with
     mDone := true
     mCurrentFile := status.mNumFiles
     mFileProgress := 100
     mTotalProgress := 100 }, output)

end FileStatus

/-- The calls that a user of the object makes. -/
inductive StatusCall
  | restart (num : Nat)
  | operation (op : String)
  | start (filename : String)
  | startOperation (op filename : String)
  | progress (progressPercent : Nat)
  | end
  | skip
  | skipFiles (numFiles : Nat)
  | fail (error : String)
  | success
  deriving DecidableEq

def FileStatus.call (status : FileStatus) : StatusCall → FileStatus.Reported
  | .restart num => status.restart num
  | .operation op => status.operation op
  | .start filename => status.start filename
  | .startOperation op filename => status.startOperation op filename
  | .progress progressPercent => status.progress progressPercent
  | .end => status.end
  | .skip => status.skip
  | .skipFiles numFiles => status.skipFiles numFiles
  | .fail error => status.fail error
  | .success => status.success

end OpenMplane
