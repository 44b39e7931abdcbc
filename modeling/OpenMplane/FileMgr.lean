import OpenMplane.DirectoryEntries
import OpenMplane.DvTypeBase
import OpenMplane.MkPath
import OpenMplane.ReplaceStrs
import Mathlib.Data.List.Lex
import Mathlib.Data.Char

/-!
# The file manager

The model of `FileMgr`, which lists the files of a directory and removes those that a name,
a prefix or a `*` selects.  A process may be refused the removal of an entry by the system.
-/

namespace OpenMplane

open SeparatorRuns FileTree ListCut StringFunc

def S_IFREG : Nat := 0o100000

def S_ISREG (mode : Nat) : Bool := mode &&& S_IFMT == S_IFREG

namespace Path

def isFile (process : Process) (tree : FileTree) (path : PathString) : Bool :=
  match process.lstat tree (c_str path) with
  | none => false
  | some kind => S_ISREG (st_mode kind)

/-- `Path::dirContents`: the paths of the entries, in the order of the system. -/
def dirContents (process : Process) (tree : FileTree) (directory : PathString) :
    List PathString :=
  if directory = [] then []
  else match resolve tree true process.cwd (c_str directory) with
    | .error _ => []
    | .ok (place, _) =>
        let dirStr := if directory.getLast? = some '/' then directory else directory ++ ['/']
        (tree.names place).map (dirStr ++ ·)

def basename (path : PathString) : PathString :=
  match cutLast '/' path with
  | none => path
  | some (_, name) => name

def join (dir basename : PathString) : PathString :=
  if dir = [] then basename
  else (if dir.getLast? = some '/' then dir else dir ++ ['/']) ++ basename

end Path

structure FileMgr where
  mDir : PathString
  mTempDir : PathString
  mError : String
  mFilename : PathString
  mUrl : PathString
  mTempFilepath : PathString
  mDestFilepath : PathString

/-- The process that removes files: `keeps` are the entries that the system does not let it
unlink. -/
structure Remover where
  process : Process
  keeps : Location → Bool

namespace Remover

/-- `::unlink` by this process. -/
def unlink (remover : Remover) (tree : FileTree) (path : PathString) : Except Errno FileTree :=
  match remover.process.entry tree path with
  | .ok (dir, some name) =>
      if remover.keeps (name :: dir) then .error .EACCES else remover.process.unlink tree path
  | _ => remover.process.unlink tree path

end Remover

namespace FileMgr

variable (remover : Remover)

def setError (mgr : FileMgr) (error : String) : FileMgr :=
  { mgr with mError := (if mgr.mError = "" then mgr.mError else mgr.mError ++ "\n") ++ error }

/-- The order of `std::sort` on paths. -/
def pathLe (first second : PathString) : Bool := decide (first ≤ second)

def listFiles (mgr : FileMgr) (tree : FileTree) : FileMgr × List PathString :=
  if mgr.mDir = [] then (mgr.setError "Directory not set", [])
  else
    let contents := (Path.dirContents remover.process tree mgr.mDir).mergeSort pathLe
    (mgr, (contents.filter (Path.isFile remover.process tree)).map Path.basename)

def indexToFilename (mgr : FileMgr) (tree : FileTree) (index : Nat) : FileMgr × PathString :=
  let (mgr, files) := mgr.listFiles remover tree
  match files[index]? with
  | none => (mgr.setError "File index not found", [])
  | some file => (mgr, file)

/-- What a removal leaves: whether it succeeded, the manager and the tree. -/
abbrev Removal := Bool × FileMgr × FileTree

def delName (mgr : FileMgr) (tree : FileTree) (filename : PathString) : Removal :=
  if mgr.mDir = [] then (false, mgr.setError "Directory not set", tree)
  else
    let path := Path.join mgr.mDir filename
    if !Path.isFile remover.process tree path then
      (false, mgr.setError "Invalid filename", tree)
    else match remover.unlink tree (c_str path) with
      | .error _ => (false, mgr.setError "Unable to delete file", tree)
      | .ok after => (true, mgr, after)

def delIndex (mgr : FileMgr) (tree : FileTree) (fileIndex : Nat) : Removal :=
  let (mgr, filename) := mgr.indexToFilename remover tree fileIndex
  if filename = [] then (false, mgr, tree) else mgr.delName remover tree filename

/-- A loop that goes on as long as the removals succeed. -/
def delEach (del : FileMgr → FileTree → PathString → Removal) (mgr : FileMgr)
    (tree : FileTree) : List PathString → Removal
  | [] => (true, mgr, tree)
  | file :: files =>
      match del mgr tree file with
      | (false, mgr, tree) => (false, mgr, tree)
      | (true, mgr, tree) => delEach del mgr tree files

/-- The files whose names begin with a prefix when the case is ignored. -/
def toDelete (files : List PathString) (regexpStr : PathString) : List PathString :=
  files.filter fun file => findStr (toLower regexpStr) (toLower file) 0 = some 0

def delfile (mgr : FileMgr) (tree : FileTree) (name : PathString) : Removal :=
  let (mgr, files) := mgr.listFiles remover tree
  if files = [] then (false, mgr.setError "No files to delete", tree)
  else if name = ['*'] then
    -- keep deleting the first file in the list
    delEach (fun mgr tree _ => mgr.delIndex remover tree 0) mgr tree files
  else match cutFirst '*' name with
    | some (regexpStr, rest) =>
        if rest ≠ [] then
          (false, mgr.setError "Invalid wildcard expression, must be of the form: <name>*", tree)
        else
          let toDelete := toDelete files regexpStr
          if toDelete = [] then (false, mgr.setError "No matching files", tree)
          else delEach (fun mgr tree file => mgr.delName remover tree file) mgr tree toDelete
    | none => mgr.delName remover tree name

end FileMgr

end OpenMplane
