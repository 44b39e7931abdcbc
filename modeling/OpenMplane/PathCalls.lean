import OpenMplane.PathWalks

/-!
# File system calls

The system calls that `Path` and `PathUtils` make, on a directory tree, and the tests
both classes build on them.  One asks `lstat` what a path is and compares the type, the
other asks `stat`, which follows a link at the end, and tests one bit of the type.
-/

namespace OpenMplane

open SeparatorRuns FileTree

/-- A path as a string of characters. -/
abbrev PathString := List Char

inductive Errno
  | ENOENT
  | ENOTDIR
  | ELOOP
  | EEXIST
  | EACCES
  | EISDIR
  | EBUSY
  | EINVAL
  | ENOTEMPTY
  deriving DecidableEq

/-- What the calls depend on besides the tree: where the process works, and where it may
not make a directory. -/
structure Process where
  cwd : Location
  refuses : Location → Bool

namespace Process

def errnoOf : Fault → Errno
  | .noEntry => .ENOENT
  | .notDirectory => .ENOTDIR
  | .tooManyLinks => .ELOOP

/-- The directory in which the last name of a path is an entry, and the name; there is
none in a path of separators. -/
def entry (process : Process) (tree : FileTree) (path : PathString) :
    Except Errno (Location × Option Name) :=
  if path = [] then .error .ENOENT
  else
    match (segments '/' path).getLast? with
    | none => .ok ([], none)
    | some name =>
        match walk tree true linkBudget (origin path process.cwd) (segments '/' path).dropLast with
        | .error fault => .error (errnoOf fault)
        | .ok (dir, _) =>
            if tree.kind dir = some .directory then .ok (dir, some name) else .error .ENOTDIR

def mkdir (process : Process) (tree : FileTree) (path : PathString) : Except Errno FileTree :=
  match process.entry tree path with
  | .error errno => .error errno
  | .ok (_, none) => .error .EEXIST
  | .ok (dir, some name) =>
      if name = ['.'] ∨ name = ['.', '.'] then .error .EEXIST
      else if tree.kind (name :: dir) ≠ none then .error .EEXIST
      else if process.refuses (name :: dir) then .error .EACCES
      else .ok (tree.make name dir)

def unlink (process : Process) (tree : FileTree) (path : PathString) : Except Errno FileTree :=
  match process.entry tree path with
  | .error errno => .error errno
  | .ok (_, none) => .error .EISDIR
  | .ok (dir, some name) =>
      if name = ['.'] ∨ name = ['.', '.'] then .error .EISDIR
      else
        match tree.kind (name :: dir) with
        | none => .error .ENOENT
        | some .directory => .error .EISDIR
        | some _ =>
            if path.getLast? = some '/' then .error .ENOTDIR else .ok (tree.erase name dir)

def rmdir (process : Process) (tree : FileTree) (path : PathString) : Except Errno FileTree :=
  match process.entry tree path with
  | .error errno => .error errno
  | .ok (_, none) => .error .EBUSY
  | .ok (dir, some name) =>
      if name = ['.'] then .error .EINVAL
      else if name = ['.', '.'] then .error .ENOTEMPTY
      else
        match tree.kind (name :: dir) with
        | none => .error .ENOENT
        | some .directory =>
            if tree.names (name :: dir) = [] then .ok (tree.erase name dir)
            else .error .ENOTEMPTY
        | some _ => .error .ENOTDIR

/-- `::remove`, which unlinks, and removes a directory when it turns out to be one. -/
def remove (process : Process) (tree : FileTree) (path : PathString) : Except Errno FileTree :=
  match process.unlink tree path with
  | .error .EISDIR => process.rmdir tree path
  | result => result

def lstat (process : Process) (tree : FileTree) (path : PathString) : Option Kind :=
  tree.found false process.cwd path

def stat (process : Process) (tree : FileTree) (path : PathString) : Option Kind :=
  tree.found true process.cwd path

end Process

/-- The type bits of `st_mode`. -/
def st_mode : Kind → Nat
  | .file => 0o100000
  | .directory => 0o040000
  | .link _ => 0o120000
  | .special .socket => 0o140000
  | .special .blockDevice => 0o060000
  | .special .characterDevice => 0o020000
  | .special .fifo => 0o010000

def S_IFMT : Nat := 0o170000

def S_IFDIR : Nat := 0o040000

def S_ISDIR (mode : Nat) : Bool := mode &&& S_IFMT == S_IFDIR

namespace Path

variable (process : Process) (tree : FileTree) (path : PathString)

def «exists» : Bool := (process.lstat tree path).isSome

def isDir : Bool :=
  match process.lstat tree path with
  | none => false
  | some kind => S_ISDIR (st_mode kind)

end Path

namespace PathUtils

variable (process : Process) (tree : FileTree) (path : PathString)

def «exists» : Bool := (process.stat tree path).isSome

def isDir : Bool :=
  match process.stat tree path with
  | none => false
  | some kind => st_mode kind &&& S_IFDIR ≠ 0

end PathUtils

variable {process : Process} {tree : FileTree} {path : PathString} {kind : Kind}

theorem S_ISDIR_iff : S_ISDIR (st_mode kind) = true ↔ kind = .directory := by
  cases kind with
  | file => decide
  | directory => decide
  | special type => cases type <;> decide
  | link target =>
      have mode : st_mode (.link target) = 0o120000 := rfl
      have other : Kind.link target ≠ .directory := Kind.noConfusion
      rw [mode, iff_false_right other]
      decide

/-- The bit of a directory is set in the types of sockets and block devices too. -/
def HasDirBit (kind : Kind) : Prop :=
  kind = .directory ∨ kind = .special .socket ∨ kind = .special .blockDevice

instance (kind : Kind) : Decidable (HasDirBit kind) :=
  inferInstanceAs (Decidable (_ ∨ _ ∨ _))

theorem and_S_IFDIR_iff : st_mode kind &&& S_IFDIR ≠ 0 ↔ HasDirBit kind := by
  cases kind with
  | file => decide
  | directory => decide
  | special type => cases type <;> decide
  | link target =>
      have mode : st_mode (.link target) = 0o120000 := rfl
      have other : ¬ HasDirBit (.link target) := by simp [HasDirBit]
      rw [mode, iff_false_right other]
      decide

theorem Path.isDir_iff :
    Path.isDir process tree path = true ↔ process.lstat tree path = some .directory := by
  rw [Path.isDir]
  cases process.lstat tree path with
  | none => simp
  | some kind =>
      rw [Option.some.injEq]
      exact S_ISDIR_iff

theorem PathUtils.isDir_iff : PathUtils.isDir process tree path = true ↔
    ∃ kind, process.stat tree path = some kind ∧ HasDirBit kind := by
  rw [PathUtils.isDir]
  cases process.stat tree path with
  | none => simp
  | some kind =>
      simp only [Option.some.injEq, exists_eq_left', ← and_S_IFDIR_iff]
      exact decide_eq_true_iff

end OpenMplane
