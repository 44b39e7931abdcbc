import OpenMplane.ListCut
import OpenMplane.PathCalls
import OpenMplane.PlainWalks

/-!
# Making the directories of a path

The models of `mkdir` and `mkpath` of `Path` and of `PathUtils`, which walk down a path
and make each directory that is missing.  What they do in a tree without links is said by
the names of the path alone, so the two can be compared name by name: the second takes a
directory that exists for an error, as well as what it mistakes for one, and a file for
a success.
-/

namespace OpenMplane

open ListCut SeparatorRuns FileTree

/-- The characters before the zero that ends a C string. -/
def c_str (path : PathString) : PathString := path.takeWhile (· ≠ '\x00')

/-- The loop of `mkpath`, which makes what stands before each separator; two separators
together have nothing between them.  It goes once round for each separator at most. -/
def mkpathLoop (make : FileTree → PathString → Int × FileTree) :
    Nat → PathString → PathString → FileTree → Int × FileTree
  | 0, _, _, tree => (0, tree)
  | rounds + 1, before, pp, tree =>
      match cutFirst '/' pp with
      | none => (0, tree)
      | some (name, rest) =>
          let (status, tree) := if name ≠ [] then make tree (before ++ name) else (0, tree)
          if status = 0 then mkpathLoop make rounds (before ++ name ++ ['/']) rest tree
          else (status, tree)

namespace Path

def mkdir (process : Process) (tree : FileTree) (path : PathString) : Int × FileTree :=
  match process.stat tree path with
  | none =>
      match process.mkdir tree path with
      | .ok after => (0, after)
      | .error errno => if errno ≠ .EEXIST then (-1, tree) else (0, tree)
  | some kind => if ¬ S_ISDIR (st_mode kind) then (-1, tree) else (0, tree)

def mkpath (process : Process) (tree : FileTree) (path : PathString) : Int × FileTree :=
  let copypath := c_str path
  let (status, tree) := mkpathLoop (mkdir process) copypath.length [] copypath tree
  if status = 0 then mkdir process tree (c_str path) else (status, tree)

end Path

namespace PathUtils

def mkdir (process : Process) (tree : FileTree) (path : PathString) : Int × FileTree :=
  if ¬ PathUtils.exists process tree path then
    match process.mkdir tree path with
    | .ok after => (0, after)
    | .error errno => if errno ≠ .EEXIST then (-1, tree) else (0, tree)
  else if isDir process tree path then (-1, tree)
  else (0, tree)

/-- What `PathUtils::mkpath` does before a separator. -/
def mkpathStep (process : Process) (tree : FileTree) (copypath : PathString) : Int × FileTree :=
  if ¬ isDir process tree copypath then mkdir process tree copypath else (0, tree)

def mkpath (process : Process) (tree : FileTree) (path : PathString) : Int × FileTree :=
  let copypath := c_str path
  let (status, tree) := mkpathLoop (mkpathStep process) copypath.length [] copypath tree
  if status = 0 then mkdir process tree (c_str path) else (status, tree)

end PathUtils

section Prefixes

/-- What stands before the separators of a path, where it ends with a name. -/
def prefixesFrom : Nat → PathString → PathString → List PathString
  | 0, _, _ => []
  | rounds + 1, before, pp =>
      match cutFirst '/' pp with
      | none => []
      | some (name, rest) =>
          (if name ≠ [] then [before ++ name] else []) ++
            prefixesFrom rounds (before ++ name ++ ['/']) rest

/-- The paths are made one after the other, as long as that succeeds. -/
def makeAll (make : FileTree → PathString → Int × FileTree) :
    List PathString → FileTree → Int × FileTree
  | [], tree => (0, tree)
  | path :: paths, tree =>
      if (make tree path).1 = 0 then makeAll make paths (make tree path).2 else make tree path

theorem mkpathLoop_eq (make : FileTree → PathString → Int × FileTree) (rounds : Nat)
    (before pp : PathString) (tree : FileTree) :
    mkpathLoop make rounds before pp tree = makeAll make (prefixesFrom rounds before pp) tree := by
  induction rounds generalizing before pp tree with
  | zero => rfl
  | succ rounds ih =>
      rw [mkpathLoop, prefixesFrom]
      cases cutFirst '/' pp with
      | none => rfl
      | some cut =>
          obtain ⟨name, rest⟩ := cut
          dsimp only
          by_cases empty : name = []
          · rw [if_neg (not_not.mpr empty), if_neg (not_not.mpr empty), List.nil_append]
            exact ih _ rest tree
          · rw [if_pos empty, if_pos empty, List.singleton_append, makeAll]
            split
            · exact ih _ rest _
            · rfl

end Prefixes

section Calls

/-- What the three ways of making a directory have in common: they differ in what they
return for what is there already. -/
def makeEntry (process : Process) (onEntry : Kind → Int) (tree : FileTree)
    (path : PathString) : Int × FileTree :=
  match process.stat tree path with
  | none =>
      match process.mkdir tree path with
      | .ok after => (0, after)
      | .error errno => if errno ≠ .EEXIST then (-1, tree) else (0, tree)
  | some kind => (onEntry kind, tree)

/-- What `Path::mkdir` returns for what is there. -/
def Path.onEntry (kind : Kind) : Int := if kind = .directory then 0 else -1

/-- What `PathUtils::mkdir` returns for what is there. -/
def PathUtils.onEntry (kind : Kind) : Int := if HasDirBit kind then -1 else 0

/-- What `PathUtils::mkpath` makes of what is there before a separator. -/
def PathUtils.onStep (_ : Kind) : Int := 0

variable {process : Process} {tree after : FileTree} {path : PathString}

theorem Path.onEntry_of_ne {kind : Kind} (other : kind ≠ .directory) :
    Path.onEntry kind = -1 := if_neg other

theorem Path.mkdir_eq (tree : FileTree) (path : PathString) :
    Path.mkdir process tree path = makeEntry process Path.onEntry tree path := by
  rw [Path.mkdir, makeEntry]
  cases process.stat tree path with
  | none => rfl
  | some kind =>
      dsimp only
      by_cases directory : kind = .directory
      · rw [if_neg (not_not.mpr (S_ISDIR_iff.mpr directory)), directory]
        rfl
      · rw [if_pos (mt S_ISDIR_iff.mp directory), Path.onEntry_of_ne directory]

theorem PathUtils.mkdir_eq (tree : FileTree) (path : PathString) :
    PathUtils.mkdir process tree path = makeEntry process PathUtils.onEntry tree path := by
  have directory := @PathUtils.isDir_iff process tree path
  rw [PathUtils.mkdir, PathUtils.exists, makeEntry]
  cases found : process.stat tree path with
  | none => rfl
  | some kind =>
      simp only [found, Option.some.injEq, exists_eq_left'] at directory
      have present : (some kind).isSome = true := rfl
      dsimp only
      rw [if_neg (not_not.mpr present), PathUtils.onEntry]
      by_cases bit : HasDirBit kind
      · rw [if_pos (directory.mpr bit), if_pos bit]
      · rw [if_neg (mt directory.mp bit), if_neg bit]

theorem PathUtils.mkpathStep_eq (tree : FileTree) (path : PathString) :
    PathUtils.mkpathStep process tree path = makeEntry process PathUtils.onStep tree path := by
  have directory := @PathUtils.isDir_iff process tree path
  rw [PathUtils.mkpathStep, PathUtils.mkdir_eq, makeEntry, makeEntry]
  cases found : process.stat tree path with
  | none =>
      have absent : ¬ PathUtils.isDir process tree path = true := by
        rw [directory, found]
        simp
      rw [if_pos absent]
  | some kind =>
      simp only [found, Option.some.injEq, exists_eq_left'] at directory
      dsimp only
      rw [PathUtils.onEntry]
      by_cases bit : HasDirBit kind
      · rw [if_neg (not_not.mpr (directory.mpr bit))]
        rfl
      · rw [if_pos (mt directory.mp bit), if_neg bit]
        rfl

end Calls

section Names

/-- What making a directory does with one more name. -/
def settle (refuses : Location → Bool) (onEntry : Kind → Int) (tree : FileTree)
    (here : Location) (name : Name) : Int × FileTree :=
  if tree.kind here ≠ some .directory then (-1, tree)
  else
    match tree.kind (step here name) with
    | none => if refuses (step here name) then (-1, tree) else (0, tree.make name here)
    | some kind => (onEntry kind, tree)

/-- The names are settled one after the other, as long as that succeeds. -/
def settleAll (refuses : Location → Bool) (onEntry : Kind → Int) :
    FileTree → Location → List Name → Int × FileTree
  | tree, _, [] => (0, tree)
  | tree, here, name :: names =>
      if (settle refuses onEntry tree here name).1 = 0 then
        settleAll refuses onEntry
          (settle refuses onEntry tree here name).2 (step here name) names
      else settle refuses onEntry tree here name

variable {process : Process} {tree after : FileTree} {path : PathString} {here : Location}
  {names : List Name} {name : Name}

theorem pathNames_of_getLast? (single : path.getLast? ≠ some '/') :
    pathNames path = segments '/' path := by
  rw [pathNames, if_neg single, List.append_nil]

/-- What the calls find below names that lead somewhere. -/
theorem stat_eq (noLinks : NoLinks tree) (split : segments '/' path = names ++ [name])
    (single : path.getLast? ≠ some '/') (start : tree.kind (origin path process.cwd) ≠ none)
    (chain : Chain tree (origin path process.cwd) names) :
    process.stat tree path =
      if tree.kind (lexical (origin path process.cwd) names) = some .directory then
        tree.kind (step (lexical (origin path process.cwd) names) name)
      else none := by
  have parts : pathNames path = names ++ [name] := by rw [pathNames_of_getLast? single, split]
  have nonempty : path ≠ [] := by
    rintro rfl
    exact List.append_ne_nil_of_right_ne_nil _ (List.cons_ne_nil _ _) split.symm
  rw [Process.stat]
  split
  · next directory =>
      have onward : Chain tree (origin path process.cwd) (pathNames path) := by
        rw [parts, chain_concat]
        exact ⟨chain, directory⟩
      rw [found_eq noLinks nonempty start onward, parts, lexical_concat]
  · next other =>
      by_contra found
      obtain ⟨-, onward⟩ := chain_of_found noLinks start found
      rw [parts, chain_concat] at onward
      exact other onward.2

theorem entry_eq (noLinks : NoLinks tree) (split : segments '/' path = names ++ [name])
    (start : tree.kind (origin path process.cwd) ≠ none)
    (chain : Chain tree (origin path process.cwd) names)
    (leads : tree.kind (lexical (origin path process.cwd) names) ≠ none) :
    process.entry tree path =
      if tree.kind (lexical (origin path process.cwd) names) = some .directory then
        .ok (lexical (origin path process.cwd) names, some name)
      else .error .ENOTDIR := by
  have nonempty : path ≠ [] := by
    rintro rfl
    exact List.append_ne_nil_of_right_ne_nil _ (List.cons_ne_nil _ _) split.symm
  have walked := walk_of_leads ((@leads_iff tree true linkBudget _ _ _ _ noLinks start).mpr
    ⟨chain, leads, rfl, rfl⟩)
  rw [Process.entry, if_neg nonempty, split, List.getLast?_concat, List.dropLast_concat]
  dsimp only
  rw [walked]

/-- A directory is made, or found, as the last name says. -/
theorem makeEntry_eq (noLinks : NoLinks tree) (split : segments '/' path = names ++ [name])
    (single : path.getLast? ≠ some '/') (start : tree.kind (origin path process.cwd) ≠ none)
    (chain : Chain tree (origin path process.cwd) names)
    (leads : tree.kind (lexical (origin path process.cwd) names) ≠ none)
    (onEntry : Kind → Int) :
    makeEntry process onEntry tree path =
      settle process.refuses onEntry tree (lexical (origin path process.cwd) names)
        name := by
  have found := stat_eq noLinks split single start chain
  have entry := entry_eq noLinks split start chain leads
  generalize lexical (origin path process.cwd) names = dir at *
  rw [makeEntry, settle]
  by_cases directory : tree.kind dir = some .directory
  · rw [if_pos directory] at found entry
    rw [if_neg (not_not.mpr directory), found, Process.mkdir, entry]
    dsimp only
    cases child : tree.kind (step dir name) with
    | none =>
        have proper : name ≠ ['.'] ∧ name ≠ ['.', '.'] := by
          rw [← not_or]
          intro dots
          rw [kind_step_of_dots directory dots] at child
          cases child
        rw [step_of_proper proper] at child ⊢
        dsimp only
        rw [if_neg (not_or.mpr proper), if_neg (not_not.mpr child)]
        cases process.refuses (name :: dir) with
        | true => rfl
        | false => rfl
    | some kind => rfl
  · rw [if_neg directory] at found entry
    rw [if_pos directory, found, Process.mkdir, entry]
    rfl

end Names

end OpenMplane
