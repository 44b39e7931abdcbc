import OpenMplane.MkPathAgreement

/-!
# Where the second version makes a path

`PathUtils::mkpath` tells the names before the last as `Path::mkpath` does, but for what is
no directory, which it passes over, and fails in the last place at a directory and at what
it mistakes for one.  So it agrees where the path cannot be made, and nowhere else.
-/

namespace OpenMplane

open SeparatorRuns FileTree

section Last

variable {process : Process} {tree : FileTree} {path : PathString} {front : List Name}
  {name : Name}

/-- What `PathUtils::mkpath` returns for what is there in the last place: before a
separator only a directory is found. -/
def PathUtils.onLast (path : PathString) (kind : Kind) : Int :=
  if kind = .directory ∨ path.getLast? ≠ some '/' ∧ HasDirBit kind then -1 else 0

theorem PathUtils.onLast_of_name (single : path.getLast? ≠ some '/') :
    PathUtils.onLast path = PathUtils.onEntry := by
  funext kind
  have same : (kind = .directory ∨ path.getLast? ≠ some '/' ∧ HasDirBit kind) ↔
      HasDirBit kind :=
    ⟨fun either => either.elim Or.inl And.right, fun bit => Or.inr ⟨single, bit⟩⟩
  simp only [PathUtils.onLast, PathUtils.onEntry, same]

theorem PathUtils.onLast_of_mistaken (single : path.getLast? ≠ some '/') {kind : Kind}
    (mistaken : Mistaken kind) : PathUtils.onLast path kind = -1 :=
  if_pos (Or.inr ⟨single, mistaken.1⟩)

theorem PathUtils.onLast_of_trailing (trailing : path.getLast? = some '/') {kind : Kind}
    (other : kind ≠ .directory) : PathUtils.onLast path kind = 0 :=
  if_neg (not_or.mpr ⟨other, fun single => single.1 trailing⟩)

theorem settle_directory_or (trailing : path.getLast? = some '/') {refuses : Location → Bool}
    {here : Location} :
    settle refuses PathUtils.onStep tree here name =
        settle refuses (PathUtils.onLast path) tree here name ∨
      tree.kind (step here name) = some .directory ∧
        settle refuses PathUtils.onStep tree here name = (0, tree) ∧
        settle refuses (PathUtils.onLast path) tree here name = (-1, tree) := by
  rw [settle, settle]
  split
  · exact Or.inl rfl
  · cases child : tree.kind (step here name) with
    | none => exact Or.inl rfl
    | some kind =>
        by_cases directory : kind = .directory
        · subst directory
          exact Or.inr ⟨rfl, rfl, rfl⟩
        · exact Or.inl (Prod.ext (PathUtils.onLast_of_trailing trailing directory).symm rfl)

/-- The last name is settled with answers of its own; only a directory made before a
separator at the end is then taken for one that was there. -/
theorem PathUtils.mkpath_concat (noLinks : NoLinks tree)
    (working : tree.kind process.cwd = some .directory)
    (split : segments '/' (c_str path) = front ++ [name]) {after : FileTree}
    (reached : settleAll process.refuses PathUtils.onStep tree
      (origin (c_str path) process.cwd) front = (0, after)) :
    let last := settle process.refuses (PathUtils.onLast (c_str path)) after
      (lexical (origin (c_str path) process.cwd) front) name
    PathUtils.mkpath process tree path = last ∨
      last.1 = 0 ∧ PathUtils.mkpath process tree path = (-1, last.2) ∧
        last.2.kind (lexical (origin (c_str path) process.cwd) (front ++ [name])) =
          some .directory := by
  by_cases trailing : (c_str path).getLast? = some '/'
  · have outcome := PathUtils.mkpath_of_trailing noLinks working trailing
    rw [split, settleAll_concat, reached] at outcome
    dsimp only at outcome ⊢
    rw [if_pos rfl, lexical_concat] at outcome
    rw [outcome, lexical_concat]
    generalize lexical (origin (c_str path) process.cwd) front = here
    rcases @settle_directory_or after (c_str path) name trailing process.refuses here with
      same | ⟨child, here₀, here₁⟩
    · rw [same]
      generalize settle process.refuses (PathUtils.onLast (c_str path)) after here name = last
      split
      · next zero =>
          split
          · next directory => exact Or.inr ⟨zero, rfl, directory⟩
          · exact Or.inl (Prod.ext zero.symm rfl)
      · exact Or.inl rfl
    · rw [here₀, here₁, if_pos rfl, if_pos child]
      exact Or.inl rfl
  · have outcome := PathUtils.mkpath_of_name noLinks working trailing split
    rw [reached, ← PathUtils.onLast_of_name trailing] at outcome
    exact Or.inl outcome

theorem PathUtils.mkpath_failed (noLinks : NoLinks tree)
    (working : tree.kind process.cwd = some .directory)
    (split : segments '/' (c_str path) = front ++ [name])
    (failed : (settleAll process.refuses PathUtils.onStep tree (origin (c_str path) process.cwd) front).1 ≠ 0) :
    PathUtils.mkpath process tree path =
      settleAll process.refuses PathUtils.onStep tree (origin (c_str path) process.cwd) front := by
  by_cases trailing : (c_str path).getLast? = some '/'
  · have outcome := PathUtils.mkpath_of_trailing noLinks working trailing
    rw [split, settleAll_concat, if_neg failed] at outcome
    dsimp only at outcome
    rw [if_neg failed] at outcome
    exact outcome
  · have outcome := PathUtils.mkpath_of_name noLinks working trailing split
    rw [if_neg failed] at outcome
    exact outcome

/-- Where all names are directories the second version fails. -/
theorem PathUtils.mkpath_of_standing (noLinks : NoLinks tree)
    (working : tree.kind process.cwd = some .directory) (nonempty : c_str path ≠ [])
    (standing : Standing tree (origin (c_str path) process.cwd) (segments '/' (c_str path))) :
    PathUtils.mkpath process tree path = (-1, tree) := by
  rcases List.eq_nil_or_concat (segments '/' (c_str path)) with none | ⟨front, name, split⟩
  · have trailing := (cut_of_segments_eq_nil none).resolve_left nonempty
    rw [PathUtils.mkpath_of_trailing noLinks working trailing, none]
    dsimp only
    rw [settleAll, if_pos rfl]
    exact if_pos (kind_origin working _)
  · rw [List.concat_eq_append] at split
    rw [split, standing_concat] at standing
    have reached : settleAll process.refuses PathUtils.onStep tree (origin (c_str path) process.cwd) front =
        (0, tree) := settleAll_of_standing rfl standing.1
    have last : settle process.refuses (PathUtils.onLast (c_str path)) tree
        (lexical (origin (c_str path) process.cwd) front) name = (-1, tree) := by
      rw [settle, if_neg (not_not.mpr standing.1.2), standing.2]
      rfl
    have outcome := PathUtils.mkpath_concat noLinks working split reached
    rw [last] at outcome
    rcases outcome with outcome | ⟨zero, -⟩
    · exact outcome
    · exact absurd zero (by simp)

end Last

theorem settle_of_refused {refuses : Location → Bool} {onEntry : Kind → Int} {tree : FileTree}
    {here : Location} {name : Name} (directory : tree.kind here = some .directory)
    (missing : tree.kind (step here name) = none) (refused : refuses (step here name) = true) :
    settle refuses onEntry tree here name = (-1, tree) := by
  rw [settle, if_neg (not_not.mpr directory), missing]
  exact if_pos refused

theorem settle_of_kind {refuses : Location → Bool} {onEntry : Kind → Int} {tree : FileTree}
    {here : Location} {name : Name} {kind : Kind} (directory : tree.kind here = some .directory)
    (child : tree.kind (step here name) = some kind) :
    settle refuses onEntry tree here name = (onEntry kind, tree) := by
  rw [settle, if_neg (not_not.mpr directory), child]

section Agreement

variable {process : Process} {tree : FileTree} {path : PathString}

/-- Where a path cannot be made, both versions fail and have made the same. -/
theorem second_eq_first (noLinks : NoLinks tree)
    (working : tree.kind process.cwd = some .directory)
    (cannot : CannotBeMade process tree (c_str path)) :
    PathUtils.mkpath process tree path = Path.mkpath process tree path ∧
      (Path.mkpath process tree path).1 = -1 := by
  have first := Path.mkpath_eq noLinks working path
  have start := kind_origin working (c_str path)
  by_cases empty : c_str path = []
  · have second : PathUtils.mkpath process tree path = (-1, tree) := by
      rw [PathUtils.mkpath, empty]
      rfl
    rw [if_pos empty] at first
    rw [first, second]
    exact ⟨rfl, rfl⟩
  rw [if_neg empty] at first
  have cannot := cannot.resolve_left empty
  rcases List.eq_nil_or_concat (segments '/' (c_str path)) with none | ⟨front, name, split⟩
  · rw [none] at cannot
    rcases cannot with ⟨front, inside, obstructed⟩ | ⟨missing, -⟩ | ⟨-, kind, mistaken, entry⟩
    · obtain rfl := List.prefix_nil.mp inside
      rcases obstructed with ⟨kind, file, other⟩ | ⟨missing, -⟩
      · exact absurd (Option.some.inj (file.symm.trans start)) other
      · exact absurd (start.symm.trans missing) (by simp)
    · exact absurd (start.symm.trans missing) (by simp)
    · exact absurd (Option.some.inj (entry.symm.trans start)) mistaken.2
  rw [List.concat_eq_append] at split
  have segment := segment_of_mem_segments split
  have keeps := @settleAll_keeps process.refuses Path.onEntry tree (origin (c_str path) process.cwd)
    front noLinks segment
  rw [split, List.dropLast_concat, lexical_concat] at cannot
  rw [split, settleAll_concat] at first
  rcases @settleAll_onStep process.refuses tree (origin (c_str path) process.cwd) front noLinks
    segment start with same | ⟨after, reached, stopped, kind, file, other⟩
  · by_cases zero : (settleAll process.refuses Path.onEntry tree (origin (c_str path) process.cwd)
        front).1 = 0
    · have standing := settleAll_standing noLinks segment start zero
      have new := @settleAll_new process.refuses Path.onEntry tree
        (origin (c_str path) process.cwd) front noLinks segment
        (step (lexical (origin (c_str path) process.cwd) front) name)
      have obstructs := @settleAll_of_obstructed process tree
        (origin (c_str path) process.cwd) front noLinks segment start
      rw [if_pos zero] at first
      have reached : settleAll process.refuses PathUtils.onStep tree
          (origin (c_str path) process.cwd) front =
            (0, (settleAll process.refuses Path.onEntry tree
              (origin (c_str path) process.cwd) front).2) := same.trans (Prod.ext zero rfl)
      have second := PathUtils.mkpath_concat noLinks working split reached
      generalize settleAll process.refuses Path.onEntry tree (origin (c_str path) process.cwd)
        front = result at *
      -- the last name fails in both versions, for it is refused or mistaken
      have last : ∀ {onEntry : Kind → Int}, (∀ kind, Mistaken kind →
          (c_str path).getLast? ≠ some '/' → onEntry kind = -1) →
          settle process.refuses onEntry result.2
            (lexical (origin (c_str path) process.cwd) front) name = (-1, result.2) := by
        intro onEntry fails
        rcases cannot with ⟨other, inside, obstructed⟩ | ⟨missing, refused⟩ |
          ⟨single, kind, mistaken, entry⟩
        · rw [obstructs inside obstructed] at zero
          exact absurd zero (by decide)
        · refine settle_of_refused standing.2 ?_ refused
          by_contra present
          obtain ⟨-, -, allowed, -⟩ := new fun old => present (old.trans missing)
          rw [refused] at allowed
          cases allowed
        · rw [settle_of_kind standing.2 (keeps.1 _ _ entry), fails kind mistaken single]
      dsimp only at second
      rw [last fun kind mistaken _ => Path.onEntry_of_ne mistaken.2] at first
      rw [last fun kind mistaken single => PathUtils.onLast_of_mistaken single mistaken]
        at second
      rw [first]
      rcases second with second | ⟨zero, -⟩
      · exact ⟨second, rfl⟩
      · exact absurd zero (by simp)
    · rw [if_neg zero] at first
      have second := PathUtils.mkpath_failed noLinks working split (by rw [same]; exact zero)
      rw [second, first, same]
      exact ⟨rfl, (settleAll_status segment).resolve_left zero⟩
  · have second := PathUtils.mkpath_concat noLinks working split reached
    dsimp only at second
    rw [settle_of_file file other] at second
    rw [stopped, if_neg (by simp)] at first
    rw [first]
    rcases second with second | ⟨zero, -⟩
    · exact ⟨second, rfl⟩
    · exact absurd zero (by simp)

/-- Where a path can be made, or is there, the second version does not do what it should. -/
theorem not_makesPath (noLinks : NoLinks tree)
    (working : tree.kind process.cwd = some .directory)
    (can : ¬ CannotBeMade process tree (c_str path)) :
    ¬ MakesPath process (PathUtils.mkpath process) tree path := by
  intro makes
  rw [CannotBeMade, not_or, not_or, not_or] at can
  obtain ⟨nonempty, free, allowed, clear⟩ := can
  have start := kind_origin working (c_str path)
  -- a failure although all names are directories is none
  have fails {after : FileTree} (noLinks' : NoLinks after) (within : Within tree after)
      (outcome : PathUtils.mkpath process tree path = (-1, after)) :
      ¬ Standing after (origin (c_str path) process.cwd) (segments '/' (c_str path)) := by
    intro standing
    have zero := makes.zero_iff
    rw [outcome, parts_iff noLinks' (within _ _ working) nonempty] at zero
    exact absurd (zero.mpr standing) (by simp)
  rcases List.eq_nil_or_concat (segments '/' (c_str path)) with none | ⟨front, name, split⟩
  · have standing :
        Standing tree (origin (c_str path) process.cwd) (segments '/' (c_str path)) := by
      rw [none]
      exact ⟨trivial, start⟩
    exact fails noLinks (fun _ _ entry => entry)
      (PathUtils.mkpath_of_standing noLinks working nonempty standing) standing
  rw [List.concat_eq_append] at split
  have segment := segment_of_mem_segments split
  have proper : Segment name :=
    @mem_segments _ _ _ _ (c_str path) (by rw [split]; exact List.mem_concat_self)
  have keeps := @settleAll_keeps process.refuses Path.onEntry tree (origin (c_str path) process.cwd)
    front noLinks segment
  rw [split, List.dropLast_concat] at free
  have zero := @settleAll_of_free process tree (origin (c_str path) process.cwd) front noLinks
    segment start fun other inside obstructed => free ⟨other, inside, obstructed⟩
  have standing := settleAll_standing noLinks segment start zero
  have reached : settleAll process.refuses PathUtils.onStep tree (origin (c_str path) process.cwd) front =
      (0, (settleAll process.refuses Path.onEntry tree (origin (c_str path) process.cwd) front).2) := by
    rcases @settleAll_onStep process.refuses tree (origin (c_str path) process.cwd) front
      noLinks segment start with same | ⟨after, -, stopped, -⟩
    · exact same.trans (Prod.ext zero rfl)
    · rw [stopped] at zero
      exact absurd zero (by simp)
  have second := PathUtils.mkpath_concat noLinks working split reached
  have new := @settleAll_new process.refuses Path.onEntry tree (origin (c_str path) process.cwd)
    front noLinks segment (step (lexical (origin (c_str path) process.cwd) front) name)
  rw [split, lexical_concat] at allowed clear
  generalize settleAll process.refuses Path.onEntry tree (origin (c_str path) process.cwd) front =
    result at *
  obtain ⟨status, after⟩ := result
  dsimp only at *
  rw [split] at fails
  have whole {later : FileTree} (within : Within after later)
      (directory : later.kind (step (lexical (origin (c_str path) process.cwd) front) name) =
        some .directory) :
      Standing later (origin (c_str path) process.cwd) (front ++ [name]) := by
    rw [standing_concat]
    exact ⟨standing.within within, directory⟩
  have last := @settled process.refuses (PathUtils.onLast (c_str path)) after
    (lexical (origin (c_str path) process.cwd) front) name proper
  generalize settle process.refuses (PathUtils.onLast (c_str path)) after
    (lexical (origin (c_str path) process.cwd) front) name = outcome at *
  cases last with
  | lost other => exact other standing.2
  | refused _ missing refused =>
      refine allowed ⟨?_, refused⟩
      by_contra present
      obtain ⟨kind, entry⟩ := Option.ne_none_iff_exists'.mp present
      rw [keeps.1 _ _ entry] at missing
      cases missing
  | made vacant child =>
      have directory : (after.make name (lexical (origin (c_str path) process.cwd) front)).kind
          (step (lexical (origin (c_str path) process.cwd) front) name) = some .directory := by
        rw [child, kind_make vacant, if_pos rfl]
      have made := whole (within_make vacant) directory
      have noLinks' := noLinks_make keeps.2 vacant
      have within : Within tree (after.make name (lexical (origin (c_str path) process.cwd) front)) :=
        fun _ _ entry => within_make vacant _ _ (keeps.1 _ _ entry)
      rcases second with second | ⟨-, second, -⟩
      · have again := makes.again
        rw [second] at again
        rw [← split] at made
        have third := PathUtils.mkpath_of_standing noLinks' (within _ _ working) nonempty made
        have zero := (congrArg Prod.fst third).symm.trans (congrArg Prod.fst (again rfl))
        exact absurd zero (by simp)
      · exact fails noLinks' within second made
  | directory _ child =>
      have failed : PathUtils.onLast (c_str path) .directory = -1 := rfl
      rw [failed] at second
      rcases second with second | ⟨zero, -⟩
      · exact fails keeps.2 keeps.1 second (whole (fun _ _ entry => entry) child)
      · exact absurd zero (by simp)
  | @file kind _ file other =>
      -- either mistaken for a directory, as it then was before, or taken for a success
      by_cases mistaken : (c_str path).getLast? ≠ some '/' ∧ HasDirBit kind
      · refine clear ⟨mistaken.1, kind, ⟨mistaken.2, other⟩, ?_⟩
        by_contra old
        obtain ⟨-, directory, -⟩ := new fun same => old (same.symm.trans file)
        exact other (Option.some.inj (file.symm.trans directory))
      · have passed : PathUtils.onLast (c_str path) kind = 0 :=
          if_neg (not_or.mpr ⟨other, mistaken⟩)
        rw [passed] at second
        rcases second with second | ⟨-, -, directory⟩
        · have zero := makes.zero_iff
          rw [second, parts_iff keeps.2 (keeps.1 _ _ working) nonempty, split, standing_concat,
            file] at zero
          exact other (Option.some.inj (zero.mp rfl).2)
        · rw [lexical_concat, file] at directory
          exact other (Option.some.inj directory)

/-- The two versions agree and do what they should exactly where the path cannot be made. -/
theorem versionsAgree_iff (path : PathString) (noLinks : NoLinks tree)
    (working : tree.kind process.cwd = some .directory) :
    VersionsAgree process tree path ↔ CannotBeMade process tree (c_str path) := by
  constructor
  · intro agree
    by_contra can
    exact not_makesPath noLinks working can agree.second
  · intro cannot
    obtain ⟨same, failed⟩ := second_eq_first noLinks working cannot
    have first := Path.makesPath noLinks working path
    refine ⟨first, ?_, same⟩
    constructor <;> rw [same]
    · exact first.status
    · exact first.zero_iff
    · exact first.blocked
    · exact first.keeps
    · exact first.only
    · intro zero
      rw [failed] at zero
      exact absurd zero (by decide)

/-- A directory with a socket in it, and a file. -/
def socketEntries : List (Location × Kind) :=
  [([['d']], .directory), ([['s'], ['d']], .special .socket), ([['f']], .file)]

theorem listed_socketEntries : Listed socketEntries := by decide

def socketTree : FileTree := ofEntries socketEntries listed_socketEntries

theorem noLinks_socketTree : NoLinks socketTree := by
  intro location target entry
  have noLink : ∀ entry ∈ socketEntries, ∀ target, entry.2 ≠ .link target := by
    simp [socketEntries]
  have here : listedKind socketEntries location = some (.link target) := entry
  rw [listedKind] at here
  split at here
  · cases here
  · obtain ⟨found, isFound, link⟩ := Option.map_eq_some_iff.mp here
    exact noLink found (List.mem_of_find?_eq_some isFound) target link

/-- A process that works in the directory and may not make one entry of it. -/
def worker : Process := ⟨[['d']], fun location => location = [['x'], ['d']]⟩

/-- A socket in the last place, a file on the way, and a directory that may not be
made. -/
theorem versionsAgree_socketTree : VersionsAgree worker socketTree "/d/./s".toList ∧
    VersionsAgree worker socketTree "/f/../new".toList ∧
    VersionsAgree worker socketTree "x//y/".toList := by
  have socket : CannotBeMade worker socketTree (c_str "/d/./s".toList) :=
    Or.inr (Or.inr (Or.inr ⟨by decide, .special .socket, ⟨by decide, by decide⟩, by decide⟩))
  have file : CannotBeMade worker socketTree (c_str "/f/../new".toList) :=
    Or.inr (Or.inl ⟨[['f']], by decide, Or.inl ⟨.file, by decide, by decide⟩⟩)
  have refused : CannotBeMade worker socketTree (c_str "x//y/".toList) :=
    Or.inr (Or.inl ⟨[['x']], by decide, Or.inr ⟨by decide, by decide⟩⟩)
  exact ⟨(versionsAgree_iff _ noLinks_socketTree (by decide)).mpr socket,
    (versionsAgree_iff _ noLinks_socketTree (by decide)).mpr file,
    (versionsAgree_iff _ noLinks_socketTree (by decide)).mpr refused⟩

/-- The top is there, but the second version says it cannot be made. -/
theorem top_is_not_made : ¬ ∀ process tree path, NoLinks tree →
    tree.kind process.cwd = some .directory → VersionsAgree process tree path := by
  intro agree
  have same := (agree ⟨[], fun _ => false⟩ bare ['/'] noLinks_bare rfl).same
  exact absurd (congrArg Prod.fst same) (by decide)

end Agreement

end OpenMplane
