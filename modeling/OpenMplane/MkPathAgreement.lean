import OpenMplane.MkPathVersions

/-!
# What mkpath should do

A version of `mkpath` should return 0 exactly when all that the path names are directories
then, and −1 at a file on the way; it should make nothing else and find nothing to do when
called again.  `Path::mkpath` does so; `PathUtils::mkpath` does only where the path cannot
be made.
-/

namespace OpenMplane

open SeparatorRuns FileTree

/-- A part of a path up to a name, or the whole. -/
def NamedBy (part path : PathString) : Prop :=
  part = path ∨ part ≠ [] ∧ part.getLast? ≠ some '/' ∧ ∃ rest, path = part ++ '/' :: rest

/-- What a version of `mkpath` should do. -/
structure MakesPath (process : Process) (mkpath : FileTree → PathString → Int × FileTree)
    (tree : FileTree) (path : PathString) : Prop where
  status : (mkpath tree path).1 = 0 ∨ (mkpath tree path).1 = -1
  zero_iff : (mkpath tree path).1 = 0 ↔
    ∀ part, NamedBy part (c_str path) →
      process.stat (mkpath tree path).2 part = some .directory
  blocked : (∃ part kind, NamedBy part (c_str path) ∧ process.stat tree part = some kind ∧
    kind ≠ .directory) → (mkpath tree path).1 = -1
  keeps : Within tree (mkpath tree path).2
  only : ∀ location, (mkpath tree path).2.kind location ≠ tree.kind location →
    tree.kind location = none ∧ (mkpath tree path).2.kind location = some .directory ∧
      ∃ part left, NamedBy part (c_str path) ∧
        (mkpath tree path).2.resolve true process.cwd part = .ok (location, left)
  again : (mkpath tree path).1 = 0 →
    mkpath (mkpath tree path).2 path = (0, (mkpath tree path).2)

/-- Both versions do what they should, and the same. -/
structure VersionsAgree (process : Process) (tree : FileTree) (path : PathString) : Prop where
  first : MakesPath process (Path.mkpath process) tree path
  second : MakesPath process (PathUtils.mkpath process) tree path
  same : PathUtils.mkpath process tree path = Path.mkpath process tree path

/-- Something that is no directory stands here, or nothing that may be made. -/
def Obstructed (process : Process) (tree : FileTree) (location : Location) : Prop :=
  (∃ kind, tree.kind location = some kind ∧ kind ≠ .directory) ∨
    tree.kind location = none ∧ process.refuses location = true

/-- A socket or a block device, which has the bit of a directory. -/
def Mistaken (kind : Kind) : Prop := HasDirBit kind ∧ kind ≠ .directory

/-- The path is empty, or what a name before the last names cannot be a directory, or the
last can only not be made, or is mistaken for a directory. -/
def CannotBeMade (process : Process) (tree : FileTree) (path : PathString) : Prop :=
  path = [] ∨
    (∃ front, front <+: (segments '/' path).dropLast ∧
      Obstructed process tree (lexical (origin path process.cwd) front)) ∨
    (tree.kind (lexical (origin path process.cwd) (segments '/' path)) = none ∧
      process.refuses (lexical (origin path process.cwd) (segments '/' path)) = true) ∨
    (path.getLast? ≠ some '/' ∧ ∃ kind, Mistaken kind ∧
      tree.kind (lexical (origin path process.cwd) (segments '/' path)) = some kind)

section Parts

variable {process : Process} {tree : FileTree} {path part : PathString} {here : Location}
  {names front back : List Name}

theorem origin_eq_of_prefix {rest : PathString} (nonempty : part ≠ []) :
    origin (part ++ rest) here = origin part here := by
  rw [origin, origin, List.head?_append_of_ne_nil _ nonempty]

/-- A part of a path goes through the first of its names. -/
theorem NamedBy.segments_prefix (named : NamedBy part path) :
    segments '/' part <+: segments '/' path := by
  rcases named with rfl | ⟨-, -, rest, rfl⟩
  · exact List.prefix_refl _
  · rw [segments_append]
    exact List.prefix_append _ _

theorem NamedBy.origin_eq (named : NamedBy part path) :
    origin path here = origin part here := by
  rcases named with rfl | ⟨nonempty, -, rest, rfl⟩
  · rfl
  · exact origin_eq_of_prefix nonempty

theorem stat_directory_iff (noLinks : NoLinks tree)
    (working : tree.kind process.cwd = some .directory) (nonempty : path ≠ []) :
    process.stat tree path = some .directory ↔
      Standing tree (origin path process.cwd) (segments '/' path) := by
  rw [Process.stat, found_directory_iff noLinks
    (ne_none_of_directory (kind_origin working path))]
  by_cases trailing : path.getLast? = some '/'
  · rw [pathNames_trailing trailing, standing_concat]
    constructor
    · exact fun standing => standing.2.1
    · exact fun standing => ⟨nonempty, standing, kind_step_of_dots standing.2 (Or.inl rfl)⟩
  · rw [pathNames_of_getLast? trailing]
    exact ⟨fun standing => standing.2, fun standing => ⟨nonempty, standing⟩⟩

/-- All parts of a path name directories if and only if the whole goes through them. -/
theorem parts_iff (noLinks : NoLinks tree) (working : tree.kind process.cwd = some .directory)
    (nonempty : path ≠ []) :
    (∀ part, NamedBy part path → process.stat tree part = some .directory) ↔
      Standing tree (origin path process.cwd) (segments '/' path) := by
  constructor
  · intro parts
    exact (stat_directory_iff noLinks working nonempty).mp (parts path (Or.inl rfl))
  · intro standing part named
    have some : part ≠ [] := by
      rcases named with rfl | ⟨some, -⟩
      · exact nonempty
      · exact some
    obtain ⟨back, parts⟩ := named.segments_prefix
    rw [stat_directory_iff noLinks working some, ← named.origin_eq]
    rw [← parts] at standing
    exact standing.front

end Parts

section First

variable {process : Process} {tree after : FileTree} {path part : PathString}

/-- What stands at the end of a path stays there. -/
theorem stat_within (noLinks : NoLinks tree) (noLinks' : NoLinks after) (within : Within tree after)
    (working : tree.kind process.cwd = some .directory) {kind : Kind}
    (found : process.stat tree part = some kind) : process.stat after part = some kind := by
  have start := ne_none_of_directory (kind_origin working part)
  have start' := ne_none_of_directory (within _ _ (kind_origin working part))
  obtain ⟨nonempty, chain⟩ := chain_of_found noLinks start
    (Option.ne_none_iff_exists'.mpr ⟨kind, found⟩)
  rw [Process.stat, found_eq noLinks nonempty start chain] at found
  rw [Process.stat, found_eq noLinks' nonempty start' (chain.within within)]
  exact within _ _ found

/-- The first names of a path are those of a part of it. -/
theorem exists_part {front : List Name} (nonempty : front ≠ [])
    (inside : front <+: segments '/' path) :
    ∃ part, NamedBy part path ∧ part ≠ [] ∧ pathNames part = front := by
  obtain ⟨back, parts⟩ := inside
  obtain ⟨part, rest, rfl, names, some, single, next⟩ :=
    exists_prefix_of_segments nonempty parts.symm
  refine ⟨part, ?_, some, by rw [pathNames_of_getLast? single, names]⟩
  rcases next with rfl | ⟨more, rfl⟩
  · exact Or.inl (List.append_nil part).symm
  · exact Or.inr ⟨some, single, more, rfl⟩

theorem Path.makesPath (noLinks : NoLinks tree)
    (working : tree.kind process.cwd = some .directory) (path : PathString) :
    MakesPath process (Path.mkpath process) tree path := by
  have outcome := Path.mkpath_eq noLinks working path
  by_cases empty : c_str path = []
  · rw [if_pos empty] at outcome
    have nowhere : ¬ ∀ part, NamedBy part (c_str path) →
        process.stat tree part = some .directory := by
      intro parts
      have whole := parts [] (Or.inl empty.symm)
      cases whole
    constructor <;> rw [outcome]
    · exact Or.inr rfl
    · exact iff_of_false (by simp) nowhere
    · exact fun _ => rfl
    · exact fun _ _ entry => entry
    · exact fun _ new => absurd rfl new
    · exact fun zero => absurd zero (by simp)
  · rw [if_neg empty] at outcome
    have start := kind_origin working (c_str path)
    have segment : ∀ name ∈ segments '/' (c_str path), Segment name := fun _ => mem_segments
    have keeps := @settleAll_keeps process.refuses Path.onEntry tree (origin (c_str path) process.cwd)
      _ noLinks segment
    have status := @settleAll_status process.refuses tree (origin (c_str path) process.cwd) _
      segment
    have zero_iff := @settleAll_zero_iff process.refuses tree (origin (c_str path) process.cwd)
      _ noLinks segment start
    have new := @settleAll_new process.refuses Path.onEntry tree (origin (c_str path) process.cwd) _
      noLinks segment
    rw [← outcome] at keeps status zero_iff new
    have working' := keeps.1 _ _ working
    rw [← parts_iff keeps.2 working' empty] at zero_iff
    refine ⟨status, zero_iff, ?_, keeps.1, ?_, ?_⟩
    · rintro ⟨part, kind, named, found, other⟩
      refine status.resolve_left fun zero => other ?_
      have directory := zero_iff.mp zero part named
      rw [stat_within noLinks keeps.2 keeps.1 working found] at directory
      exact Option.some.inj directory
    · intro location changed
      obtain ⟨missing, directory, -, front, inside, nonempty, rfl, chain⟩ := new changed
      obtain ⟨part, named, some, names⟩ := exists_part nonempty inside
      refine ⟨missing, directory, part, linkBudget, named, ?_⟩
      rw [FileTree.resolve, if_neg some, names, ← named.origin_eq]
      exact walk_of_leads ((leads_iff keeps.2 (ne_none_of_directory (keeps.1 _ _ start))).mpr
        ⟨chain, ne_none_of_directory directory, rfl, rfl⟩)
    · intro zero
      have standing := (parts_iff keeps.2 working' empty).mp (zero_iff.mp zero)
      rw [Path.mkpath_eq keeps.2 working', if_neg empty, settleAll_of_standing rfl standing]

end First

section Obstructions

variable {process : Process} {tree : FileTree} {here location : Location} {name : Name}
  {names : List Name}

theorem obstructed_before (segment : Segment name)
    (obstructed : Obstructed process (settle process.refuses Path.onEntry tree here name).2 location) :
    Obstructed process tree location := by
  by_cases same : (settle process.refuses Path.onEntry tree here name).2.kind location =
      tree.kind location
  · rw [Obstructed, same] at obstructed
    exact obstructed
  · obtain ⟨-, directory, -⟩ := settle_new segment same
    rcases obstructed with ⟨kind, file, other⟩ | missing
    · rw [file] at directory
      exact absurd (Option.some.inj directory) other
    · rw [missing.1] at directory
      cases directory

/-- Where nothing obstructs the names, the first version makes them all. -/
theorem settleAll_of_free (noLinks : NoLinks tree) (segment : ∀ name ∈ names, Segment name)
    (start : tree.kind here = some .directory)
    (free : ∀ front, front <+: names → ¬ Obstructed process tree (lexical here front)) :
    (settleAll process.refuses Path.onEntry tree here names).1 = 0 := by
  induction names generalizing tree here with
  | nil => rfl
  | cons name names ih =>
      have proper := segment name List.mem_cons_self
      have rest := fun other member => segment other (List.mem_cons_of_mem name member)
      have keeps := @settle_keeps process.refuses Path.onEntry tree here name noLinks proper
      have child : ¬ Obstructed process tree (step here name) := free [name] ⟨names, rfl⟩
      have zero : (settle process.refuses Path.onEntry tree here name).1 = 0 := by
        have result := @settled process.refuses Path.onEntry tree here name proper
        generalize settle process.refuses Path.onEntry tree here name = outcome at *
        cases result with
        | lost other => exact absurd start other
        | refused _ missing refused => exact absurd (Or.inr ⟨missing, refused⟩) child
        | @file kind _ file other => exact absurd (Or.inl ⟨kind, file, other⟩) child
        | directory => rfl
        | made => rfl
      rw [settleAll, if_pos zero]
      refine ih keeps.2 rest (settle_directory proper zero) ?_
      intro front inside obstructed
      exact free (name :: front) ((List.prefix_cons_inj name).mpr inside)
        (obstructed_before proper obstructed)

/-- Where something obstructs the names, the first version fails. -/
theorem settleAll_of_obstructed (noLinks : NoLinks tree)
    (segment : ∀ name ∈ names, Segment name) (start : tree.kind here = some .directory)
    {front : List Name} (inside : front <+: names)
    (obstructed : Obstructed process tree (lexical here front)) :
    (settleAll process.refuses Path.onEntry tree here names).1 = -1 := by
  refine (settleAll_status segment).resolve_left fun zero => ?_
  obtain ⟨back, rfl⟩ := inside
  have standing := (settleAll_standing noLinks segment start zero).front.2
  have keeps := @settleAll_keeps process.refuses Path.onEntry tree here _ noLinks segment
  rcases obstructed with ⟨kind, file, other⟩ | ⟨missing, refused⟩
  · rw [keeps.1 _ _ file] at standing
    exact other (Option.some.inj standing)
  · have new := @settleAll_new process.refuses Path.onEntry tree here _ noLinks segment
      (lexical here front)
    rw [standing, missing] at new
    obtain ⟨-, -, allowed, -⟩ := new (Option.some_ne_none _)
    rw [refused] at allowed
    cases allowed

theorem settle_of_file {refuses : Location → Bool} {onEntry : Kind → Int} {kind : Kind}
    (file : tree.kind here = some kind) (other : kind ≠ .directory) :
    settle refuses onEntry tree here name = (-1, tree) := by
  rw [settle, file, if_pos (mt Option.some.inj other)]

end Obstructions

end OpenMplane
