import OpenMplane.MkPathOutcome

/-!
# The two versions of mkpath

Both versions of `mkpath` are brought from the characters of a path to its names.  One
settles all names; the other settles the names that a separator follows in its own way
and fails at a directory at the end.
-/

namespace OpenMplane

open SeparatorRuns FileTree

section Versions

variable {process : Process} {tree : FileTree} {path : PathString}
  {onEntry : Kind → Int}

theorem kind_origin (working : tree.kind process.cwd = some .directory) (path : PathString) :
    tree.kind (origin path process.cwd) = some .directory := by
  rw [origin]
  split
  · exact tree.kind_root
  · exact working

theorem ne_none_of_directory {location : Location}
    (directory : tree.kind location = some .directory) : tree.kind location ≠ none := by
  rw [directory]
  exact Option.some_ne_none _

theorem segment_of_mem_segments {front back : List Name}
    (parts : segments '/' path = front ++ back) : ∀ name ∈ front, Segment name := by
  intro name member
  apply @mem_segments _ _ _ _ path
  rw [parts]
  exact List.mem_append_left _ member

/-- The loop settles the names that a separator follows. -/
theorem mkpathLoop_settles {make : FileTree → PathString → Int × FileTree}
    (makes : ∀ tree path, make tree path = makeEntry process onEntry tree path)
    (noLinks : NoLinks tree) (working : tree.kind process.cwd = some .directory)
    (path : PathString) :
    ∃ more last, segments '/' path = more ++ segments '/' last ∧ '/' ∉ last ∧
      (last = [] ↔ Cut path) ∧
      mkpathLoop make path.length [] path tree =
        settleAll process.refuses onEntry tree (origin path process.cwd) more := by
  obtain ⟨more, last, ladder, parts, clean, ends⟩ :=
    @ladder_prefixesFrom [] path path.length (Or.inl rfl) (Nat.le_refl _)
  have whole : segments '/' path = more ++ segments '/' last := parts
  have segment := segment_of_mem_segments whole
  have start := ne_none_of_directory (kind_origin working path)
  refine ⟨more, last, whole, clean, ends, ?_⟩
  rw [mkpathLoop_eq]
  exact makeAll_eq makes noLinks ladder segment start trivial start

theorem pathNames_trailing (trailing : path.getLast? = some '/') :
    pathNames path = segments '/' path ++ [['.']] := by
  rw [pathNames, if_pos trailing]

/-- At a path that ends in a separator only a directory is found. -/
theorem stat_trailing (noLinks : NoLinks tree)
    (start : tree.kind (origin path process.cwd) = some .directory) (nonempty : path ≠ [])
    (trailing : path.getLast? = some '/')
    (chain : Chain tree (origin path process.cwd) (segments '/' path)) :
    process.stat tree path =
      if tree.kind (lexical (origin path process.cwd) (segments '/' path)) = some .directory then
        some Kind.directory
      else none := by
  have present := ne_none_of_directory start
  rw [Process.stat]
  split
  · next directory =>
      refine (found_directory_iff noLinks present).mpr ⟨nonempty, ?_⟩
      rw [pathNames_trailing trailing, standing_concat]
      exact ⟨⟨chain, directory⟩, kind_step_of_dots directory (Or.inl rfl)⟩
  · next other =>
      by_contra found
      have onward := (chain_of_found noLinks present found).2
      rw [pathNames_trailing trailing, chain_concat] at onward
      exact other onward.2

/-- A file before a separator at the end is taken for a directory that is there. -/
theorem makeEntry_trailing (noLinks : NoLinks tree)
    (start : tree.kind (origin path process.cwd) = some .directory) (nonempty : path ≠ [])
    (trailing : path.getLast? = some '/')
    (chain : Chain tree (origin path process.cwd) (segments '/' path))
    (leads : tree.kind (lexical (origin path process.cwd) (segments '/' path)) ≠ none) :
    makeEntry process onEntry tree path =
      if tree.kind (lexical (origin path process.cwd) (segments '/' path)) = some .directory then
        (onEntry .directory, tree)
      else (0, tree) := by
  have found := stat_trailing noLinks start nonempty trailing chain
  rw [makeEntry]
  by_cases directory :
      tree.kind (lexical (origin path process.cwd) (segments '/' path)) = some .directory
  · rw [if_pos directory] at found ⊢
    rw [found]
  · rw [if_neg directory] at found ⊢
    have some : segments '/' path ≠ [] := by
      intro none
      rw [none] at directory
      exact directory start
    have parts := (List.dropLast_concat_getLast some).symm
    generalize (segments '/' path).dropLast = front at parts
    generalize (segments '/' path).getLast some = name at parts
    rw [parts] at chain leads
    rw [chain_concat] at chain
    rw [lexical_concat] at leads
    have entry := entry_eq noLinks parts (ne_none_of_directory start) chain.1
      (ne_none_of_directory chain.2)
    rw [if_pos chain.2] at entry
    have exists' : process.mkdir tree path = .error .EEXIST := by
      rw [Process.mkdir, entry]
      dsimp only
      split
      · rfl
      · next proper =>
          rw [step_of_proper (not_or.mp proper)] at leads
          rw [if_pos leads]
    rw [found, exists']
    rfl

theorem Path.mkpath_eq (noLinks : NoLinks tree)
    (working : tree.kind process.cwd = some .directory) (path : PathString) :
    Path.mkpath process tree path =
      if c_str path = [] then (-1, tree)
      else settleAll process.refuses Path.onEntry tree (origin (c_str path) process.cwd)
        (segments '/' (c_str path)) := by
  rw [Path.mkpath]
  generalize c_str path = path
  obtain ⟨more, last, parts, clean, ends, loop⟩ :=
    mkpathLoop_settles Path.mkdir_eq noLinks working path
  have start := kind_origin working path
  have segment := segment_of_mem_segments parts
  have keeps := @settleAll_keeps process.refuses Path.onEntry tree (origin path process.cwd) more noLinks
    segment
  dsimp only
  rw [loop, Path.mkdir_eq]
  by_cases empty : path = []
  · subst empty
    obtain ⟨rfl, -⟩ := List.append_eq_nil_iff.mp parts.symm
    rfl
  rw [if_neg empty]
  by_cases cut : Cut path
  · obtain rfl := ends.mpr cut
    have trailing := cut.resolve_left empty
    have whole : segments '/' path = more := by
      rw [parts]
      exact List.append_nil more
    rw [whole]
    split
    · next zero =>
        have standing := settleAll_standing noLinks segment start zero
        rw [makeEntry_trailing keeps.2 (keeps.1 _ _ start) empty trailing] <;> rw [whole]
        · rw [if_pos standing.2]
          exact Prod.ext zero.symm rfl
        · exact standing.1
        · exact ne_none_of_directory standing.2
    · rfl
  · have some : last ≠ [] := mt ends.mp cut
    have split' : segments '/' path = more ++ [last] := by
      rw [parts, segments_of_notMem some clean]
    rw [split', settleAll_concat]
    split
    · next zero =>
        obtain ⟨chain, leads⟩ := settleAll_zero noLinks segment (ne_none_of_directory start) zero
        rw [makeEntry_eq keeps.2 split' (fun slash => cut (Or.inr slash))
          (ne_none_of_directory (keeps.1 _ _ start)) chain leads]
    · rfl

/-- `PathUtils::mkpath` of a path that ends with a name. -/
theorem PathUtils.mkpath_of_name (noLinks : NoLinks tree)
    (working : tree.kind process.cwd = some .directory) {front : List Name} {name : Name}
    (single : (c_str path).getLast? ≠ some '/')
    (split : segments '/' (c_str path) = front ++ [name]) :
    PathUtils.mkpath process tree path =
      if (settleAll process.refuses PathUtils.onStep tree (origin (c_str path) process.cwd) front).1 = 0 then
        settle process.refuses PathUtils.onEntry
          (settleAll process.refuses PathUtils.onStep tree (origin (c_str path) process.cwd) front).2
          (lexical (origin (c_str path) process.cwd) front) name
      else settleAll process.refuses PathUtils.onStep tree (origin (c_str path) process.cwd) front := by
  rw [PathUtils.mkpath]
  generalize c_str path = path at *
  obtain ⟨more, last, parts, clean, ends, loop⟩ :=
    mkpathLoop_settles PathUtils.mkpathStep_eq noLinks working path
  have start := kind_origin working path
  have nonempty : path ≠ [] := by
    rintro rfl
    exact List.append_ne_nil_of_right_ne_nil _ (List.cons_ne_nil _ _) split.symm
  have some : last ≠ [] := by
    intro none
    rcases ends.mp none with empty | slash
    · exact nonempty empty
    · exact single slash
  rw [segments_of_notMem some clean, split] at parts
  obtain ⟨rfl, same⟩ := List.append_inj' parts rfl
  have segment := segment_of_mem_segments split
  have keeps := @settleAll_keeps process.refuses PathUtils.onStep tree (origin path process.cwd) front noLinks
    segment
  dsimp only
  rw [loop, PathUtils.mkdir_eq]
  split
  · next zero =>
      obtain ⟨chain, leads⟩ := settleAll_zero noLinks segment (ne_none_of_directory start) zero
      exact makeEntry_eq keeps.2 split single (ne_none_of_directory (keeps.1 _ _ start)) chain
        leads PathUtils.onEntry
  · rfl

/-- `PathUtils::mkpath` of a path that ends in a separator. -/
theorem PathUtils.mkpath_of_trailing (noLinks : NoLinks tree)
    (working : tree.kind process.cwd = some .directory)
    (trailing : (c_str path).getLast? = some '/') :
    PathUtils.mkpath process tree path =
      let result := settleAll process.refuses PathUtils.onStep tree (origin (c_str path) process.cwd)
        (segments '/' (c_str path))
      if result.1 = 0 then
        if result.2.kind (lexical (origin (c_str path) process.cwd) (segments '/' (c_str path))) =
            some .directory then (-1, result.2)
        else (0, result.2)
      else result := by
  rw [PathUtils.mkpath]
  generalize c_str path = path at *
  obtain ⟨more, last, parts, clean, ends, loop⟩ :=
    mkpathLoop_settles PathUtils.mkpathStep_eq noLinks working path
  have start := kind_origin working path
  obtain rfl := ends.mpr (Or.inr trailing)
  have whole : segments '/' path = more := by
    rw [parts]
    exact List.append_nil more
  have nonempty : path ≠ [] := by
    rintro rfl
    cases trailing
  have segment := segment_of_mem_segments parts
  have keeps := @settleAll_keeps process.refuses PathUtils.onStep tree (origin path process.cwd) more noLinks
    segment
  have leads := @settleAll_zero process.refuses PathUtils.onStep tree (origin path process.cwd) more noLinks
    segment (ne_none_of_directory start)
  dsimp only
  rw [loop, PathUtils.mkdir_eq, whole]
  generalize settleAll process.refuses PathUtils.onStep tree (origin path process.cwd) more = result at *
  split
  · next zero =>
      obtain ⟨chain, leads⟩ := leads zero
      rw [← whole] at chain leads ⊢
      exact makeEntry_trailing keeps.2 (keeps.1 _ _ start) nonempty trailing chain leads
  · rfl

end Versions

end OpenMplane
