import OpenMplane.PathCalls

/-!
# The entries of a directory

The path of an entry of a directory is that of the directory, a separator and the name.  A
call that is made with it finds the entry of that name in the directory and no other, and
removing a file leaves the way to every directory as it was.
-/

namespace OpenMplane

open SeparatorRuns FileTree

variable {tree after : FileTree} {process : Process} {path : PathString} {name : Name}
variable {budget left : Nat} {here dir place : Location} {names : List Name} {last : Bool}

/-- Removing what is no directory leaves the way to a directory as it was. -/
theorem leads_of_sameDirectories
    (same : ∀ location kind, tree.kind location = some kind → kind ≠ .file →
      after.kind location = some kind)
    (leads : Leads tree last budget here names place left)
    (directory : tree.kind place = some .directory) :
    Leads after last budget here names place left := by
  induction leads with
  | done => exact .done
  | stay isDir _ ih => exact .stay (same _ _ isDir nofun) (ih directory)
  | up isDir _ ih => exact .up (same _ _ isDir nofun) (ih directory)
  | @down budget here name rest place left kind isDir proper entry noLink further ih =>
      by_cases isFile : kind = .file
      · subst isFile
        cases further with
        | done => rw [entry] at directory; cases directory
        | stay isDir => rw [entry] at isDir; cases isDir
        | up isDir => rw [entry] at isDir; cases isDir
        | down isDir => rw [entry] at isDir; cases isDir
        | stop _ isDir => rw [entry] at isDir; cases isDir
        | follow isDir => rw [entry] at isDir; cases isDir
      · exact .down (same _ _ isDir nofun) proper (same _ _ entry isFile) noLink (ih directory)
  | stop _ _ _ entry =>
      rw [entry] at directory
      cases directory
  | follow isDir proper entry onward nonempty _ ih =>
      exact .follow (same _ _ isDir nofun) proper (same _ _ entry nofun) onward nonempty
        (ih directory)

/-- Erasing a file changes what stands at its own place only. -/
theorem kind_erase_file (isFile : tree.kind (name :: dir) = some .file) (location : Location) :
    (tree.erase name dir).kind location =
      if location = name :: dir then none else tree.kind location := by
  rw [kind_erase]
  by_cases same : location = name :: dir
  · rw [if_pos same, if_pos (by rw [same])]
  · rw [if_neg same]
    split
    · next below =>
        obtain ⟨front, rfl⟩ := below
        have inside : front ≠ [] := fun none => same (by rw [none, List.nil_append])
        exact (kind_append_of_ne (by rw [isFile]; exact nofun) inside).symm
    · rfl

/-- The directory that a path names, as a way along its segments. -/
structure Names (tree : FileTree) (process : Process) (path : PathString) (dir : Location) :
    Prop where
  nonempty : path ≠ []
  isDirectory : tree.kind dir = some .directory
  leads : ∃ left, Leads tree true linkBudget (origin path process.cwd) (segments '/' path) dir left

theorem names_of_resolve (resolves : resolve tree true process.cwd path = .ok (dir, left))
    (isDirectory : tree.kind dir = some .directory) : Names tree process path dir := by
  rw [resolve] at resolves
  split at resolves
  · cases resolves
  · next nonempty =>
      refine ⟨nonempty, isDirectory, ?_⟩
      obtain ⟨middle, leftThere, start, finish⟩ := (leads_of_walk resolves).split (Or.inr rfl)
      split at finish
      · cases finish with
        | stay _ further =>
            cases further
            exact ⟨_, start⟩
        | down _ proper => exact absurd rfl proper.1
        | stop notLast => cases notLast
        | follow _ proper => exact absurd rfl proper.1
      · cases finish
        exact ⟨_, start⟩

/-- The path of an entry of a directory. -/
def entryPath (path : PathString) (name : Name) : PathString :=
  if path.getLast? = some '/' then path ++ name else path ++ '/' :: name

theorem segments_entryPath (nonempty : name ≠ []) (single : '/' ∉ name) :
    segments '/' (entryPath path name) = segments '/' path ++ [name] := by
  have word := segments_of_notMem nonempty single
  rw [entryPath]
  split
  · next ends =>
      obtain ⟨front, rfl⟩ := List.getLast?_eq_some_iff.mp ends
      rw [List.append_assoc, List.singleton_append, segments_append, segments_concat, word]
  · rw [segments_append, word]

theorem getLast?_entryPath (nonempty : name ≠ []) (single : '/' ∉ name) :
    (entryPath path name).getLast? ≠ some '/' := by
  have inside : (entryPath path name).getLast? = name.getLast? := by
    rw [entryPath]
    split
    · exact List.getLast?_append_of_ne_nil _ nonempty
    · rw [List.getLast?_append_of_ne_nil _ (List.cons_ne_nil _ _)]
      cases letters : name with
      | nil => exact absurd letters nonempty
      | cons first rest => rfl
  rw [inside]
  exact fun isLast => single (List.mem_of_getLast? isLast)

theorem pathNames_entryPath (nonempty : name ≠ []) (single : '/' ∉ name) :
    pathNames (entryPath path name) = segments '/' path ++ [name] := by
  rw [pathNames, if_neg (getLast?_entryPath nonempty single), List.append_nil,
    segments_entryPath nonempty single]

theorem entryPath_ne_nil (nonempty : path ≠ []) : entryPath path name ≠ [] := by
  rw [entryPath]
  split <;> simp [nonempty]

theorem origin_entryPath (nonempty : path ≠ []) :
    origin (entryPath path name) here = origin path here := by
  have first : (entryPath path name).head? = path.head? := by
    cases path with
    | nil => exact absurd rfl nonempty
    | cons letter rest =>
        rw [entryPath]
        split <;> rfl
  rw [origin, origin, first]

theorem lstat_entryPath (directory : Names tree process path dir) (proper : Proper name) :
    process.lstat tree (entryPath path name) = tree.kind (name :: dir) := by
  obtain ⟨left, leads⟩ := directory.leads
  have noDots : name ≠ ['.'] ∧ name ≠ ['.', '.'] := ⟨proper.not_here, proper.not_parent⟩
  rw [Process.lstat, found, resolve, if_neg (entryPath_ne_nil directory.nonempty),
    origin_entryPath directory.nonempty, pathNames_entryPath proper.nonempty proper.single]
  cases walked : walk tree false linkBudget (origin path process.cwd)
      (segments '/' path ++ [name]) with
  | ok result =>
      obtain ⟨place, rest⟩ := result
      obtain ⟨middle, there, start, finish⟩ :=
        (leads_of_walk walked).split (Or.inl (List.cons_ne_nil _ _))
      obtain ⟨rfl, rfl⟩ := start.unique leads
      cases finish with
      | stay => exact absurd rfl noDots.1
      | up => exact absurd rfl noDots.2
      | down _ _ _ _ further =>
          cases further
          rfl
      | stop => rfl
      | follow _ _ _ onward => exact absurd ⟨rfl, rfl⟩ onward
  | error fault =>
      have onward : Leads tree false left dir [name] (name :: dir) left →
          walk tree false linkBudget (origin path process.cwd) (segments '/' path ++ [name]) =
            .ok (name :: dir, left) := fun step =>
        walk_of_leads (leads.append (Or.inl (List.cons_ne_nil _ _)) step)
      cases present : tree.kind (name :: dir) with
      | none => rfl
      | some kind =>
          have step : Leads tree false left dir [name] (name :: dir) left := by
            cases kind with
            | link target => exact .stop rfl directory.isDirectory noDots present
            | file => exact .down directory.isDirectory noDots present nofun .done
            | directory => exact .down directory.isDirectory noDots present nofun .done
            | special type => exact .down directory.isDirectory noDots present nofun .done
          rw [onward step] at walked
          cases walked

/-- The calls that change an entry find it in the directory. -/
theorem entry_entryPath (directory : Names tree process path dir) (proper : Proper name) :
    process.entry tree (entryPath path name) = .ok (dir, some name) := by
  obtain ⟨left, leads⟩ := directory.leads
  rw [Process.entry, if_neg (entryPath_ne_nil directory.nonempty), segments_entryPath proper.nonempty proper.single,
    List.getLast?_concat, List.dropLast_concat, origin_entryPath directory.nonempty,
    walk_of_leads leads]
  dsimp only
  rw [if_pos directory.isDirectory]

theorem unlink_entryPath (directory : Names tree process path dir) (proper : Proper name)
    (isFile : tree.kind (name :: dir) = some .file) :
    process.unlink tree (entryPath path name) = .ok (tree.erase name dir) := by
  have ends := @getLast?_entryPath path name proper.nonempty proper.single
  rw [Process.unlink, entry_entryPath directory proper]
  dsimp only
  rw [if_neg (by simp [proper.not_here, proper.not_parent]), isFile]
  dsimp only
  rw [if_neg ends]

theorem names_erase (directory : Names tree process path dir) {other : Location}
    (isFile : tree.kind (name :: other) = some .file) :
    Names (tree.erase name other) process path dir := by
  have same : ∀ location kind, tree.kind location = some kind → kind ≠ .file →
      (tree.erase name other).kind location = some kind := by
    intro location kind present notFile
    rw [kind_erase_file isFile, if_neg, present]
    rintro rfl
    rw [isFile] at present
    exact notFile (Option.some.inj present).symm
  obtain ⟨left, leads⟩ := directory.leads
  exact ⟨directory.nonempty, same _ _ directory.isDirectory nofun, left,
    leads_of_sameDirectories same leads directory.isDirectory⟩

end OpenMplane
