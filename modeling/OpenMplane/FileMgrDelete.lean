import OpenMplane.FileMgr

/-!
# Removing files of the managed directory

What `delfile` removes, compared with the files that the name selects.  A `*` and a prefix
select names that were listed, so nothing outside the directory is touched.  A plain name is
joined to the directory as it is, and one with a slash leads to another file.
-/

namespace OpenMplane

open SeparatorRuns FileTree ListCut StringFunc

/-- A directory with the manager that it was set for.  Names and paths are C strings. -/
structure ManagedDir where
  remover : Remover
  mgr : FileMgr
  tree : FileTree
  dir : Location
  left : Nat
  noZero : ∀ name place, tree.kind (name :: place) ≠ none → '\x00' ∉ name
  noZeroDir : '\x00' ∉ mgr.mDir
  resolves : resolve tree true remover.process.cwd mgr.mDir = .ok (dir, left)
  isDirectory : tree.kind dir = some .directory

/-- The files that a name selects: with a `*` at the end those that begin with what stands
before it, and otherwise the file of that name. -/
structure Selected (managed : ManagedDir) (name : PathString) (file : Name) : Prop where
  isFile : managed.tree.kind (file :: managed.dir) = some .file
  matched : (∃ pre, '*' ∉ pre ∧ name = pre ++ ['*'] ∧
    pre.map Char.toLower <+: file.map Char.toLower) ∨ ('*' ∉ name ∧ file = name)

/-- What is expected of a removal: no other entry of the tree is changed, it is a success
when there are such files and all of them are gone, and that is so when the system lets
them be removed. -/
structure Deletes (managed : ManagedDir) (name : PathString) (removal : FileMgr.Removal) :
    Prop where
  others : ∀ location, (∀ file, Selected managed name file → location ≠ file :: managed.dir) →
    removal.2.2.kind location = managed.tree.kind location
  result : removal.1 = true ↔ (∃ file, Selected managed name file) ∧
    ∀ file, Selected managed name file → removal.2.2.kind (file :: managed.dir) = none
  removes : (∃ file, Selected managed name file) →
    (∀ file, Selected managed name file →
      managed.remover.keeps (file :: managed.dir) = false) → removal.1 = true

namespace ManagedDir

/-- `delfile` on the directory. -/
def delfile (managed : ManagedDir) (name : PathString) : FileMgr.Removal :=
  managed.mgr.delfile managed.remover managed.tree name

def files (managed : ManagedDir) : List PathString :=
  (managed.mgr.listFiles managed.remover managed.tree).2

/-- A path can be removed: it is a file, and the system lets it be unlinked. -/
def Removable (managed : ManagedDir) (path : PathString) : Prop :=
  Path.isFile managed.remover.process managed.tree path = true ∧
    ∃ after, managed.remover.unlink managed.tree (c_str path) = .ok after

end ManagedDir

/-- What a name selects is what the manager looks for: no text before a `*` ends in a zero
before a file is found with the rest of it, and no plain name that could not be one of an
entry leads to a file. -/
structure Harmless (managed : ManagedDir) (name : PathString) : Prop where
  pattern : ∀ pre, name = pre ++ ['*'] → '*' ∉ pre → '\x00' ∈ pre →
    ∀ first, (FileMgr.toDelete managed.files pre).head? = some first →
      managed.remover.keeps (first :: managed.dir) = true
  plain : '*' ∉ name → '/' ∈ name ∨ '\x00' ∈ name →
    (∃ file, managed.tree.kind (file :: managed.dir) = some .file) →
      ¬managed.Removable (Path.join managed.mgr.mDir name)

/-- The state of a loop: a directory, whose entries are C strings. -/
structure Managed (remover : Remover) (mgr : FileMgr) (tree : FileTree) (dir : Location) :
    Prop where
  noZero : ∀ name place, tree.kind (name :: place) ≠ none → '\x00' ∉ name
  noZeroDir : '\x00' ∉ mgr.mDir
  names : Names tree remover.process mgr.mDir dir

variable {remover : Remover} {mgr : FileMgr} {tree after : FileTree} {dir : Location}
variable {name file : Name} {path : PathString} {files : List PathString}

section Paths

theorem c_str_of_noZero (noZero : '\x00' ∉ path) : c_str path = path :=
  List.takeWhile_eq_self_iff.mpr fun _ member =>
    decide_eq_true fun same => noZero (same ▸ member)

theorem join_eq (nonempty : path ≠ []) : Path.join path name = entryPath path name := by
  rw [Path.join, if_neg nonempty, entryPath]
  split
  · rfl
  · simp

theorem noZero_entryPath (noZeroPath : '\x00' ∉ path) (noZero : '\x00' ∉ name) :
    '\x00' ∉ entryPath path name := by
  rw [entryPath]
  split <;> simp [noZeroPath, noZero]

theorem S_ISREG_iff {kind : Kind} : S_ISREG (st_mode kind) = true ↔ kind = .file := by
  cases kind with
  | special type => cases type <;> simp [S_ISREG, st_mode, S_IFMT, S_IFREG]
  | file | directory | link => simp [S_ISREG, st_mode, S_IFMT, S_IFREG]

theorem isFile_iff : Path.isFile remover.process tree path = true ↔
    remover.process.lstat tree (c_str path) = some .file := by
  rw [Path.isFile]
  cases remover.process.lstat tree (c_str path) with
  | none => simp
  | some kind => simp [S_ISREG_iff]

theorem basename_entryPath (single : '/' ∉ name) : Path.basename (entryPath path name) = name := by
  rw [Path.basename, entryPath]
  by_cases ends : path.getLast? = some '/'
  · rw [if_pos ends]
    obtain ⟨front, rfl⟩ := List.getLast?_eq_some_iff.mp ends
    rw [List.append_assoc, List.singleton_append, cutLast_append front single]
  · rw [if_neg ends, cutLast_append path single]

end Paths

section Entries

variable (managed : Managed remover mgr tree dir)
include managed

theorem Managed.isFile_entry (proper : Proper name) (noZero : '\x00' ∉ name) :
    Path.isFile remover.process tree (entryPath mgr.mDir name) = true ↔
      tree.kind (name :: dir) = some .file := by
  rw [isFile_iff, c_str_of_noZero (noZero_entryPath managed.noZeroDir noZero),
    lstat_entryPath managed.names proper]

/-- A file is unlinked unless the system keeps it. -/
theorem Managed.unlink_entry (isFile : tree.kind (name :: dir) = some .file) :
    remover.unlink tree (c_str (entryPath mgr.mDir name)) =
      if remover.keeps (name :: dir) then .error .EACCES else .ok (tree.erase name dir) := by
  have present : tree.kind (name :: dir) ≠ none := by rw [isFile]; exact nofun
  have proper := tree.proper name dir present
  rw [c_str_of_noZero (noZero_entryPath managed.noZeroDir (managed.noZero name dir present)),
    Remover.unlink, entry_entryPath managed.names proper]
  dsimp only
  rw [unlink_entryPath managed.names proper isFile]

theorem Managed.delName_file (isFile : tree.kind (name :: dir) = some .file) :
    mgr.delName remover tree name =
      if remover.keeps (name :: dir) then (false, mgr.setError "Unable to delete file", tree)
      else (true, mgr, tree.erase name dir) := by
  have present : tree.kind (name :: dir) ≠ none := by rw [isFile]; exact nofun
  have proper := tree.proper name dir present
  have found := (managed.isFile_entry proper (managed.noZero name dir present)).mpr isFile
  rw [FileMgr.delName, if_neg managed.names.nonempty]
  dsimp only
  rw [join_eq managed.names.nonempty, found, managed.unlink_entry isFile]
  by_cases kept : remover.keeps (name :: dir) = true
  · simp [kept]
  · simp [kept]

theorem Managed.erase (isFile : tree.kind (name :: dir) = some .file) :
    Managed remover mgr (tree.erase name dir) dir := by
  refine ⟨fun other place present => managed.noZero other place ?_, managed.noZeroDir,
    names_erase managed.names isFile⟩
  rw [kind_erase_file isFile] at present
  split at present
  · exact absurd rfl present
  · exact present

theorem Managed.resolve_dir :
    ∃ left, resolve tree true remover.process.cwd mgr.mDir = .ok (dir, left) := by
  obtain ⟨left, leads⟩ := managed.names.leads
  rw [resolve, if_neg managed.names.nonempty, pathNames]
  split
  · exact ⟨left, walk_of_leads
      (leads.append (Or.inr rfl) (.stay managed.names.isDirectory .done))⟩
  · rw [List.append_nil]
    exact ⟨left, walk_of_leads leads⟩

theorem Managed.dirContents_eq : Path.dirContents remover.process tree mgr.mDir =
    (tree.names dir).map (entryPath mgr.mDir) := by
  obtain ⟨left, resolves⟩ := managed.resolve_dir
  rw [Path.dirContents, if_neg managed.names.nonempty, c_str_of_noZero managed.noZeroDir, resolves]
  refine List.map_congr_left fun name _ => ?_
  rw [entryPath]
  split
  · rfl
  · simp

theorem Managed.mem_listFiles :
    name ∈ (mgr.listFiles remover tree).2 ↔ tree.kind (name :: dir) = some .file := by
  rw [FileMgr.listFiles, if_neg managed.names.nonempty, managed.dirContents_eq]
  simp only [List.mem_map, List.mem_filter, List.mem_mergeSort]
  constructor
  · rintro ⟨path, ⟨⟨entry, member, rfl⟩, isFile⟩, rfl⟩
    have present := (tree.mem_names entry dir).mp member
    have proper := tree.proper entry dir present
    rw [basename_entryPath proper.single]
    exact (managed.isFile_entry proper (managed.noZero entry dir present)).mp isFile
  · intro isFile
    have present : tree.kind (name :: dir) ≠ none := by rw [isFile]; exact nofun
    have proper := tree.proper name dir present
    exact ⟨entryPath mgr.mDir name,
      ⟨⟨name, (tree.mem_names name dir).mpr present, rfl⟩,
        (managed.isFile_entry proper (managed.noZero name dir present)).mpr isFile⟩,
      basename_entryPath proper.single⟩

theorem Managed.listFiles_mgr : (mgr.listFiles remover tree).1 = mgr := by
  rw [FileMgr.listFiles, if_neg managed.names.nonempty]

theorem Managed.nodup_listFiles : (mgr.listFiles remover tree).2.Nodup := by
  rw [FileMgr.listFiles, if_neg managed.names.nonempty, managed.dirContents_eq]
  have proper : ∀ entry ∈ tree.names dir, Proper entry := fun entry member =>
    tree.proper entry dir ((tree.mem_names entry dir).mp member)
  have entries : ((tree.names dir).map (entryPath mgr.mDir)).Nodup := by
    refine List.Nodup.map_on (fun first member second other same => ?_) (tree.nodup_names dir)
    have names := congrArg Path.basename same
    rwa [basename_entryPath (proper first member).single,
      basename_entryPath (proper second other).single] at names
  have sorted := (List.mergeSort_perm ((tree.names dir).map (entryPath mgr.mDir))
    FileMgr.pathLe).nodup_iff.mpr entries
  refine List.Nodup.map_on ?_ (sorted.filter _)
  intro first member second other same
  obtain ⟨entry, inNames, rfl⟩ :=
    List.mem_map.mp (List.mem_mergeSort.mp (List.mem_of_mem_filter member))
  obtain ⟨entry', inNames', rfl⟩ :=
    List.mem_map.mp (List.mem_mergeSort.mp (List.mem_of_mem_filter other))
  rw [basename_entryPath (proper entry inNames).single,
    basename_entryPath (proper entry' inNames').single] at same
  rw [same]

end Entries

section Loops

/-- A tree in which some files of a directory are gone, and nothing else has changed. -/
def Erased (tree after : FileTree) (dir : Location) (gone : List Name) : Prop :=
  ∀ location, after.kind location =
    if ∃ file ∈ gone, location = file :: dir then none else tree.kind location

/-- What a loop over files leaves: some of them are gone, all of them when it succeeds, and it
fails only at one that the system keeps. -/
structure Outcome (remover : Remover) (tree : FileTree) (dir : Location)
    (files : List PathString) (removal : FileMgr.Removal) (gone : List Name) : Prop where
  erased : Erased tree removal.2.2 dir gone
  within : ∀ file ∈ gone, file ∈ files
  whole : removal.1 = true ↔ ∀ file ∈ files, file ∈ gone
  kept : (∀ file ∈ files, remover.keeps (file :: dir) = false) → removal.1 = true

theorem erased_nil : Erased tree tree dir [] := fun _ => by simp

theorem Outcome.nil (mgr : FileMgr) : Outcome remover tree dir [] (true, mgr, tree) [] :=
  ⟨erased_nil, by simp, by simp, by simp⟩

theorem Outcome.stopped (member : file ∈ files) (kept : remover.keeps (file :: dir) = true)
    (mgr : FileMgr) : Outcome remover tree dir files (false, mgr, tree) [] := by
  refine ⟨erased_nil, by simp, ?_, fun free => ?_⟩
  · refine iff_of_false (by simp) fun all => ?_
    exact List.not_mem_nil (all file member)
  · rw [free file member] at kept
    cases kept

/-- A loop that has removed a file goes on with the others. -/
theorem Outcome.cons {rest : List PathString} {removal : FileMgr.Removal} {gone : List Name}
    (isFile : tree.kind (file :: dir) = some .file)
    (same : ∀ other, other ∈ files ↔ other = file ∨ other ∈ rest) (apart : file ∉ rest)
    (outcome : Outcome remover (tree.erase file dir) dir rest removal gone) :
    Outcome remover tree dir files removal (file :: gone) := by
  refine ⟨fun location => ?_, fun other member => ?_, ?_, fun free => ?_⟩
  · rw [outcome.erased, kind_erase_file isFile]
    by_cases first : location = file :: dir
    · simp [first]
    · simp [first]
  · rcases List.mem_cons.mp member with rfl | member
    · exact (same other).mpr (Or.inl rfl)
    · exact (same other).mpr (Or.inr (outcome.within other member))
  · rw [outcome.whole]
    constructor
    · intro all other member
      rcases (same other).mp member with rfl | member
      · exact List.mem_cons_self
      · exact List.mem_cons_of_mem file (all other member)
    · intro all other member
      rcases List.mem_cons.mp (all other ((same other).mpr (Or.inr member))) with rfl | isGone
      · exact absurd member apart
      · exact isGone
  · exact outcome.kept fun other member => free other ((same other).mpr (Or.inr member))

theorem Managed.delEach_names (managed : Managed remover mgr tree dir)
    (isFile : ∀ file ∈ files, tree.kind (file :: dir) = some .file) (distinct : files.Nodup) :
    ∃ gone, Outcome remover tree dir files
      (FileMgr.delEach (fun mgr tree file => mgr.delName remover tree file) mgr tree files) gone ∧
      ∀ first, files.head? = some first → remover.keeps (first :: dir) = false →
        first ∈ gone := by
  induction files generalizing tree with
  | nil => exact ⟨[], Outcome.nil mgr, by simp⟩
  | cons file files ih =>
      have here := isFile file (by simp)
      obtain ⟨apart, distinct⟩ := List.nodup_cons.mp distinct
      rw [FileMgr.delEach, managed.delName_file here]
      cases kept : remover.keeps (file :: dir) with
      | true =>
          refine ⟨[], Outcome.stopped List.mem_cons_self kept _, ?_⟩
          rintro first ⟨⟩ free
          rw [kept] at free
          cases free
      | false =>
          have later : ∀ other ∈ files,
              (tree.erase file dir).kind (other :: dir) = some .file := by
            intro other member
            rw [kind_erase_file here, if_neg]
            · exact isFile other (List.mem_cons_of_mem file member)
            · intro same
              rw [(List.cons.inj same).1] at member
              exact apart member
          obtain ⟨gone, outcome, -⟩ := ih (managed.erase here) later distinct
          refine ⟨file :: gone, ?_, ?_⟩
          · exact Outcome.cons here (fun other => List.mem_cons) apart outcome
          · rintro first ⟨⟩ -
            exact List.mem_cons_self

/-- The loop that removes the first file as often as there were files. -/
theorem Managed.delEach_indices (managed : Managed remover mgr tree dir)
    (count : files.length = (mgr.listFiles remover tree).2.length) :
    ∃ gone, Outcome remover tree dir (mgr.listFiles remover tree).2
      (FileMgr.delEach (fun mgr tree _ => mgr.delIndex remover tree 0) mgr tree files) gone := by
  induction files generalizing tree with
  | nil =>
      have none := List.length_eq_zero_iff.mp count.symm
      rw [none]
      exact ⟨[], Outcome.nil mgr⟩
  | cons _ files ih =>
      cases listed : (mgr.listFiles remover tree).2 with
      | nil => simp [listed] at count
      | cons first rest =>
          have isFile : tree.kind (first :: dir) = some .file :=
            managed.mem_listFiles.mp (by simp [listed])
          have present : tree.kind (first :: dir) ≠ none := by rw [isFile]; exact nofun
          have nonempty := (tree.proper first dir present).nonempty
          have distinct := managed.nodup_listFiles
          rw [listed] at distinct count
          obtain ⟨apart, distinct⟩ := List.nodup_cons.mp distinct
          have removed : mgr.delIndex remover tree 0 = mgr.delName remover tree first := by
            rw [FileMgr.delIndex, FileMgr.indexToFilename]
            simp only [listed, managed.listFiles_mgr, List.getElem?_cons_zero, if_neg nonempty]
          rw [FileMgr.delEach, removed, managed.delName_file isFile]
          cases kept : remover.keeps (first :: dir) with
          | true => exact ⟨[], Outcome.stopped List.mem_cons_self kept _⟩
          | false =>
              have managed' := managed.erase isFile
              have members : ∀ other,
                  other ∈ (mgr.listFiles remover (tree.erase first dir)).2 ↔ other ∈ rest := by
                intro other
                rw [managed'.mem_listFiles, kind_erase_file isFile]
                have before := @Managed.mem_listFiles remover mgr tree dir other managed
                rw [listed, List.mem_cons] at before
                by_cases same : other = first
                · simp [same, apart]
                · rw [if_neg fun equal => same (List.cons.inj equal).1, ← before]
                  simp [same]
              have left := (List.perm_ext_iff_of_nodup managed'.nodup_listFiles distinct).mpr members
              obtain ⟨gone, outcome⟩ := ih managed'
                (by rw [left.length_eq]; exact Nat.succ.inj count)
              refine ⟨first :: gone, Outcome.cons isFile (fun other => ?_) ?_ outcome⟩
              · rw [List.mem_cons, members]
              · rw [members]
                exact apart

end Loops

section Whole

variable {managed : ManagedDir} {removal : FileMgr.Removal}

theorem ManagedDir.state (managed : ManagedDir) :
    Managed managed.remover managed.mgr managed.tree managed.dir :=
  ⟨managed.noZero, managed.noZeroDir, names_of_resolve managed.resolves managed.isDirectory⟩

theorem ManagedDir.mem_files {file : Name} :
    file ∈ managed.files ↔ managed.tree.kind (file :: managed.dir) = some .file :=
  managed.state.mem_listFiles

/-- Where nothing is selected, a removal that fails and changes nothing is right. -/
theorem deletes_of_nothing (nothing : ∀ file, ¬Selected managed name file) (mgr : FileMgr) :
    Deletes managed name (false, mgr, managed.tree) := by
  refine ⟨fun _ _ => rfl, ?_, ?_⟩
  · refine iff_of_false (by simp) fun all => ?_
    obtain ⟨file, selected⟩ := all.1
    exact nothing file selected
  · rintro ⟨file, selected⟩
    exact absurd selected (nothing file)

/-- A loop over the files that are selected removes these. -/
theorem deletes_of_outcome {gone : List Name}
    (selected : ∀ file, Selected managed name file ↔ file ∈ files) (some : files ≠ [])
    (outcome : Outcome managed.remover managed.tree managed.dir files removal gone) :
    Deletes managed name removal := by
  have erased : ∀ file, file ∈ files →
      (removal.2.2.kind (file :: managed.dir) = none ↔ file ∈ gone) := by
    intro file member
    rw [outcome.erased]
    have isFile := ((selected file).mpr member).isFile
    by_cases isGone : file ∈ gone
    · simp [isGone]
    · simp [isGone, isFile]
  refine ⟨fun location apart => ?_, ?_, fun _ free => ?_⟩
  · rw [outcome.erased, if_neg]
    rintro ⟨file, isGone, same⟩
    exact apart file ((selected file).mpr (outcome.within file isGone)) same
  · rw [outcome.whole]
    constructor
    · intro all
      obtain ⟨file, member⟩ := List.exists_mem_of_ne_nil files some
      refine ⟨⟨file, (selected file).mpr member⟩, fun other isSelected => ?_⟩
      have member := (selected other).mp isSelected
      exact (erased other member).mpr (all other member)
    · rintro ⟨-, all⟩ file member
      exact (erased file member).mp (all file ((selected file).mpr member))
  · exact outcome.kept fun file member => free file ((selected file).mpr member)

theorem toLower_of_noZero (noZero : '\x00' ∉ path) : toLower path = path.map Char.toLower := by
  have whole : path.takeWhile (· ≠ '\x00') = path := c_str_of_noZero noZero
  rw [toLower, whole]

/-- A text is found at the start exactly when it stands there. -/
theorem findStr_zero {word text : List Char} : findStr word text 0 = some 0 ↔ word <+: text := by
  rw [findStr, if_pos (Nat.zero_le _), List.drop_zero]
  constructor
  · intro found
    obtain ⟨⟨before, after⟩, cut, atStart⟩ := Option.map_eq_some_iff.mp found
    have empty : before = [] := by
      rw [Nat.zero_add] at atStart
      exact List.length_eq_zero_iff.mp atStart
    rw [(cutWord_eq_some cut).1, empty, List.nil_append]
    exact List.prefix_append word after
  · rintro ⟨rest, rfl⟩
    have cut := @cutWord_append Char _ word [] rest (by
      intro start rest split nonempty
      exact absurd (List.append_eq_nil_iff.mp split.symm).2 nonempty)
    rw [List.nil_append] at cut
    rw [cut]
    rfl

/-- The files that the manager looks for with a prefix. -/
theorem ManagedDir.mem_toDelete {pre : PathString} {file : Name} :
    file ∈ FileMgr.toDelete managed.files pre ↔
      managed.tree.kind (file :: managed.dir) = some .file ∧
        toLower pre <+: file.map Char.toLower := by
  rw [FileMgr.toDelete, List.mem_filter, managed.mem_files, decide_eq_true_iff, findStr_zero]
  refine and_congr_right fun isFile => ?_
  have present : managed.tree.kind (file :: managed.dir) ≠ none := by rw [isFile]; exact nofun
  rw [toLower_of_noZero (managed.noZero file managed.dir present)]

/-- A name with a `*` at the end selects what is looked for, when it holds no zero. -/
theorem selected_pattern {pre : PathString} (plain : '*' ∉ pre) (file : Name) :
    Selected managed (pre ++ ['*']) file ↔
      managed.tree.kind (file :: managed.dir) = some .file ∧
        pre.map Char.toLower <+: file.map Char.toLower := by
  constructor
  · rintro ⟨isFile, ⟨pre', -, same, begins⟩ | ⟨noStar, -⟩⟩
    · rw [(List.append_inj_left' same rfl)]
      exact ⟨isFile, begins⟩
    · exact absurd (by simp) noStar
  · rintro ⟨isFile, begins⟩
    exact ⟨isFile, Or.inl ⟨pre, plain, rfl, begins⟩⟩

theorem toLower_zero {letter : Char} (zero : letter.toLower = '\x00') : letter = '\x00' := by
  delta Char.toLower at zero
  split at zero
  · next upper =>
      have code := congrArg (fun letter => letter.val.toNat) zero
      have low : 65 ≤ letter.val.toNat := upper.1
      have high : letter.val.toNat ≤ 90 := upper.2
      simp only [UInt32.toNat_add] at code
      change (letter.val.toNat + 32) % 2 ^ 32 = 0 at code
      omega
  · exact zero

theorem not_selected_of_zero {pre : PathString} (plain : '*' ∉ pre) (zero : '\x00' ∈ pre)
    (file : Name) : ¬Selected managed (pre ++ ['*']) file := by
  rw [selected_pattern plain]
  rintro ⟨isFile, begins⟩
  have present : managed.tree.kind (file :: managed.dir) ≠ none := by rw [isFile]; exact nofun
  have inside : '\x00' ∈ file.map Char.toLower :=
    begins.subset (List.mem_map.mpr ⟨'\x00', zero, by decide⟩)
  obtain ⟨letter, member, lower⟩ := List.mem_map.mp inside
  rw [toLower_zero lower] at member
  exact managed.noZero file managed.dir present member

theorem selected_plain (plain : '*' ∉ name) (file : Name) :
    Selected managed name file ↔
      managed.tree.kind (name :: managed.dir) = some .file ∧ file = name := by
  constructor
  · rintro ⟨isFile, ⟨pre, -, rfl, -⟩ | ⟨-, rfl⟩⟩
    · exact absurd (by simp) plain
    · exact ⟨isFile, rfl⟩
  · rintro ⟨isFile, rfl⟩
    exact ⟨isFile, Or.inr ⟨plain, rfl⟩⟩

/-- The path of the directory itself, or of a dot in it, is none of a file. -/
theorem not_isFile_of_improper (single : '/' ∉ name) (noZero : '\x00' ∉ name)
    (improper : name = [] ∨ name = ['.'] ∨ name = ['.', '.']) :
    Path.isFile managed.remover.process managed.tree (Path.join managed.mgr.mDir name) = false := by
  have names := managed.state.names
  obtain ⟨left, leads⟩ := names.leads
  have isDir := names.isDirectory
  obtain ⟨last, place, whole, step, directory⟩ : ∃ last place,
      pathNames (entryPath managed.mgr.mDir name) = segments '/' managed.mgr.mDir ++ [last] ∧
        Leads managed.tree false left managed.dir [last] place left ∧
          managed.tree.kind place = some .directory := by
    rcases improper with rfl | rfl | rfl
    · refine ⟨['.'], managed.dir, ?_, .stay isDir .done, isDir⟩
      rw [entryPath]
      split
      · next ends => rw [List.append_nil, pathNames, if_pos ends]
      · rw [pathNames, segments_concat, if_pos List.getLast?_concat]
    · exact ⟨_, managed.dir, pathNames_entryPath (by simp) single, .stay isDir .done, isDir⟩
    · exact ⟨_, managed.dir.tail, pathNames_entryPath (by simp) single, .up isDir .done,
        kind_tail isDir⟩
  have found : managed.remover.process.lstat managed.tree (entryPath managed.mgr.mDir name) =
      some .directory := by
    rw [Process.lstat, FileTree.found, resolve, if_neg (entryPath_ne_nil names.nonempty),
      origin_entryPath names.nonempty, whole,
      walk_of_leads (leads.append (Or.inl (List.cons_ne_nil _ _)) step)]
    exact directory
  rw [Bool.eq_false_iff, ne_eq, isFile_iff, join_eq names.nonempty,
    c_str_of_noZero (noZero_entryPath managed.noZeroDir noZero), found]
  decide

/-- A plain name that an entry can have removes the file of that name, if there is one. -/
theorem deletes_entry (plain : '*' ∉ name) (single : '/' ∉ name) (noZero : '\x00' ∉ name) :
    Deletes managed name (managed.mgr.delName managed.remover managed.tree name) := by
  by_cases isFile : managed.tree.kind (name :: managed.dir) = some .file
  · have selected : ∀ file, Selected managed name file ↔ file ∈ [name] := by
      intro file
      rw [selected_plain plain, List.mem_singleton]
      exact and_iff_right isFile
    rw [managed.state.delName_file isFile]
    cases kept : managed.remover.keeps (name :: managed.dir) with
    | true =>
        exact deletes_of_outcome selected (by simp)
          (Outcome.stopped List.mem_cons_self kept _)
    | false =>
        exact deletes_of_outcome selected (by simp)
          (Outcome.cons isFile (fun other => List.mem_cons) List.not_mem_nil (Outcome.nil _))
  · have nothing : ∀ file, ¬Selected managed name file := by
      intro file selected
      exact isFile ((selected_plain plain file).mp selected).1
    have notFile : Path.isFile managed.remover.process managed.tree
        (Path.join managed.mgr.mDir name) = false := by
      by_cases proper : Proper name
      · rw [Bool.eq_false_iff, ne_eq, join_eq managed.state.names.nonempty,
          managed.state.isFile_entry proper noZero]
        exact isFile
      · refine not_isFile_of_improper single noZero ?_
        rw [proper_iff] at proper
        by_contra none
        simp only [not_or] at none
        exact proper ⟨none.1, single, none.2.1, none.2.2⟩
    rw [FileMgr.delName, if_neg managed.state.names.nonempty]
    dsimp only
    rw [notFile]
    exact deletes_of_nothing nothing _

/-- A plain name that no entry can have must not lead to a file. -/
theorem deletes_foreign (plain : '*' ∉ name) (foreign : '/' ∈ name ∨ '\x00' ∈ name) :
    Deletes managed name (managed.mgr.delName managed.remover managed.tree name) ↔
      ¬managed.Removable (Path.join managed.mgr.mDir name) := by
  have nothing : ∀ file, ¬Selected managed name file := by
    intro file selected
    have isFile := ((selected_plain plain file).mp selected).1
    have present : managed.tree.kind (name :: managed.dir) ≠ none := by rw [isFile]; exact nofun
    rcases foreign with slash | zero
    · exact (managed.tree.proper name managed.dir present).single slash
    · exact managed.noZero name managed.dir present zero
  rw [FileMgr.delName, if_neg managed.state.names.nonempty, ManagedDir.Removable]
  dsimp only
  cases isFile : Path.isFile managed.remover.process managed.tree
      (Path.join managed.mgr.mDir name) with
  | false => exact iff_of_true (deletes_of_nothing nothing _) (by simp)
  | true =>
      cases unlinked : managed.remover.unlink managed.tree
          (c_str (Path.join managed.mgr.mDir name)) with
      | error errno => exact iff_of_true (deletes_of_nothing nothing _) (by simp)
      | ok after =>
          refine iff_of_false (fun deletes => ?_) (by simp)
          obtain ⟨⟨file, selected⟩, -⟩ := deletes.result.mp rfl
          exact nothing file selected

/-- The loop over what is looked for with a prefix. -/
theorem deletes_pattern {pre : PathString} (plain : '*' ∉ pre)
    (found : FileMgr.toDelete managed.files pre ≠ []) :
    Deletes managed (pre ++ ['*']) (FileMgr.delEach
      (fun mgr tree file => mgr.delName managed.remover tree file) managed.mgr managed.tree
        (FileMgr.toDelete managed.files pre)) ↔
      ('\x00' ∈ pre → ∀ first, (FileMgr.toDelete managed.files pre).head? = some first →
        managed.remover.keeps (first :: managed.dir) = true) := by
  have isFile : ∀ file ∈ FileMgr.toDelete managed.files pre,
      managed.tree.kind (file :: managed.dir) = some .file := fun file member =>
    (managed.mem_toDelete.mp member).1
  have distinct : (FileMgr.toDelete managed.files pre).Nodup :=
    managed.state.nodup_listFiles.filter _
  obtain ⟨gone, outcome, begins⟩ := managed.state.delEach_names isFile distinct
  by_cases zero : '\x00' ∈ pre
  · have nothing := @not_selected_of_zero managed pre plain zero
    constructor
    · intro deletes _ first isFirst
      by_contra free
      have isGone := begins first isFirst (Bool.eq_false_iff.mpr free)
      have erased := outcome.erased (first :: managed.dir)
      rw [if_pos ⟨first, isGone, rfl⟩, deletes.others _ fun file selected =>
        absurd selected (nothing file), isFile first (outcome.within first isGone)] at erased
      cases erased
    · intro kept
      cases files : FileMgr.toDelete managed.files pre with
      | nil => exact absurd files found
      | cons first rest =>
          have isFirst := kept zero first (by rw [files]; rfl)
          rw [FileMgr.delEach, managed.state.delName_file (isFile first (by simp [files])),
            if_pos isFirst]
          exact deletes_of_nothing nothing _
  · have selected : ∀ file, Selected managed (pre ++ ['*']) file ↔
        file ∈ FileMgr.toDelete managed.files pre := by
      intro file
      rw [selected_pattern plain, managed.mem_toDelete, toLower_of_noZero zero]
    exact iff_of_true (deletes_of_outcome selected found outcome) fun inside => absurd inside zero

/-- The loop over the whole directory. -/
theorem deletes_all (some : managed.files ≠ []) :
    Deletes managed ['*'] (FileMgr.delEach
      (fun mgr tree _ => mgr.delIndex managed.remover tree 0) managed.mgr managed.tree
        managed.files) := by
  have selected : ∀ file, Selected managed ['*'] file ↔ file ∈ managed.files := by
    intro file
    have pattern := @selected_pattern managed [] List.not_mem_nil file
    rw [List.nil_append] at pattern
    rw [pattern, managed.mem_files]
    simp
  obtain ⟨gone, outcome⟩ :=
    @Managed.delEach_indices _ _ _ _ managed.files managed.state rfl
  exact deletes_of_outcome selected some outcome

/-- A plain name is removed as it is, when the directory has a file. -/
theorem ManagedDir.delfile_plain (some : managed.files ≠ []) (plain : '*' ∉ name) :
    managed.delfile name = managed.mgr.delName managed.remover managed.tree name := by
  have notAll : name ≠ ['*'] := fun same => plain (by simp [same])
  have listed : managed.mgr.listFiles managed.remover managed.tree = (managed.mgr, managed.files) :=
    Prod.ext managed.state.listFiles_mgr rfl
  rw [delfile, FileMgr.delfile, listed]
  dsimp only
  rw [if_neg some, if_neg notAll, cutFirst_eq_none.mpr plain]

end Whole

/-- A removal does what is expected exactly when what the name selects is what the manager
looks for. -/
theorem deletes_iff (managed : ManagedDir) (name : PathString) :
    Deletes managed name (managed.delfile name) ↔ Harmless managed name := by
  have listed : managed.mgr.listFiles managed.remover managed.tree = (managed.mgr, managed.files) :=
    Prod.ext managed.state.listFiles_mgr rfl
  by_cases none : managed.files = []
  · rw [ManagedDir.delfile, FileMgr.delfile, listed]
    dsimp only
    rw [if_pos none]
    have noFile : ∀ file, managed.tree.kind (file :: managed.dir) ≠ some .file := by
      intro file isFile
      have member := managed.mem_files.mpr isFile
      rw [none] at member
      exact List.not_mem_nil member
    refine iff_of_true (deletes_of_nothing (fun file selected => noFile file selected.isFile) _) ?_
    refine ⟨fun pre _ _ _ first isFirst => ?_, fun _ _ ⟨file, isFile⟩ => absurd isFile (noFile file)⟩
    rw [none] at isFirst
    cases isFirst
  obtain ⟨file, member⟩ := List.exists_mem_of_ne_nil managed.files none
  have isFile := managed.mem_files.mp member
  by_cases all : name = ['*']
  · subst all
    rw [ManagedDir.delfile, FileMgr.delfile, listed]
    dsimp only
    rw [if_neg none, if_pos rfl]
    refine iff_of_true (deletes_all none) ⟨fun pre same _ zero => ?_, by simp⟩
    rw [← List.append_inj_left' (show [] ++ ['*'] = pre ++ ['*'] from same) rfl] at zero
    exact absurd zero List.not_mem_nil
  cases star : cutFirst '*' name with
  | none =>
      have plain := cutFirst_eq_none.mp star
      have noPattern : ∀ pre, name ≠ pre ++ ['*'] := fun pre same => plain (by simp [same])
      rw [managed.delfile_plain none plain]
      by_cases foreign : '/' ∈ name ∨ '\x00' ∈ name
      · rw [deletes_foreign plain foreign]
        exact ⟨fun harmless => ⟨fun pre same => absurd same (noPattern pre), fun _ _ _ => harmless⟩,
          fun harmless => harmless.plain plain foreign ⟨file, isFile⟩⟩
      · rw [not_or] at foreign
        exact iff_of_true (deletes_entry plain foreign.1 foreign.2)
          ⟨fun pre same => absurd same (noPattern pre),
            fun _ inside => absurd inside (not_or.mpr foreign)⟩
  | some ends =>
      obtain ⟨pre, rest⟩ := ends
      obtain ⟨whole, plain⟩ := cutFirst_eq_some.mp star
      have hasStar : '*' ∈ name := by simp [whole]
      -- the text before the first star is the only prefix there can be
      have only : ∀ pre', name = pre' ++ ['*'] → '*' ∉ pre' → rest = [] ∧ pre' = pre := by
        intro pre' same plain'
        have cut := cutFirst_append [] plain'
        rw [← same, star] at cut
        obtain ⟨rfl, rfl⟩ := Prod.mk.inj (Option.some.inj cut)
        exact ⟨rfl, rfl⟩
      rw [ManagedDir.delfile, FileMgr.delfile, listed]
      dsimp only
      rw [if_neg none, if_neg all, star]
      dsimp only
      by_cases more : rest ≠ []
      · rw [if_pos more]
        have nothing : ∀ file, ¬Selected managed name file := by
          rintro file ⟨-, ⟨pre', plain', same, -⟩ | ⟨noStar, -⟩⟩
          · exact more (only pre' same plain').1
          · exact noStar hasStar
        exact iff_of_true (deletes_of_nothing nothing _)
          ⟨fun pre' same plain' => absurd (only pre' same plain').1 more,
            fun noStar => absurd hasStar noStar⟩
      · rw [if_neg more]
        rw [ne_eq, not_not] at more
        subst more
        subst whole
        have harmless : Harmless managed (pre ++ ['*']) ↔
            ('\x00' ∈ pre → ∀ first, (FileMgr.toDelete managed.files pre).head? = some first →
              managed.remover.keeps (first :: managed.dir) = true) := by
          constructor
          · exact fun harmless zero => harmless.pattern pre rfl plain zero
          · intro kept
            refine ⟨fun pre' same plain' zero => ?_, fun noStar => absurd hasStar noStar⟩
            obtain ⟨-, rfl⟩ := only pre' same plain'
            exact kept zero
        rw [harmless]
        by_cases found : FileMgr.toDelete managed.files pre = []
        · rw [if_pos found]
          have nothing : ∀ file, ¬Selected managed (pre ++ ['*']) file := by
            intro file
            by_cases zero : '\x00' ∈ pre
            · exact not_selected_of_zero plain zero file
            · rw [selected_pattern plain, ← toLower_of_noZero zero, ← managed.mem_toDelete, found]
              exact List.not_mem_nil
          exact iff_of_true (deletes_of_nothing nothing _) fun _ first isFirst => by
            rw [found] at isFirst
            cases isFirst
        · rw [if_neg found]
          exact deletes_pattern plain found

section Escape

def escapeEntries : List (Location × Kind) :=
  [([['d']], .directory), ([['b']], .file), ([['a'], ['d']], .file)]

theorem listed_escapeEntries : Listed escapeEntries := by decide

/-- A directory with one file, and another file beside the directory. -/
def escapeTree : FileTree := ofEntries escapeEntries listed_escapeEntries

def escape : ManagedDir where
  remover := ⟨⟨[], fun _ => false⟩, fun _ => false⟩
  mgr := ⟨"/d".toList, "/tmp".toList, "", [], [], [], []⟩
  tree := escapeTree
  dir := [['d']]
  left := 40
  noZero name place present := by
    have plain : ∀ entry ∈ escapeEntries, '\x00' ∉ entry.1.headD [] := by decide
    have listed : listedKind escapeEntries (name :: place) ≠ none := present
    obtain nothing | known := listedKind_ne_none.mp listed
    · cases nothing
    · obtain ⟨entry, member, same⟩ := List.mem_map.mp known
      have zero := plain entry member
      rwa [same] at zero
  noZeroDir := by decide
  resolves := rfl
  isDirectory := rfl

/-- A name with a slash removes a file outside the directory. -/
theorem file_outside_is_removed :
    ¬ ∀ (managed : ManagedDir) (name : PathString), Deletes managed name (managed.delfile name) := by
  intro always
  have deletes := always escape "../b".toList
  have some : escape.files ≠ [] := by
    have member : ['a'] ∈ escape.files := escape.mem_files.mpr rfl
    exact List.ne_nil_of_mem member
  rw [escape.delfile_plain some (by decide), deletes_foreign (by decide) (by decide)] at deletes
  exact deletes ⟨rfl, _, rfl⟩

end Escape

end OpenMplane
