import OpenMplane.FileMgrDelete

/-!
# Removing the contents of a directory

`removeDirContents` of `Path` first removes what is no directory and then empties and removes the
directories, each of them by its path, as long as everything goes well.  What it removes stands in
the directory that the path names, however deep, and nothing that a link leads to: a link is
removed as a link.  A path that goes through an entry of the directory is lost when this entry
is removed, and what is then left is left.
-/

namespace OpenMplane

open SeparatorRuns FileTree

namespace Remover

variable (remover : Remover) (tree : FileTree)

/-- `::rmdir` by this process. -/
def rmdir (path : PathString) : Except Errno FileTree :=
  match remover.process.entry tree path with
  | .ok (dir, some name) =>
      if remover.keeps (name :: dir) then .error .EACCES else remover.process.rmdir tree path
  | _ => remover.process.rmdir tree path

/-- `::remove` by this process. -/
def remove (path : PathString) : Except Errno FileTree :=
  match remover.unlink tree path with
  | .error .EISDIR => remover.rmdir tree path
  | result => result

/-- The loop that removes what is no directory. -/
def removeFiles (isDir : FileTree → PathString → Bool) :
    FileTree → List PathString → Bool × FileTree
  | tree, [] => (true, tree)
  | tree, file :: files =>
      if !isDir tree file then
        match remover.remove tree (c_str file) with
        | .error _ => (false, tree)
        | .ok after => removeFiles isDir after files
      else removeFiles isDir tree files

/-- The loop that empties and removes the directories. -/
def removeDirs (isDir : FileTree → PathString → Bool)
    (removeContents : FileTree → PathString → Option (Bool × FileTree)) :
    FileTree → List PathString → Option (Bool × FileTree)
  | tree, [] => some (true, tree)
  | tree, dir :: dirs =>
      if isDir tree dir then
        match removeContents tree dir with
        | none => none
        | some (false, after) => some (false, after)
        | some (true, after) =>
            match remover.rmdir after (c_str dir) with
            | .error _ => some (false, after)
            | .ok later => removeDirs isDir removeContents later dirs
      else removeDirs isDir removeContents tree dirs

/-- `removeDirContents` with the tests of a class, for at most so many directories one in the
other. -/
def removeContents («exists» isDir : FileTree → PathString → Bool) :
    Nat → FileTree → PathString → Bool → Option (Bool × FileTree)
  | 0, _, _, _ => none
  | depth + 1, tree, path, recursive =>
      if !«exists» tree path || !isDir tree path then some (false, tree)
      else
        let contents := Path.dirContents remover.process tree path
        match remover.removeFiles isDir tree contents with
        | (false, after) => some (false, after)
        | (true, after) =>
            if !recursive then some (true, after)
            else remover.removeDirs isDir
              (fun tree dir => removeContents «exists» isDir depth tree dir true) after contents

end Remover

/-- The tests of the two classes, on strings. -/
def pathIsDir (remover : Remover) (tree : FileTree) (path : PathString) : Bool :=
  Path.isDir remover.process tree (c_str path)

def utilsIsDir (remover : Remover) (tree : FileTree) (path : PathString) : Bool :=
  PathUtils.isDir remover.process tree (c_str path)

def Path.removeDirContents (remover : Remover) : Nat → FileTree → PathString → Bool →
    Option (Bool × FileTree) :=
  remover.removeContents (fun tree path => Path.exists remover.process tree (c_str path))
    (pathIsDir remover)

def PathUtils.removeDirContents (remover : Remover) : Nat → FileTree → PathString → Bool →
    Option (Bool × FileTree) :=
  remover.removeContents (fun tree path => PathUtils.exists remover.process tree (c_str path))
    (utilsIsDir remover)

/-- A place stands below a directory, at any depth. -/
def Below (dir place : Location) : Prop := ∃ name, name :: dir <:+ place

variable {tree after later : FileTree} {process : Process} {remover : Remover}
variable {path : PathString} {dir place : Location} {name : Name}

theorem below_entry (name : Name) (dir : Location) : Below dir (name :: dir) :=
  ⟨name, List.suffix_refl _⟩

theorem Below.deeper (below : Below (name :: dir) place) : Below dir place := by
  obtain ⟨inner, suffix⟩ := below
  exact ⟨name, (List.suffix_cons inner (name :: dir)).trans suffix⟩

theorem not_below_self (dir : Location) : ¬Below dir dir := by
  rintro ⟨name, suffix⟩
  have length := suffix.length_le
  rw [List.length_cons] at length
  omega

/-- What is gone stood below a directory, and the system did not keep it. -/
structure Gone (remover : Remover) (tree after : FileTree) (dir : Location) : Prop where
  changed : ∀ place, after.kind place = tree.kind place ∨
    (after.kind place = none ∧ Below dir place ∧ remover.keeps place = false)
  height : after.height = tree.height

namespace Gone

theorem refl (tree : FileTree) (dir : Location) : Gone remover tree tree dir :=
  ⟨fun _ => Or.inl rfl, rfl⟩

theorem trans (first : Gone remover tree after dir) (second : Gone remover after later dir) :
    Gone remover tree later dir := by
  refine ⟨fun place => ?_, second.height.trans first.height⟩
  rcases second.changed place with same | gone
  · rw [same]
    exact first.changed place
  · exact Or.inr gone

theorem deeper (gone : Gone remover tree after (name :: dir)) : Gone remover tree after dir := by
  refine ⟨fun place => ?_, gone.height⟩
  rcases gone.changed place with same | ⟨absent, below, free⟩
  · exact Or.inl same
  · exact Or.inr ⟨absent, below.deeper, free⟩

theorem within (gone : Gone remover tree after dir) : Within after tree := by
  intro place kind present
  rcases gone.changed place with same | ⟨absent, -⟩
  · rw [← same, present]
  · rw [absent] at present
    cases present

theorem outside (gone : Gone remover tree after dir) (elsewhere : ¬Below dir place) :
    after.kind place = tree.kind place :=
  (gone.changed place).resolve_right fun away => elsewhere away.2.1

theorem kept (gone : Gone remover tree after dir) (keeps : remover.keeps place = true) :
    after.kind place = tree.kind place := by
  refine (gone.changed place).resolve_right fun away => ?_
  rw [away.2.2] at keeps
  cases keeps

end Gone

/-- A path leads to a place or nowhere. -/
def LeadsAtMost (tree : FileTree) (process : Process) (path : PathString) (dir : Location) : Prop :=
  path ≠ [] ∧ ∀ place left,
    Leads tree true linkBudget (origin path process.cwd) (segments '/' path) place left → place = dir

theorem leadsAtMost_of_names (names : Names tree process path dir) :
    LeadsAtMost tree process path dir := by
  obtain ⟨left, leads⟩ := names.leads
  exact ⟨names.nonempty, fun place left other => (other.unique leads).1⟩

theorem LeadsAtMost.of_within (atMost : LeadsAtMost tree process path dir)
    (within : Within after tree) : LeadsAtMost after process path dir :=
  ⟨atMost.1, fun place left leads => atMost.2 place left (leads.before within)⟩

theorem names_before (names : Names after process path dir) (within : Within after tree) :
    Names tree process path dir := by
  obtain ⟨left, leads⟩ := names.leads
  exact ⟨names.nonempty, within _ _ names.isDirectory, left, leads.before within⟩

/-- A walk that comes to a directory without following a link at its end does so too when it
follows one. -/
theorem leads_followed {last : Bool} {budget left : Nat} {here place : Location}
    {names : List Name} (leads : Leads tree last budget here names place left)
    (isDirectory : tree.kind place = some .directory) :
    Leads tree true budget here names place left := by
  induction leads with
  | done => exact .done
  | stay directory _ ih => exact .stay directory (ih isDirectory)
  | up directory _ ih => exact .up directory (ih isDirectory)
  | down directory proper entry noLink _ ih =>
      exact .down directory proper entry noLink (ih isDirectory)
  | stop _ _ _ entry =>
      rw [entry] at isDirectory
      cases isDirectory
  | follow directory proper entry onward nonempty _ ih =>
      exact .follow directory proper entry (fun both => by cases both.2) nonempty
        (ih isDirectory)

theorem names_entry (names : Names tree process path dir)
    (isDirectory : tree.kind (name :: dir) = some .directory) :
    Names tree process (entryPath path name) (name :: dir) := by
  have present : tree.kind (name :: dir) ≠ none := by
    rw [isDirectory]
    exact Option.some_ne_none _
  have proper := tree.proper name dir present
  obtain ⟨left, leads⟩ := names.leads
  refine ⟨entryPath_ne_nil names.nonempty, isDirectory, left, ?_⟩
  rw [origin_entryPath names.nonempty, segments_entryPath proper.nonempty proper.single]
  exact leads.append (Or.inr rfl)
    (.down names.isDirectory ⟨proper.not_here, proper.not_parent⟩ isDirectory
      (fun target same => by cases same) .done)

/-- A path that no longer leads to its directory finds none of its entries. -/
theorem lost_entry (atMost : LeadsAtMost tree process path dir)
    (lost : ¬Names tree process path dir) (proper : Proper name) :
    process.lstat tree (entryPath path name) = none ∧
      ∃ errno, process.entry tree (entryPath path name) = .error errno := by
  constructor
  · rw [Process.lstat, found, resolve, if_neg (entryPath_ne_nil atMost.1),
      origin_entryPath atMost.1, pathNames_entryPath proper.nonempty proper.single]
    cases walked : walk tree false linkBudget (origin path process.cwd)
        (segments '/' path ++ [name]) with
    | error fault => rfl
    | ok result =>
        obtain ⟨place, rest⟩ := result
        obtain ⟨middle, there, start, finish⟩ :=
          (leads_of_walk walked).split (Or.inl (List.cons_ne_nil _ _))
        obtain rfl := atMost.2 middle there start
        have isDirectory : tree.kind middle = some .directory := by
          cases finish with
          | stay directory => exact directory
          | up directory => exact directory
          | down directory => exact directory
          | stop _ directory => exact directory
          | follow directory => exact directory
        exact absurd ⟨atMost.1, isDirectory, there, start⟩ lost
  · rw [Process.entry, if_neg (entryPath_ne_nil atMost.1),
      segments_entryPath proper.nonempty proper.single, List.getLast?_concat,
      List.dropLast_concat, origin_entryPath atMost.1]
    dsimp only
    cases walked : walk tree true linkBudget (origin path process.cwd) (segments '/' path) with
    | error fault => exact ⟨_, rfl⟩
    | ok result =>
        obtain ⟨place, rest⟩ := result
        obtain rfl := atMost.2 place rest (leads_of_walk walked)
        have noDirectory : tree.kind place ≠ some .directory := fun isDirectory =>
          lost ⟨atMost.1, isDirectory, rest, leads_of_walk walked⟩
        dsimp only
        rw [if_neg noDirectory]
        exact ⟨_, rfl⟩

/-- Erasing what has no entries changes what stands at its own place only. -/
theorem kind_erase_leaf (leaf : tree.names (name :: dir) = []) (place : Location) :
    (tree.erase name dir).kind place = if place = name :: dir then none else tree.kind place := by
  rw [kind_erase]
  by_cases same : place = name :: dir
  · rw [if_pos same, if_pos (by rw [same])]
  · rw [if_neg same]
    split
    · next below =>
        obtain ⟨front, rfl⟩ := below
        rcases List.eq_nil_or_concat front with rfl | ⟨outer, inner, rfl⟩
        · exact absurd rfl same
        · have absent : tree.kind (inner :: name :: dir) = none := by
            by_contra present
            have member := (tree.mem_names inner (name :: dir)).mpr present
            rw [leaf] at member
            cases member
          rw [List.concat_eq_append, List.append_assoc, List.singleton_append]
          by_cases direct : outer = []
          · rw [direct]
            exact absent.symm
          · refine (kind_append_of_ne ?_ direct).symm
            rw [absent]
            exact Option.some_ne_none _ |>.symm
    · rfl

theorem Gone.erase (leaf : tree.names (name :: dir) = []) (free : remover.keeps (name :: dir) = false) :
    Gone remover tree (tree.erase name dir) dir := by
  refine ⟨fun place => ?_, rfl⟩
  rw [kind_erase_leaf leaf]
  by_cases same : place = name :: dir
  · rw [if_pos same, same]
    exact Or.inr ⟨rfl, below_entry name dir, free⟩
  · rw [if_neg same]
    exact Or.inl rfl

/-- The paths and the names are C strings. -/
structure Plain (tree : FileTree) (path : PathString) : Prop where
  path : '\x00' ∉ path
  names : ∀ name place, tree.kind (name :: place) ≠ none → '\x00' ∉ name

theorem Plain.of_within (plain : Plain tree path) (within : Within after tree) :
    Plain after path := by
  refine ⟨plain.path, fun name place present => plain.names name place ?_⟩
  obtain ⟨kind, same⟩ := Option.ne_none_iff_exists'.mp present
  rw [within _ _ same]
  exact Option.some_ne_none _

section Calls

variable (atMost : LeadsAtMost tree remover.process path dir) (noZeroPath : '\x00' ∉ path)
  (noZero : '\x00' ∉ name) (proper : Proper name)
include atMost noZeroPath noZero proper

theorem isDir_entry :
    Path.isDir remover.process tree (c_str (entryPath path name)) = true ↔
      Names tree remover.process path dir ∧ tree.kind (name :: dir) = some .directory := by
  rw [c_str_of_noZero (noZero_entryPath noZeroPath noZero), Path.isDir_iff]
  by_cases names : Names tree remover.process path dir
  · rw [lstat_entryPath names proper]
    exact ⟨fun isDirectory => ⟨names, isDirectory⟩, fun both => both.2⟩
  · rw [(lost_entry atMost names proper).1]
    exact ⟨fun impossible => absurd impossible.symm (Option.some_ne_none _),
      fun both => absurd both.1 names⟩

/-- What is no directory is removed, unless the system keeps it or the path is lost. -/
theorem remove_entry (noDirectory : ¬(Names tree remover.process path dir ∧
      tree.kind (name :: dir) = some .directory)) :
    (∃ errno, remover.remove tree (c_str (entryPath path name)) = .error errno ∧
        (¬Names tree remover.process path dir ∨ remover.keeps (name :: dir) = true ∨
          tree.kind (name :: dir) = none)) ∨
      (remover.remove tree (c_str (entryPath path name)) = .ok (tree.erase name dir) ∧
        remover.keeps (name :: dir) = false ∧ tree.kind (name :: dir) ≠ some .directory) := by
  rw [c_str_of_noZero (noZero_entryPath noZeroPath noZero)]
  unfold Remover.remove Remover.unlink Process.unlink
  by_cases names : Names tree remover.process path dir
  · rw [entry_entryPath names proper]
    dsimp only
    by_cases kept : remover.keeps (name :: dir) = true
    · rw [if_pos kept]
      exact Or.inl ⟨.EACCES, rfl, Or.inr (Or.inl kept)⟩
    · rw [if_neg kept, if_neg (by simp [proper.not_here, proper.not_parent])]
      have ends := @getLast?_entryPath path name proper.nonempty proper.single
      cases kind : tree.kind (name :: dir) with
      | none => exact Or.inl ⟨.ENOENT, rfl, Or.inr (Or.inr rfl)⟩
      | some kind' =>
          cases kind' with
          | directory => exact absurd ⟨names, kind⟩ noDirectory
          | file | link | special =>
              dsimp only
              rw [if_neg ends]
              exact Or.inr ⟨rfl, Bool.eq_false_iff.mpr kept, fun same => by cases same⟩
  · obtain ⟨-, errno, fails⟩ := lost_entry atMost names proper
    unfold Remover.rmdir Process.rmdir
    rw [fails]
    cases errno with
    | EISDIR => exact Or.inl ⟨_, rfl, Or.inl names⟩
    | _ => exact Or.inl ⟨_, rfl, Or.inl names⟩

/-- A directory is removed when it is empty, unless the system keeps it. -/
theorem rmdir_entry (isDirectory : tree.kind (name :: dir) = some .directory) :
    (∃ errno, remover.rmdir tree (c_str (entryPath path name)) = .error errno ∧
        (¬Names tree remover.process path dir ∨ remover.keeps (name :: dir) = true ∨
          tree.names (name :: dir) ≠ [])) ∨
      (remover.rmdir tree (c_str (entryPath path name)) = .ok (tree.erase name dir) ∧
        remover.keeps (name :: dir) = false ∧ tree.names (name :: dir) = []) := by
  rw [c_str_of_noZero (noZero_entryPath noZeroPath noZero)]
  unfold Remover.rmdir Process.rmdir
  by_cases names : Names tree remover.process path dir
  · rw [entry_entryPath names proper]
    dsimp only
    by_cases kept : remover.keeps (name :: dir) = true
    · rw [if_pos kept]
      exact Or.inl ⟨.EACCES, rfl, Or.inr (Or.inl kept)⟩
    · rw [if_neg kept, if_neg proper.not_here, if_neg proper.not_parent, isDirectory]
      by_cases empty : tree.names (name :: dir) = []
      · dsimp only
        rw [if_pos empty]
        exact Or.inr ⟨rfl, Bool.eq_false_iff.mpr kept, empty⟩
      · dsimp only
        rw [if_neg empty]
        exact Or.inl ⟨.ENOTEMPTY, rfl, Or.inr (Or.inr empty)⟩
  · obtain ⟨-, errno, fails⟩ := lost_entry atMost names proper
    rw [fails]
    exact Or.inl ⟨_, rfl, Or.inl names⟩

end Calls

/-- The path leads to its directory whatever goes below it. -/
def Steady (tree : FileTree) (process : Process) (path : PathString) (dir : Location) : Prop :=
  ∀ after, Within after tree → (∀ place, ¬Below dir place → after.kind place = tree.kind place) →
    Names after process path dir

/-- The system keeps nothing that stands below. -/
def Free (remover : Remover) (tree : FileTree) (dir : Location) : Prop :=
  ∀ place, Below dir place → tree.kind place ≠ none → remover.keeps place = false

theorem Steady.names (steady : Steady tree process path dir) : Names tree process path dir :=
  steady tree (fun _ _ present => present) fun _ _ => rfl

theorem Steady.of_gone (steady : Steady tree process path dir)
    (gone : Gone remover tree after dir) : Steady after process path dir := by
  intro later within outside
  refine steady later (fun place kind present => gone.within _ _ (within _ _ present))
    fun place elsewhere => ?_
  rw [outside place elsewhere, gone.outside elsewhere]

theorem Steady.entry (steady : Steady tree process path dir)
    (isDirectory : tree.kind (name :: dir) = some .directory) :
    Steady tree process (entryPath path name) (name :: dir) := by
  intro after within outside
  have names := steady after within fun place elsewhere =>
    outside place fun below => elsewhere below.deeper
  refine names_entry names ?_
  rw [outside _ (not_below_self _), isDirectory]

theorem Free.of_within (free : Free remover tree dir) (within : Within after tree) :
    Free remover after dir := by
  intro place below present
  obtain ⟨kind, same⟩ := Option.ne_none_iff_exists'.mp present
  refine free place below ?_
  rw [within _ _ same]
  exact Option.some_ne_none _

theorem absent_of_within (within : Within after tree) (absent : tree.kind place = none) :
    after.kind place = none := by
  by_contra present
  obtain ⟨kind, same⟩ := Option.ne_none_iff_exists'.mp present
  rw [within _ _ same] at absent
  cases absent

/-- What the first loop leaves of the entries of a directory. -/
structure FilesRemoved (remover : Remover) (tree : FileTree) (path : PathString) (dir : Location)
    (files : List Name) (ok : Bool) (after : FileTree) : Prop where
  gone : Gone remover tree after dir
  shallow : ∀ place, after.kind place = tree.kind place ∨
    ((∃ name, place = name :: dir) ∧ tree.kind place ≠ some .directory)
  only : ok = true → ∀ name ∈ files,
    after.kind (name :: dir) = none ∨ after.kind (name :: dir) = some .directory
  complete : Steady tree remover.process path dir → Free remover tree dir → files.Nodup →
    (∀ name ∈ files, tree.kind (name :: dir) ≠ none) → ok = true

theorem removeFiles_spec (files : List Name) (atMost : LeadsAtMost tree remover.process path dir)
    (plain : Plain tree path) (usable : ∀ name ∈ files, Proper name ∧ '\x00' ∉ name) :
    ∃ ok after, remover.removeFiles (pathIsDir remover) tree (files.map (entryPath path)) =
      (ok, after) ∧ FilesRemoved remover tree path dir files ok after := by
  induction files generalizing tree with
  | nil =>
      exact ⟨true, tree, rfl, Gone.refl tree dir, fun _ => Or.inl rfl,
        fun _ _ impossible => absurd impossible List.not_mem_nil, fun _ _ _ _ => rfl⟩
  | cons name files ih =>
      obtain ⟨proper, noZero⟩ := usable name List.mem_cons_self
      have others : ∀ other ∈ files, Proper other ∧ '\x00' ∉ other := fun other member =>
        usable other (List.mem_cons_of_mem _ member)
      have isDirectory := isDir_entry atMost plain.path noZero proper
      rw [List.map_cons, Remover.removeFiles]
      by_cases directory : pathIsDir remover tree (entryPath path name) = true
      · obtain ⟨names, isDir⟩ := isDirectory.mp directory
        obtain ⟨ok, after, ran, spec⟩ := ih atMost plain others
        rw [directory]
        refine ⟨ok, after, ran, spec.gone, spec.shallow, fun done other member => ?_,
          fun steady free distinct present => ?_⟩
        · rcases List.mem_cons.mp member with rfl | later
          · rcases spec.shallow (other :: dir) with same | ⟨-, noDirectory⟩
            · exact Or.inr (same.trans isDir)
            · exact absurd isDir noDirectory
          · exact spec.only done other later
        · exact spec.complete steady free (List.nodup_cons.mp distinct).2 fun other later =>
            present other (List.mem_cons_of_mem _ later)
      · rw [Bool.eq_false_iff.mpr directory, Bool.not_false, if_pos rfl]
        rcases remove_entry atMost plain.path noZero proper (fun both =>
            directory (isDirectory.mpr both)) with
          ⟨errno, fails, reason⟩ | ⟨removed, notKept, noDirectory⟩
        · rw [fails]
          refine ⟨false, tree, rfl, Gone.refl tree dir, fun _ => Or.inl rfl,
            fun impossible => absurd impossible Bool.false_ne_true,
            fun steady free distinct present => ?_⟩
          have here := present name List.mem_cons_self
          rcases reason with lost | kept | absent
          · exact absurd steady.names lost
          · rw [free _ (below_entry name dir) here] at kept
            cases kept
          · exact absurd absent here
        · rw [removed]
          have leaf := names_eq_nil noDirectory
          have gone := Gone.erase leaf notKept
          have kinds := kind_erase_leaf leaf
          obtain ⟨ok, after, ran, spec⟩ :=
            ih (atMost.of_within gone.within) (plain.of_within gone.within) others
          refine ⟨ok, after, ran, gone.trans spec.gone, fun place => ?_, fun done other member => ?_,
            fun steady free distinct present => ?_⟩
          · by_cases here : place = name :: dir
            · exact Or.inr ⟨⟨name, here⟩, here ▸ noDirectory⟩
            · have same := kinds place
              rw [if_neg here] at same
              rw [← same]
              exact spec.shallow place
          · rcases List.mem_cons.mp member with rfl | later
            · have absent : (tree.erase other dir).kind (other :: dir) = none := by
                rw [kinds, if_pos rfl]
              exact Or.inl (absent_of_within spec.gone.within absent)
            · exact spec.only done other later
          · obtain ⟨fresh, distinct⟩ := List.nodup_cons.mp distinct
            refine spec.complete (steady.of_gone gone) (free.of_within gone.within) distinct
              fun other later => ?_
            have apart : other :: dir ≠ name :: dir := fun same =>
              fresh ((List.cons.inj same).1 ▸ later)
            rw [kinds, if_neg apart]
            exact present other (List.mem_cons_of_mem _ later)

/-- What emptying a directory leaves. -/
structure Emptied (remover : Remover) (tree : FileTree) (path : PathString) (dir : Location)
    (ok : Bool) (after : FileTree) : Prop where
  gone : Gone remover tree after dir
  empty : ok = true → Names after remover.process path dir → after.names dir = []
  complete : Steady tree remover.process path dir → Free remover tree dir → ok = true

/-- A way to empty the directories of a directory. -/
def Empties (remover : Remover) (height : Nat) (path : PathString) (dir : Location)
    (removeContents : FileTree → PathString → Option (Bool × FileTree)) : Prop :=
  ∀ tree name, tree.height = height → Plain tree path →
    Names tree remover.process path dir → tree.kind (name :: dir) = some .directory →
      ∃ ok after, removeContents tree (entryPath path name) = some (ok, after) ∧
        Emptied remover tree (entryPath path name) (name :: dir) ok after

/-- What the second loop leaves of the entries of a directory. -/
structure DirsRemoved (remover : Remover) (tree : FileTree) (path : PathString) (dir : Location)
    (dirs : List Name) (ok : Bool) (after : FileTree) : Prop where
  gone : Gone remover tree after dir
  none_left : ok = true → Names after remover.process path dir → ∀ name ∈ dirs,
    tree.kind (name :: dir) = none ∨ tree.kind (name :: dir) = some .directory →
      after.kind (name :: dir) = none
  complete : Steady tree remover.process path dir → Free remover tree dir → ok = true

theorem removeDirs_spec {removeContents : FileTree → PathString → Option (Bool × FileTree)}
    {height : Nat} (empties : Empties remover height path dir removeContents) (dirs : List Name)
    (isHeight : tree.height = height) (atMost : LeadsAtMost tree remover.process path dir)
    (plain : Plain tree path) (usable : ∀ name ∈ dirs, Proper name ∧ '\x00' ∉ name) :
    ∃ ok after, remover.removeDirs (pathIsDir remover) removeContents tree
      (dirs.map (entryPath path)) = some (ok, after) ∧
        DirsRemoved remover tree path dir dirs ok after := by
  induction dirs generalizing tree with
  | nil =>
      exact ⟨true, tree, rfl, Gone.refl tree dir,
        fun _ _ _ impossible => absurd impossible List.not_mem_nil, fun _ _ => rfl⟩
  | cons name dirs ih =>
      obtain ⟨proper, noZero⟩ := usable name List.mem_cons_self
      have others : ∀ other ∈ dirs, Proper other ∧ '\x00' ∉ other := fun other member =>
        usable other (List.mem_cons_of_mem _ member)
      have isDirectory := isDir_entry atMost plain.path noZero proper
      rw [List.map_cons, Remover.removeDirs]
      by_cases directory : pathIsDir remover tree (entryPath path name) = true
      · rw [if_pos directory]
        obtain ⟨names, isDir⟩ := isDirectory.mp directory
        obtain ⟨emptied, after, ran, contents⟩ := empties tree name isHeight plain names isDir
        have gone := contents.gone.deeper
        rw [ran]
        cases emptied with
        | false =>
            refine ⟨false, after, rfl, gone, fun impossible => absurd impossible Bool.false_ne_true,
              fun steady free => ?_⟩
            exact contents.complete (steady.entry isDir) fun place below present =>
              free place below.deeper present
        | true =>
            have stays : after.kind (name :: dir) = some .directory := by
              rw [contents.gone.outside (not_below_self _), isDir]
            dsimp only
            rcases rmdir_entry (atMost.of_within gone.within) plain.path noZero proper stays with
              ⟨errno, fails, reason⟩ | ⟨removed, notKept, empty⟩
            · rw [fails]
              refine ⟨false, after, rfl, gone,
                fun impossible => absurd impossible Bool.false_ne_true, fun steady free => ?_⟩
              have names := (steady.of_gone gone).names
              rcases reason with lost | kept | full
              · exact absurd names lost
              · have present : tree.kind (name :: dir) ≠ none := by
                  rw [isDir]
                  exact Option.some_ne_none _
                rw [free _ (below_entry name dir) present] at kept
                cases kept
              · exact absurd (contents.empty rfl (names_entry names stays)) full
            · rw [removed]
              have goneAll := gone.trans (Gone.erase empty notKept)
              have kinds := kind_erase_leaf empty
              obtain ⟨ok, later, ranOn, spec⟩ := ih (goneAll.height.trans isHeight)
                (atMost.of_within goneAll.within) (plain.of_within goneAll.within) others
              refine ⟨ok, later, ranOn, goneAll.trans spec.gone,
                fun done names other member before => ?_, fun steady free =>
                  spec.complete (steady.of_gone goneAll) (free.of_within goneAll.within)⟩
              rcases List.mem_cons.mp member with rfl | further
              · have absent : (after.erase other dir).kind (other :: dir) = none := by
                  rw [kinds, if_pos rfl]
                exact absent_of_within spec.gone.within absent
              · refine spec.none_left done names other further ?_
                rcases goneAll.changed (other :: dir) with same | ⟨absent, -⟩
                · rw [same]
                  exact before
                · exact Or.inl absent
      · rw [if_neg directory]
        obtain ⟨ok, after, ran, spec⟩ := ih isHeight atMost plain others
        refine ⟨ok, after, ran, spec.gone, fun done names other member before => ?_,
          spec.complete⟩
        rcases List.mem_cons.mp member with rfl | further
        · refine absent_of_within spec.gone.within (before.resolve_right fun isDir => ?_)
          exact directory (isDirectory.mpr ⟨names_before names spec.gone.within, isDir⟩)
        · exact spec.none_left done names other further before

theorem managed_of_names (plain : Plain tree path) (names : Names tree remover.process path dir) :
    Managed remover ⟨path, [], "", [], [], [], []⟩ tree dir :=
  ⟨plain.names, plain.path, names⟩

theorem exists_of_isDir (isDir : pathIsDir remover tree path = true) :
    Path.exists remover.process tree (c_str path) = true := by
  rw [Path.exists, Path.isDir_iff.mp isDir]
  rfl

theorem removeContents_of_isDir (plain : Plain tree path)
    (names : Names tree remover.process path dir) (isDir : pathIsDir remover tree path = true)
    (depth : Nat) (recursive : Bool) :
    Path.removeDirContents remover (depth + 1) tree path recursive =
      match remover.removeFiles (pathIsDir remover) tree
          ((tree.names dir).map (entryPath path)) with
      | (false, after) => some (false, after)
      | (true, after) =>
          if !recursive then some (true, after)
          else remover.removeDirs (pathIsDir remover)
            (fun tree dir => Path.removeDirContents remover depth tree dir true) after
              ((tree.names dir).map (entryPath path)) := by
  have contents := (managed_of_names plain names).dirContents_eq
  rw [Path.removeDirContents, Remover.removeContents, exists_of_isDir isDir]
  dsimp only at contents ⊢
  rw [contents]
  rw [isDir]
  rfl

theorem usable_names (plain : Plain tree path) :
    ∀ name ∈ tree.names dir, Proper name ∧ '\x00' ∉ name := by
  intro name member
  have present := (tree.mem_names name dir).mp member
  exact ⟨tree.proper name dir present, plain.names name dir present⟩

/-- A directory is emptied, level by level. -/
theorem removeDirContents_emptied (depth : Nat) (plain : Plain tree path)
    (names : Names tree remover.process path dir) (isDir : pathIsDir remover tree path = true)
    (deep : tree.height < dir.length + depth) :
    ∃ ok after, Path.removeDirContents remover depth tree path true = some (ok, after) ∧
      Emptied remover tree path dir ok after := by
  induction depth generalizing tree path dir with
  | zero =>
      have present : tree.kind dir ≠ none := by
        rw [names.isDirectory]
        exact Option.some_ne_none _
      have bound := tree.length_le dir present
      omega
  | succ depth ih =>
      rw [removeContents_of_isDir plain names isDir]
      have atMost := leadsAtMost_of_names names
      have usable := @usable_names tree path dir plain
      obtain ⟨filesOk, after, ran, files⟩ :=
        @removeFiles_spec tree remover path dir (tree.names dir) atMost plain usable
      rw [ran]
      have filesDone : Steady tree remover.process path dir → Free remover tree dir →
          filesOk = true := fun steady free =>
        files.complete steady free (tree.nodup_names dir) fun name member =>
          (tree.mem_names name dir).mp member
      cases filesOk with
      | false =>
          exact ⟨false, after, rfl, files.gone,
            fun impossible => absurd impossible Bool.false_ne_true, filesDone⟩
      | true =>
          have empties : Empties remover tree.height path dir
              (fun tree dir => Path.removeDirContents remover depth tree dir true) := by
            intro later name height plain names isDirectory
            have present : later.kind (name :: dir) ≠ none := by
              rw [isDirectory]
              exact Option.some_ne_none _
            have proper := later.proper name dir present
            have noZero := plain.names name dir present
            refine ih ⟨noZero_entryPath plain.path noZero, plain.names⟩
              (names_entry names isDirectory) ?_ ?_
            · exact (isDir_entry (leadsAtMost_of_names names) plain.path noZero proper).mpr
                ⟨names, isDirectory⟩
            · rw [height, List.length_cons]
              omega
          obtain ⟨ok, later, ranOn, dirs⟩ := removeDirs_spec empties (tree.names dir)
            files.gone.height (atMost.of_within files.gone.within)
            (plain.of_within files.gone.within) usable
          refine ⟨ok, later, ranOn, files.gone.trans dirs.gone, fun done names => ?_,
            fun steady free => ?_⟩
          · refine List.eq_nil_iff_forall_not_mem.mpr fun name member => ?_
            have present := (later.mem_names name dir).mp member
            obtain ⟨kind, same⟩ := Option.ne_none_iff_exists'.mp present
            have before : tree.kind (name :: dir) ≠ none := by
              rw [(files.gone.trans dirs.gone).within _ _ same]
              exact Option.some_ne_none _
            have listed := (tree.mem_names name dir).mpr before
            exact present (dirs.none_left done names name listed (files.only rfl name listed))
          · exact dirs.complete (steady.of_gone files.gone) (free.of_within files.gone.within)

theorem leads_of_reverse {budget : Nat} (isDirectory : tree.kind dir = some .directory) :
    Leads tree true budget [] dir.reverse dir budget := by
  induction dir with
  | nil => exact .done
  | cons name dir ih =>
      have present : tree.kind (name :: dir) ≠ none := by
        rw [isDirectory]
        exact Option.some_ne_none _
      have parent := tree.kind_parent name dir present
      have proper := tree.proper name dir present
      rw [List.reverse_cons]
      exact (ih parent).append (Or.inr rfl)
        (.down parent ⟨proper.not_here, proper.not_parent⟩ isDirectory
          (fun target same => by cases same) .done)

/-- A path from the root that names each directory on the way is not lost. -/
theorem steady_of_rooted (rooted : path.head? = some '/')
    (straight : segments '/' path = dir.reverse) (isDirectory : tree.kind dir = some .directory) :
    Steady tree process path dir := by
  intro after within outside
  have stays : after.kind dir = some .directory := by
    rw [outside dir (not_below_self dir), isDirectory]
  have nonempty : path ≠ [] := by
    rintro rfl
    cases rooted
  refine ⟨nonempty, stays, linkBudget, ?_⟩
  rw [straight, origin, if_pos rooted]
  exact leads_of_reverse stays

/-- What `lstat` finds to be a directory has a path that leads there. -/
theorem names_of_isDir (noZero : '\x00' ∉ path) (isDir : pathIsDir remover tree path = true) :
    ∃ dir, Names tree remover.process path dir := by
  rw [pathIsDir, c_str_of_noZero noZero, Path.isDir_iff, Process.lstat, found] at isDir
  cases resolved : resolve tree false remover.process.cwd path with
  | error fault =>
      rw [resolved] at isDir
      cases isDir
  | ok result =>
      obtain ⟨dir, left⟩ := result
      rw [resolved] at isDir
      have followed : resolve tree true remover.process.cwd path = .ok (dir, left) := by
        rw [resolve] at resolved ⊢
        by_cases empty : path = []
        · rw [if_pos empty] at resolved
          cases resolved
        · rw [if_neg empty] at resolved ⊢
          exact walk_of_leads (leads_followed (leads_of_walk resolved) isDir)
      exact ⟨dir, names_of_resolve followed isDir⟩

/-- What `removeDirContents` leaves of a directory. -/
structure Cleared (remover : Remover) (tree : FileTree) (path : PathString) (dir : Location)
    (recursive ok : Bool) (after : FileTree) : Prop where
  outside : ∀ place, ¬Below dir place → after.kind place = tree.kind place
  goes : ∀ place, after.kind place = tree.kind place ∨ after.kind place = none
  kept : ∀ place, remover.keeps place = true → after.kind place = tree.kind place
  direct : recursive = false → ∀ place, after.kind place = tree.kind place ∨
    ((∃ name, place = name :: dir) ∧ tree.kind place ≠ some .directory)
  empty : recursive = true → ok = true → Names after remover.process path dir →
    after.names dir = []
  succeeds : recursive = true → Steady tree remover.process path dir →
    (ok = true ↔ Free remover tree dir)

theorem Gone.goes (gone : Gone remover tree after dir) (place : Location) :
    after.kind place = tree.kind place ∨ after.kind place = none :=
  (gone.changed place).imp id fun away => away.1

theorem free_of_empty (gone : Gone remover tree after dir) (empty : after.names dir = []) :
    Free remover tree dir := by
  intro place below present
  obtain ⟨name, front, rfl⟩ := below
  cases keeps : remover.keeps (front ++ name :: dir) with
  | false => rfl
  | true =>
      have stays := gone.kept keeps
      have entry : after.kind (name :: dir) = none := by
        by_contra there
        have member := (after.mem_names name dir).mpr there
        rw [empty] at member
        cases member
      have absent : after.kind (front ++ name :: dir) = none := by
        by_cases direct : front = []
        · rw [direct]
          exact entry
        · refine kind_append_of_ne ?_ direct
          rw [entry]
          exact (Option.some_ne_none _).symm
      rw [stays] at absent
      exact absurd absent present

/-- `Path::removeDirContents` ends and removes nothing outside the directory. -/
theorem removeDirContents_confined (remover : Remover) (plain : Plain tree path)
    (recursive : Bool) {depth : Nat} (enough : tree.height < depth) :
    ∃ ok after, Path.removeDirContents remover depth tree path recursive = some (ok, after) ∧
      (pathIsDir remover tree path = false → ok = false ∧ after = tree) ∧
        (pathIsDir remover tree path = true → ∃ dir, Names tree remover.process path dir ∧
          Cleared remover tree path dir recursive ok after) := by
  obtain ⟨more, rfl⟩ : ∃ more, depth = more + 1 := ⟨depth - 1, by omega⟩
  cases isDir : pathIsDir remover tree path with
  | false =>
      refine ⟨false, tree, ?_, fun _ => ⟨rfl, rfl⟩, fun impossible => ?_⟩
      · rw [Path.removeDirContents, Remover.removeContents, isDir, Bool.not_false, Bool.or_true]
        rfl
      · cases impossible
  | true =>
      obtain ⟨dir, names⟩ := names_of_isDir plain.path isDir
      cases recursive with
      | true =>
          obtain ⟨ok, after, ran, emptied⟩ :=
            removeDirContents_emptied (more + 1) plain names isDir (by omega)
          refine ⟨ok, after, ran, fun impossible => (by cases impossible), fun _ => ⟨dir, names,
            fun place elsewhere => emptied.gone.outside elsewhere, emptied.gone.goes,
            fun place keeps => emptied.gone.kept keeps, fun impossible => (by cases impossible),
            fun _ => emptied.empty, fun _ steady => ⟨fun done => ?_, emptied.complete steady⟩⟩⟩
          exact free_of_empty emptied.gone
            (emptied.empty done (steady.of_gone emptied.gone).names)
      | false =>
          obtain ⟨ok, after, ran, files⟩ := @removeFiles_spec tree remover path dir
            (tree.names dir) (leadsAtMost_of_names names) plain (usable_names plain)
          refine ⟨ok, after, ?_, fun impossible => (by cases impossible), fun _ => ⟨dir, names,
            fun place elsewhere => files.gone.outside elsewhere, files.gone.goes,
            fun place keeps => files.gone.kept keeps, fun _ => files.shallow,
            fun impossible => (by cases impossible), fun impossible => (by cases impossible)⟩⟩
          rw [removeContents_of_isDir plain names isDir, ran]
          cases ok with
          | false => rfl
          | true => rfl

/-- The root with one directory in it. -/
def oneDirectory : FileTree := FileTree.bare.make ['a'] []

/-- A process that may remove everything. -/
def unhindered : Remover := ⟨⟨[], fun _ => false⟩, fun _ => false⟩

theorem plain_oneDirectory : Plain oneDirectory ['/'] := by
  refine ⟨by decide, fun name place present => ?_⟩
  have vacant : Vacant FileTree.bare ['a'] [] := by decide
  rw [oneDirectory, kind_make vacant] at present
  by_cases same : name :: place = [['a']]
  · rw [(List.cons.inj same).1]
    decide
  · rw [if_neg same] at present
    exact absurd rfl present

theorem removeDirContents_confined_one :
    ∃ after, Path.removeDirContents unhindered 2 oneDirectory ['/'] true = some (true, after) ∧
      after.names [] = [] := by
  obtain ⟨ok, after, ran, -, contents⟩ :=
    @removeDirContents_confined oneDirectory ['/'] unhindered plain_oneDirectory true 2 (by decide)
  obtain ⟨dir, names, cleared⟩ := contents (by decide)
  obtain ⟨left, leads⟩ := names.leads
  cases leads with
  | done =>
      have steady : Steady oneDirectory unhindered.process ['/'] [] :=
        steady_of_rooted rfl rfl rfl
      have done := (cleared.succeeds rfl steady).mpr fun _ _ _ => rfl
      subst done
      have within : Within after oneDirectory := by
        intro place kind present
        rcases cleared.goes place with same | absent
        · rw [← same, present]
        · rw [absent] at present
          cases present
      exact ⟨after, ran, cleared.empty rfl rfl (steady after within cleared.outside)⟩

/-- Nothing stands in the tree that `stat` follows or that has the bit of a directory
without being one. -/
def Ordinary (tree : FileTree) : Prop :=
  ∀ place kind, tree.kind place = some kind →
    (∀ target, kind ≠ .link target) ∧ kind ≠ .special .socket ∧ kind ≠ .special .blockDevice

theorem Ordinary.of_within (ordinary : Ordinary tree) (within : Within after tree) :
    Ordinary after :=
  fun place kind present => ordinary place kind (within _ _ present)

theorem Ordinary.noLinks (ordinary : Ordinary tree) : NoLinks tree :=
  fun place target entry => (ordinary place _ entry).1 target rfl

theorem leads_of_noLinks (noLinks : NoLinks tree) {last other : Bool} {budget left : Nat}
    {here place : Location} {names : List Name}
    (leads : Leads tree last budget here names place left) :
    Leads tree other budget here names place left := by
  induction leads with
  | done => exact .done
  | stay directory _ ih => exact .stay directory ih
  | up directory _ ih => exact .up directory ih
  | down directory proper entry noLink _ ih => exact .down directory proper entry noLink ih
  | stop _ _ _ entry => exact absurd entry (noLinks _ _)
  | follow _ _ entry => exact absurd entry (noLinks _ _)

theorem stat_of_noLinks (noLinks : NoLinks tree) (process : Process) (path : PathString) :
    process.stat tree path = process.lstat tree path := by
  rw [Process.stat, Process.lstat, found, found, resolve, resolve]
  by_cases empty : path = []
  · rw [if_pos empty, if_pos empty]
  · rw [if_neg empty, if_neg empty]
    have agree : ∀ {last other place left},
        walk tree last linkBudget (origin path process.cwd) (pathNames path) = .ok (place, left) →
          walk tree other linkBudget (origin path process.cwd) (pathNames path) =
            .ok (place, left) :=
      fun walked => walk_of_leads (leads_of_noLinks noLinks (leads_of_walk walked))
    cases walked : walk tree true linkBudget (origin path process.cwd) (pathNames path) with
    | ok result => rw [agree walked]
    | error fault =>
        cases other : walk tree false linkBudget (origin path process.cwd) (pathNames path) with
        | ok result =>
            rw [agree other] at walked
            cases walked
        | error fault => rfl

theorem within_erase (tree : FileTree) (name : Name) (dir : Location) :
    Within (tree.erase name dir) tree := by
  intro place kind present
  rw [kind_erase] at present
  split at present
  · cases present
  · exact present

theorem within_of_unlink (unlinked : remover.unlink tree path = .ok after) : Within after tree := by
  unfold Remover.unlink Process.unlink at unlinked
  repeat' split at unlinked
  all_goals first
    | cases unlinked; exact within_erase tree _ _
    | cases unlinked

theorem within_of_rmdir (removed : remover.rmdir tree path = .ok after) : Within after tree := by
  unfold Remover.rmdir Process.rmdir at removed
  repeat' split at removed
  all_goals first
    | cases removed; exact within_erase tree _ _
    | cases removed

theorem within_of_remove (removed : remover.remove tree path = .ok after) : Within after tree := by
  rw [Remover.remove] at removed
  split at removed
  · exact within_of_rmdir removed
  · exact within_of_unlink removed

theorem exists_of_lstat {process : Process} {kind : Kind}
    (found : process.lstat tree path = some kind) : ∃ place, tree.kind place = some kind := by
  rw [Process.lstat, FileTree.found] at found
  split at found
  · next place _ _ => exact ⟨place, found⟩
  · cases found

theorem utilsIsDir_eq (ordinary : Ordinary tree) :
    utilsIsDir remover tree path = pathIsDir remover tree path := by
  rw [utilsIsDir, pathIsDir, Bool.eq_iff_iff, PathUtils.isDir_iff, Path.isDir_iff,
    stat_of_noLinks ordinary.noLinks]
  constructor
  · rintro ⟨kind, found, directory | bit⟩
    · rw [found, directory]
    · obtain ⟨place, entry⟩ := exists_of_lstat found
      obtain ⟨-, notSocket, notDevice⟩ := ordinary place kind entry
      exact (bit.elim notSocket notDevice).elim
  · exact fun found => ⟨.directory, found, Or.inl rfl⟩

theorem removeFiles_agree (ordinary : Ordinary tree) (files : List PathString) :
    remover.removeFiles (utilsIsDir remover) tree files =
        remover.removeFiles (pathIsDir remover) tree files ∧
      Within (remover.removeFiles (pathIsDir remover) tree files).2 tree := by
  induction files generalizing tree with
  | nil => exact ⟨rfl, fun _ _ present => present⟩
  | cons file files ih =>
      rw [Remover.removeFiles, Remover.removeFiles, utilsIsDir_eq ordinary]
      split
      · cases removed : remover.remove tree (c_str file) with
        | error errno => exact ⟨rfl, fun _ _ present => present⟩
        | ok after =>
            have within := within_of_remove removed
            obtain ⟨agree, further⟩ := ih (ordinary.of_within within)
            exact ⟨agree, fun place kind present => within _ _ (further _ _ present)⟩
      · exact ih ordinary

theorem removeDirs_agree {utils contents : FileTree → PathString → Option (Bool × FileTree)}
    (agrees : ∀ tree dir, Ordinary tree → utils tree dir = contents tree dir ∧
      ∀ ok after, contents tree dir = some (ok, after) → Within after tree)
    (ordinary : Ordinary tree) (dirs : List PathString) :
    remover.removeDirs (utilsIsDir remover) utils tree dirs =
        remover.removeDirs (pathIsDir remover) contents tree dirs ∧
      ∀ ok after, remover.removeDirs (pathIsDir remover) contents tree dirs = some (ok, after) →
        Within after tree := by
  induction dirs generalizing tree with
  | nil =>
      refine ⟨rfl, fun ok after same => ?_⟩
      cases same
      exact fun _ _ present => present
  | cons dir dirs ih =>
      obtain ⟨same, inside⟩ := agrees tree dir ordinary
      rw [Remover.removeDirs, Remover.removeDirs, utilsIsDir_eq ordinary, same]
      split
      · cases ran : contents tree dir with
        | none => exact ⟨rfl, fun _ _ impossible => by cases impossible⟩
        | some result =>
            obtain ⟨ok, after⟩ := result
            have within := inside ok after ran
            cases ok with
            | false =>
                refine ⟨rfl, fun ok later same => ?_⟩
                cases same
                exact within
            | true =>
                dsimp only
                cases removed : remover.rmdir after (c_str dir) with
                | error errno =>
                    refine ⟨rfl, fun ok later same => ?_⟩
                    cases same
                    exact within
                | ok later =>
                    have without := within_of_rmdir removed
                    obtain ⟨agree, further⟩ :=
                      ih ((ordinary.of_within within).of_within without)
                    exact ⟨agree, fun ok last ran place kind present =>
                      within _ _ (without _ _ (further ok last ran _ _ present))⟩
      · exact ih ordinary

/-- Where there are no links, sockets and block devices, both classes do the same. -/
theorem pathUtils_removeDirContents (remover : Remover) (depth : Nat) (ordinary : Ordinary tree)
    (path : PathString) (recursive : Bool) :
    PathUtils.removeDirContents remover depth tree path recursive =
        Path.removeDirContents remover depth tree path recursive ∧
      ∀ ok after, Path.removeDirContents remover depth tree path recursive = some (ok, after) →
        Within after tree := by
  induction depth generalizing tree path recursive with
  | zero => exact ⟨rfl, fun _ _ impossible => by cases impossible⟩
  | succ depth ih =>
      have «exists» : PathUtils.exists remover.process tree (c_str path) =
          Path.exists remover.process tree (c_str path) := by
        rw [PathUtils.exists, Path.exists, stat_of_noLinks ordinary.noLinks]
      rw [PathUtils.removeDirContents, Path.removeDirContents, Remover.removeContents,
        Remover.removeContents, utilsIsDir_eq ordinary, «exists»]
      split
      · refine ⟨rfl, fun ok after same => ?_⟩
        cases same
        exact fun _ _ present => present
      · obtain ⟨agree, within⟩ := @removeFiles_agree tree remover ordinary
          (Path.dirContents remover.process tree path)
        dsimp only
        rw [agree]
        generalize remover.removeFiles (pathIsDir remover) tree
          (Path.dirContents remover.process tree path) = first at within
        obtain ⟨ok, after⟩ := first
        cases ok with
        | false =>
            refine ⟨rfl, fun ok later same => ?_⟩
            cases same
            exact within
        | true =>
            cases recursive with
            | false =>
                refine ⟨rfl, fun ok later same => ?_⟩
                cases same
                exact within
            | true =>
                have agrees : ∀ tree dir, Ordinary tree →
                    PathUtils.removeDirContents remover depth tree dir true =
                        Path.removeDirContents remover depth tree dir true ∧
                      ∀ ok after, Path.removeDirContents remover depth tree dir true =
                        some (ok, after) → Within after tree :=
                  fun tree dir ordinary => ih ordinary dir true
                obtain ⟨same, further⟩ := removeDirs_agree agrees (ordinary.of_within within)
                  (Path.dirContents remover.process tree path)
                exact ⟨same, fun ok later ran place kind present =>
                  within _ _ (further ok later ran _ _ present)⟩

theorem ordinary_oneDirectory : Ordinary oneDirectory := by
  have vacant : Vacant FileTree.bare ['a'] [] := by decide
  have directory : ∀ place kind, oneDirectory.kind place = some kind → kind = .directory := by
    intro place kind present
    rw [oneDirectory, kind_make vacant] at present
    by_cases made : place = [['a']]
    · rw [if_pos made] at present
      exact (Option.some.inj present).symm
    · rw [if_neg made] at present
      have top : (if place = [] then some Kind.directory else none) = some kind := present
      split at top
      · exact (Option.some.inj top).symm
      · cases top
  intro place kind present
  obtain rfl := directory place kind present
  simp

theorem pathUtils_removeDirContents_one :
    ∃ after, PathUtils.removeDirContents unhindered 2 oneDirectory ['/'] true =
        some (true, after) ∧
      Path.removeDirContents unhindered 2 oneDirectory ['/'] true = some (true, after) := by
  obtain ⟨agree, -⟩ := pathUtils_removeDirContents unhindered 2 ordinary_oneDirectory ['/'] true
  have done : ∃ after, Path.removeDirContents unhindered 2 oneDirectory ['/'] true =
      some (true, after) := ⟨_, rfl⟩
  obtain ⟨after, ran⟩ := done
  exact ⟨after, agree.trans ran, ran⟩

end OpenMplane
