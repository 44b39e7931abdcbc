import OpenMplane.SeparatorRuns
import Mathlib.Data.List.Nodup

/-!
# Directory trees

A file system is a tree of directories in which stand files, directories, symbolic
links and special files.  A location is the way down to an entry, the innermost name first.  This file
has the trees, whose entries stand in directories that list them, how entries come and
go, and how a path is walked name by name, through links as often as a budget allows.
-/

namespace FileTree

open SeparatorRuns

abbrev Name := List Char

abbrev Location := List Name

/-- What is neither a regular file nor a directory nor a link. -/
inductive SpecialFile
  | socket
  | blockDevice
  | characterDevice
  | fifo
  deriving DecidableEq

inductive Kind
  | file
  | directory
  | link (target : List Char)
  | special (type : SpecialFile)
  deriving DecidableEq

/-- The names that an entry of a directory can have. -/
structure Proper (name : Name) : Prop where
  nonempty : name ≠ []
  single : '/' ∉ name
  not_here : name ≠ ['.']
  not_parent : name ≠ ['.', '.']

theorem proper_iff (name : Name) :
    Proper name ↔ name ≠ [] ∧ '/' ∉ name ∧ name ≠ ['.'] ∧ name ≠ ['.', '.'] :=
  ⟨fun ⟨a, b, c, d⟩ => ⟨a, b, c, d⟩, fun ⟨a, b, c, d⟩ => ⟨a, b, c, d⟩⟩

instance (name : Name) : Decidable (Proper name) := decidable_of_iff' _ (proper_iff name)

end FileTree

open FileTree in
/-- A tree: what stands at each location, and the entries of each directory in order. -/
structure FileTree where
  kind : Location → Option Kind
  names : Location → List Name
  height : Nat
  kind_root : kind [] = some .directory
  kind_parent : ∀ name dir, kind (name :: dir) ≠ none → kind dir = some .directory
  proper : ∀ name dir, kind (name :: dir) ≠ none → Proper name
  mem_names : ∀ name dir, name ∈ names dir ↔ kind (name :: dir) ≠ none
  nodup_names : ∀ dir, (names dir).Nodup
  length_le : ∀ location, kind location ≠ none → location.length ≤ height

namespace FileTree

open SeparatorRuns

variable {tree : FileTree} {name : Name} {dir location : Location}

/-- The tree of an empty directory. -/
def bare : FileTree where
  kind location := if location = [] then some .directory else none
  names _ := []
  height := 0
  kind_root := rfl
  kind_parent _ _ present := absurd rfl present
  proper _ _ present := absurd rfl present
  mem_names _ _ := by simp
  nodup_names _ := List.nodup_nil
  length_le location present := by
    split at present
    · next top => simp [top]
    · exact absurd rfl present

section Listed

variable {entries : List (Location × Kind)}

/-- The entry stands in the top or in a listed directory. -/
def StandsIn (entries : List (Location × Kind)) : Location → Prop
  | [] => False
  | name :: dir => Proper name ∧ (dir = [] ∨ (dir, Kind.directory) ∈ entries)

instance : ∀ location, Decidable (StandsIn entries location)
  | [] => isFalse id
  | _ :: _ => inferInstanceAs (Decidable (_ ∧ (_ ∨ _)))

/-- Each entry of the list stands in the top or in a listed directory, and none is
listed twice. -/
def Listed (entries : List (Location × Kind)) : Prop :=
  (entries.map Prod.fst).Nodup ∧ ∀ entry ∈ entries, StandsIn entries entry.1

instance : Decidable (Listed entries) := inferInstanceAs (Decidable (_ ∧ _))

def listedKind (entries : List (Location × Kind)) (location : Location) : Option Kind :=
  if location = [] then some .directory
  else (entries.find? fun entry => entry.1 = location).map Prod.snd

def nameIn (dir : Location) : Location → Option Name
  | [] => none
  | name :: place => if place = dir then some name else none

theorem nameIn_eq_some {location : Location} :
    nameIn dir location = some name ↔ location = name :: dir := by
  cases location with
  | nil => simp [nameIn]
  | cons other place => simp [nameIn, and_comm]

def listedNames (entries : List (Location × Kind)) (dir : Location) : List Name :=
  (entries.map Prod.fst).filterMap (nameIn dir)

theorem listedKind_ne_none {location : Location} : listedKind entries location ≠ none ↔
    location = [] ∨ location ∈ entries.map Prod.fst := by
  rw [listedKind]
  split
  · next top => simp [top]
  · next below => simp [below, List.find?_eq_none]

theorem listedKind_of_mem (listed : Listed entries) {location : Location} {kind : Kind}
    (below : location ≠ []) (member : (location, kind) ∈ entries) :
    listedKind entries location = some kind := by
  rw [listedKind, if_neg below]
  cases found : entries.find? fun entry => entry.1 = location with
  | none =>
      have absent := List.find?_eq_none.mp found _ member
      simp at absent
  | some entry =>
      have same : entry.1 = location := by simpa using List.find?_some found
      have unique := List.inj_on_of_nodup_map listed.1 (List.mem_of_find?_eq_some found) member same
      rw [unique]
      rfl

theorem standsIn_of_listedKind (listed : Listed entries) {name : Name} {dir : Location}
    (present : listedKind entries (name :: dir) ≠ none) : StandsIn entries (name :: dir) := by
  obtain top | member := listedKind_ne_none.mp present
  · cases top
  · obtain ⟨entry, member, same⟩ := List.mem_map.mp member
    exact same ▸ listed.2 entry member

theorem mem_listedNames (name : Name) (dir : Location) :
    name ∈ listedNames entries dir ↔ listedKind entries (name :: dir) ≠ none := by
  rw [listedKind_ne_none, or_iff_right (List.cons_ne_nil _ _), listedNames, List.mem_filterMap]
  constructor
  · rintro ⟨location, member, here⟩
    rwa [nameIn_eq_some.mp here] at member
  · exact fun member => ⟨_, member, nameIn_eq_some.mpr rfl⟩

theorem nodup_listedNames (listed : Listed entries) (dir : Location) :
    (listedNames entries dir).Nodup := by
  refine listed.1.filterMap fun first second name isFirst isSecond => ?_
  rw [nameIn_eq_some.mp isFirst, nameIn_eq_some.mp isSecond]

def ofEntries (entries : List (Location × Kind)) (listed : Listed entries) : FileTree where
  kind := listedKind entries
  names := listedNames entries
  height := (entries.map Prod.fst).flatten.length
  kind_root := rfl
  kind_parent name dir present := by
    obtain ⟨-, rfl | member⟩ := standsIn_of_listedKind listed present
    · rfl
    · by_cases top : dir = []
      · rw [top]
        rfl
      · exact listedKind_of_mem listed top member
  proper name dir present := (standsIn_of_listedKind listed present).1
  mem_names := mem_listedNames
  nodup_names := nodup_listedNames listed
  length_le location present := by
    obtain rfl | member := listedKind_ne_none.mp present
    · exact Nat.zero_le _
    · exact (List.sublist_flatten_of_mem member).length_le

end Listed

section Trees

theorem kind_tail (directory : tree.kind location = some .directory) :
    tree.kind location.tail = some .directory := by
  cases location with
  | nil => exact directory
  | cons name dir =>
      apply tree.kind_parent name dir
      rw [directory]
      exact Option.some_ne_none _

theorem kind_append_of_ne (other : tree.kind dir ≠ some .directory) {front : Location}
    (below : front ≠ []) : tree.kind (front ++ dir) = none := by
  induction front with
  | nil => exact absurd rfl below
  | cons name front ih =>
      by_contra present
      have parent := tree.kind_parent name (front ++ dir) present
      by_cases last : front = []
      · rw [last] at parent
        exact other parent
      · rw [ih last] at parent
        cases parent

theorem names_eq_nil (other : tree.kind dir ≠ some .directory) : tree.names dir = [] := by
  apply List.eq_nil_iff_forall_not_mem.mpr
  intro name member
  exact other (tree.kind_parent name dir ((tree.mem_names name dir).mp member))

end Trees

section Make

/-- What stands where after a directory was made. -/
def makeKind (tree : FileTree) (name : Name) (dir location : Location) : Option Kind :=
  if location = name :: dir then some .directory else tree.kind location

def makeNames (tree : FileTree) (name : Name) (dir location : Location) : List Name :=
  if location = dir then tree.names dir ++ [name] else tree.names location

/-- There is room for a new entry. -/
structure Vacant (tree : FileTree) (name : Name) (dir : Location) : Prop where
  parent : tree.kind dir = some .directory
  free : tree.kind (name :: dir) = none
  proper : Proper name

theorem vacant_iff (tree : FileTree) (name : Name) (dir : Location) :
    Vacant tree name dir ↔
      tree.kind dir = some .directory ∧ tree.kind (name :: dir) = none ∧ Proper name :=
  ⟨fun ⟨a, b, c⟩ => ⟨a, b, c⟩, fun ⟨a, b, c⟩ => ⟨a, b, c⟩⟩

instance (tree : FileTree) (name : Name) (dir : Location) : Decidable (Vacant tree name dir) :=
  decidable_of_iff' _ (vacant_iff tree name dir)

theorem makeKind_root : makeKind tree name dir [] = some .directory := by
  rw [makeKind, if_neg (List.cons_ne_nil _ _).symm, tree.kind_root]

theorem makeKind_of_directory (directory : tree.kind location = some .directory) :
    makeKind tree name dir location = some .directory := by
  rw [makeKind]
  split
  · rfl
  · exact directory

theorem makeKind_parent (vacant : Vacant tree name dir) (other : Name) (place : Location)
    (present : makeKind tree name dir (other :: place) ≠ none) :
    makeKind tree name dir place = some .directory := by
  apply makeKind_of_directory
  rw [makeKind] at present
  split at present
  · next same =>
      rw [(List.cons.inj same).2]
      exact vacant.parent
  · exact tree.kind_parent other place present

theorem makeKind_proper (vacant : Vacant tree name dir) (other : Name) (place : Location)
    (present : makeKind tree name dir (other :: place) ≠ none) : Proper other := by
  rw [makeKind] at present
  split at present
  · next same =>
      rw [(List.cons.inj same).1]
      exact vacant.proper
  · exact tree.proper other place present

theorem mem_makeNames (other : Name) (place : Location) :
    other ∈ makeNames tree name dir place ↔ makeKind tree name dir (other :: place) ≠ none := by
  rw [makeNames, makeKind]
  by_cases here : place = dir
  · rw [if_pos here, List.mem_append, List.mem_singleton, tree.mem_names, here]
    by_cases same : other = name
    · simp [same]
    · simp [same]
  · have elsewhere : ¬ other :: place = name :: dir := fun same => here (List.cons.inj same).2
    rw [if_neg here, if_neg elsewhere, tree.mem_names]

theorem nodup_makeNames (vacant : Vacant tree name dir) (place : Location) :
    (makeNames tree name dir place).Nodup := by
  rw [makeNames]
  split
  · have absent : name ∉ tree.names dir := by
      rw [tree.mem_names, vacant.free]
      exact fun different => different rfl
    exact List.nodup_append.mpr ⟨tree.nodup_names dir, List.nodup_singleton name, by
      intro other member last inside
      rintro rfl
      rw [List.mem_singleton] at inside
      exact absent (inside ▸ member)⟩
  · exact tree.nodup_names place

theorem length_le_make (place : Location) (present : makeKind tree name dir place ≠ none) :
    place.length ≤ max tree.height (dir.length + 1) := by
  rw [makeKind] at present
  split at present
  · next same =>
      rw [same, List.length_cons]
      exact Nat.le_max_right _ _
  · exact Nat.le_trans (tree.length_le place present) (Nat.le_max_left _ _)

/-- A new directory where there is room for it. -/
def make (tree : FileTree) (name : Name) (dir : Location) : FileTree :=
  if vacant : Vacant tree name dir then
    { kind := makeKind tree name dir
      names := makeNames tree name dir
      height := max tree.height (dir.length + 1)
      kind_root := makeKind_root
      kind_parent := makeKind_parent vacant
      proper := makeKind_proper vacant
      mem_names := mem_makeNames
      nodup_names := nodup_makeNames vacant
      length_le := length_le_make }
  else
    tree

theorem kind_make (vacant : Vacant tree name dir) (place : Location) :
    (tree.make name dir).kind place =
      if place = name :: dir then some .directory else tree.kind place := by
  rw [make, dif_pos vacant]
  rfl

end Make

section Erase

/-- What stands where after an entry was removed with all that it held. -/
def eraseKind (tree : FileTree) (name : Name) (dir location : Location) : Option Kind :=
  if name :: dir <:+ location then none else tree.kind location

def eraseNames (tree : FileTree) (name : Name) (dir location : Location) : List Name :=
  if name :: dir <:+ location then []
  else if location = dir then (tree.names dir).erase name
  else tree.names location

theorem eraseKind_root : eraseKind tree name dir [] = some .directory := by
  rw [eraseKind, if_neg (by simp), tree.kind_root]

theorem ne_none_of_eraseKind (present : eraseKind tree name dir location ≠ none) :
    ¬ name :: dir <:+ location ∧ tree.kind location ≠ none := by
  rw [eraseKind] at present
  split at present
  · exact absurd rfl present
  · next kept => exact ⟨kept, present⟩

theorem eraseKind_parent (other : Name) (place : Location)
    (present : eraseKind tree name dir (other :: place) ≠ none) :
    eraseKind tree name dir place = some .directory := by
  obtain ⟨kept, present⟩ := ne_none_of_eraseKind present
  have above : ¬ name :: dir <:+ place := fun below => kept (below.trans (List.suffix_cons _ _))
  rw [eraseKind, if_neg above]
  exact tree.kind_parent other place present

theorem mem_eraseNames (other : Name) (place : Location) :
    other ∈ eraseNames tree name dir place ↔ eraseKind tree name dir (other :: place) ≠ none := by
  simp only [eraseNames, eraseKind, List.suffix_cons_iff]
  by_cases below : name :: dir <:+ place
  · simp [below]
  · by_cases here : place = dir
    · subst here
      rw [if_neg below, if_pos rfl, (tree.nodup_names place).mem_erase_iff, tree.mem_names]
      by_cases same : other = name
      · simp [same]
      · simp [same, below, Ne.symm same]
    · have elsewhere : ¬ name :: dir = other :: place :=
        fun same => here (List.cons.inj same).2.symm
      simp [below, here, elsewhere, tree.mem_names]

theorem nodup_eraseNames (place : Location) : (eraseNames tree name dir place).Nodup := by
  rw [eraseNames]
  split
  · exact List.nodup_nil
  split
  · exact (tree.nodup_names dir).erase name
  · exact tree.nodup_names place

/-- The tree without an entry. -/
def erase (tree : FileTree) (name : Name) (dir : Location) : FileTree where
  kind := eraseKind tree name dir
  names := eraseNames tree name dir
  height := tree.height
  kind_root := eraseKind_root
  kind_parent := eraseKind_parent
  proper other place present := tree.proper other place (ne_none_of_eraseKind present).2
  mem_names := mem_eraseNames
  nodup_names := nodup_eraseNames
  length_le place present := tree.length_le place (ne_none_of_eraseKind present).2

theorem kind_erase (place : Location) :
    (tree.erase name dir).kind place = if name :: dir <:+ place then none else tree.kind place :=
  rfl

end Erase

end FileTree
