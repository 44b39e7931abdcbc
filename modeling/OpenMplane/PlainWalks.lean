import OpenMplane.PathWalks

/-!
# Walks in trees without links

Where no symbolic link stands, a walk leads where the names say: a name down, two dots
up, one dot nowhere.  All that is to be checked on the way is that each name is looked up
in a directory.
-/

namespace FileTree

/-- No symbolic link stands in the tree. -/
def NoLinks (tree : FileTree) : Prop := ∀ location target, tree.kind location ≠ some (.link target)

/-- Where a name leads, as far as the names tell. -/
def step (here : Location) (name : Name) : Location :=
  if name = ['.'] then here else if name = ['.', '.'] then here.tail else name :: here

def lexical (here : Location) (names : List Name) : Location := names.foldl step here

/-- Each name is looked up in a directory. -/
def Chain (tree : FileTree) : Location → List Name → Prop
  | _, [] => True
  | here, name :: rest => tree.kind here = some .directory ∧ Chain tree (step here name) rest

/-- All that a path goes through are directories. -/
def Standing (tree : FileTree) (here : Location) (names : List Name) : Prop :=
  Chain tree here names ∧ tree.kind (lexical here names) = some .directory

variable {tree : FileTree} {last : Bool} {budget : Nat} {here : Location} {name : Name}
  {names : List Name} {place : Location} {left : Nat}

theorem noLinks_bare : NoLinks bare := by
  intro location target
  rw [bare]
  dsimp only
  split
  · exact fun link => Kind.noConfusion (Option.some.inj link)
  · exact (Option.some_ne_none _).symm

theorem lexical_append (here : Location) (first second : List Name) :
    lexical here (first ++ second) = lexical (lexical here first) second :=
  List.foldl_append

theorem lexical_concat (here : Location) (names : List Name) (name : Name) :
    lexical here (names ++ [name]) = step (lexical here names) name :=
  lexical_append here names [name]

theorem chain_append (here : Location) (first second : List Name) :
    Chain tree here (first ++ second) ↔
      Chain tree here first ∧ Chain tree (lexical here first) second := by
  induction first generalizing here with
  | nil => simp [Chain, lexical]
  | cons name first ih =>
      rw [List.cons_append, Chain, ih, Chain, and_assoc]
      rfl

theorem chain_concat (here : Location) (names : List Name) (name : Name) :
    Chain tree here (names ++ [name]) ↔ Standing tree here names := by
  rw [chain_append, Standing, Chain, Chain, and_true]

theorem standing_concat (here : Location) (names : List Name) (name : Name) :
    Standing tree here (names ++ [name]) ↔
      Standing tree here names ∧
        tree.kind (step (lexical here names) name) = some .directory := by
  rw [Standing, chain_concat, lexical_concat]

/-- The directory itself and the one above are directories. -/
theorem kind_step_of_dots (directory : tree.kind here = some .directory)
    (dots : name = ['.'] ∨ name = ['.', '.']) : tree.kind (step here name) = some .directory := by
  rcases dots with rfl | rfl
  · exact directory
  · exact kind_tail directory

theorem step_of_proper (proper : name ≠ ['.'] ∧ name ≠ ['.', '.']) (here : Location) :
    step here name = name :: here := by
  rw [step, if_neg proper.1, if_neg proper.2]

/-- Without links a walk leads where the names say. -/
theorem leads_iff (noLinks : NoLinks tree) (start : tree.kind here ≠ none) :
    Leads tree last budget here names place left ↔
      Chain tree here names ∧ tree.kind (lexical here names) ≠ none ∧
        place = lexical here names ∧ left = budget := by
  constructor
  · intro leads
    induction leads with
    | done => exact ⟨trivial, start, rfl, rfl⟩
    | stay directory _ ih =>
        obtain ⟨chain, found⟩ := ih (by rw [directory]; simp)
        exact ⟨⟨directory, chain⟩, found⟩
    | up directory _ ih =>
        obtain ⟨chain, found⟩ := ih (by rw [kind_tail directory]; simp)
        exact ⟨⟨directory, chain⟩, found⟩
    | @down _ here name rest _ _ _ directory proper entry _ _ ih =>
        obtain ⟨chain, found⟩ := ih (by rw [entry]; simp)
        have forward : lexical here (name :: rest) = lexical (name :: here) rest := by
          rw [lexical, List.foldl_cons, step_of_proper proper]
          rfl
        rw [forward, Chain, step_of_proper proper]
        exact ⟨⟨directory, chain⟩, found⟩
    | stop _ _ _ entry => exact absurd entry (noLinks _ _)
    | follow _ _ entry => exact absurd entry (noLinks _ _)
  · rintro ⟨chain, found, rfl, rfl⟩
    induction names generalizing here with
    | nil => exact .done
    | cons name rest ih =>
        obtain ⟨directory, chain⟩ := chain
        have entry : tree.kind (step here name) ≠ none := by
          cases rest with
          | nil => exact found
          | cons next rest =>
              rw [chain.1]
              simp
        have further := ih entry chain found
        by_cases dot : name = ['.']
        · subst dot
          exact .stay directory further
        by_cases parent : name = ['.', '.']
        · subst parent
          exact .up directory further
        have proper := And.intro dot parent
        rw [step_of_proper proper] at entry further
        have forward : lexical here (name :: rest) = lexical (name :: here) rest := by
          rw [lexical, List.foldl_cons, step_of_proper proper]
          rfl
        rw [forward]
        obtain ⟨kind, entry⟩ := Option.ne_none_iff_exists'.mp entry
        refine .down directory proper entry ?_ further
        rintro target rfl
        exact noLinks _ _ entry

theorem found_eq (noLinks : NoLinks tree) {path : List Char} (nonempty : path ≠ [])
    (start : tree.kind (origin path here) ≠ none)
    (chain : Chain tree (origin path here) (pathNames path)) :
    tree.found last here path = tree.kind (lexical (origin path here) (pathNames path)) := by
  rw [found, resolve, if_neg nonempty]
  cases found : tree.kind (lexical (origin path here) (pathNames path)) with
  | none =>
      split
      · next place left ended =>
          obtain ⟨-, some, -⟩ := (leads_iff noLinks start).mp (leads_of_walk ended)
          exact absurd found some
      · rfl
  | some kind =>
      have ended := walk_of_leads ((@leads_iff tree last linkBudget _ _ _ _ noLinks start).mpr
        ⟨chain, by rw [found]; simp, rfl, rfl⟩)
      rw [ended]
      exact found

theorem chain_of_found (noLinks : NoLinks tree) {path : List Char}
    (start : tree.kind (origin path here) ≠ none) (found : tree.found last here path ≠ none) :
    path ≠ [] ∧ Chain tree (origin path here) (pathNames path) := by
  rw [FileTree.found, resolve] at found
  by_cases empty : path = []
  · rw [if_pos empty] at found
    exact absurd rfl found
  rw [if_neg empty] at found
  split at found
  · next place left ended =>
      exact ⟨empty, ((leads_iff noLinks start).mp (leads_of_walk ended)).1⟩
  · exact absurd rfl found

/-- A path names a directory if and only if all it goes through are directories. -/
theorem found_directory_iff (noLinks : NoLinks tree) {path : List Char}
    (start : tree.kind (origin path here) ≠ none) :
    tree.found last here path = some .directory ↔
      path ≠ [] ∧ Standing tree (origin path here) (pathNames path) := by
  constructor
  · intro directory
    obtain ⟨nonempty, chain⟩ := chain_of_found noLinks start (by rw [directory]; simp)
    rw [found_eq noLinks nonempty start chain] at directory
    exact ⟨nonempty, chain, directory⟩
  · rintro ⟨nonempty, chain, directory⟩
    rw [found_eq noLinks nonempty start chain, directory]

theorem Standing.head (standing : Standing tree here names) : tree.kind here = some .directory := by
  cases names with
  | nil => exact standing.2
  | cons name names => exact standing.1.1

theorem Standing.front {front back : List Name}
    (standing : Standing tree here (front ++ back)) :
    Standing tree here front := by
  obtain ⟨chain, directory⟩ := standing
  rw [chain_append] at chain
  rw [lexical_append] at directory
  exact ⟨chain.1, Standing.head ⟨chain.2, directory⟩⟩

theorem Chain.within {after : FileTree} (within : Within tree after)
    (chain : Chain tree here names) : Chain after here names := by
  induction names generalizing here with
  | nil => trivial
  | cons name names ih => exact ⟨within _ _ chain.1, ih chain.2⟩

theorem Standing.within {after : FileTree} (within : Within tree after)
    (standing : Standing tree here names) : Standing after here names :=
  ⟨standing.1.within within, within _ _ standing.2⟩

theorem within_make (vacant : Vacant tree name here) : Within tree (tree.make name here) := by
  intro location kind entry
  rw [kind_make vacant]
  split
  · next same =>
      rw [same, vacant.free] at entry
      cases entry
  · exact entry

theorem noLinks_make (noLinks : NoLinks tree) (vacant : Vacant tree name here) :
    NoLinks (tree.make name here) := by
  intro location target
  rw [kind_make vacant]
  split
  · exact fun link => Kind.noConfusion (Option.some.inj link)
  · exact noLinks location target

end FileTree
