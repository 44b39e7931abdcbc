import OpenMplane.ForestWalks

/-!
# The contents of a leaf container

`LeafContainer` keeps leaves and containers in a tree.  `getNamed` looks for a
name among the elements of a container and then inside each container among
them; `deleteNamed` erases the elements with a name and then goes into the
containers that are left.  The search reports the first match of the walk by
levels, and deleting prunes the tree, so that what a search finds afterwards is
the first match that no deleted element stands above.
-/

namespace OpenMplane

/-- The members of a `LeafContainer` but its contents.  Two pointers to such an
object are equal when their addresses are. -/
structure LeafNode where
  address : Nat
  mIsContainer : Bool
  mIsFunc : Bool
  mName : String
  mValue : String
  mFunc : String → Except String String

/-- `mContents`, with what each element contains below it. -/
abbrev LeafContents := Forest LeafNode

namespace LeafNode

/-- `LeafContainer::value`; a function may throw. -/
def value (entry : LeafNode) : Except String String :=
  if entry.mIsFunc then entry.mFunc entry.mName else .ok entry.mValue

/-- The element has the name. -/
def named (name : String) (entry : LeafNode) : Bool :=
  decide (entry.mName = name)

end LeafNode

namespace LeafContents

/-- The first loop of `LeafContainer::getNamed`. -/
def namedHere (name : String) : LeafContents → Option LeafNode
  | .nil => none
  | .node entry _ siblings =>
      if entry.mName = name then some entry else namedHere name siblings

/-- The second loop of `LeafContainer::getNamed`: each container is asked. -/
def namedBelow (name : String) : LeafContents → Option LeafNode
  | .nil => none
  | .node entry contents siblings =>
      if !entry.mIsContainer then namedBelow name siblings
      else
        let ptr := match namedHere name contents with
          | some found => some found
          | none => namedBelow name contents
        match ptr with
        | some found => some found
        | none => namedBelow name siblings

def getNamed (name : String) (recursive : Bool) (mContents : LeafContents) : Option LeafNode :=
  match namedHere name mContents with
  | some found => some found
  | none => if recursive then namedBelow name mContents else none

/-- `std::remove_if` and `erase` on the elements with the name. -/
def eraseNamed (name : String) : LeafContents → LeafContents
  | .nil => .nil
  | .node entry contents siblings =>
      if name = entry.mName then eraseNamed name siblings
      else .node entry contents (eraseNamed name siblings)

theorem count_eraseNamed_le (name : String) (contents : LeafContents) :
    (eraseNamed name contents).count ≤ contents.count := by
  induction contents with
  | nil => exact Nat.le_refl _
  | node entry contents siblings _ ih =>
      by_cases same : name = entry.mName
      · rw [eraseNamed, if_pos same, Forest.count]
        omega
      · rw [eraseNamed, if_neg same, Forest.count, Forest.count]
        omega

/-- The loop of `LeafContainer::deleteNamed`: each container deletes below. -/
def deleteBelow (name : String) : LeafContents → LeafContents
  | .nil => .nil
  | .node entry contents siblings =>
      .node entry
        (if entry.mIsContainer then deleteBelow name (eraseNamed name contents) else contents)
        (deleteBelow name siblings)
termination_by contents => contents.count
decreasing_by
  · have fewer := count_eraseNamed_le name contents
    rw [Forest.count]
    omega
  · rw [Forest.count]
    omega

def deleteNamed (name : String) (recursive : Bool) : LeafContents → LeafContents
  | .nil => .nil
  | mContents =>
      let mContents := eraseNamed name mContents
      if recursive then deleteBelow name mContents else mContents

end LeafContents

namespace LeafContents

/-- `addContainer` and `addLeaf` throw on a leaf, so that none contains
anything. -/
def Built (contents : LeafContents) : Prop :=
  contents.All fun entry contents => entry.mIsContainer = true ∨ contents = .nil

def matching (name : String) (visit : List LeafNode × LeafNode) : Bool :=
  visit.2.named name

theorem namedHere_eq (name : String) (above : List LeafNode) (contents : LeafContents) :
    namedHere name contents =
      ((contents.siblingWalk above).find? (matching name)).map Prod.snd := by
  induction contents with
  | nil => rfl
  | node entry contents siblings _ ih =>
      by_cases same : entry.mName = name
      · simp [namedHere, Forest.siblingWalk, matching, LeafNode.named, same]
      · simp [namedHere, Forest.siblingWalk, matching, LeafNode.named, same, ih]

theorem namedBelow_eq (name : String) (above : List LeafNode) {contents : LeafContents}
    (built : contents.Built) :
    namedBelow name contents =
      ((contents.walkBelow above).find? (matching name)).map Prod.snd := by
  induction contents generalizing above with
  | nil => rfl
  | node entry contents siblings ihContents ihSiblings =>
      obtain ⟨opens, inside, behind⟩ := built
      have tail := ihSiblings above behind
      rw [Forest.walkBelow, List.find?_append, List.find?_append]
      cases container : entry.mIsContainer with
      | false =>
          have empty : contents = .nil := by simpa [container] using opens
          subst empty
          simp [namedBelow, container, Forest.siblingWalk, Forest.walkBelow, tail]
      | true =>
          have here := namedHere_eq name (entry :: above) contents
          have below := ihContents (entry :: above) inside
          cases first : (contents.siblingWalk (entry :: above)).find? (matching name) with
          | some found =>
              rw [first] at here
              simp [namedBelow, container, here]
          | none =>
              rw [first] at here
              cases second : (contents.walkBelow (entry :: above)).find? (matching name) with
              | some found =>
                  rw [second] at below
                  simp [namedBelow, container, here, below]
              | none =>
                  rw [second] at below
                  simp [namedBelow, container, here, below, tail]

/-- The search reports the first match of the walk by levels. -/
theorem getNamed_eq (name : String) {contents : LeafContents} (built : contents.Built) :
    getNamed name true contents =
      ((contents.levelWalk []).find? (matching name)).map Prod.snd := by
  have here := namedHere_eq name [] contents
  rw [Forest.levelWalk, List.find?_append, getNamed]
  cases first : (contents.siblingWalk []).find? (matching name) with
  | some found =>
      rw [first] at here
      simp [here]
  | none =>
      rw [first] at here
      simp [here, namedBelow_eq name [] built]

theorem deleteBelow_eraseNamed (name : String) {contents : LeafContents}
    (built : contents.Built) :
    deleteBelow name (eraseNamed name contents) = contents.prune (LeafNode.named name) := by
  induction contents with
  | nil => rw [eraseNamed, deleteBelow, Forest.prune_nil]
  | node entry contents siblings ihContents ihSiblings =>
      obtain ⟨opens, inside, behind⟩ := built
      by_cases same : entry.mName = name
      · have dropped : LeafNode.named name entry = true := decide_eq_true same
        rw [eraseNamed, if_pos same.symm, Forest.prune_of_dropped dropped, ihSiblings behind]
      · have kept : LeafNode.named name entry = false := decide_eq_false same
        have below : (if entry.mIsContainer then deleteBelow name (eraseNamed name contents)
            else contents) = contents.prune (LeafNode.named name) := by
          rcases opens with container | empty
          · rw [if_pos container, ihContents inside]
          · subst empty
            rw [eraseNamed, deleteBelow, ite_self, Forest.prune_nil]
        rw [eraseNamed, if_neg (Ne.symm same), deleteBelow, Forest.prune_of_kept kept, below,
          ihSiblings behind]

theorem deleteNamed_eq (name : String) {contents : LeafContents} (built : contents.Built) :
    deleteNamed name true contents = contents.prune (LeafNode.named name) := by
  cases contents with
  | nil => rfl
  | node entry contents siblings => exact deleteBelow_eraseNamed name built

theorem Built.prune {drops : LeafNode → Bool} {contents : LeafContents}
    (built : contents.Built) : Built (contents.prune drops) := by
  induction contents with
  | nil => trivial
  | node entry contents siblings ihContents ihSiblings =>
      obtain ⟨opens, inside, behind⟩ := built
      cases dropped : drops entry with
      | true =>
          rw [Forest.prune_of_dropped dropped]
          exact ihSiblings behind
      | false =>
          rw [Forest.prune_of_kept dropped]
          refine ⟨?_, ihContents inside, ihSiblings behind⟩
          rcases opens with container | empty
          · exact .inl container
          · exact .inr (by rw [empty, Forest.prune_nil])

end LeafContents

/-- A container, with the contents that its `addContainer` and `addLeaf` calls
have built. -/
structure LeafTree where
  mContents : LeafContents
  built : mContents.Built

namespace LeafTree

open LeafContents

def getNamed (name : String) (recursive : Bool) (tree : LeafTree) : Option LeafNode :=
  tree.mContents.getNamed name recursive

def deleteNamed (name : String) (tree : LeafTree) : LeafTree where
  mContents := tree.mContents.deleteNamed name true
  built := deleteNamed_eq name tree.built ▸ tree.built.prune

/-- The elements in the order of the tree, each with the containers it is in. -/
def elements (tree : LeafTree) : List (List LeafNode × LeafNode) :=
  tree.mContents.walk []

/-- The elements in the order in which a search comes by them. -/
def searchOrder (tree : LeafTree) : List (List LeafNode × LeafNode) :=
  tree.mContents.levelWalk []

/-- Neither the element nor a container it is in has the name. -/
def survives (name : String) (visit : List LeafNode × LeafNode) : Bool :=
  Forest.spared (LeafNode.named name) visit

theorem elements_deleteNamed (name : String) (tree : LeafTree) :
    (tree.deleteNamed name).elements = tree.elements.filter (survives name) := by
  have kept : ∀ entry ∈ ([] : List LeafNode), LeafNode.named name entry = false := by simp
  have pruned := Forest.walk_prune kept tree.mContents
  rw [← deleteNamed_eq name tree.built] at pruned
  exact pruned

theorem searchOrder_deleteNamed (name : String) (tree : LeafTree) :
    (tree.deleteNamed name).searchOrder = tree.searchOrder.filter (survives name) := by
  have pruned := Forest.levelWalk_prune (LeafNode.named name) tree.mContents
  rw [← deleteNamed_eq name tree.built] at pruned
  exact pruned

/-- The elements with the name, in the order of a search. -/
def searchMatches (name : String) (tree : LeafTree) : List (List LeafNode × LeafNode) :=
  tree.searchOrder.filter (matching name)

theorem getNamed_eq_head (name : String) (tree : LeafTree) :
    tree.getNamed name true = (tree.searchMatches name).head?.map Prod.snd := by
  rw [searchMatches, List.head?_filter]
  exact LeafContents.getNamed_eq name tree.built

theorem searchMatches_deleteNamed (name other : String) (tree : LeafTree) :
    (tree.deleteNamed name).searchMatches other =
      (tree.searchMatches other).filter (survives name) := by
  rw [searchMatches, searchOrder_deleteNamed, searchMatches, List.filter_comm]

theorem not_survives_of_matching {name : String} {visit : List LeafNode × LeafNode}
    (named : matching name visit = true) : survives name visit = false := by
  have own : LeafNode.named name visit.2 = true := named
  rw [survives, Forest.spared, own]
  rfl

/-- After `deleteNamed` a search for the name finds nothing, the elements that
neither have the name nor are in a container with it are left as and where they
were, and a search for another name finds the first of its matches that is left:
the same as before, unless that one was in a deleted container. -/
theorem search_deleteNamed (tree : LeafTree) (name : String) :
    (tree.deleteNamed name).getNamed name true = none ∧
      (tree.deleteNamed name).elements = tree.elements.filter (survives name) ∧
      ∀ other,
        tree.getNamed other true = (tree.searchMatches other).head?.map Prod.snd ∧
          (tree.deleteNamed name).getNamed other true =
            ((tree.searchMatches other).find? (survives name)).map Prod.snd ∧
          ∀ visit, (tree.searchMatches other).head? = some visit →
            survives name visit = true →
              (tree.deleteNamed name).getNamed other true = tree.getNamed other true := by
  have after : ∀ other, (tree.deleteNamed name).getNamed other true =
      ((tree.searchMatches other).find? (survives name)).map Prod.snd := by
    intro other
    rw [getNamed_eq_head, searchMatches_deleteNamed, List.head?_filter]
  refine ⟨?_, elements_deleteNamed name tree, ?_⟩
  · have gone : (tree.searchMatches name).find? (survives name) = none := by
      rw [List.find?_eq_none]
      intro visit member
      rw [not_survives_of_matching (List.mem_filter.mp member).2]
      exact Bool.false_ne_true
    rw [after name, gone]
    rfl
  · intro other
    refine ⟨getNamed_eq_head other tree, after other, ?_⟩
    intro visit first left
    rw [after other, getNamed_eq_head other tree]
    cases found : tree.searchMatches other with
    | nil =>
        rw [found] at first
        cases first
    | cons head rest =>
        rw [found, List.head?_cons, Option.some.injEq] at first
        rw [List.find?_cons_of_pos (by rw [first]; exact left), List.head?_cons]

end LeafTree

end OpenMplane
