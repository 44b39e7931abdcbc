import OpenMplane.ParentRecords
import OpenMplane.YangConfig

/-!
# Containers that are filled from the configuration

A handler builds the tree of its operational data from the top: it adds containers, and to
each of them leaves with values of the configuration.  The tree is kept as the list of what was
added, each with the number of the container it was added to.  A part of a handler builds a
forest below a container, and parts one after the other build their forests side by side.
-/

namespace OpenMplane

open ParentRecords

/-- The members of a `LeafContainer` that a handler sets. -/
structure LeafItem where
  mIsContainer : Bool
  mName : String
  mValue : String
  deriving DecidableEq, Repr

/-- What was added, in this order, with the number of the container that it is in; the
numbers start with 1, the container that the handler starts from has the number 0. -/
abbrev LeafRecords := List (Nat × LeafItem)

namespace LeafRecords

/-- `addContainer`: the number of the new container, and the tree. -/
def addContainer (parent : Nat) (name : String) (tree : LeafRecords) : Nat × LeafRecords :=
  (tree.length + 1, tree ++ [(parent, ⟨true, name, ""⟩)])

/-- `addLeaf`; an empty value is skipped. -/
def addLeaf (parent : Nat) (leafName leafValue : String) (tree : LeafRecords) : LeafRecords :=
  if leafValue = "" then tree else tree ++ [(parent, ⟨false, leafName, leafValue⟩)]

/-- `addLeafFromConfig`; nothing when `getValue` throws. -/
def addLeafFromConfig (parent : Nat) (leafName : String) (config : YangConfig)
    (baseConfigPath : String) (tree : LeafRecords) : Option LeafRecords := do
  let leafValue ← config.getValue (baseConfigPath ++ "/leaf-" ++ leafName)
  return addLeaf parent leafName leafValue tree

def addLeavesFromConfig (parent : Nat) (leafNames : List String) (config : YangConfig)
    (baseConfigPath : String) (tree : LeafRecords) : Option LeafRecords :=
  leafNames.foldlM
    (fun tree leafName => addLeafFromConfig parent leafName config baseConfigPath tree) tree

end LeafRecords

/-- A part of a handler builds a forest below a container, whatever is there already. -/
def Builds (part : LeafRecords → Option LeafRecords) (parent : Nat)
    (forest : Forest LeafItem) : Prop :=
  ∀ tree : LeafRecords, part tree = some (tree ++ forest.records parent (tree.length + 1))

namespace LeafItem

/-- Leaves side by side. -/
def leaves : List (String × String) → Forest LeafItem
  | [] => .nil
  | (name, value) :: rest => .node ⟨false, name, value⟩ .nil (leaves rest)

def container (name : String) (contents : Forest LeafItem) : Forest LeafItem :=
  .node ⟨true, name, ""⟩ contents .nil

def leavesIn : Forest LeafItem → List (String × String)
  | .nil => []
  | .node item _ siblings =>
      if item.mIsContainer then leavesIn siblings else (item.mName, item.mValue) :: leavesIn siblings

def containersIn (name : String) : Forest LeafItem → List (Forest LeafItem)
  | .nil => []
  | .node item contents siblings =>
      if item.mIsContainer ∧ item.mName = name then contents :: containersIn name siblings
      else containersIn name siblings

def containerNames : Forest LeafItem → List String
  | .nil => []
  | .node item _ siblings =>
      if item.mIsContainer then item.mName :: containerNames siblings else containerNames siblings

section Contents

variable (name : String) (first second contents : Forest LeafItem)
  (pairs : List (String × String))

@[simp] theorem leavesIn_append :
    leavesIn (first.append second) = leavesIn first ++ leavesIn second := by
  induction first with
  | nil => rfl
  | node item contents siblings _ ih =>
      rw [Forest.append, leavesIn, leavesIn, ih]
      split
      · rfl
      · rfl

@[simp] theorem containersIn_append : containersIn name (first.append second) =
    containersIn name first ++ containersIn name second := by
  induction first with
  | nil => rfl
  | node item contents siblings _ ih =>
      rw [Forest.append, containersIn, containersIn, ih]
      split
      · rfl
      · rfl

@[simp] theorem containerNames_append :
    containerNames (first.append second) = containerNames first ++ containerNames second := by
  induction first with
  | nil => rfl
  | node item contents siblings _ ih =>
      rw [Forest.append, containerNames, containerNames, ih]
      split
      · rfl
      · rfl

@[simp] theorem leavesIn_leaves : leavesIn (leaves pairs) = pairs := by
  induction pairs with
  | nil => rfl
  | cons pair pairs ih => exact congrArg (List.cons pair) ih

@[simp] theorem containersIn_leaves : containersIn name (leaves pairs) = [] := by
  induction pairs with
  | nil => rfl
  | cons pair pairs ih => exact ih

@[simp] theorem containerNames_leaves : containerNames (leaves pairs) = [] := by
  induction pairs with
  | nil => rfl
  | cons pair pairs ih => exact ih

@[simp] theorem leavesIn_container : leavesIn (container name contents) = [] := rfl

@[simp] theorem containerNames_container : containerNames (container name contents) = [name] := rfl

theorem containersIn_container (other : String) :
    containersIn other (container name contents) = if name = other then [contents] else [] := by
  rw [container, containersIn]
  simp only [true_and]
  rfl

end Contents

end LeafItem

namespace Builds

open LeafItem LeafRecords

variable {parent : Nat} {first second : LeafRecords → Option LeafRecords}
  {before after : Forest LeafItem}

theorem andThen (builds : Builds first parent before) (more : Builds second parent after) :
    Builds (fun tree => first tree >>= second) parent (before.append after) := by
  intro tree
  have length : (tree ++ before.records parent (tree.length + 1)).length + 1 =
      tree.length + 1 + before.count := by
    rw [List.length_append, length_records]
    omega
  change (first tree).bind second = _
  rw [builds tree, Option.bind_some, more, length, records_append, List.append_assoc]

theorem nothing (parent : Nat) : Builds some parent .nil := by
  intro tree
  exact congrArg some (List.append_nil tree).symm

theorem inContainer (name : String) {fill : Nat → LeafRecords → Option LeafRecords}
    {contents : Forest LeafItem} (fills : ∀ number, Builds (fill number) number contents) :
    Builds (fun tree => fill (addContainer parent name tree).1 (addContainer parent name tree).2)
      parent (container name contents) := by
  intro tree
  change fill (tree.length + 1) (tree ++ [(parent, ⟨true, name, ""⟩)]) = _
  rw [fills, List.length_append, List.append_assoc, container, Forest.records, Forest.records,
    List.append_nil]
  rfl

theorem loop {ι : Type} (inputs : List ι) {round : LeafRecords → ι → Option LeafRecords}
    {built : ι → Forest LeafItem}
    (rounds : ∀ input ∈ inputs, Builds (fun tree => round tree input) parent (built input)) :
    Builds (fun tree => inputs.foldlM round tree) parent
      (inputs.foldr (fun input rest => (built input).append rest) .nil) := by
  induction inputs with
  | nil => exact nothing parent
  | cons input inputs ih =>
      have own := rounds input List.mem_cons_self
      have later := ih fun next member => rounds next (List.mem_cons_of_mem input member)
      exact own.andThen later

theorem leaf {config : YangConfig} {baseConfigPath leafName value : String}
    (reads : config.getValue (baseConfigPath ++ "/leaf-" ++ leafName) = some value) :
    Builds (addLeafFromConfig parent leafName config baseConfigPath) parent
      (leaves (if value = "" then [] else [(leafName, value)])) := by
  intro tree
  rw [addLeafFromConfig, reads]
  change some (addLeaf parent leafName value tree) = _
  rw [addLeaf]
  split
  · exact congrArg some (List.append_nil tree).symm
  · rfl

/-- The leaves that have a value, in the order of their names. -/
def given (values : String → String) (leafNames : List String) : List (String × String) :=
  leafNames.flatMap fun leafName =>
    if values leafName = "" then [] else [(leafName, values leafName)]

theorem leaves_append (pairs others : List (String × String)) :
    (LeafItem.leaves pairs).append (LeafItem.leaves others) = LeafItem.leaves (pairs ++ others) := by
  induction pairs with
  | nil => rfl
  | cons pair pairs ih => exact congrArg (Forest.node _ _) ih

theorem foldr_leaves (values : String → String) (leafNames : List String) :
    leafNames.foldr (fun leafName rest => (LeafItem.leaves
        (if values leafName = "" then [] else [(leafName, values leafName)])).append rest) .nil =
      LeafItem.leaves (given values leafNames) := by
  induction leafNames with
  | nil => rfl
  | cons leafName leafNames ih =>
      rw [List.foldr_cons, ih, leaves_append]
      rfl

theorem leavesFromConfig {config : YangConfig} {baseConfigPath : String} {leafNames : List String}
    {values : String → String} (reads : ∀ leafName ∈ leafNames,
      config.getValue (baseConfigPath ++ "/leaf-" ++ leafName) = some (values leafName)) :
    Builds (addLeavesFromConfig parent leafNames config baseConfigPath) parent
      (leaves (given values leafNames)) := by
  have rounds := @loop parent _ leafNames
    (fun tree leafName => addLeafFromConfig parent leafName config baseConfigPath tree) _
    fun leafName member => leaf (reads leafName member)
  rw [foldr_leaves] at rounds
  exact rounds

end Builds

end OpenMplane
