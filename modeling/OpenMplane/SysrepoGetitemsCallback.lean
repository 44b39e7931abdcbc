import OpenMplane.LeafContents
import OpenMplane.ParentRecords
import OpenMplane.RadioDatastore
import OpenMplane.ListCut

/-!
# Answers to operational data requests

`SysrepoGetitemsCallback` is a leaf container that answers a request with a
libyang tree: `processElements` creates one data node for each element below the
node of its container, and an exception that libyang or a leaf function throws
is caught at the element it came from.  The answer shows the elements that are
accepted, each in its place, and of a rejected element nothing.
-/

namespace OpenMplane

open ListCut StatePrograms ParentRecords

/-- A `libyang::Data_Node`: its module, which is null when the context does not
know it, its name, and its value when it is a leaf. -/
structure DataNode (Module : Type) where
  module : Option Module
  name : String
  value : Option String

/-- What libyang answers: the module of a name, or null; and whether the schema
takes the top node of a path, and a new node below the nodes above it, the
nearest one first.  An answer may be an exception with its `what`. -/
structure Libyang (Module : Type) where
  getContext : Except String Unit
  getModule : String → Except String (Option Module)
  newRoot : String → Except String Unit
  newNode : List (DataNode Module) → DataNode Module → Except String Unit

/-- The nodes below the top node in the order of their creation, each with the
number of its parent; the top node has the number 0. -/
structure DataTree (Module : Type) where
  created : List (Nat × DataNode Module)

/-- A `libyang::S_Data_Node`: the number of a node, and what the node and those
above it are, the top node apart. -/
structure DataPtr (Module : Type) where
  number : Nat
  nodes : List (DataNode Module)

variable {Module : Type}

/-- A new node goes behind the children its parent has. -/
def DataTree.create (tree : DataTree Module) (parent : Nat) (node : DataNode Module) :
    DataTree Module :=
  ⟨tree.created ++ [(parent, node)]⟩

/-- The children of a node, in their order. -/
def DataTree.children (tree : DataTree Module) : Nat → List (Nat × DataNode Module) :=
  childrenFrom 1 tree.created

namespace SysrepoGetitemsCallback

def nodeModule (name : String) : String :=
  match cutFirst ':' name.toList with
  | none => ""
  | some (before, _) => String.ofList before

def nodeName (name : String) : String :=
  match cutFirst ':' name.toList with
  | none => name
  | some (_, after) => String.ofList after

section Requests

variable (libyang : Libyang Module)

/-- A call that may throw. -/
def attempt {α : Type} (answer : Except String α) : EStateM String (DataTree Module) α :=
  match answer with
  | .ok value => pure value
  | .error what => throw what

/-- `new libyang::Data_Node(parent, module, name)`, with a value for a leaf. -/
def newDataNode (parent : DataPtr Module) (module : Option Module) (name : String)
    (value : Option String) : EStateM String (DataTree Module) (DataPtr Module) := do
  let node : DataNode Module := ⟨module, name, value⟩
  attempt (libyang.newNode parent.nodes node)
  let tree ← get
  set (tree.create parent.number node)
  pure ⟨tree.created.length + 1, node :: parent.nodes⟩

/-- The `try` block of `processElements`; `inside` is the call for the contents of
a container. -/
def processElement (parent : DataPtr Module) (mod : Option Module) (element : LeafNode)
    (inside : DataPtr Module → Option Module → EStateM String (DataTree Module) Unit) :
    EStateM String (DataTree Module) Unit := do
  let moduleName := nodeModule element.mName
  -- an augmented element switches to its own module
  let name := if moduleName = "" then element.mName else nodeName element.mName
  let module ← attempt (if moduleName = "" then .ok mod else libyang.getModule moduleName)
  if element.mIsContainer then do
    let container ← newDataNode libyang parent module name none
    inside container module
  else do
    let value ← attempt element.value
    let _ ← newDataNode libyang parent module name (some value)

def processElements (parent : DataPtr Module) (mod : Option Module) :
    LeafContents → EStateM String (DataTree Module) Unit
  | .nil => pure ()
  | .node element contents siblings => do
      swallow (processElement libyang parent mod element fun container module =>
        processElements container module contents)
      processElements parent mod siblings

/-- `SysrepoGetitemsCallback::oper_get_items`: what it returns and the tree that
`parent` holds then, when it was set. -/
def operGetItems (mParentPath moduleName : String) (self : LeafTree) :
    SrErrorCode × Option (DataTree Module) :=
  match libyang.getContext with
  | .error _ => (.SR_ERR_INTERNAL, none)
  | .ok _ =>
      match libyang.getModule moduleName with
      | .error _ => (.SR_ERR_INTERNAL, none)
      | .ok mod =>
          match libyang.newRoot mParentPath with
          | .error _ => (.SR_ERR_INTERNAL, none)
          | .ok _ =>
              match processElements libyang ⟨0, []⟩ mod self.mContents ⟨[]⟩ with
              | .ok _ tree => (.SR_ERR_OK, some tree)
              | .error _ tree => (.SR_ERR_INTERNAL, some tree)

/-- The data node of an element below an accepted parent: in the module of its
prefix, or else in the parent's, with its own value; nothing when its module or
its value cannot be had or the schema rejects the node. -/
def acceptedNode (above : List (DataNode Module)) (inherited : Option Module)
    (element : LeafNode) : Option (DataNode Module) :=
  let name := if nodeModule element.mName = "" then element.mName else nodeName element.mName
  match (if nodeModule element.mName = "" then .ok inherited
      else libyang.getModule (nodeModule element.mName)) with
  | .error _ => none
  | .ok module =>
      match (if element.mIsContainer then .ok none else element.value.map some) with
      | .error _ => none
      | .ok value =>
          match libyang.newNode above ⟨module, name, value⟩ with
          | .error _ => none
          | .ok _ => some ⟨module, name, value⟩

/-- The sub-tree of the accepted elements. -/
def accepted (above : List (DataNode Module)) (inherited : Option Module) :
    LeafContents → Forest (DataNode Module)
  | .nil => .nil
  | .node element contents siblings =>
      match acceptedNode libyang above inherited element with
      | none => accepted above inherited siblings
      | some node =>
          .node node (accepted (node :: above) node.module contents)
            (accepted above inherited siblings)

theorem attempt_apply {α : Type} (answer : Except String α) (tree : DataTree Module) :
    attempt answer tree =
      match answer with
      | .ok value => .ok value tree
      | .error what => .error what tree := by
  cases answer <;> rfl

theorem newDataNode_apply (parent : DataPtr Module) (module : Option Module) (name : String)
    (value : Option String) (tree : DataTree Module) :
    newDataNode libyang parent module name value tree =
      match libyang.newNode parent.nodes ⟨module, name, value⟩ with
      | .ok _ => .ok ⟨tree.created.length + 1, ⟨module, name, value⟩ :: parent.nodes⟩
          (tree.create parent.number ⟨module, name, value⟩)
      | .error what => .error what tree := by
  rw [newDataNode, bind_apply, attempt_apply]
  cases libyang.newNode parent.nodes ⟨module, name, value⟩ <;> rfl

/-- The `try` block creates the node of an accepted element and goes on with its
contents; at a rejected element it leaves the tree as it is. -/
theorem processElement_cases (parent : DataPtr Module) (mod : Option Module) (element : LeafNode)
    (inside : DataPtr Module → Option Module → EStateM String (DataTree Module) Unit)
    (tree : DataTree Module) :
    (acceptedNode libyang parent.nodes mod element = none ∧
        finalState (processElement libyang parent mod element inside tree) = tree) ∨
      ∃ node, acceptedNode libyang parent.nodes mod element = some node ∧
        processElement libyang parent mod element inside tree =
          if element.mIsContainer then
            inside ⟨tree.created.length + 1, node :: parent.nodes⟩ node.module
              (tree.create parent.number node)
          else .ok () (tree.create parent.number node) := by
  unfold acceptedNode processElement
  rw [bind_apply, attempt_apply]
  generalize (if nodeModule element.mName = "" then element.mName
    else nodeName element.mName) = name
  cases (if nodeModule element.mName = "" then Except.ok mod
      else libyang.getModule (nodeModule element.mName)) with
  | error what => exact .inl ⟨rfl, rfl⟩
  | ok module =>
      cases container : element.mIsContainer with
      | true =>
          simp only [if_true, bind_apply, newDataNode_apply]
          cases taken : libyang.newNode parent.nodes ⟨module, name, none⟩ with
          | error what => exact .inl ⟨rfl, rfl⟩
          | ok _ => exact .inr ⟨⟨module, name, none⟩, rfl, rfl⟩
      | false =>
          simp only [Bool.false_eq_true, if_false, bind_apply, attempt_apply, newDataNode_apply]
          cases given : element.value with
          | error what => exact .inl ⟨rfl, rfl⟩
          | ok value =>
              simp only [Except.map]
              cases taken : libyang.newNode parent.nodes ⟨module, name, some value⟩ with
              | error what => exact .inl ⟨rfl, rfl⟩
              | ok _ => exact .inr ⟨⟨module, name, some value⟩, rfl, rfl⟩

/-- The loop creates the nodes of the accepted elements below the parent, and
catches every exception. -/
theorem processElements_eq {elements : LeafContents} (built : elements.Built)
    (parent : DataPtr Module) (mod : Option Module) (tree : DataTree Module) :
    processElements libyang parent mod elements tree = .ok ()
      ⟨tree.created ++ (accepted libyang parent.nodes mod elements).records parent.number
        (tree.created.length + 1)⟩ := by
  induction elements generalizing parent mod tree with
  | nil => simp [processElements, accepted, Forest.records]
  | node element contents siblings ihContents ihSiblings =>
      obtain ⟨opens, within, behind⟩ := built
      rw [processElements, bind_ok (swallow_apply _ _), ihSiblings behind]
      congr 2
      rcases processElement_cases libyang parent mod element
          (fun container module => processElements libyang container module contents) tree with
        ⟨rejected, unchanged⟩ | ⟨node, accepts, created⟩
      · rw [unchanged, accepted, rejected]
      · rw [created, accepted, accepts]
        cases container : element.mIsContainer with
        | true =>
            rw [if_pos rfl, ihContents within, finalState_ok]
            simp [DataTree.create, Forest.records, ParentRecords.length_records]
            congr 1
            omega
        | false =>
            have empty : contents = .nil := by simpa [container] using opens
            simp [DataTree.create, Forest.records, accepted, Forest.count, empty]

/-- What the answer is built on: the module of the request and the top node. -/
def topNode (mParentPath moduleName : String) : Except String (Option Module) := do
  libyang.getContext
  let mod ← libyang.getModule moduleName
  libyang.newRoot mParentPath
  pure mod

/-- The request succeeds with a tree that shows the accepted elements, below the
top node with the module it was asked for, and nothing else. -/
def Shown (mParentPath moduleName : String) (self : LeafTree) (mod : Option Module) : Prop :=
  ∃ tree, operGetItems libyang mParentPath moduleName self = (.SR_ERR_OK, some tree) ∧
    Shows tree.children 0 ((accepted libyang [] mod self.mContents).number 1) ∧
      tree.created.length = (accepted libyang [] mod self.mContents).count

/-- A request is answered with the sub-tree of the accepted elements, whichever
elements are rejected.  It fails only when the top node cannot be had. -/
theorem operGetItems_shown (mParentPath moduleName : String) (self : LeafTree) :
    match topNode libyang mParentPath moduleName with
    | .ok mod => Shown libyang mParentPath moduleName self mod
    | .error _ => operGetItems libyang mParentPath moduleName self = (.SR_ERR_INTERNAL, none) := by
  unfold topNode Shown operGetItems
  cases libyang.getContext with
  | error what => rfl
  | ok _ =>
      cases libyang.getModule moduleName with
      | error what => rfl
      | ok mod =>
          cases libyang.newRoot mParentPath with
          | error what => rfl
          | ok _ =>
              have made := processElements_eq libyang self.built ⟨0, []⟩ mod ⟨[]⟩
              refine ⟨⟨(accepted libyang [] mod self.mContents).records 0 1⟩, ?_, ?_, ?_⟩
              · simp only [made]
                rfl
              · exact shows_records Nat.zero_lt_one _
              · exact length_records 0 1 _

end Requests

/-- A schema that takes every node but the one on top. -/
def rejectingTop : Libyang Unit where
  getContext := .ok ()
  getModule _ := .ok (some ())
  newRoot _ := .error "Invalid argument"
  newNode _ _ := .ok ()

/-- The rejection of the top node is reported as an error. -/
theorem rejected_top_is_an_error : ¬ ∀ (libyang : Libyang Unit) (mParentPath moduleName : String)
    (self : LeafTree), ∃ mod, Shown libyang mParentPath moduleName self mod := by
  intro claim
  obtain ⟨mod, tree, answered, -⟩ := claim rejectingTop "/m:top" "m" ⟨.nil, trivial⟩
  cases answered

end SysrepoGetitemsCallback

end OpenMplane
