import OpenMplane.HandlerCallback

/-!
# The running datastore

sysrepo stores the leaves of a module and reports what a transaction did to
them.  A changed leaf is reported under the path of its schema node; an entry
of a leaf-list is read back under an instance path of its own.  This file
models the leaves, the transactions, and the reads and writes that the server
makes, and says what a transaction leaves at each instance path.
-/

namespace OpenMplane

/-- The path of a schema node under its parent instances: it does not end in a
predicate. -/
structure NodePath where
  text : String
  named : text.toList.getLast? ≠ some ']'
  deriving DecidableEq

/-- A leaf, or one entry of a leaf-list, with the text of its value. -/
structure Leaf where
  path : NodePath
  text : String
  deriving DecidableEq

/-- The instance path of an entry of a leaf-list. -/
def Leaf.entryPath (leaf : Leaf) : String :=
  leaf.path.text ++ "[.='" ++ leaf.text ++ "']"

/-- What sysrepo takes from the YANG modules: which nodes are leaf-lists, and
the typed data of a value text.  Leaf-lists have no children, so no two entries
share an instance path. -/
structure Schema where
  leafLists : List NodePath
  typed : NodePath → String → SrData
  unambiguous : ∀ leaf other : Leaf, leaf.path ∈ leafLists → other.path ∈ leafLists →
    leaf.entryPath = other.entryPath → leaf = other

namespace Schema

variable (schema : Schema)

def instancePath (leaf : Leaf) : String :=
  if leaf.path ∈ schema.leafLists then leaf.entryPath else leaf.path.text

/-- The value of a leaf under an xpath. -/
def valueAt (xpath : String) (leaf : Leaf) : SrVal :=
  ⟨xpath, schema.typed leaf.path leaf.text, leaf.text⟩

/-- The leaf that `set_item_str` writes for an xpath and a value text, if the
path names one. -/
def leafAt (xpath value : String) : Option Leaf :=
  if named : xpath.toList.getLast? ≠ some ']' then some ⟨⟨xpath, named⟩, value⟩
  else (schema.leafLists.map fun path => Leaf.mk path value).find? fun leaf =>
    leaf.entryPath = xpath

end Schema

/-- The leaves of the running datastore, each under its instance path. -/
structure Datastore (schema : Schema) where
  leaves : StdMap Leaf
  keyed : ∀ xpath leaf, leaves[xpath]? = some leaf → schema.instancePath leaf = xpath

namespace Datastore

variable {schema : Schema}

def put (datastore : Datastore schema) (leaf : Leaf) : Datastore schema where
  leaves := datastore.leaves.insert (schema.instancePath leaf) leaf
  keyed := by
    intro xpath other held
    rw [Std.ExtTreeMap.getElem?_insert] at held
    split at held
    · next same =>
        rw [← Option.some.inj held]
        exact Std.LawfulEqCmp.compare_eq_iff_eq.mp same
    · exact datastore.keyed xpath other held

def remove (datastore : Datastore schema) (leaf : Leaf) : Datastore schema where
  leaves := datastore.leaves.erase (schema.instancePath leaf)
  keyed := by
    intro xpath other held
    rw [Std.ExtTreeMap.getElem?_erase] at held
    split at held
    · contradiction
    · exact datastore.keyed xpath other held

theorem put_leaves (datastore : Datastore schema) (leaf : Leaf) (xpath : String) :
    (datastore.put leaf).leaves[xpath]? =
      if schema.instancePath leaf = xpath then some leaf else datastore.leaves[xpath]? := by
  simp only [put, Std.ExtTreeMap.getElem?_insert, Std.LawfulEqCmp.compare_eq_iff_eq]

theorem remove_leaves (datastore : Datastore schema) (leaf : Leaf) (xpath : String) :
    (datastore.remove leaf).leaves[xpath]? =
      if schema.instancePath leaf = xpath then none else datastore.leaves[xpath]? := by
  simp only [remove, Std.ExtTreeMap.getElem?_erase, Std.LawfulEqCmp.compare_eq_iff_eq]

/-- `get_items`: the leaves that an xpath names, by node or by instance. -/
def items (datastore : Datastore schema) (xpath : String) : List SrVal :=
  ((datastore.leaves.toList.map Prod.snd).filter fun leaf =>
    leaf.path.text = xpath ∨ schema.instancePath leaf = xpath).map fun leaf =>
      schema.valueAt (schema.instancePath leaf) leaf

/-- A session on the datastore that answers or fails. -/
def session (datastore : Datastore schema) (readable : Bool) : SrSession where
  getItems xpath := if readable then some (datastore.items xpath) else none

/-- `setItemStr`; an xpath that names no leaf is refused. -/
def setItemStr (datastore : Datastore schema) (entry : String × String) :
    Datastore schema :=
  match schema.leafAt entry.1 entry.2 with
  | none => datastore
  | some leaf => datastore.put leaf

/-- The loop of `YangHandlerSysrepoUnlogged::initialise` over the saved values. -/
def initialise (datastore : Datastore schema) (values : StdMap String) : Datastore schema :=
  values.toList.foldl setItemStr datastore

end Datastore

/-- A change of one leaf in a transaction. -/
inductive LeafChange
  | created (leaf : Leaf)
  | modified (oldText : String) (leaf : Leaf)
  | deleted (leaf : Leaf)
  deriving DecidableEq

namespace LeafChange

def leaf : LeafChange → Leaf
  | .created leaf | .modified _ leaf | .deleted leaf => leaf

/-- The change as sysrepo reports it, under the path of the schema node. -/
def reported (schema : Schema) : LeafChange → Change
  | .created leaf => ⟨.created, none, some (schema.valueAt leaf.path.text leaf)⟩
  | .modified oldText leaf => ⟨.modified,
      some (schema.valueAt leaf.path.text { leaf with text := oldText }),
      some (schema.valueAt leaf.path.text leaf)⟩
  | .deleted leaf => ⟨.deleted, some (schema.valueAt leaf.path.text leaf), none⟩

def Stores : LeafChange → Prop
  | .created _ | .modified _ _ => True
  | .deleted _ => False

instance (change : LeafChange) : Decidable change.Stores := by
  cases change <;> unfold Stores <;> infer_instance

def apply {schema : Schema} (datastore : Datastore schema) : LeafChange → Datastore schema
  | .created leaf | .modified _ leaf => datastore.put leaf
  | .deleted leaf => datastore.remove leaf

theorem apply_leaves {schema : Schema} (datastore : Datastore schema) (change : LeafChange)
    (xpath : String) :
    (change.apply datastore).leaves[xpath]? =
      if schema.instancePath change.leaf = xpath then
        if change.Stores then some change.leaf else none
      else datastore.leaves[xpath]? := by
  cases change with
  | created stored => simpa [apply, Stores, LeafChange.leaf] using datastore.put_leaves stored xpath
  | modified oldText stored =>
      simpa [apply, Stores, LeafChange.leaf] using datastore.put_leaves stored xpath
  | deleted removed =>
      simpa [apply, Stores, LeafChange.leaf] using datastore.remove_leaves removed xpath

end LeafChange

/-- A transaction: each leaf changes at most once. -/
structure Transaction (schema : Schema) where
  changes : List LeafChange
  once : (changes.map fun change => schema.instancePath change.leaf).Nodup

namespace Transaction

variable {schema : Schema}

def apply (transaction : Transaction schema) (datastore : Datastore schema) :
    Datastore schema :=
  transaction.changes.foldl LeafChange.apply datastore

/-- The changes as sysrepo reports them. -/
def reported (transaction : Transaction schema) : List Change :=
  transaction.changes.map (LeafChange.reported schema)

theorem foldl_apply_of_untouched {changes : List LeafChange} {xpath : String}
    (untouched : ∀ change ∈ changes, schema.instancePath change.leaf ≠ xpath)
    (datastore : Datastore schema) :
    (changes.foldl LeafChange.apply datastore).leaves[xpath]? = datastore.leaves[xpath]? := by
  induction changes generalizing datastore with
  | nil => rfl
  | cons change changes ih =>
      rw [List.foldl_cons, ih fun other member => untouched other (by simp [member]),
        LeafChange.apply_leaves, if_neg (untouched change (by simp))]

theorem foldl_apply_of_mem {changes : List LeafChange}
    (once : (changes.map fun change => schema.instancePath change.leaf).Nodup)
    {change : LeafChange} (member : change ∈ changes) (datastore : Datastore schema) :
    (changes.foldl LeafChange.apply datastore).leaves[schema.instancePath change.leaf]? =
      if change.Stores then some change.leaf else none := by
  induction changes generalizing datastore with
  | nil => simp at member
  | cons first changes ih =>
      rw [List.map_cons, List.nodup_cons] at once
      rw [List.foldl_cons]
      rcases List.mem_cons.mp member with rfl | later
      · have untouched : ∀ other ∈ changes,
            schema.instancePath other.leaf ≠ schema.instancePath change.leaf := by
          intro other inside same
          exact once.1 (List.mem_map.mpr ⟨other, inside, same⟩)
        rw [foldl_apply_of_untouched untouched, LeafChange.apply_leaves, if_pos rfl]
      · exact ih once.2 later _

theorem apply_leaves_eq_some {transaction : Transaction schema} {datastore : Datastore schema}
    {xpath : String} {leaf : Leaf}
    (held : (transaction.apply datastore).leaves[xpath]? = some leaf) :
    datastore.leaves[xpath]? = some leaf ∨
      ∃ change ∈ transaction.changes, change.Stores ∧ change.leaf = leaf := by
  by_cases touched : ∃ change ∈ transaction.changes, schema.instancePath change.leaf = xpath
  · obtain ⟨change, member, rfl⟩ := touched
    rw [apply, foldl_apply_of_mem transaction.once member] at held
    split at held
    · next stores => exact Or.inr ⟨change, member, stores, Option.some.inj held⟩
    · contradiction
  · push Not at touched
    rw [apply, foldl_apply_of_untouched touched] at held
    exact Or.inl held

/-- A leaf that the transaction does not delete stays, perhaps with a new
value. -/
theorem exists_apply_leaves {transaction : Transaction schema} {datastore : Datastore schema}
    {xpath : String} {leaf : Leaf} (held : datastore.leaves[xpath]? = some leaf)
    (notDeleted : ∀ deleted, .deleted deleted ∈ transaction.changes →
      schema.instancePath deleted ≠ xpath) :
    ∃ other, (transaction.apply datastore).leaves[xpath]? = some other := by
  by_cases touched : ∃ change ∈ transaction.changes, schema.instancePath change.leaf = xpath
  · obtain ⟨change, member, rfl⟩ := touched
    rw [apply, foldl_apply_of_mem transaction.once member]
    cases change with
    | created leaf => exact ⟨leaf, rfl⟩
    | modified oldText leaf => exact ⟨leaf, rfl⟩
    | deleted leaf => exact absurd rfl (notDeleted leaf member)
  · push Not at touched
    rw [apply, foldl_apply_of_untouched touched]
    exact ⟨leaf, held⟩

end Transaction

/-- The running system: the handler object, its file and the datastore. -/
structure Running (σ : Type) (schema : Schema) where
  handler : HandlerState σ
  datastore : Datastore schema

end OpenMplane
