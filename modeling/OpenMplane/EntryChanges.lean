import OpenMplane.GuardedRuns
import OpenMplane.HandlerCallback

/-!
# Changes of list entries

The handlers of interfaces and of processing elements look at leaves below the
entries of one list.  This file has the nodes of a module with such a list, the
entries themselves among them, with the changes that sysrepo reports of them in
a DONE event, and the runs of a handler over these events.
-/

namespace OpenMplane

open GuardedRuns ListCut StatePrograms

/-- A value of a node: its data and what `val_to_string` returns for it. -/
structure NodeValue where
  data : SrData
  text : String
  deriving DecidableEq

/-- A node in no list, an entry of the list, or a node below an entry. -/
inductive ListNode
  | outside (path : String) (plain : '[' ∉ path.toList)
  | entry (keyValue : String)
  | below (leaf : EntryLeaf)
  deriving DecidableEq

/-- What a transaction did to a node. -/
inductive EntryChange
  | created (node : ListNode) (value : NodeValue)
  | modified (node : ListNode) (oldValue value : NodeValue)
  | deleted (node : ListNode) (oldValue : NodeValue)
  deriving DecidableEq

/-- The list that a handler looks at. -/
structure EntryList where
  parent : String
  listName : String
  key : String
  parentPlain : '[' ∉ parent.toList
  listPlain : '[' ∉ listName.toList ∧ '/' ∉ listName.toList
  keyPlain : ']' ∉ key.toList ∧ '=' ∉ key.toList ∧ '/' ∉ key.toList

namespace EntryList

variable (list : EntryList)

def path : ListNode → String
  | .outside path _ => path
  | .entry keyValue => listEntryPath list.parent list.listName list.key keyValue
  | .below leaf => leaf.path list.parent list.listName list.key

theorem listIndex_outside {path : String} (plain : '[' ∉ path.toList) :
    (listIndex (list.path (.outside path plain))).listName = "" := by
  have none : cutFirst '[' path.toList = none := cutFirst_eq_none.mpr plain
  simp only [EntryList.path, listIndex, none]

theorem leafName_below (leaf : EntryLeaf) : leafName (list.path (.below leaf)) = leaf.leaf :=
  leaf.leafName_path

theorem listIndex_listName_below (leaf : EntryLeaf) :
    (listIndex (list.path (.below leaf))).listName = list.listName :=
  leaf.listIndex_path_listName list.parentPlain list.listPlain

theorem listIndex_value_below {leaf : EntryLeaf} (plain : leaf.Plain) :
    (listIndex (list.path (.below leaf))).value = leaf.keyValue := by
  rw [path, EntryLeaf.listIndex_path plain list.parentPlain list.listPlain
    ⟨list.keyPlain.1, list.keyPlain.2.1⟩]

/-- The last segment of an entry's path is that of no leaf. -/
theorem leafName_entry_ne (keyValue : String) {name : String} (plain : ']' ∉ name.toList) :
    leafName (list.path (.entry keyValue)) ≠ name := by
  rintro rfl
  obtain ⟨before, mark, -, shape, -⟩ := leafName_listEntryPath list.parent keyValue
    list.listPlain.2 list.keyPlain.2.2
  rw [path, shape] at plain
  simp at plain

def valueAt (node : ListNode) (value : NodeValue) : SrVal :=
  ⟨list.path node, value.data, value.text⟩

/-- The parameter that the handler gets for a value of a node. -/
def paramAt (node : ListNode) (value : NodeValue) : YangParam :=
  (list.valueAt node value).toParam

/-- The change as sysrepo reports it. -/
def reported : EntryChange → Change
  | .created node value => ⟨.created, none, some (list.valueAt node value)⟩
  | .modified node oldValue value =>
      ⟨.modified, some (list.valueAt node oldValue), some (list.valueAt node value)⟩
  | .deleted node oldValue => ⟨.deleted, some (list.valueAt node oldValue), none⟩

end EntryList

/-- A DONE event of a handler of the list. -/
structure DoneEvent where
  changes : List EntryChange
  surroundings : Surroundings
  xpath : Option String

namespace DoneEvent

open HandlerCallback

variable {σ : Type} (list : EntryList) (hooks : Hooks σ)

def iter (event : DoneEvent) : ChangeIter := ⟨event.changes.map list.reported, none⟩

def step (state : HandlerState σ) (event : DoneEvent) : HandlerState σ :=
  finalState (module_change hooks event.surroundings (event.iter list) event.xpath .done state)

/-- The event leaves the derived class where its hooks leave it. -/
theorem step_derived (state : HandlerState σ) (event : DoneEvent) :
    (step list hooks state event).derived = finalState (changeHooks hooks
      (event.xpath.getD "") (event.changes.map list.reported) state.derived) :=
  module_change_done_derived hooks event.surroundings (event.iter list) event.xpath state

section Hooks

variable (xpath : String) (node : ListNode) (oldValue value : NodeValue)

theorem changeHook_created : changeHook hooks xpath (list.reported (.created node value)) =
    hooks.valueChange xpath none (list.paramAt node value) := rfl

theorem changeHook_modified :
    changeHook hooks xpath (list.reported (.modified node oldValue value)) =
      hooks.valueChange xpath (some (list.paramAt node oldValue)) (list.paramAt node value) :=
  rfl

theorem changeHook_deleted :
    changeHook hooks xpath (list.reported (.deleted node oldValue)) =
      hooks.paramDelete xpath (list.paramAt node oldValue) := rfl

end Hooks

section Delivered

variable {list} {hooks} {allowed : σ → EntryChange → Prop} {apply : σ → EntryChange → σ}

/-- Changes whose hooks return are all delivered. -/
theorem changeHooks_of_guarded {xpath : String}
    (each : ∀ state change, allowed state change →
      changeHook hooks xpath (list.reported change) state = .ok () (apply state change))
    {state : σ} {changes : List EntryChange} (guarded : Guarded allowed apply state changes) :
    changeHooks hooks xpath (changes.map list.reported) state =
      .ok () (changes.foldl apply state) := by
  unfold changeHooks
  induction changes generalizing state with
  | nil => rfl
  | cons change changes ih =>
      rw [List.map_cons, List.forM_cons, bind_ok (each state change guarded.1)]
      exact ih guarded.2

/-- A run of events whose changes are all delivered, one change after the other. -/
theorem foldl_step_derived (each : ∀ xpath state change, allowed state change →
      changeHook hooks xpath (list.reported change) state = .ok () (apply state change))
    {start : HandlerState σ} {events : List DoneEvent}
    (guarded : Guarded allowed apply start.derived (events.flatMap DoneEvent.changes)) :
    (events.foldl (step list hooks) start).derived =
      (events.flatMap DoneEvent.changes).foldl apply start.derived := by
  induction events generalizing start with
  | nil => rfl
  | cons event events ih =>
      rw [List.flatMap_cons] at guarded
      have first : (step list hooks start event).derived =
          event.changes.foldl apply start.derived := by
        rw [step_derived, changeHooks_of_guarded (each _) guarded.of_append]
        rfl
      rw [List.foldl_cons, ih (first ▸ guarded.rest_of_append), first, List.flatMap_cons,
        List.foldl_append]

/-- No exception leaves the loop of an event of such a run. -/
theorem changeHooks_of_run (each : ∀ xpath state change, allowed state change →
      changeHook hooks xpath (list.reported change) state = .ok () (apply state change))
    {start : HandlerState σ} {before : List DoneEvent} {event : DoneEvent}
    (guarded : Guarded allowed apply start.derived
      ((before ++ [event]).flatMap DoneEvent.changes)) :
    changeHooks hooks (event.xpath.getD "") (event.changes.map list.reported)
        (before.foldl (step list hooks) start).derived =
      .ok () ((before ++ [event]).foldl (step list hooks) start).derived := by
  have all := guarded
  rw [List.flatMap_append, List.flatMap_cons, List.flatMap_nil, List.append_nil] at guarded
  rw [foldl_step_derived each all, foldl_step_derived each guarded.of_append,
    changeHooks_of_guarded (each _) guarded.rest_of_append, List.flatMap_append,
    List.foldl_append, List.flatMap_cons, List.flatMap_nil, List.append_nil]

end Delivered

end DoneEvent

end OpenMplane
