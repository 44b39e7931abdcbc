import OpenMplane.EntryChanges
import OpenMplane.YangParamNumbers

/-!
# The handler of `ietf-interfaces`

`IetfInterfacesHandler::valueChange` tells the hardware of a changed leaf of an
interface by the last segment of its path, which may be that of a leaf deeper in
the entry or of the entry itself, whose segment holds the interface's name, and
deletions do not reach it.  Where none of these is in play, each change of a DONE
event causes exactly the update of its leaf.
-/

namespace OpenMplane

open DoneEvent GuardedRuns HandlerCallback ListCut StatePrograms

/-- The update functions of the hardware for one interface, with the value they
are called with. -/
inductive InterfaceUpdate
  | description (text : String)
  | type (text : String)
  | enabled (flag : Bool)
  | l2_mtu (number : Int)
  | vlan_tagging (flag : Bool)
  | base_interface (text : String)
  | vlan_id (number : Int)
  | mac_address (text : String)
  deriving DecidableEq

/-- A call of `halmplane_interface_update_*`. -/
structure InterfaceCall where
  name : String
  update : InterfaceUpdate
  deriving DecidableEq

/-- The handler keeps nothing that its hooks use; its state is the list of its
calls to the hardware, whose results it drops. -/
abbrev InterfaceM := EStateM StdException (List InterfaceCall)

namespace IetfInterfacesHandler

section Source

/-- `leaf.find(part) != std::string::npos`. -/
def finds (leaf part : String) : Bool :=
  decide (part.toList <:+: leaf.toList)

def call (index : String) (update : InterfaceUpdate) : InterfaceM Unit :=
  modify fun calls => calls ++ [⟨index, update⟩]

/-- The body of `valueChange` for a leaf of the list `interface`. -/
def interfaceChange (index leaf value : String) : InterfaceM Unit :=
  if leaf = "description" then call index (.description value)
  else if leaf = "type" then call index (.type value)
  else if leaf = "enabled" then call index (.enabled (value = "true"))
  else if finds leaf "l2-mtu" then do
    let l2Mtu ← stoiM value
    call index (.l2_mtu l2Mtu)
  else if finds leaf "vlan-tagging" then call index (.vlan_tagging (value = "true"))
  else if finds leaf "base-interface" then call index (.base_interface value)
  else if finds leaf "vlan-id" then do
    let vlanId ← stoiM value
    call index (.vlan_id vlanId)
  else if finds leaf "mac-address" then call index (.mac_address value)
  else pure ()

/-- `IetfInterfacesHandler::valueChange`; its callers always have a new value. -/
def valueChange (_xpath : String) (_oldValue : Option YangParam) (newValue : YangParam) :
    InterfaceM Unit :=
  let held := listIndex newValue.name
  if held.listName = "interface" then
    interfaceChange held.value (leafName newValue.name) (YangParamUtils.toString newValue)
  else pure ()

/-- The hooks of the handler; `paramDelete` and `validate` are those of the base
class. -/
def hooks : Hooks (List InterfaceCall) where
  valueChange := valueChange
  paramDelete _ _ := pure ()
  validate _ _ := pure .ok

theorem interfaces_keyPlain :
    ']' ∉ "name".toList ∧ '=' ∉ "name".toList ∧ '/' ∉ "name".toList := by decide

def interfaces : EntryList where
  parent := "/ietf-interfaces:interfaces"
  listName := "interface"
  key := "name"
  parentPlain := by decide
  listPlain := by decide
  keyPlain := interfaces_keyPlain

end Source

/-- The leaves of an interface that the hardware has an update for. -/
inductive InterfaceChild
  | description
  | type
  | enabled
  | l2Mtu
  | vlanTagging
  | baseInterface
  | vlanId
  | macAddress
  deriving DecidableEq

namespace InterfaceChild

/-- The node below the interface; augmented nodes name their module. -/
def nodeName : InterfaceChild → String
  | .description => "description"
  | .type => "type"
  | .enabled => "enabled"
  | .l2Mtu => "o-ran-interfaces:l2-mtu"
  | .vlanTagging => "o-ran-interfaces:vlan-tagging"
  | .baseInterface => "o-ran-interfaces:base-interface"
  | .vlanId => "o-ran-interfaces:vlan-id"
  | .macAddress => "o-ran-interfaces:mac-address"

def all : List InterfaceChild :=
  [.description, .type, .enabled, .l2Mtu, .vlanTagging, .baseInterface, .vlanId, .macAddress]

/-- The child of the interface that a leaf is, if it is one of these. -/
def ofLeaf (leaf : EntryLeaf) : Option InterfaceChild :=
  if leaf.above = [] then all.find? fun child => child.nodeName = leaf.leaf else none

def ofNode : ListNode → Option (String × InterfaceChild)
  | .below leaf => (ofLeaf leaf).map fun child => (leaf.keyValue, child)
  | .outside .. | .entry _ => none

/-- The update with a value of the leaf's type. -/
def update : InterfaceChild → YangData → Option InterfaceUpdate
  | .description, .string text => some (.description text)
  | .type, .string text => some (.type text)
  | .enabled, .bool flag => some (.enabled flag)
  | .l2Mtu, .uint16 number => some (.l2_mtu number.toNat)
  | .vlanTagging, .bool flag => some (.vlan_tagging flag)
  | .baseInterface, .string text => some (.base_interface text)
  | .vlanId, .uint16 number => some (.vlan_id number.toNat)
  | .macAddress, .string text => some (.mac_address text)
  | _, _ => none

/-- The update with the cleared value. -/
def cleared : InterfaceChild → InterfaceUpdate
  | .description => .description ""
  | .type => .type ""
  | .enabled => .enabled false
  | .l2Mtu => .l2_mtu 0
  | .vlanTagging => .vlan_tagging false
  | .baseInterface => .base_interface ""
  | .vlanId => .vlan_id 0
  | .macAddress => .mac_address ""

theorem nodeName_of_ofLeaf {leaf : EntryLeaf} {child : InterfaceChild}
    (found : ofLeaf leaf = some child) : leaf.leaf = child.nodeName := by
  unfold ofLeaf at found
  split at found
  · have here := List.find?_some found
    exact (of_decide_eq_true here).symm
  · contradiction

end InterfaceChild

open InterfaceChild

section Updates

/-- The calls that a change is to cause. -/
def updates : EntryChange → List InterfaceCall
  | .created node value | .modified node _ value =>
      match ofNode node with
      | none => []
      | some (name, child) => (child.update value.data.toYang).toList.map fun update =>
          ⟨name, update⟩
  | .deleted node _ =>
      match ofNode node with
      | none => []
      | some (name, child) => [⟨name, child.cleared⟩]

/-- The names that are looked for within the last segment. -/
def augmentedNames : List String :=
  ["l2-mtu", "vlan-tagging", "base-interface", "vlan-id", "mac-address"]

/-- The last segment of the path is taken for that of a child. -/
def LooksLikeChild (leaf : String) : Prop :=
  leaf ∈ ["description", "type", "enabled"] ∨ ∃ part ∈ augmentedNames, finds leaf part = true

instance (leaf : String) : Decidable (LooksLikeChild leaf) :=
  inferInstanceAs (Decidable (_ ∨ _))

def Typed : EntryChange → Prop
  | .created node value | .modified node _ value =>
      ∀ found ∈ ofNode node, (found.2.update value.data.toYang).isSome = true
  | .deleted _ _ => True

/-- A child of an interface whose name reads back, or a node that is none and is not
taken for one; an interface itself is taken for one by the last part of its name. -/
def TakenRight : ListNode → Prop
  | .outside .. => True
  | .entry name => ∀ part ∈ augmentedNames, finds (leafName name) part = false
  | .below leaf =>
      (ofLeaf leaf ≠ none ∧ leaf.Plain) ∨ (ofLeaf leaf = none ∧ ¬ LooksLikeChild leaf.leaf)

/-- The change stores a node that is taken for what it is, or deletes no child. -/
def Delivered : EntryChange → Prop
  | .created node _ | .modified node _ _ => TakenRight node
  | .deleted node _ => ofNode node = none

instance (node : ListNode) : Decidable (TakenRight node) := by
  cases node <;> unfold TakenRight <;> infer_instance

instance (change : EntryChange) : Decidable (Typed change) := by
  cases change <;> unfold Typed <;> infer_instance

instance (change : EntryChange) : Decidable (Delivered change) := by
  cases change <;> unfold Delivered <;> infer_instance

end Updates

section Step

theorem call_apply (index : String) (update : InterfaceUpdate) (calls : List InterfaceCall) :
    call index update calls = .ok () (calls ++ [⟨index, update⟩]) := rfl

/-- A leaf that is taken for no child causes no call. -/
theorem interfaceChange_of_other {leaf : String} (other : ¬ LooksLikeChild leaf)
    (index value : String) (calls : List InterfaceCall) :
    interfaceChange index leaf value calls = .ok () calls := by
  unfold LooksLikeChild augmentedNames at other
  simp only [List.mem_cons, List.not_mem_nil, or_false, exists_eq_or_imp, exists_eq_left,
    not_or] at other
  obtain ⟨⟨description, type, enabled⟩, l2Mtu, vlanTagging, baseInterface, vlanId, macAddress⟩ :=
    other
  simp [interfaceChange, description, type, enabled, l2Mtu, vlanTagging, baseInterface, vlanId,
    macAddress]

/-- What is done with the leaf of a child. -/
def childChange (index value : String) : InterfaceChild → InterfaceM Unit
  | .description => call index (.description value)
  | .type => call index (.type value)
  | .enabled => call index (.enabled (value = "true"))
  | .l2Mtu => do
      let l2Mtu ← stoiM value
      call index (.l2_mtu l2Mtu)
  | .vlanTagging => call index (.vlan_tagging (value = "true"))
  | .baseInterface => call index (.base_interface value)
  | .vlanId => do
      let vlanId ← stoiM value
      call index (.vlan_id vlanId)
  | .macAddress => call index (.mac_address value)

/-- The name of a child leads to its own branch. -/
theorem interfaceChange_nodeName (index value : String) (child : InterfaceChild) :
    interfaceChange index child.nodeName value = childChange index value child := by
  have l2Mtu : ∀ other ∈ [InterfaceChild.l2Mtu, .vlanTagging, .baseInterface, .vlanId,
      .macAddress], finds other.nodeName "l2-mtu" = decide (other = .l2Mtu) := by decide +kernel
  have vlanTagging : ∀ other ∈ [InterfaceChild.vlanTagging, .baseInterface, .vlanId,
      .macAddress], finds other.nodeName "vlan-tagging" = decide (other = .vlanTagging) := by
    decide +kernel
  have baseInterface : ∀ other ∈ [InterfaceChild.baseInterface, .vlanId, .macAddress],
      finds other.nodeName "base-interface" = decide (other = .baseInterface) := by
    decide +kernel
  have vlanId : ∀ other ∈ [InterfaceChild.vlanId, .macAddress],
      finds other.nodeName "vlan-id" = decide (other = .vlanId) := by decide +kernel
  have macAddress : finds InterfaceChild.macAddress.nodeName "mac-address" = true := by
    decide +kernel
  have named : ∀ other ∈ [InterfaceChild.l2Mtu, .vlanTagging, .baseInterface, .vlanId,
      .macAddress], other.nodeName ≠ "description" ∧ other.nodeName ≠ "type" ∧
        other.nodeName ≠ "enabled" := by decide +kernel
  unfold interfaceChange
  cases child with
  | description | type | enabled => simp [InterfaceChild.nodeName, childChange]
  | l2Mtu | vlanTagging | baseInterface | vlanId | macAddress =>
      simp [named, l2Mtu, vlanTagging, baseInterface, vlanId, macAddress, childChange]

/-- A value of a child's type causes its update. -/
theorem interfaceChange_of_child {child : InterfaceChild} {data : YangData}
    {update : InterfaceUpdate} (typed : child.update data = some update)
    (index path : String) (calls : List InterfaceCall) :
    interfaceChange index child.nodeName (YangParamUtils.toString ⟨path, data⟩) calls =
      .ok () (calls ++ [⟨index, update⟩]) := by
  have number : ∀ value : UInt16, (stoiM (YangParamUtils.toString ⟨path, .uint16 value⟩) :
      InterfaceM Int) = pure (value.toNat : Int) := by
    intro value
    have small := value.toNat_lt
    rw [stoiM, YangParamUtils.toString_uint16, stoi_repr (by omega)]
  have flag : ∀ value : Bool,
      decide (YangParamUtils.toString ⟨path, .bool value⟩ = "true") = value := by
    intro value
    cases value <;> rfl
  rw [interfaceChange_nodeName]
  cases child <;> cases data <;>
    simp only [InterfaceChild.update, Option.some.injEq, reduceCtorEq] at typed <;> subst typed
  case l2Mtu | vlanId => simp only [childChange, number, pure_bind, call_apply]
  case enabled | vlanTagging => simp only [childChange, flag, call_apply]
  case description | type | baseInterface | macAddress => rfl

/-- What the handler does with a stored leaf below an entry. -/
theorem valueChange_below (xpath : String) (oldValue : Option YangParam) (leaf : EntryLeaf)
    (value : NodeValue) :
    valueChange xpath oldValue (interfaces.paramAt (.below leaf) value) =
      interfaceChange (listIndex (interfaces.path (.below leaf))).value leaf.leaf
        (YangParamUtils.toString (interfaces.paramAt (.below leaf) value)) := by
  have listed : (listIndex (interfaces.paramAt (.below leaf) value).name).listName =
      "interface" := interfaces.listIndex_listName_below leaf
  have named : leafName (interfaces.paramAt (.below leaf) value).name = leaf.leaf :=
    interfaces.leafName_below leaf
  rw [valueChange, if_pos listed, named]
  rfl

/-- An interface is taken for a child only by the last part of its name. -/
theorem not_looksLikeChild_entry {name : String}
    (unlike : ∀ part ∈ augmentedNames, finds (leafName name) part = false) :
    ¬ LooksLikeChild (leafName (interfaces.path (.entry name))) := by
  rintro (exactly | ⟨part, isPart, found⟩)
  · have plain : ∀ other ∈ ["description", "type", "enabled"], ']' ∉ other.toList := by decide
    exact interfaces.leafName_entry_ne name (plain _ exactly) rfl
  · obtain ⟨before, mark, isMark, shape, starts⟩ := leafName_listEntryPath interfaces.parent name
      interfaces.listPlain.2 interfaces.keyPlain.2.2
    have unmarked : mark ∉ part.toList := by
      have plain : ∀ other ∈ augmentedNames, '\'' ∉ other.toList ∧ '"' ∉ other.toList := by
        decide
      rcases isMark with rfl | rfl
      · exact (plain part isPart).1
      · exact (plain part isPart).2
    have outside : ∀ other ∈ augmentedNames, ¬ other.toList <:+: "interface[name=".toList ∧
        ¬ other.toList <:+: "]".toList := by decide +kernel
    have absent := outside part isPart
    have inside : ¬ part.toList <:+: (leafName name).toList := by
      simpa [finds] using unlike part isPart
    have found : part.toList <:+: before ++ (leafName name).toList ++ [mark, ']'] := by
      rw [← shape]
      exact of_decide_eq_true found
    rcases infix_of_infix_separator unmarked found with found | found
    · rcases starts with rfl | rfl
      · exact inside found
      · have found : part.toList <:+: "interface[name=".toList ++ mark ::
            (leafName name).toList := by
          simpa [interfaces] using found
        exact (infix_of_infix_separator unmarked found).elim absent.1 inside
    · exact absent.2 found

/-- A node that is no child and is not taken for one is passed over. -/
theorem valueChange_other (xpath : String) (oldValue : Option YangParam) {node : ListNode}
    (value : NodeValue) (other : ofNode node = none) (right : TakenRight node)
    (calls : List InterfaceCall) :
    valueChange xpath oldValue (interfaces.paramAt node value) calls = .ok () calls := by
  cases node with
  | outside path plain =>
      have unlisted : (listIndex (interfaces.paramAt (.outside path plain) value).name).listName =
          "" := interfaces.listIndex_outside plain
      rw [valueChange, unlisted]
      rfl
  | entry name =>
      rw [valueChange]
      split_ifs
      · exact interfaceChange_of_other (not_looksLikeChild_entry right) _ _ calls
      · rfl
  | below leaf =>
      have other : ofLeaf leaf = none := Option.map_eq_none_iff.mp other
      rw [valueChange_below]
      rcases right with ⟨isChild, -⟩ | ⟨-, unlike⟩
      · exact absurd other isChild
      · exact interfaceChange_of_other unlike _ _ calls

theorem updates_of_child {node : ListNode} {value : NodeValue} {name : String}
    {child : InterfaceChild} {update : InterfaceUpdate} (found : ofNode node = some (name, child))
    (typed : child.update value.data.toYang = some update) :
    updates (.created node value) = [⟨name, update⟩] := by
  simp [updates, found, typed]

theorem updates_of_other {node : ListNode} (other : ofNode node = none) (value : NodeValue) :
    updates (.created node value) = [] := by
  simp [updates, other]

/-- A stored node that is delivered causes exactly its updates. -/
theorem valueChange_of_delivered (xpath : String) (oldValue : Option YangParam)
    {node : ListNode} {value : NodeValue} (typed : Typed (.created node value))
    (delivered : Delivered (.created node value)) (calls : List InterfaceCall) :
    valueChange xpath oldValue (interfaces.paramAt node value) calls =
      .ok () (calls ++ updates (.created node value)) := by
  simp only [Delivered] at delivered
  cases found : ofNode node with
  | none =>
      rw [updates_of_other found, List.append_nil]
      exact valueChange_other xpath oldValue value found delivered calls
  | some held =>
      obtain ⟨update, typed⟩ := Option.isSome_iff_exists.mp (typed held found)
      rw [updates_of_child found typed]
      cases node with
      | outside | entry => simp [ofNode] at found
      | below leaf =>
          obtain ⟨child, isChild, rfl⟩ := Option.map_eq_some_iff.mp found
          have plain : leaf.Plain := by
            rcases delivered with ⟨-, plain⟩ | ⟨other, -⟩
            · exact plain
            · simp [isChild] at other
          rw [valueChange_below, interfaces.listIndex_value_below plain,
            nodeName_of_ofLeaf isChild]
          exact interfaceChange_of_child typed _ _ calls

theorem hooks_valueChange : hooks.valueChange = valueChange := rfl

theorem changeHook_of_delivered (xpath : String) (calls : List InterfaceCall)
    (change : EntryChange) (fine : Typed change ∧ Delivered change) :
    changeHook hooks xpath (interfaces.reported change) calls =
      .ok () (calls ++ updates change) := by
  obtain ⟨typed, delivered⟩ := fine
  cases change with
  | created node value =>
      have stored := valueChange_of_delivered xpath none typed delivered calls
      rw [changeHook_created, hooks_valueChange]
      exact stored
  | modified node oldValue value =>
      simp only [Typed] at typed
      simp only [Delivered] at delivered
      have asCreated : updates (.modified node oldValue value) =
          updates (.created node value) := by
        simp only [updates]
      rw [changeHook_modified, hooks_valueChange, asCreated]
      exact valueChange_of_delivered xpath (some (interfaces.paramAt node oldValue)) typed
        delivered calls
  | deleted node oldValue =>
      have other : ofNode node = none := delivered
      have none : updates (.deleted node oldValue) = [] := by simp only [updates, other]
      rw [changeHook_deleted, none, List.append_nil]
      rfl

theorem foldl_append_updates (changes : List EntryChange) (calls : List InterfaceCall) :
    changes.foldl (fun calls change => calls ++ updates change) calls =
      calls ++ changes.flatMap updates := by
  induction changes generalizing calls with
  | nil => simp
  | cons change changes ih =>
      rw [List.foldl_cons, ih, List.flatMap_cons, List.append_assoc]

end Step

section Runs

/-- In a run of DONE events whose changes are all delivered, each change causes
exactly the updates of its leaf and none stops the ones after it. -/
theorem calls_of_delivered (start : HandlerState (List InterfaceCall)) (events : List DoneEvent)
    (typed : ∀ event ∈ events, ∀ change ∈ event.changes, Typed change)
    (delivered : ∀ event ∈ events, ∀ change ∈ event.changes, Delivered change) :
    (events.foldl (DoneEvent.step interfaces hooks) start).derived =
        start.derived ++ events.flatMap (fun event => event.changes.flatMap updates) ∧
      ∀ event ∈ events, ∀ before change after, event.changes = before ++ change :: after →
        ∀ calls, changeHooks hooks (event.xpath.getD "")
            ((before ++ [change]).map interfaces.reported) calls =
          .ok () (calls ++ before.flatMap updates ++ updates change) := by
  have fine : ∀ event ∈ events, ∀ change ∈ event.changes, Typed change ∧ Delivered change :=
    fun event member change changed =>
      ⟨typed event member change changed, delivered event member change changed⟩
  constructor
  · have all : ∀ change ∈ events.flatMap DoneEvent.changes, Typed change ∧ Delivered change := by
      intro change changed
      obtain ⟨event, member, here⟩ := List.mem_flatMap.mp changed
      exact fine event member change here
    rw [foldl_step_derived changeHook_of_delivered
      (Guarded.of_forall (fun change member _ => all change member) start.derived),
      foldl_append_updates, List.flatMap_assoc]
  intro event member before change after cut calls
  have reached : ∀ earlier ∈ before ++ [change], Typed earlier ∧ Delivered earlier := by
    intro earlier here
    refine fine event member earlier ?_
    rw [cut]
    simp only [List.mem_append, List.mem_cons, List.not_mem_nil, or_false] at here ⊢
    tauto
  rw [changeHooks_of_guarded (changeHook_of_delivered _)
    (Guarded.of_forall (fun change member _ => reached change member) calls),
    foldl_append_updates, List.flatMap_append, List.flatMap_cons, List.flatMap_nil,
    List.append_nil, List.append_assoc]

/-- A leaf of the interface itself. -/
def childOf (name child : String) (plain : '/' ∉ child.toList) : ListNode :=
  .below ⟨name, [], child, plain⟩

def eth0Enabled : ListNode := childOf "eth0" "enabled" (by decide)

/-- The leaf that the interface has below its `ipv4`. -/
def eth0Ipv4Enabled : ListNode := .below ⟨"eth0", ["ietf-ip:ipv4"], "enabled", by decide⟩

def flag (value : Bool) : NodeValue := ⟨.bool value, if value then "true" else "false"⟩

def changesEvent (changes : List EntryChange) : DoneEvent :=
  ⟨changes, ⟨⟨fun _ => none⟩, false⟩, none⟩

def emptyHandler : HandlerState (List InterfaceCall) :=
  ⟨[], [], ⟨⟨"ietf-interfaces", by decide⟩, false, ∅, []⟩, none⟩

/-- An interface is created with two of its leaves, and then one of them changes and
one below it is deleted. -/
def eth0Configured : List DoneEvent :=
  [changesEvent [.created (.outside "/ietf-interfaces:interfaces" (by decide)) ⟨.container, ""⟩,
      .created (.entry "eth0") ⟨.list, ""⟩,
      .created (childOf "eth0" "name" (by decide)) ⟨.string "eth0", "eth0"⟩,
      .created eth0Enabled (flag true),
      .created (childOf "eth0" "o-ran-interfaces:l2-mtu" (by decide)) ⟨.uint16 1500, "1500"⟩],
    changesEvent [.modified eth0Enabled (flag true) (flag false),
      .deleted eth0Ipv4Enabled (flag true)]]

theorem calls_of_delivered_eth0Configured :
    (eth0Configured.foldl (DoneEvent.step interfaces hooks) emptyHandler).derived =
      [⟨"eth0", .enabled true⟩, ⟨"eth0", .l2_mtu 1500⟩, ⟨"eth0", .enabled false⟩] := by
  refine (calls_of_delivered emptyHandler eth0Configured ?_ ?_).1.trans ?_
  · decide +kernel
  · decide +kernel
  · decide +kernel

/-- The calls of one event. -/
def callsAfter (changes : List EntryChange) : List InterfaceCall :=
  (DoneEvent.step interfaces hooks emptyHandler (changesEvent changes)).derived

/-- The deletion of a child updates nothing, a leaf below the child's entry updates
the child, and an interface named after a VLAN ends its event. -/
theorem deleted_child_is_not_updated :
    (callsAfter [.deleted eth0Enabled (flag true)] = [] ∧
        updates (.deleted eth0Enabled (flag true)) = [⟨"eth0", .enabled false⟩]) ∧
      (callsAfter [.created eth0Ipv4Enabled (flag true)] = [⟨"eth0", .enabled true⟩] ∧
        updates (.created eth0Ipv4Enabled (flag true)) = []) ∧
      (callsAfter [.created (.entry "vlan-id7") ⟨.list, ""⟩,
          .created eth0Enabled (flag true)] = [] ∧
        updates (.created eth0Enabled (flag true)) = [⟨"eth0", .enabled true⟩]) := by
  decide +kernel

end Runs

end IetfInterfacesHandler

end OpenMplane
