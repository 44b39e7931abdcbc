import OpenMplane.EntryChanges
import OpenMplane.YangParamNumbers

/-!
# The handler of `o-ran-processing-element`

The handler keeps a record of each processing element and hands it to the
hardware whenever a leaf of its Ethernet flow is set.  The first leaf of a new
element builds the record, with empty texts for the leaves that are not there
yet, among them the number of the VLAN.  The texts of a record are pointers to
strings that are gone when the hardware gets it, so that only the VLAN arrives.
-/

namespace OpenMplane

open DoneEvent GuardedRuns HandlerCallback StatePrograms

/-- `eth_flow_t`. -/
structure EthFlow where
  ru_mac_address : CharPtr
  vlan_id : UInt16
  o_du_mac_address : CharPtr
  deriving DecidableEq

/-- `transport_flow_t`; its other flows have no members. -/
structure TransportFlow where
  interface_name : CharPtr
  e_flow : EthFlow
  deriving DecidableEq

/-- `ru_elements_t`. -/
structure RuElement where
  name : CharPtr
  t_flow : TransportFlow
  deriving DecidableEq

/-- The records of the handler, and those that `halmplane_update_ru_element` was
called with, each with the name that the handler has it under. -/
structure RuElements where
  mRuElements : StdMap RuElement
  handed : List (String × RuElement)

abbrev RuElementsM := EStateM StdException RuElements

namespace RuElements

def constructed : RuElements := ⟨∅, []⟩

/-- `mRuElements[name] = ruElement`. -/
def insert (name : String) (ruElement : RuElement) (elements : RuElements) : RuElements :=
  { elements with mRuElements := elements.mRuElements.insert name ruElement }

/-- A write through the pointer that the map has for the name. -/
def write (name : String) (change : RuElement → RuElement) (elements : RuElements) :
    RuElements :=
  match elements.mRuElements[name]? with
  | none => elements
  | some ruElement => elements.insert name (change ruElement)

/-- `halmplane_update_ru_element(mRuElements[name].get())`, where the map has the
name; its result is dropped. -/
def handOver (name : String) (elements : RuElements) : RuElements :=
  { elements with
    handed := elements.handed ++
      (elements.mRuElements[name]?).toList.map fun ruElement => (name, ruElement) }

end RuElements

namespace OranProcessingElementHandler

section Source

/-- `OranProcessingElementHandler::updateRuElement`; each text that a record
points to is freed when the statement ends. -/
def updateRuElement (name interfaceName ruMac vlanId oduMac : String) : RuElementsM Unit := do
  match (← get).mRuElements[name]? with
  | none =>
      let vlan_id ← stoiM vlanId
      modify (·.insert name {
        name := .freed name
        t_flow := {
          interface_name := .freed interfaceName
          e_flow := ⟨.freed ruMac, UInt16.ofInt vlan_id, .freed oduMac⟩ } })
  | some _ =>
      if interfaceName ≠ "" then
        modify (·.write name fun ruElement =>
          { ruElement with t_flow.interface_name := .freed interfaceName })
      if ruMac ≠ "" then
        modify (·.write name fun ruElement =>
          { ruElement with t_flow.e_flow.ru_mac_address := .freed ruMac })
      if vlanId ≠ "" then
        let vlan_id ← stoiM vlanId
        modify (·.write name fun ruElement =>
          { ruElement with t_flow.e_flow.vlan_id := UInt16.ofInt vlan_id })
      if oduMac ≠ "" then
        modify (·.write name fun ruElement =>
          { ruElement with t_flow.e_flow.o_du_mac_address := .freed oduMac })
  modify (·.handOver name)

/-- `OranProcessingElementHandler::valueChange`; its callers always have a new
value. -/
def valueChange (_xpath : String) (_oldValue : Option YangParam) (newValue : YangParam) :
    RuElementsM Unit :=
  let value := YangParamUtils.toString newValue
  let held := listIndex newValue.name
  let leaf := leafName newValue.name
  if held.listName = "ru-elements" then
    if leaf = "interface-name" then updateRuElement held.value value "" "" ""
    else if leaf = "ru-mac-address" then updateRuElement held.value "" value "" ""
    else if leaf = "vlan-id" then updateRuElement held.value "" "" value ""
    else if leaf = "o-du-mac-address" then updateRuElement held.value "" "" "" value
    else pure ()
  else pure ()

/-- The hooks of the handler; `paramDelete` and `validate` are those of the base
class. -/
def hooks : Hooks RuElements where
  valueChange := valueChange
  paramDelete _ _ := pure ()
  validate _ _ := pure .ok

theorem ruElements_keyPlain :
    ']' ∉ "name".toList ∧ '=' ∉ "name".toList ∧ '/' ∉ "name".toList := by decide

/-- The list of processing elements. -/
def ruElements : EntryList where
  parent := "/o-ran-processing-element:processing-elements"
  listName := "ru-elements"
  key := "name"
  parentPlain := by decide
  listPlain := by decide
  keyPlain := ruElements_keyPlain

end Source

/-- The leaves of an element that its record has. -/
inductive RuLeaf
  | interfaceName
  | ruMacAddress
  | vlanId
  | oDuMacAddress
  deriving DecidableEq

namespace RuLeaf

/-- The nodes between the entry and the leaf. -/
def above : RuLeaf → List String
  | .interfaceName => ["transport-flow"]
  | .ruMacAddress | .vlanId | .oDuMacAddress => ["transport-flow", "eth-flow"]

def nodeName : RuLeaf → String
  | .interfaceName => "interface-name"
  | .ruMacAddress => "ru-mac-address"
  | .vlanId => "vlan-id"
  | .oDuMacAddress => "o-du-mac-address"

def all : List RuLeaf := [.interfaceName, .ruMacAddress, .vlanId, .oDuMacAddress]

/-- The leaf of the record that a leaf of the entry is, if it is one of these. -/
def ofLeaf (leaf : EntryLeaf) : Option RuLeaf :=
  all.find? fun ruLeaf => ruLeaf.above = leaf.above ∧ ruLeaf.nodeName = leaf.leaf

/-- The element and the leaf of its record that a node is. -/
def ofNode : ListNode → Option (String × RuLeaf)
  | .below leaf => (ofLeaf leaf).map fun ruLeaf => (leaf.keyValue, ruLeaf)
  | .outside .. | .entry _ => none

/-- A value of the leaf's type. -/
def Typed : RuLeaf → YangData → Prop
  | .vlanId, .uint16 _ => True
  | .interfaceName, .string _ | .ruMacAddress, .string _ | .oDuMacAddress, .string _ => True
  | _, _ => False

instance : ∀ (ruLeaf : RuLeaf) (data : YangData), Decidable (ruLeaf.Typed data) := by
  intro ruLeaf data
  cases ruLeaf <;> cases data <;> unfold Typed <;> infer_instance

/-- What the record has for the leaf: a pointer to a text, or a number. -/
def field : RuLeaf → RuElement → CharPtr ⊕ UInt16
  | .interfaceName, ruElement => .inl ruElement.t_flow.interface_name
  | .ruMacAddress, ruElement => .inl ruElement.t_flow.e_flow.ru_mac_address
  | .vlanId, ruElement => .inr ruElement.t_flow.e_flow.vlan_id
  | .oDuMacAddress, ruElement => .inl ruElement.t_flow.e_flow.o_du_mac_address

/-- The value of a leaf can be read from the record. -/
def Holds (ruLeaf : RuLeaf) (ruElement : RuElement) (data : YangData) : Prop :=
  match ruLeaf.field ruElement, data with
  | .inl pointer, .string text => pointer.Holds (some text)
  | .inr number, .uint16 value => number = value
  | _, _ => False

theorem nodeName_of_ofLeaf {leaf : EntryLeaf} {ruLeaf : RuLeaf}
    (found : ofLeaf leaf = some ruLeaf) : leaf.leaf = ruLeaf.nodeName := by
  have here := List.find?_some found
  simp only [decide_eq_true_eq] at here
  exact here.2.symm

theorem not_holds_string {ruLeaf : RuLeaf} {ruElement : RuElement} {text : String} :
    ¬ ruLeaf.Holds ruElement (.string text) := by
  cases ruLeaf with
  | vlanId => exact id
  | interfaceName | ruMacAddress | oDuMacAddress => exact CharPtr.not_holds_some

end RuLeaf

open RuLeaf

section Step

/-- The record that the first leaf of an element goes into. -/
def blank (name : String) : RuElement := ⟨.freed name, .freed "", .freed "", 0, .freed ""⟩

def recordAt (name : String) (elements : RuElements) : RuElement :=
  (elements.mRuElements[name]?).getD (blank name)

/-- The record of an element is replaced and handed over. -/
def put (name : String) (ruElement : RuElement) (elements : RuElements) : RuElements :=
  (elements.insert name ruElement).handOver name

def setVlan (number : UInt16) (ruElement : RuElement) : RuElement :=
  { ruElement with t_flow.e_flow.vlan_id := number }

theorem ofInt_toNat (number : UInt16) : UInt16.ofInt number.toNat = number := by
  have small := number.toNat_lt
  apply UInt16.toNat.inj
  rw [UInt16.ofInt, UInt16.toNat_ofNat']
  omega

theorem write_of_known {name : String} {elements : RuElements} {ruElement : RuElement}
    (known : elements.mRuElements[name]? = some ruElement) (change : RuElement → RuElement) :
    elements.write name change = elements.insert name (change ruElement) := by
  rw [RuElements.write, known]

/-- The VLAN of an element is stored, whether the element is new or not. -/
theorem updateRuElement_vlan {name text : String} {number : UInt16} (nonempty : text ≠ "")
    (reads : stoi text = .ok number.toNat) (elements : RuElements) :
    updateRuElement name "" "" text "" elements =
      .ok () (put name (setVlan number (recordAt name elements)) elements) := by
  rw [updateRuElement, bind_ok (get_apply elements)]
  cases known : elements.mRuElements[name]? with
  | none =>
      simp only [stoiM, reads, bind_apply, pure_apply, modify_apply, ofInt_toNat]
      simp only [put, recordAt, known, Option.getD_none, blank, setVlan]
  | some ruElement =>
      have record : recordAt name elements = ruElement := by
        rw [recordAt, known, Option.getD_some]
      rw [record]
      simp [nonempty, stoiM, reads, write_of_known known, put, setVlan, ofInt_toNat]

end Step

section Changes

/-- The value of a record's leaf that a change sets. -/
def setting (name : String) (ruLeaf : RuLeaf) : EntryChange → Option YangData
  | .created node value | .modified node _ value =>
      if ofNode node = some (name, ruLeaf) then some value.data.toYang else none
  | .deleted _ _ => none

/-- The last value that a run of changes sets. -/
def lastSetting (name : String) (ruLeaf : RuLeaf) (changes : List EntryChange) :
    Option YangData :=
  (changes.filterMap (setting name ruLeaf)).getLast?

/-- The values of the record's leaves are of their types. -/
def Typed : EntryChange → Prop
  | .created node value | .modified node _ value =>
      ∀ found ∈ ofNode node, found.2.Typed value.data.toYang
  | .deleted _ _ => True

instance : ∀ change, Decidable (Typed change)
  | .created node value | .modified node _ value =>
      inferInstanceAs (Decidable (∀ found ∈ ofNode node, found.2.Typed value.data.toYang))
  | .deleted _ _ => inferInstanceAs (Decidable True)

/-- The VLAN of an element whose name reads back, or a node that is no leaf of a
record and is not named like one. -/
def TakenRight : ListNode → Prop
  | .outside .. | .entry _ => True
  | .below leaf =>
      (ofLeaf leaf = some .vlanId ∧ leaf.Plain) ∨
        (ofLeaf leaf = none ∧ ∀ ruLeaf ∈ RuLeaf.all, leaf.leaf ≠ ruLeaf.nodeName)

instance : ∀ node, Decidable (TakenRight node)
  | .outside .. | .entry _ => inferInstanceAs (Decidable True)
  | .below leaf => inferInstanceAs (Decidable ((_ ∧ leaf.Plain) ∨ _ ∧ _))

/-- What the change stores can be read where it belongs, and nowhere else. -/
def Delivered : EntryChange → Prop
  | .created node _ | .modified node _ _ => TakenRight node
  | .deleted _ _ => True

instance : ∀ change, Decidable (Delivered change)
  | .created node _ | .modified node _ _ => inferInstanceAs (Decidable (TakenRight node))
  | .deleted _ _ => inferInstanceAs (Decidable True)

/-- The records after a change. -/
def deliver (elements : RuElements) (change : EntryChange) : RuElements :=
  finalState (changeHook hooks "" (ruElements.reported change) elements)

theorem valueChange_vlan (xpath : String) (oldValue : Option YangParam) {leaf : EntryLeaf}
    {value : NodeValue} {number : UInt16} (plain : leaf.Plain)
    (found : ofLeaf leaf = some .vlanId) (typed : value.data.toYang = .uint16 number)
    (elements : RuElements) :
    valueChange xpath oldValue (ruElements.paramAt (.below leaf) value) elements =
      .ok () (put leaf.keyValue (setVlan number (recordAt leaf.keyValue elements)) elements) := by
  have listed : (listIndex (ruElements.paramAt (.below leaf) value).name).listName =
      "ru-elements" := ruElements.listIndex_listName_below leaf
  have keyed : (listIndex (ruElements.paramAt (.below leaf) value).name).value =
      leaf.keyValue := ruElements.listIndex_value_below plain
  have named : leafName (ruElements.paramAt (.below leaf) value).name = "vlan-id" :=
    (ruElements.leafName_below leaf).trans (nodeName_of_ofLeaf found)
  have held : (ruElements.paramAt (.below leaf) value).data = .uint16 number := typed
  have text : YangParamUtils.toString (ruElements.paramAt (.below leaf) value) =
      number.toNat.repr := by
    generalize ruElements.paramAt (.below leaf) value = param at held ⊢
    obtain ⟨path, data⟩ := param
    obtain rfl : data = .uint16 number := held
    exact YangParamUtils.toString_uint16 path number
  have digits := (decimal_repr number.toNat_lt).nonempty
  have nonempty : number.toNat.repr ≠ "" := by
    intro empty
    simp [empty] at digits
  have small := number.toNat_lt
  simp only [valueChange, listed, keyed, named, text, ↓reduceIte, String.reduceEq]
  exact updateRuElement_vlan nonempty (stoi_repr (by omega)) elements

/-- A node that is no leaf of a record and not named like one is passed over. -/
theorem valueChange_other (xpath : String) (oldValue : Option YangParam) {node : ListNode}
    (value : NodeValue) (other : ofNode node = none) (right : TakenRight node) :
    valueChange xpath oldValue (ruElements.paramAt node value) = pure () := by
  have unnamed : (listIndex (ruElements.path node)).listName ≠ "ru-elements" ∨
      ∀ ruLeaf ∈ RuLeaf.all, leafName (ruElements.path node) ≠ ruLeaf.nodeName := by
    cases node with
    | outside path plain =>
        rw [ruElements.listIndex_outside plain]
        exact Or.inl (by decide)
    | entry name =>
        have plain : ∀ ruLeaf ∈ RuLeaf.all, ']' ∉ ruLeaf.nodeName.toList := by decide
        exact Or.inr fun ruLeaf member => ruElements.leafName_entry_ne name (plain ruLeaf member)
    | below leaf =>
        rw [ruElements.leafName_below]
        rcases right with ⟨isVlan, -⟩ | ⟨-, unlike⟩
        · simp [ofNode, isVlan] at other
        · exact Or.inr unlike
  have path : (ruElements.paramAt node value).name = ruElements.path node := rfl
  rcases unnamed with unlisted | unnamed
  · simp only [valueChange, path, unlisted, ↓reduceIte]
  · simp only [RuLeaf.all, List.forall_mem_cons, nodeName] at unnamed
    simp only [valueChange, path, unnamed, ↓reduceIte, ite_self]

/-- What a change that is delivered does: nothing, or the VLAN of one record. -/
inductive Delivery (elements : RuElements) (change : EntryChange) : RuElements → Prop
  | untouched (sets : ∀ name ruLeaf, setting name ruLeaf change = none) :
      Delivery elements change elements
  | stored (name : String) (number : UInt16)
      (sets : ∀ other ruLeaf, setting other ruLeaf change =
        if name = other ∧ .vlanId = ruLeaf then some (.uint16 number) else none) :
      Delivery elements change (put name (setVlan number (recordAt name elements)) elements)

theorem delivery_stored (xpath : String) (oldValue : Option YangParam) {node : ListNode}
    {value : NodeValue} (elements : RuElements) (typed : Typed (.created node value))
    (delivered : Delivered (.created node value)) :
    ∃ after, valueChange xpath oldValue (ruElements.paramAt node value) elements =
      .ok () after ∧ Delivery elements (.created node value) after := by
  simp only [Typed] at typed
  simp only [Delivered] at delivered
  cases found : ofNode node with
  | none =>
      refine ⟨elements, ?_, .untouched ?_⟩
      · rw [valueChange_other xpath oldValue value found delivered]
        rfl
      · simp [setting, found]
  | some held =>
      cases node with
      | outside | entry => simp [ofNode] at found
      | below leaf =>
          obtain ⟨ruLeaf, isLeaf, rfl⟩ := Option.map_eq_some_iff.mp found
          rcases delivered with ⟨isVlan, plain⟩ | ⟨other, -⟩
          · obtain rfl : ruLeaf = .vlanId := Option.some.inj (isLeaf.symm.trans isVlan)
            have typed := typed _ found
            cases data : value.data.toYang with
            | uint16 number =>
                refine ⟨_, valueChange_vlan xpath oldValue plain isVlan data elements,
                  .stored leaf.keyValue number ?_⟩
                simp [setting, found, data]
            | _ => simp [data, RuLeaf.Typed] at typed
          · simp [isLeaf] at other

theorem hooks_valueChange : hooks.valueChange = valueChange := rfl

theorem changeHook_delivery (xpath : String) (elements : RuElements) {change : EntryChange}
    (fine : Typed change ∧ Delivered change) :
    ∃ after, changeHook hooks xpath (ruElements.reported change) elements = .ok () after ∧
      Delivery elements change after := by
  obtain ⟨typed, delivered⟩ := fine
  cases change with
  | created node value =>
      rw [changeHook_created, hooks_valueChange]
      exact delivery_stored xpath none elements typed delivered
  | modified node oldValue value =>
      rw [changeHook_modified, hooks_valueChange]
      simp only [Typed] at typed
      simp only [Delivered] at delivered
      have typedSame : Typed (.created node value) := typed
      obtain ⟨after, returned, delivery⟩ := delivery_stored xpath
        (some (ruElements.paramAt node oldValue)) elements typedSame delivered
      refine ⟨after, returned, ?_⟩
      cases delivery with
      | untouched sets => exact .untouched sets
      | stored name number sets => exact .stored name number sets
  | deleted node oldValue =>
      rw [changeHook_deleted]
      exact ⟨elements, rfl, .untouched fun _ _ => rfl⟩

theorem changeHook_of_delivered (xpath : String) (elements : RuElements) (change : EntryChange)
    (fine : Typed change ∧ Delivered change) :
    changeHook hooks xpath (ruElements.reported change) elements =
      .ok () (deliver elements change) := by
  have unread : changeHook hooks xpath (ruElements.reported change) =
      changeHook hooks "" (ruElements.reported change) := by
    cases change <;> rfl
  obtain ⟨after, returned, -⟩ := changeHook_delivery "" elements fine
  rw [unread, deliver, returned, finalState_ok]

theorem delivery_deliver (elements : RuElements) {change : EntryChange}
    (fine : Typed change ∧ Delivered change) :
    Delivery elements change (deliver elements change) := by
  obtain ⟨after, returned, delivery⟩ := changeHook_delivery "" elements fine
  rw [deliver, returned]
  exact delivery

end Changes

section Runs

/-- The record of an element that the hardware was given last. -/
def lastHanded (name : String) (elements : RuElements) : Option RuElement :=
  (elements.handed.filterMap fun handed =>
    if handed.1 = name then some handed.2 else none).getLast?

/-- The hardware has the records of the handler. -/
def Current (elements : RuElements) : Prop :=
  ∀ name : String, lastHanded name elements = elements.mRuElements[name]?

theorem current_constructed : Current RuElements.constructed := by
  intro name
  simp [lastHanded, RuElements.constructed]

theorem put_mRuElements (name other : String) (ruElement : RuElement) (elements : RuElements) :
    (put name ruElement elements).mRuElements[other]? =
      if name = other then some ruElement else elements.mRuElements[other]? := by
  simp only [put, RuElements.handOver, RuElements.insert, Std.ExtTreeMap.getElem?_insert,
    Std.LawfulEqCmp.compare_eq_iff_eq]

theorem put_handed (name : String) (ruElement : RuElement) (elements : RuElements) :
    (put name ruElement elements).handed = elements.handed ++ [(name, ruElement)] := by
  simp [put, RuElements.handOver, RuElements.insert]

theorem recordAt_put (name other : String) (ruElement : RuElement) (elements : RuElements) :
    recordAt other (put name ruElement elements) =
      if name = other then ruElement else recordAt other elements := by
  rw [recordAt, put_mRuElements]
  split
  · rfl
  · rfl

theorem lastHanded_put (name other : String) (ruElement : RuElement) (elements : RuElements) :
    lastHanded other (put name ruElement elements) =
      if name = other then some ruElement else lastHanded other elements := by
  rw [lastHanded, put_handed, List.filterMap_append]
  by_cases here : name = other
  · simp [here]
  · simp [here, lastHanded]

theorem current_deliver {elements : RuElements} {change : EntryChange}
    (current : Current elements) (fine : Typed change ∧ Delivered change) :
    Current (deliver elements change) := by
  have delivery := delivery_deliver elements fine
  generalize deliver elements change = after at delivery ⊢
  cases delivery with
  | untouched sets => exact current
  | stored name number sets =>
      intro other
      rw [lastHanded_put, put_mRuElements, current other]

/-- What a record has once a value is stored in it. -/
def slot : YangData → CharPtr ⊕ UInt16
  | .uint16 number => .inr number
  | _ => .inl .null

theorem field_setVlan (ruLeaf : RuLeaf) (number : UInt16) (ruElement : RuElement) :
    ruLeaf.field (setVlan number ruElement) =
      if .vlanId = ruLeaf then .inr number else ruLeaf.field ruElement := by
  cases ruLeaf <;> rfl

/-- A change that is delivered sets its leaf in the record of its element, and no
other leaf of any record. -/
theorem field_deliver {elements : RuElements} {change : EntryChange}
    (fine : Typed change ∧ Delivered change) (name : String) (ruLeaf : RuLeaf) :
    ruLeaf.field (recordAt name (deliver elements change)) =
      ((setting name ruLeaf change).map slot).getD (ruLeaf.field (recordAt name elements)) := by
  have delivery := delivery_deliver elements fine
  generalize deliver elements change = after at delivery ⊢
  cases delivery with
  | untouched sets => rw [sets, Option.map_none, Option.getD_none]
  | stored target number sets =>
      rw [recordAt_put, sets]
      by_cases here : target = name
      · subst here
        rw [if_pos rfl, field_setVlan]
        by_cases same : RuLeaf.vlanId = ruLeaf
        · simp [same, slot]
        · simp [same]
      · simp [here]

theorem setting_of_delivered {change : EntryChange} (fine : Typed change ∧ Delivered change)
    {name : String} {ruLeaf : RuLeaf} {data : YangData}
    (sets : setting name ruLeaf change = some data) :
    ruLeaf = .vlanId ∧ ∃ number, data = .uint16 number := by
  have delivery := delivery_deliver RuElements.constructed fine
  generalize deliver RuElements.constructed change = after at delivery
  cases delivery with
  | untouched unset => simp [unset] at sets
  | stored target number stored =>
      rw [stored] at sets
      split_ifs at sets with here
      exact ⟨here.2.symm, number, (Option.some.inj sets).symm⟩

theorem known_deliver {elements : RuElements} {change : EntryChange}
    (fine : Typed change ∧ Delivered change) {name : String}
    (known : (∃ ruLeaf, setting name ruLeaf change ≠ none) ∨
      elements.mRuElements[name]? ≠ none) :
    (deliver elements change).mRuElements[name]? ≠ none := by
  have delivery := delivery_deliver elements fine
  generalize deliver elements change = after at delivery ⊢
  cases delivery with
  | untouched sets => simpa [sets] using known
  | stored target number sets =>
      rw [put_mRuElements]
      by_cases here : target = name
      · simp [here]
      · simpa [sets, here] using known

theorem unset_deliver {elements : RuElements} {change : EntryChange}
    (fine : Typed change ∧ Delivered change) {name : String}
    (unset : ∀ ruLeaf, setting name ruLeaf change = none) :
    (deliver elements change).mRuElements[name]? = elements.mRuElements[name]? := by
  have delivery := delivery_deliver elements fine
  generalize deliver elements change = after at delivery ⊢
  cases delivery with
  | untouched sets => rfl
  | stored target number sets =>
      rw [put_mRuElements]
      by_cases here : target = name
      · simpa [sets, here] using unset .vlanId
      · rw [if_neg here]

section Fine

variable {start : RuElements} {changes : List EntryChange}
  (fine : ∀ change ∈ changes, Typed change ∧ Delivered change)

include fine

theorem known_foldl {name : String}
    (known : (∃ change ∈ changes, ∃ ruLeaf, setting name ruLeaf change ≠ none) ∨
      start.mRuElements[name]? ≠ none) :
    (changes.foldl deliver start).mRuElements[name]? ≠ none := by
  induction changes generalizing start with
  | nil => simpa using known
  | cons change changes ih =>
      obtain ⟨first, rest⟩ := List.forall_mem_cons.mp fine
      refine ih rest ?_
      rcases known with ⟨other, member, sets⟩ | known
      · rcases List.mem_cons.mp member with rfl | later
        · exact Or.inr (known_deliver first (Or.inl sets))
        · exact Or.inl ⟨other, later, sets⟩
      · exact Or.inr (known_deliver first (Or.inr known))

theorem unset_foldl {name : String}
    (unset : ∀ change ∈ changes, ∀ ruLeaf, setting name ruLeaf change = none) :
    (changes.foldl deliver start).mRuElements[name]? = start.mRuElements[name]? := by
  induction changes generalizing start with
  | nil => rfl
  | cons change changes ih =>
      obtain ⟨first, rest⟩ := List.forall_mem_cons.mp fine
      rw [List.foldl_cons, ih rest fun other member => unset other (by simp [member]),
        unset_deliver first (unset change (by simp))]

end Fine

theorem lastSetting_eq_none {name : String} {ruLeaf : RuLeaf} {changes : List EntryChange} :
    lastSetting name ruLeaf changes = none ↔
      ∀ change ∈ changes, setting name ruLeaf change = none := by
  rw [lastSetting, List.getLast?_eq_none_iff, List.filterMap_eq_nil_iff]

theorem exists_of_lastSetting {name : String} {ruLeaf : RuLeaf} {changes : List EntryChange}
    {data : YangData} (last : lastSetting name ruLeaf changes = some data) :
    ∃ change ∈ changes, setting name ruLeaf change = some data :=
  List.mem_filterMap.mp (List.mem_of_getLast? last)

/-- From the record that the hardware was given last for an element the last value
of each leaf that was set can be read; the leaves that were not set are as they
were, and so are the records of elements of which nothing was set. -/
structure Follows (before after : RuElements) (changes : List EntryChange) : Prop where
  set : ∀ name ruLeaf data, lastSetting name ruLeaf changes = some data →
    ∃ ruElement, lastHanded name after = some ruElement ∧ ruLeaf.Holds ruElement data
  kept : ∀ name ruLeaf ruElement, lastHanded name before = some ruElement →
    lastSetting name ruLeaf changes = none →
      ∃ later, lastHanded name after = some later ∧
        ruLeaf.field later = ruLeaf.field ruElement
  others : ∀ name, (∀ ruLeaf, lastSetting name ruLeaf changes = none) →
    lastHanded name after = lastHanded name before

theorem follows_of_fine {start : RuElements} (current : Current start)
    {changes : List EntryChange} (fine : ∀ change ∈ changes, Typed change ∧ Delivered change) :
    Follows start (changes.foldl deliver start) changes := by
  have guarded : Guarded (fun _ change => Typed change ∧ Delivered change) deliver start
      changes := Guarded.of_forall (fun change member _ => fine change member) start
  have handed : Current (changes.foldl deliver start) :=
    guarded.invariant (fun _ _ current fine => current_deliver current fine) current
  have field : ∀ name (ruLeaf : RuLeaf),
      ruLeaf.field (recordAt name (changes.foldl deliver start)) =
        ((lastSetting name ruLeaf changes).map slot).getD
          (ruLeaf.field (recordAt name start)) := by
    intro name ruLeaf
    rw [guarded.look_foldl (fun elements => ruLeaf.field (recordAt name elements))
      (fun change => (setting name ruLeaf change).map slot)
      fun _ _ fine => field_deliver fine name ruLeaf, lastSetting, ← List.getLast?_map,
      List.map_filterMap]
  have record : ∀ {elements : RuElements} {name : String},
      elements.mRuElements[name]? ≠ none →
        elements.mRuElements[name]? = some (recordAt name elements) := by
    intro elements name known
    obtain ⟨ruElement, found⟩ := Option.ne_none_iff_exists'.mp known
    rw [recordAt, found, Option.getD_some]
  refine ⟨?_, ?_, ?_⟩
  · intro name ruLeaf data last
    obtain ⟨change, member, sets⟩ := exists_of_lastSetting last
    obtain ⟨rfl, number, rfl⟩ := setting_of_delivered (fine change member) sets
    have known : (changes.foldl deliver start).mRuElements[name]? ≠ none :=
      known_foldl fine (Or.inl ⟨change, member, .vlanId, by simp [sets]⟩)
    refine ⟨_, (handed name).trans (record known), ?_⟩
    have stored := field name .vlanId
    rw [last] at stored
    exact Sum.inr.inj stored
  · intro name ruLeaf ruElement was unset
    have found := (current name).symm.trans was
    have recorded : start.mRuElements[name]? ≠ none := by simp [found]
    have known := known_foldl fine (Or.inr recorded)
    refine ⟨_, (handed name).trans (record known), ?_⟩
    rw [field, unset, Option.map_none, Option.getD_none, recordAt, found, Option.getD_some]
  · intro name unset
    rw [handed name, current name]
    exact unset_foldl fine fun change member ruLeaf =>
      lastSetting_eq_none.mp (unset ruLeaf) change member

/-- In a run of DONE events whose changes are all delivered, no exception leaves the
loop of an event, and in every state the hardware has the last value of each leaf
of an Ethernet flow that was set, in the record of its element. -/
theorem records_of_delivered (start : HandlerState RuElements) (events : List DoneEvent)
    (current : Current start.derived)
    (typed : ∀ event ∈ events, ∀ change ∈ event.changes, Typed change)
    (delivered : ∀ event ∈ events, ∀ change ∈ event.changes, Delivered change) :
    (∀ before event after, events = before ++ event :: after →
      ∃ delivered, changeHooks hooks (event.xpath.getD "")
          (event.changes.map ruElements.reported)
          (before.foldl (step ruElements hooks) start).derived = .ok () delivered) ∧
      ∀ reached, reached <+: events →
        Follows start.derived (reached.foldl (step ruElements hooks) start).derived
          (reached.flatMap DoneEvent.changes) := by
  have fine : ∀ reached, reached <+: events → ∀ change ∈ reached.flatMap DoneEvent.changes,
      Typed change ∧ Delivered change := by
    intro reached prior change changed
    obtain ⟨event, member, here⟩ := List.mem_flatMap.mp changed
    have member := prior.subset member
    exact ⟨typed event member change here, delivered event member change here⟩
  have guarded : ∀ reached, reached <+: events →
      Guarded (fun _ change => Typed change ∧ Delivered change) deliver start.derived
        (reached.flatMap DoneEvent.changes) := fun reached prior =>
    Guarded.of_forall (fun change member _ => fine reached prior change member) _
  constructor
  · rintro before event after rfl
    have prior : before ++ [event] <+: before ++ event :: after := ⟨after, by simp⟩
    exact ⟨_, changeHooks_of_run changeHook_of_delivered (guarded _ prior)⟩
  · intro reached prior
    rw [foldl_step_derived changeHook_of_delivered (guarded reached prior)]
    exact follows_of_fine current (fine reached prior)

/-- A leaf below the transport flow of an element. -/
def flowLeaf (name : String) (above : List String) (leaf : String) (plain : '/' ∉ leaf.toList) :
    ListNode :=
  .below ⟨name, "transport-flow" :: above, leaf, plain⟩

def vlanOf (name : String) : ListNode := flowLeaf name ["eth-flow"] "vlan-id" (by decide)

def interfaceOf (name : String) : ListNode := flowLeaf name [] "interface-name" (by decide)

def vlan (number : UInt16) : NodeValue := ⟨.uint16 number, number.toNat.repr⟩

def changesEvent (changes : List EntryChange) : DoneEvent :=
  ⟨changes, ⟨⟨fun _ => none⟩, false⟩, none⟩

def emptyHandler : HandlerState RuElements :=
  ⟨.constructed, [], ⟨⟨"o-ran-processing-element", by decide⟩, false, ∅, []⟩, none⟩

/-- Two elements are created with their VLANs, and then one of these changes. -/
def vlans : List DoneEvent :=
  [changesEvent [.created (.entry "ru0") ⟨.list, ""⟩, .created (vlanOf "ru0") (vlan 100),
      .created (.entry "ru1") ⟨.list, ""⟩, .created (vlanOf "ru1") (vlan 200)],
    changesEvent [.modified (vlanOf "ru0") (vlan 100) (vlan 300),
      .created (flowLeaf "ru1" ["north-eth-flow"] "south-ru-mac-address" (by decide))
        ⟨.string "02:00:00:00:00:01", "02:00:00:00:00:01"⟩]]

theorem follows_vlans :
    Follows RuElements.constructed (vlans.foldl (step ruElements hooks) emptyHandler).derived
      (vlans.flatMap DoneEvent.changes) :=
  (records_of_delivered emptyHandler vlans current_constructed (by decide +kernel)
    (by decide +kernel)).2 vlans (List.prefix_refl _)

def interfaceSet : EntryChange := .created (interfaceOf "ru0") ⟨.string "eth0", "eth0"⟩

/-- The interface of a new element is set first, as the order of the model has it. -/
def interfaceFirst : List EntryChange := [interfaceSet, .created (vlanOf "ru0") (vlan 100)]

/-- An interface that comes first is lost with its element, and one that comes behind
the VLAN cannot be read. -/
theorem interface_is_lost :
    (step ruElements hooks emptyHandler (changesEvent interfaceFirst)).derived.handed = [] ∧
      ∀ changes ∈ [interfaceFirst, interfaceFirst.reverse],
        ¬ Follows RuElements.constructed
          (step ruElements hooks emptyHandler (changesEvent changes)).derived changes := by
  refine ⟨by decide +kernel, ?_⟩
  intro changes either follows
  have last : lastSetting "ru0" .interfaceName changes = some (.string "eth0") := by
    rcases List.mem_pair.mp either with rfl | rfl <;> decide +kernel
  obtain ⟨ruElement, -, holds⟩ := follows.set "ru0" .interfaceName (.string "eth0") last
  exact not_holds_string holds

end Runs

end OranProcessingElementHandler

end OpenMplane
