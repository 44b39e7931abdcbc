import OpenMplane.YangHandlerMgr

/-!
# What the initialisation of the handlers reports

The operations of an initialisation without failures are a list that the
configuration, the persistent values and the rules determine.  Each handler is
followed through its operations; one that fails is either forgotten or ends
the initialisation with an exception.
-/

namespace OpenMplane

open HandlersState OperationRecords StatePrograms YangHandlerSysrepoUnlogged

variable {content : Type}

section Operations

variable (env : HandlerEnv content)

/-- The operations that restore the persistent values of a module. -/
def persistentOperations (name : String) : List Operation :=
  (env.values name).toList.map fun entry => .setItemStr entry.1 entry.2

namespace IetfInterfacesHandler

/-- The numbers that `addInterface` reads can be read. -/
def InterfaceReadable (config : IYangConfig) (idx : Nat) : Prop :=
  if ifType config idx = "iana-if-type:l2vlan" then
    ∃ number, stoi (config.getValue (interfacePath idx ++ "/leaf-vlan-id")) = .ok number
  else
    Accepted (config.getValue (interfacePath idx ++ "/leaf-l2-mtu")) ∧
      ∀ marking : Marking, Accepted (marking.given config idx)

/-- The entry of an interface whose numbers can be read. -/
def interfaceOperations (config : IYangConfig) (idx : Nat) : List Operation :=
  match fillInterface config idx ⟨∅, newInterface (ifName config idx)⟩ with
  | .ok _ filling => [.createListEntry (pathIf (ifName config idx)).pathRoot filling.dataCfg]
  | .error _ _ => []

def operations : List Operation :=
  persistentOperations env "ietf-interfaces" ++
    ((List.range (numInterfaces env.config)).flatMap (interfaceOperations env.config) ++
      [.getItemsSubscribe "ietf-interfaces" (path "ietf-interfaces" "interfaces"),
        .itemsChangeSubscribe "ietf-interfaces" ""])

end IetfInterfacesHandler

namespace IetfNetconfAcmHandler

def rulesOperation (rules : AcmRules) : Operation :=
  .createListEntry (path "ietf-netconf-acm" "nacm") (env.rules rules)

def operations : List Operation :=
  persistentOperations env "ietf-netconf-acm" ++
    [rulesOperation env .sudo, rulesOperation env .nms, rulesOperation env .fmpm,
      rulesOperation env .swm, rulesOperation env .smo, rulesOperation env .hybridodu,
      rulesOperation env .root,
      .getItemsSubscribe "ietf-netconf-acm" (path "ietf-netconf-acm" "nacm"),
      .itemsChangeSubscribe "ietf-netconf-acm" ""]

end IetfNetconfAcmHandler

namespace OranModuleCapHandler

def operations : List Operation :=
  persistentOperations env "o-ran-module-cap" ++
    [.getItemsSubscribe "o-ran-module-cap" (path "o-ran-module-cap" "module-capability")]

end OranModuleCapHandler

namespace OranProcessingElementHandler

/-- The number of the VLAN can be read; it may be absent where the element is
there already. -/
def VlanReadable (vlanId : String) (there : Prop) : Prop :=
  there ∧ vlanId = "" ∨ ∃ number, stoi vlanId = .ok number

/-- The numbers of the elements can be read, one after the other. -/
def ElementsReadable (config : IYangConfig) : List String → List Nat → Prop
  | _, [] => True
  | known, idx :: steps =>
      VlanReadable (ethLeaf config idx "/leaf-vlan-id") (elementName config idx ∈ known) ∧
        ElementsReadable config (elementName config idx :: known) steps

def elementOperation (idx : Nat) : Operation :=
  .createListEntry mPathParent.pathRoot (dataCfg env.config idx)

def operations : List Operation :=
  persistentOperations env "o-ran-processing-element" ++
    (.setItemStr transportPath.pathRoot (transportSessionType env.config) ::
      ((List.range (numRuElements env.config)).map (elementOperation env) ++
        [.getItemsSubscribe "o-ran-processing-element"
            (path "o-ran-processing-element" "processing-elements"),
          .itemsChangeSubscribe "o-ran-processing-element" ""]))

end OranProcessingElementHandler

namespace OranUplaneConfHandler

def operations : List Operation :=
  persistentOperations env "o-ran-uplane-conf" ++
    [.getItemsSubscribe "o-ran-uplane-conf" callbackPath,
      .itemsChangeSubscribe "o-ran-uplane-conf" "",
      .getItems (callbackPath ++ "/low-level-tx-links//."),
      .getItems (callbackPath ++ "/low-level-rx-links//."),
      .getItems (callbackPath ++ "/tx-array-carriers//."),
      .getItems (callbackPath ++ "/rx-array-carriers//.")]

end OranUplaneConfHandler

namespace OranUserMgmtHandler

def operations : List Operation :=
  persistentOperations env "o-ran-usermgmt" ++
    [.rpcSubscribe (YangHandlerSysrepoUnlogged.path "o-ran-usermgmt" "chg-password")]

end OranUserMgmtHandler

namespace YangHandlerMgr

/-- The operations of an initialisation without failures. -/
def operations : List Operation :=
  IetfInterfacesHandler.operations env ++ (IetfNetconfAcmHandler.operations env ++
    (persistentOperations env "ietf-netconf-server" ++ (OranModuleCapHandler.operations env ++
      (OranProcessingElementHandler.operations env ++ (OranUplaneConfHandler.operations env ++
        OranUserMgmtHandler.operations env)))))

/-- The numbers of the configuration can be read. -/
def ConfigReadable (config : IYangConfig) : Prop :=
  (∀ idx ∈ List.range (IetfInterfacesHandler.numInterfaces config),
      IetfInterfacesHandler.InterfaceReadable config idx) ∧
    OranProcessingElementHandler.ElementsReadable config []
      (List.range (OranProcessingElementHandler.numRuElements config))

/-- There is a session, and sysrepo lets every operation succeed. -/
def NoFailure (datastore : EditedDatastore content) : Prop :=
  AllSucceed (env.sysrepo.Succeeds (datastore.sessionOf 0).isSome) 0 (operations env)

/-- The initialisation of the constructed handlers returns, with true exactly when every
operation that was made succeeded, and has initialised them all and the carrier
manager. -/
def Reported (datastore : EditedDatastore content) : Prop :=
  ∃ ok after, initialise env (constructed datastore) = .ok ok after ∧
    (ok = true ↔ ∀ record ∈ after.interfaces.datastore.made, record.Good) ∧
    after.called = (OranYangHandlerMgr.mHandlers env).map YangHandler.name ∧
    after.mInitialised = true

end YangHandlerMgr

end Operations

section Handlers

variable (env : HandlerEnv content) (session : Bool)

/-- The datastore has a session or not, the handler has the processing elements
with these names, and these handlers were called. -/
structure Reached (session : Bool) (known called : List String)
    (state : HandlersState content) : Prop where
  session : state.interfaces.datastore.hasSession = session
  known : ∀ name, name ∈ state.elements.mRuElements ↔ name ∈ known
  called : state.called = called
  uninitialised : state.mInitialised = false

abbrev HandlersPerform {α : Type} (pre post : HandlersState content → Prop) (ready : Prop)
    (operations : List Operation) (returned : α → Prop) (program : HandlersM content α) : Prop :=
  Performs (fun state => state.interfaces.datastore.made) OperationRecord.Good
    (env.sysrepo.Succeeds session) pre post ready operations returned program

variable {known called : List String}

/-- What beside the datastore is reached. -/
def Beside (known called : List String) (state : HandlersState content) : Prop :=
  (∀ name, name ∈ state.elements.mRuElements ↔ name ∈ known) ∧ state.called = called ∧
    state.mInitialised = false

theorem reached_iff (state : HandlersState content) :
    Reached session known called state ↔
      state.interfaces.datastore.hasSession = session ∧ Beside known called state :=
  ⟨fun reached => ⟨reached.session, reached.known, reached.called, reached.uninitialised⟩,
    fun both => ⟨both.1, both.2.1, both.2.2.1, both.2.2.2⟩⟩

theorem performs_operate (operation : Operation) :
    HandlersPerform env session (Reached session known called) (Reached session known called)
      True [operation] (fun _ => True) (operate env operation) := by
  have performs : HandlersPerform env session
      (fun state => state.interfaces.datastore.hasSession = session ∧ Beside known called state)
      (fun state => state.interfaces.datastore.hasSession = session ∧ Beside known called state)
      True [operation] (fun _ => True) (operate env operation) :=
    Performs.focus (Beside known called) ofDatastore
      (HandlerDatastore.performs_perform env.apply env.sysrepo session operation)
      fun _ _ beside => beside
  exact performs.weaken (fun state => (reached_iff session state).mp)
    (fun state => (reached_iff session state).mpr) fun _ _ => trivial

theorem performs_true {pre : HandlersState content → Prop} :
    HandlersPerform env session pre pre True [] (· = true) (pure true) :=
  Performs.pure rfl

theorem performs_dropped (operation : Operation) :
    HandlersPerform env session (Reached session known called) (Reached session known called)
      True [operation] (fun _ => True) (do
        let _ ← operate env operation
        return ()) :=
  ((performs_operate env session operation).bind fun _ _ => Performs.pure trivial).congr
    (by simp) rfl

/-- The base class restores the persistent values and returns true. -/
theorem performs_persistent (name : String) :
    HandlersPerform env session (Reached session known called) (Reached session known called)
      True (persistentOperations env name) (· = true)
      (YangHandlerSysrepoUnlogged.initialise env name) := by
  unfold YangHandlerSysrepoUnlogged.initialise persistentOperations
  dsimp only
  split
  · rename_i empty
    have none : (env.values name).toList = [] := by
      rw [Std.ExtTreeMap.isEmpty_iff.mp empty]
      rfl
    rw [none]
    exact Performs.pure rfl
  · have loop : HandlersPerform env session (Reached session known called)
        (Reached session known called) (∀ entry ∈ (env.values name).toList, True)
        ((env.values name).toList.flatMap fun entry => [.setItemStr entry.1 entry.2])
        (fun _ => True) (forM (env.values name).toList fun entry => do
          let _ ← operate env (.setItemStr entry.1 entry.2)
          return ()) :=
      Performs.forM fun entry _ => performs_dropped env session (.setItemStr entry.1 entry.2)
    refine (loop.bind fun _ _ => performs_true env session).congr (by simp) ?_
    rw [List.append_nil]
    exact List.flatMap_pure_eq_map _ _

theorem performs_behind {name : String} {post : HandlersState content → Prop} {ready : Prop}
    {operations : List Operation} {rest : HandlersM content Bool}
    (behind : HandlersPerform env session (Reached session known called) post ready operations
      (· = true) rest) :
    HandlersPerform env session (Reached session known called) post ready
      (persistentOperations env name ++ operations) (· = true) (do
        if !(← YangHandlerSysrepoUnlogged.initialise env name) then return false
        rest) := by
  have next : ∀ value, value = true → HandlersPerform env session (Reached session known called)
      post ready operations (· = true) (if (!value) = true then pure false else rest) := by
    rintro value rfl
    exact behind
  exact ((performs_persistent env session name).bind next).congr (by simp) rfl

namespace IetfInterfacesHandler

/-- The leaves of an interface can be filled exactly when its numbers can be read. -/
theorem filled_iff (config : IYangConfig) (idx : Nat) (start : Filling) :
    (∃ filling, fillInterface config idx start = .ok () filling) ↔
      InterfaceReadable config idx := by
  unfold InterfaceReadable
  by_cases vlan : ifType config idx = "iana-if-type:l2vlan"
  · rw [if_pos vlan]
    unfold fillInterface
    simp [bind_eq_ok, vlan, addText_eq_ok_iff, addNumber_eq_ok_iff]
  · rw [if_neg vlan]
    simp only [fillInterface_eq_ok_iff config idx vlan]
    constructor
    · rintro ⟨-, l2Mtu, markings, -⟩
      exact ⟨l2Mtu, markings⟩
    · rintro ⟨l2Mtu, markings⟩
      exact ⟨_, l2Mtu, markings, rfl⟩

/-- The datastore that `addInterface` is given and leaves. -/
theorem performs_initialiseInterface (idx : Nat) :
    Performs (fun store => store.datastore.made) OperationRecord.Good
      (env.sysrepo.Succeeds session) (fun store => store.datastore.hasSession = session)
      (fun store => store.datastore.hasSession = session) (InterfaceReadable env.config idx)
      (interfaceOperations env.config idx) (fun _ => True)
      (initialiseInterface (createListEntry env) env.config idx) := by
  intro before holds
  have readable := filled_iff env.config idx ⟨∅, newInterface (ifName env.config idx)⟩
  unfold initialiseInterface addInterface interfaceOperations
  cases filled : fillInterface env.config idx ⟨∅, newInterface (ifName env.config idx)⟩ with
  | error exception filling =>
      have unreadable : ¬ InterfaceReadable env.config idx := by
        rw [← readable, filled]
        rintro ⟨_, same⟩
        cases same
      simp [bind_apply, filled, unreadable]
  | ok value filling =>
      have isReadable : InterfaceReadable env.config idx = True := by
        rw [← readable, filled]
        exact eq_true ⟨filling, rfl⟩
      have step := HandlerDatastore.performs_perform env.apply env.sysrepo session
        (.createListEntry (pathIf (ifName env.config idx)).pathRoot filling.dataCfg)
        before.datastore holds
      rw [isReadable]
      simp only [bind_apply, get_apply, writeEntry, createListEntry, filled]
      cases run : HandlerDatastore.perform env.apply env.sysrepo
          (.createListEntry (pathIf (ifName env.config idx)).pathRoot filling.dataCfg)
          before.datastore with
      | ok result datastore =>
          rw [run] at step
          simpa [run] using step
      | error exception datastore =>
          rw [run] at step
          simpa [run] using step

theorem performs_initialise :
    HandlersPerform env session (Reached session known called) (Reached session known called)
      (∀ idx ∈ List.range (numInterfaces env.config), InterfaceReadable env.config idx)
      (operations env) (· = true) (IetfInterfacesHandler.initialise env) := by
  have one : ∀ idx, HandlersPerform env session (Reached session known called)
      (Reached session known called) (InterfaceReadable env.config idx)
      (interfaceOperations env.config idx) (fun _ => True)
      (focus ofInterfaces (initialiseInterface (createListEntry env) env.config idx)) := by
    intro idx
    have focused := Performs.focus (Beside known called) ofInterfaces
      (performs_initialiseInterface env session idx) fun _ _ beside => beside
    exact focused.weaken (fun state => (reached_iff session state).mp)
      (fun state => (reached_iff session state).mpr) fun _ _ => trivial
  have loop := Performs.forM fun idx (_ : idx ∈ List.range (numInterfaces env.config)) => one idx
  exact performs_behind env session <| (loop.bind fun _ _ =>
    (performs_dropped env session _).bind fun _ _ =>
      (performs_dropped env session _).bind fun _ _ =>
        performs_true env session).congr (by simp) (by simp)

end IetfInterfacesHandler

namespace IetfNetconfAcmHandler

/-- The result of a rule's operation is a value only. -/
theorem performs_addRules (rules : AcmRules) :
    HandlersPerform env session (Reached session known called) (Reached session known called)
      True [rulesOperation env rules] (fun _ => True) (addRules env rules) := by
  have next : ∀ result : YangResult, True → HandlersPerform env session
      (Reached session known called) (Reached session known called) True [] (fun _ => True)
      (if result ≠ .OK then pure false else pure true) := by
    intro result _
    split <;> exact Performs.pure trivial
  exact ((performs_operate env session (rulesOperation env rules)).bind next).congr (by simp) rfl

theorem performs_initialise :
    HandlersPerform env session (Reached session known called) (Reached session known called)
      True (operations env) (· = true) (IetfNetconfAcmHandler.initialise env) := by
  have readOnly : HandlersPerform env session (Reached session known called)
      (Reached session known called) True [] (fun _ => True)
      (makeReadOnly (path "ietf-netconf-acm" "nacm")) :=
    Performs.modify (fun _ reached => ⟨reached.session, reached.known, reached.called,
      reached.uninitialised⟩) fun _ => rfl
  exact performs_behind env session <|
    ((performs_addRules env session .sudo).bind fun _ _ =>
      (performs_addRules env session .nms).bind fun _ _ =>
        (performs_addRules env session .fmpm).bind fun _ _ =>
          (performs_addRules env session .swm).bind fun _ _ =>
            (performs_addRules env session .smo).bind fun _ _ =>
              (performs_addRules env session .hybridodu).bind fun _ _ =>
                (performs_addRules env session .root).bind fun _ _ =>
                  readOnly.bind fun _ _ => (performs_dropped env session _).bind fun _ _ =>
                    (performs_dropped env session _).bind fun _ _ =>
                      Performs.pure (by simp)).congr (by simp) rfl

end IetfNetconfAcmHandler

namespace IetfNetconfServerHandler

theorem performs_initialise :
    HandlersPerform env session (Reached session known called) (Reached session known called)
      True (persistentOperations env "ietf-netconf-server") (· = true)
      (IetfNetconfServerHandler.initialise env) :=
  (performs_behind env session (performs_true env session)).congr Iff.rfl (List.append_nil _)

end IetfNetconfServerHandler

namespace OranModuleCapHandler

theorem performs_initialise :
    HandlersPerform env session (Reached session known called) (Reached session known called)
      True (operations env) (· = true) (OranModuleCapHandler.initialise env) :=
  performs_behind env session <| ((performs_dropped env session _).bind fun _ _ =>
    performs_true env session).congr (by simp) rfl

end OranModuleCapHandler

namespace OranProcessingElementHandler

/-- A write through the pointer of the map adds no element. -/
theorem mem_write {name other : String} {change : RuElement → RuElement} {elements : RuElements} :
    other ∈ (elements.write name change).mRuElements ↔ other ∈ elements.mRuElements := by
  unfold RuElements.write
  cases found : elements.mRuElements[name]? with
  | none => rfl
  | some ruElement =>
      have there : name ∈ elements.mRuElements := by
        rw [Std.ExtTreeMap.mem_iff_isSome_getElem?, found]
        rfl
      simp only [RuElements.insert, Std.ExtTreeMap.mem_insert, Std.LawfulEqCmp.compare_eq_iff_eq]
      constructor
      · rintro (rfl | member)
        · exact there
        · exact member
      · exact Or.inr

/-- The program returns exactly when it is ready, and adds no element. -/
def Exits (known : List String) (ready : Prop) (program : RuElementsM Unit) : Prop :=
  ∀ before : RuElements, (∀ other, other ∈ before.mRuElements ↔ other ∈ known) →
    match program before with
    | .ok _ after => ready ∧ ∀ other, other ∈ after.mRuElements ↔ other ∈ known
    | .error _ _ => ¬ ready

theorem exits_handOver (name : String) : Exits known True (modify (·.handOver name)) :=
  fun _ holds => ⟨trivial, holds⟩

theorem exits_write {ready : Prop} {rest : RuElementsM Unit} (name text : String)
    (change : RuElement → RuElement) (exits : Exits known ready rest) :
    Exits known ready
      (if text ≠ "" then (modify (·.write name change) >>= fun _ => rest) else rest) := by
  split
  · intro before holds
    rw [bind_ok (modify_apply _ before)]
    exact exits _ fun other => mem_write.trans (holds other)
  · exact exits

theorem exits_writeNumber {rest : RuElementsM Unit} (name text : String)
    (change : Int → RuElement → RuElement) (exits : Exits known True rest) :
    Exits known (text = "" ∨ ∃ number, stoi text = .ok number)
      (if text ≠ "" then (do
        let number ← stoiM text
        modify (·.write name (change number))
        rest) else rest) := by
  intro before holds
  by_cases absent : text = ""
  · have returns := exits before holds
    rw [if_neg (not_not_intro absent)]
    simpa [absent] using returns
  · rw [if_pos absent]
    cases read : stoi text with
    | ok number =>
        have returns := exits (before.write name (change number)) fun other =>
          mem_write.trans (holds other)
        simpa [stoiM, read, bind_apply] using returns
    | error exception => simp [stoiM, read, bind_apply, absent]

/-- `updateRuElement` returns exactly when the number of the VLAN can be read, and
then the handler has the element. -/
theorem updateRuElement_exits (name interface ruMac vlanId oduMac : String)
    {before : RuElements} (holds : ∀ other, other ∈ before.mRuElements ↔ other ∈ known) :
    match updateRuElement name interface ruMac vlanId oduMac before with
    | .ok _ after => VlanReadable vlanId (name ∈ known) ∧
        ∀ other, other ∈ after.mRuElements ↔ other ∈ name :: known
    | .error _ _ => ¬ VlanReadable vlanId (name ∈ known) := by
  unfold updateRuElement VlanReadable
  rw [bind_ok (get_apply before)]
  cases found : before.mRuElements[name]? with
  | none =>
      have new : name ∉ known := by
        rw [← holds, Std.ExtTreeMap.mem_iff_isSome_getElem?, found]
        simp
      cases read : stoi vlanId with
      | ok number =>
          simp [stoiM, read, bind_apply, RuElements.insert, RuElements.handOver, holds,
            Std.LawfulEqCmp.compare_eq_iff_eq, @eq_comm _ name]
      | error exception => simp [stoiM, read, bind_apply, new]
  | some ruElement =>
      have there : name ∈ known := by
        rw [← holds, Std.ExtTreeMap.mem_iff_isSome_getElem?, found]
        rfl
      have same : ∀ other, other ∈ name :: known ↔ other ∈ known := by
        intro other
        simp only [List.mem_cons, or_iff_right_iff_imp]
        rintro rfl
        exact there
      simp only [there, true_and, same]
      exact exits_write name interface _ (exits_write name ruMac _
        (exits_writeNumber name vlanId _ (exits_write name oduMac _ (exits_handOver name))))
        before holds

/-- The entry of an element is stored before its number is read. -/
theorem performs_addRuProcessingElementConfig (idx : Nat) (transportSessionType : String) :
    HandlersPerform env session (Reached session known called)
      (Reached session (elementName env.config idx :: known) called)
      (VlanReadable (ethLeaf env.config idx "/leaf-vlan-id")
        (elementName env.config idx ∈ known)) [elementOperation env idx] (fun _ => True)
      (addRuProcessingElementConfig env idx transportSessionType) := by
  have update : HandlersPerform env session (Reached session known called)
      (Reached session (elementName env.config idx :: known) called)
      (VlanReadable (ethLeaf env.config idx "/leaf-vlan-id")
        (elementName env.config idx ∈ known)) [] (fun _ => True)
      (focus ofElements (updateRuElement (elementName env.config idx)
        (interfaceName env.config idx) (ethLeaf env.config idx "/leaf-ru-mac-address")
        (ethLeaf env.config idx "/leaf-vlan-id")
        (ethLeaf env.config idx "/leaf-o-du-mac-address"))) := by
    refine Performs.unrecorded fun before reached => ?_
    have exit := updateRuElement_exits (elementName env.config idx)
      (interfaceName env.config idx) (ethLeaf env.config idx "/leaf-ru-mac-address")
      (ethLeaf env.config idx "/leaf-vlan-id") (ethLeaf env.config idx "/leaf-o-du-mac-address")
      reached.known
    rw [focus]
    split at exit
    · rename_i run
      rw [ofElements, run]
      exact ⟨exit.1, ⟨reached.session, exit.2, reached.called, reached.uninitialised⟩,
        trivial, rfl⟩
    · rename_i run
      rw [ofElements, run]
      exact exit
  exact ((performs_operate env session (elementOperation env idx)).bind fun _ _ => update).congr
    (by simp) rfl

/-- The names that the handler has behind the loop. -/
def knownAfter (config : IYangConfig) (known : List String) (steps : List Nat) : List String :=
  steps.foldl (fun known idx => elementName config idx :: known) known

theorem performs_elements (transportSessionType : String) (steps : List Nat) :
    HandlersPerform env session (Reached session known called)
      (Reached session (knownAfter env.config known steps) called)
      (ElementsReadable env.config known steps) (steps.map (elementOperation env))
      (fun _ => True)
      (forM steps fun idx => addRuProcessingElementConfig env idx transportSessionType) := by
  induction steps generalizing known with
  | nil => exact fun before reached => ⟨reached, trivial, told_nothing _⟩
  | cons idx steps ih =>
      rw [List.forM_cons]
      exact (performs_addRuProcessingElementConfig env session idx transportSessionType).bind
        fun _ _ => ih

theorem performs_initialise :
    HandlersPerform env session (Reached session known called)
      (Reached session
        (knownAfter env.config known (List.range (numRuElements env.config))) called)
      (ElementsReadable env.config known (List.range (numRuElements env.config)))
      (operations env) (· = true) (OranProcessingElementHandler.initialise env) :=
  performs_behind env session <| ((performs_operate env session _).bind fun _ _ =>
    (performs_elements env session _ _).bind fun _ _ =>
      (performs_dropped env session _).bind fun _ _ =>
        (performs_dropped env session _).bind fun _ _ =>
          performs_true env session).congr (by simp) rfl

end OranProcessingElementHandler

namespace OranUplaneConfHandler

theorem returns_initialiseLinks (read : UplaneEnv) (txrx endpointLeaf carrierLeaf : String)
    (direction : Direction) :
    Returns (initialiseLinks read txrx endpointLeaf carrierLeaf
      (OranYangCarrierMgr.updateLink direction)) := by
  have update : ∀ name endpoint carrierName,
      Returns (OranYangCarrierMgr.updateLink direction name endpoint carrierName) :=
    fun _ _ _ => Returns.focus _ (Returns.modify _)
  refine Returns.forM fun entry => Returns.forM fun value => ?_
  exact Returns.ite (fun _ => update _ _ _) fun _ =>
    Returns.ite (fun _ => update _ _ _) fun _ => Returns.pure _

theorem returns_initialiseCarriers (read : UplaneEnv) (txrx : String) (direction : Direction) :
    Returns (initialiseCarriers read txrx
      (updateCarrier direction (OranYangCarrierMgr.updateCarrier direction))) := by
  have managed : ∀ name stateFunc,
      Returns (OranYangCarrierMgr.updateCarrier direction name stateFunc) := by
    intro name stateFunc
    refine Returns.bind Returns.get fun state => ?_
    exact Returns.ite (fun _ => Returns.pure _) fun _ => Returns.focus _ (Returns.modify _)
  refine Returns.forM fun entry => Returns.bind Returns.get fun state => ?_
  refine Returns.ite (fun _ => Returns.pure _) fun _ => ?_
  exact (Returns.focus _ (Returns.modify _)).bind fun _ => managed _ _

/-- A reading whose values only the carrier manager gets. -/
theorem performs_initialiseFrom (xpath : String) {loop : UplaneEnv → UplaneM Unit}
    (returns : ∀ read, Returns (loop read)) :
    HandlersPerform env session (Reached session known called) (Reached session known called)
      True [.getItems xpath] (fun _ => True) (initialiseFrom env xpath loop) := by
  have looked : HandlersPerform env session (Reached session known called)
      (Reached session known called) True [] (fun _ => True) get :=
    Performs.silent fun before reached => ⟨before, before, rfl, reached, trivial, rfl⟩
  have read : HandlersPerform env session (Reached session known called)
      (Reached session known called) True [.getItems xpath] (fun _ => True)
      (readValues env xpath) :=
    (looked.bind fun _ _ => (performs_operate env session (.getItems xpath)).bind fun _ _ =>
      Performs.pure trivial).congr (by simp) rfl
  have looped : ∀ values, HandlersPerform env session (Reached session known called)
      (Reached session known called) True [] (fun _ => True)
      (focus ofUplane (loop ⟨env.hal, ⟨fun _ => values⟩⟩)) := by
    intro values
    refine Performs.silent fun before reached => ?_
    obtain ⟨value, after, run⟩ := returns ⟨env.hal, ⟨fun _ => values⟩⟩ before.uplane
    exact ⟨value, _, focus_ok ofUplane run, ⟨reached.session, reached.known, reached.called,
      reached.uninitialised⟩, trivial, rfl⟩
  exact (read.bind fun values _ => looped values).congr (by simp) rfl

theorem performs_initialise :
    HandlersPerform env session (Reached session known called) (Reached session known called)
      True (operations env) (· = true) (initialiseHandler env) :=
  performs_behind env session <| ((performs_dropped env session _).bind fun _ _ =>
    (performs_dropped env session _).bind fun _ _ =>
      (performs_initialiseFrom env session _ fun read =>
        returns_initialiseLinks read _ _ _ .tx).bind fun _ _ =>
      (performs_initialiseFrom env session _ fun read =>
        returns_initialiseLinks read _ _ _ .rx).bind fun _ _ =>
      (performs_initialiseFrom env session _ fun read =>
        returns_initialiseCarriers read _ .tx).bind fun _ _ =>
      (performs_initialiseFrom env session _ fun read =>
        returns_initialiseCarriers read _ .rx).bind fun _ _ =>
          performs_true env session).congr (by simp) rfl

end OranUplaneConfHandler

namespace OranUserMgmtHandler

theorem performs_initialise :
    HandlersPerform env session (Reached session known called) (Reached session known called)
      True (operations env) (· = true) (OranUserMgmtHandler.initialise env) := by
  have kept : HandlersPerform env session (Reached session known called)
      (Reached session known called) True [] (fun _ => True)
      (modify fun state => { state with mRpcCallbacks := state.mRpcCallbacks ++
        [YangHandlerSysrepoUnlogged.path "o-ran-usermgmt" "chg-password"] }) :=
    Performs.modify (fun _ reached => ⟨reached.session, reached.known, reached.called,
      reached.uninitialised⟩) fun _ => rfl
  have registered : HandlersPerform env session (Reached session known called)
      (Reached session known called) True
      [.rpcSubscribe (YangHandlerSysrepoUnlogged.path "o-ran-usermgmt" "chg-password")]
      (fun _ => True) (registerRpc env "o-ran-usermgmt" "chg-password") :=
    ((performs_operate env session _).bind fun _ _ => kept).congr (by simp) rfl
  exact performs_behind env session <| (registered.bind fun _ _ =>
    performs_true env session).congr (by simp) rfl

end OranUserMgmtHandler

namespace YangHandlerMgr

theorem performs_cons {ready readyThen : Prop} {operations operationsThen : List Operation}
    {knownThen : List String} {post : HandlersState content → Prop}
    {handler : YangHandler content} {handlers : List (YangHandler content)}
    (one : HandlersPerform env session (Reached session known (called ++ [handler.name]))
      (Reached session knownThen (called ++ [handler.name])) ready operations (· = true)
      handler.initialise)
    (others : HandlersPerform env session
      (Reached session knownThen (called ++ [handler.name])) post readyThen operationsThen
      (· = true) (handlers.foldlM initialiseOne true)) :
    HandlersPerform env session (Reached session known called) post (ready ∧ readyThen)
      (operations ++ operationsThen) (· = true)
      ((handler :: handlers).foldlM initialiseOne true) := by
  have call : HandlersPerform env session (Reached session known called)
      (Reached session known (called ++ [handler.name])) True [] (fun _ => True)
      (modify fun state => { state with called := state.called ++ [handler.name] }) :=
    Performs.modify (fun state reached => ⟨reached.session, reached.known,
      congrArg (· ++ [handler.name]) reached.called, reached.uninitialised⟩) fun _ => rfl
  have result : ∀ value, value = true → HandlersPerform env session
      (Reached session knownThen (called ++ [handler.name]))
      (Reached session knownThen (called ++ [handler.name])) True [] (· = true)
      (pure (true && value)) := by
    rintro value rfl
    exact performs_true env session
  have first : HandlersPerform env session (Reached session known called)
      (Reached session knownThen (called ++ [handler.name])) ready operations (· = true)
      (initialiseOne true handler) :=
    (call.bind fun _ _ => one.bind result).congr (by simp) (by simp)
  have next : ∀ value, value = true → HandlersPerform env session
      (Reached session knownThen (called ++ [handler.name])) post readyThen operationsThen
      (· = true) (handlers.foldlM initialiseOne value) := by
    rintro value rfl
    exact others
  rw [List.foldlM_cons]
  exact first.bind next

/-- What an initialisation of the handlers does, from the constructed ones on. -/
theorem performs_initialise :
    HandlersPerform env session (Reached session [] [])
      (fun state => state.called = (OranYangHandlerMgr.mHandlers env).map YangHandler.name ∧
        state.mInitialised = true)
      (ConfigReadable env.config) (operations env) (· = true) (initialise env) := by
  have carriers : ∀ ok known, ok = true → HandlersPerform env session
      (Reached session known ((OranYangHandlerMgr.mHandlers env).map YangHandler.name))
      (fun state => state.called = (OranYangHandlerMgr.mHandlers env).map YangHandler.name ∧
        state.mInitialised = true) True [] (· = true) (do
          return ok && (← OranYangCarrierMgr.initialise)) := by
    rintro ok known rfl
    refine Performs.silent fun before reached => ?_
    refine ⟨true, { before with mInitialised := true }, ?_, ⟨reached.called, rfl⟩, rfl, rfl⟩
    simp [OranYangCarrierMgr.initialise, bind_apply, map_apply, reached.uninitialised]
  have none : ∀ known, HandlersPerform env session
      (Reached session known ((OranYangHandlerMgr.mHandlers env).map YangHandler.name))
      (Reached session known ((OranYangHandlerMgr.mHandlers env).map YangHandler.name)) True []
      (· = true) (([] : List (YangHandler content)).foldlM initialiseOne true) :=
    fun _ => performs_true env session
  have handlers : HandlersPerform env session (Reached session [] [])
      (Reached session _ ((OranYangHandlerMgr.mHandlers env).map YangHandler.name)) _ _ (· = true)
      ((OranYangHandlerMgr.mHandlers env).foldlM initialiseOne true) :=
    performs_cons env session (IetfInterfacesHandler.performs_initialise env session) <|
    performs_cons env session (IetfNetconfAcmHandler.performs_initialise env session) <|
    performs_cons env session (IetfNetconfServerHandler.performs_initialise env session) <|
    performs_cons env session (OranModuleCapHandler.performs_initialise env session) <|
    performs_cons env session (OranProcessingElementHandler.performs_initialise env session) <|
    performs_cons env session (OranUplaneConfHandler.performs_initialise env session) <|
    performs_cons env session (OranUserMgmtHandler.performs_initialise env session) <|
    none _
  exact (handlers.bind fun ok => carriers ok _).congr (by simp [ConfigReadable])
    (by simp [operations])

variable {env} {datastore : EditedDatastore content}

theorem reached_constructed :
    Reached (datastore.sessionOf 0).isSome [] [] (constructed datastore) :=
  ⟨rfl, by simp [constructed, RuElements.constructed], rfl, rfl⟩

theorem noFailure_of_reported (reported : Reported env datastore) :
    ConfigReadable env.config ∧ NoFailure env datastore := by
  obtain ⟨ok, after, run, reports, -, -⟩ := reported
  have performs := performs_initialise env (datastore.sessionOf 0).isSome (constructed datastore)
    reached_constructed
  rw [run] at performs
  obtain ⟨-, isTrue, records, made, -, tells⟩ := performs
  have same : after.interfaces.datastore.made = records := made
  refine tells.mp ?_
  rw [← same]
  exact reports.mp isTrue

theorem reported_of_noFailure (readable : ConfigReadable env.config)
    (noFailure : NoFailure env datastore) : Reported env datastore := by
  have performs := performs_initialise env (datastore.sessionOf 0).isSome (constructed datastore)
    reached_constructed
  unfold Reported
  cases run : initialise env (constructed datastore) with
  | ok ok after =>
      rw [run] at performs
      obtain ⟨⟨called, initialised⟩, isTrue, records, made, -, tells⟩ := performs
      have same : after.interfaces.datastore.made = records := made
      have good := tells.mpr ⟨readable, noFailure⟩
      rw [← same] at good
      exact ⟨ok, after, rfl, ⟨fun _ => good, fun _ => isTrue⟩, called, initialised⟩
  | error exception after =>
      rw [run] at performs
      exact absurd ⟨readable, noFailure⟩ performs

/-- `initialise` reports its operations exactly when the configuration can be read and
none of them fails. -/
theorem reported_iff (env : HandlerEnv content) (datastore : EditedDatastore content) :
    Reported env datastore ↔ ConfigReadable env.config ∧ NoFailure env datastore :=
  ⟨noFailure_of_reported, fun holds => reported_of_noFailure holds.1 holds.2⟩

/-- Handlers without a configuration, whose third operation is the one that adds the
rules of the group sudo, which is not authorised. -/
def refusedRules : HandlerEnv (List Edit) where
  apply := EditedDatastore.log
  sysrepo := ⟨fun number _ => if number = 2 then .SR_ERR_UNAUTHORIZED else .SR_ERR_OK,
    fun _ => some []⟩
  hal _ _ := 0
  config := ⟨fun _ => "", fun _ => 0⟩
  values _ := ∅
  rules _ := ∅

/-- The rules that are refused end the initialisation. -/
theorem refused_rules_are_not_reported :
    ¬ ∀ (env : HandlerEnv (List Edit)) (datastore : EditedDatastore (List Edit)),
      Reported env datastore := by
  intro always
  obtain ⟨-, noFailure⟩ := noFailure_of_reported (always refusedRules EditedDatastore.logged)
  obtain ⟨-, -, third, -⟩ := noFailure
  exact absurd (third.2 0 (Nat.zero_le _)) (by decide)

end YangHandlerMgr

end Handlers

end OpenMplane
