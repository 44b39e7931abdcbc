import OpenMplane.HandlerDatastore
import OpenMplane.InterfaceMarkings
import OpenMplane.OranProcessingElementHandler
import OpenMplane.OranUplaneConfHandler

/-!
# The initialisation of the handlers

`YangHandlerMgr::initialise` initialises one handler after the other and ands
their results.  The handlers drop the results of their operations, those of the
access-control rules are ored to true, and writing a list entry throws.  What is
returned is therefore true whatever fails, and what throws ends it early.
-/

namespace OpenMplane

open OperationRecords StatePrograms

/-- The functions of `IetfNetconfAcmHandler` that add rules. -/
inductive AcmRules
  | sudo
  | nms
  | fmpm
  | swm
  | smo
  | hybridodu
  | root
  deriving DecidableEq

/-- What the handlers are initialised with: the configuration, the persistent values
of each module, the entries that each function adds for its rules, and how the
datastore and the hardware answer. -/
structure HandlerEnv (content : Type) where
  apply : content → Edit → content
  sysrepo : SysrepoRun
  hal : List Effect → HalCall → Int
  config : IYangConfig
  values : String → StdMap String
  rules : AcmRules → StdMap String

/-- The members of the handlers, and the handlers whose `initialise` was called. -/
structure HandlersState (content : Type) where
  interfaces : InterfaceStore (HandlerDatastore content)
  elements : RuElements
  uplane : UplaneState
  mReadOnlyPaths : List String
  mRpcCallbacks : List String
  mInitialised : Bool
  called : List String

variable {content : Type}

namespace HandlersState

def constructed (datastore : EditedDatastore content) : HandlersState content where
  interfaces := ⟨∅, 0, ⟨datastore, []⟩, []⟩
  elements := .constructed
  uplane := .constructed
  mReadOnlyPaths := []
  mRpcCallbacks := []
  mInitialised := false
  called := []

def ofInterfaces : Member (HandlersState content) (InterfaceStore (HandlerDatastore content)) where
  get state := state.interfaces
  put state part := { state with interfaces := part }
  get_put _ _ := rfl
  put_get _ := rfl
  put_put _ _ _ := rfl

def ofDatastore : Member (HandlersState content) (HandlerDatastore content) where
  get state := state.interfaces.datastore
  put state part := { state with interfaces := { state.interfaces with datastore := part } }
  get_put _ _ := rfl
  put_get _ := rfl
  put_put _ _ _ := rfl

/-- The members of the handler of the processing elements. -/
def ofElements : Member (HandlersState content) RuElements where
  get state := state.elements
  put state part := { state with elements := part }
  get_put _ _ := rfl
  put_get _ := rfl
  put_put _ _ _ := rfl

/-- The members of the handler of the user plane, and of the carrier manager. -/
def ofUplane : Member (HandlersState content) UplaneState where
  get state := state.uplane
  put state part := { state with uplane := part }
  get_put _ _ := rfl
  put_get _ := rfl
  put_put _ _ _ := rfl

end HandlersState

open HandlersState

abbrev HandlersM (content : Type) := EStateM StdException (HandlersState content)

section Source

variable (env : HandlerEnv content)

/-- An operation on the datastore. -/
def operate (operation : Operation) : HandlersM content YangResult :=
  focus ofDatastore (HandlerDatastore.perform env.apply env.sysrepo operation)

namespace YangHandlerSysrepoUnlogged

def path (name subpath : String) : String := "/" ++ name ++ ":" ++ subpath

def initialise (name : String) : HandlersM content Bool := do
  let values := env.values name
  if values.isEmpty then return true
  forM values.toList fun entry => do
    let _ ← operate env (.setItemStr entry.1 entry.2)
    return ()
  return true

def getItemsSubscribe (name xpath : String) : HandlersM content Unit := do
  let _ ← operate env (.getItemsSubscribe name xpath)
  return ()

/-- `YangHandlerSysrepoUnlogged::changeSubscribe` without an xpath. -/
def changeSubscribe (name : String) : HandlersM content Unit := do
  let _ ← operate env (.itemsChangeSubscribe name "")
  return ()

def makeReadOnly (xpath : String) : HandlersM content Unit :=
  modify fun state => { state with mReadOnlyPaths := state.mReadOnlyPaths ++ [xpath] }

def registerRpc (name rpcPath : String) : HandlersM content Unit := do
  let _ ← operate env (.rpcSubscribe (path name rpcPath))
  modify fun state => { state with mRpcCallbacks := state.mRpcCallbacks ++ [path name rpcPath] }

end YangHandlerSysrepoUnlogged

open YangHandlerSysrepoUnlogged

namespace IetfInterfacesHandler

def numInterfaces (config : IYangConfig) : Nat :=
  config.getNumOfListEntries "module-ietf-interfaces/container-interfaces/list-interface"

def createListEntry (xpath : String) (dataCfg : StdMap String) :
    EStateM StdException (HandlerDatastore content) YangResult :=
  HandlerDatastore.perform env.apply env.sysrepo (.createListEntry xpath dataCfg)

/-- `IetfInterfacesHandler::initialise`; the tree of state leaves is left out. -/
def initialise : HandlersM content Bool := do
  if !(← YangHandlerSysrepoUnlogged.initialise env "ietf-interfaces") then return false
  forM (List.range (numInterfaces env.config)) fun idx =>
    focus ofInterfaces (initialiseInterface (createListEntry env) env.config idx)
  getItemsSubscribe env "ietf-interfaces" (path "ietf-interfaces" "interfaces")
  changeSubscribe env "ietf-interfaces"
  return true

end IetfInterfacesHandler

namespace IetfNetconfAcmHandler

/-- What the functions that add rules share. -/
def addRules (rules : AcmRules) : HandlersM content Bool := do
  let result ← operate env (.createListEntry (path "ietf-netconf-acm" "nacm") (env.rules rules))
  if result ≠ .OK then return false
  return true

def addSudoRules : HandlersM content Bool := addRules env .sudo
def addNmsRules : HandlersM content Bool := addRules env .nms
def addFmpmRules : HandlersM content Bool := addRules env .fmpm
def addSwmRules : HandlersM content Bool := addRules env .swm
def addSmoRules : HandlersM content Bool := addRules env .smo
def addHybridoduRules : HandlersM content Bool := addRules env .hybridodu
def addRootRules : HandlersM content Bool := addRules env .root

/-- `IetfNetconfAcmHandler::initialise`; both sides of `|=` are evaluated. -/
def initialise : HandlersM content Bool := do
  if !(← YangHandlerSysrepoUnlogged.initialise env "ietf-netconf-acm") then return false
  let mut ok := true
  ok := ok || (← addSudoRules env)
  ok := ok || (← addNmsRules env)
  ok := ok || (← addFmpmRules env)
  ok := ok || (← addSwmRules env)
  ok := ok || (← addSmoRules env)
  ok := ok || (← addHybridoduRules env)
  ok := ok || (← addRootRules env)
  makeReadOnly (path "ietf-netconf-acm" "nacm")
  getItemsSubscribe env "ietf-netconf-acm" (path "ietf-netconf-acm" "nacm")
  changeSubscribe env "ietf-netconf-acm"
  return ok

end IetfNetconfAcmHandler

namespace IetfNetconfServerHandler

def initialise : HandlersM content Bool := do
  if !(← YangHandlerSysrepoUnlogged.initialise env "ietf-netconf-server") then return false
  return true

end IetfNetconfServerHandler

namespace OranModuleCapHandler

/-- `OranModuleCapHandler::createRuCapabilities` but for the tree of state leaves. -/
def createRuCapabilities : HandlersM content Bool := return true

/-- `OranModuleCapHandler::createBandCapabilities` but for the tree of state leaves. -/
def createBandCapabilities : HandlersM content Bool := return true

def initialise : HandlersM content Bool := do
  if !(← YangHandlerSysrepoUnlogged.initialise env "o-ran-module-cap") then return false
  if !(← createRuCapabilities) then return false
  if !(← createBandCapabilities) then return false
  getItemsSubscribe env "o-ran-module-cap" (path "o-ran-module-cap" "module-capability")
  return true

end OranModuleCapHandler

namespace OranProcessingElementHandler

def baseConfigPath : String := "module-o-ran-processing-element/container-processing-elements/"

def mPathParent : YangPath := [⟨"o-ran-processing-element", "processing-elements", []⟩]

def transportPath : YangPath := mPathParent ++ [⟨"", "transport-session-type", []⟩]

def elementPath (idx : Nat) : String := baseConfigPath ++ "list-ru-elements[" ++ idx.repr ++ "]"

def elementName (config : IYangConfig) (idx : Nat) : String :=
  config.getValue (elementPath idx ++ "/leaf-name")

def interfaceName (config : IYangConfig) (idx : Nat) : String :=
  config.getValue (elementPath idx ++ "/container-transport-flow" ++ "/leaf-interface-name")

/-- A leaf of the Ethernet flow in the configuration. -/
def ethLeaf (config : IYangConfig) (idx : Nat) (leaf : String) : String :=
  config.getValue (elementPath idx ++ "/container-transport-flow" ++ "/container-eth-flow" ++ leaf)

def pathTransportFlow (name : String) : YangPath :=
  [⟨"", "ru-elements", [("name", name)]⟩, ⟨"", "transport-flow", []⟩]

def pathEthFlow (name : String) : YangPath := pathTransportFlow name ++ [⟨"", "eth-flow", []⟩]

/-- The entry that `addRuProcessingElementConfig` stores. -/
def dataCfg (config : IYangConfig) (idx : Nat) : StdMap String :=
  let name := elementName config idx
  let interface := interfaceName config idx
  let dataCfg : StdMap String := if interface ≠ "" then
    (∅ : StdMap String).insert ((pathTransportFlow name).pathParam ++ "interface-name") interface
    else ∅
  ((dataCfg.insert ((pathEthFlow name).pathParam ++ "ru-mac-address")
      (ethLeaf config idx "/leaf-ru-mac-address")).insert
    ((pathEthFlow name).pathParam ++ "vlan-id") (ethLeaf config idx "/leaf-vlan-id")).insert
    ((pathEthFlow name).pathParam ++ "o-du-mac-address")
      (ethLeaf config idx "/leaf-o-du-mac-address")

def addRuProcessingElementConfig (idx : Nat) (_transportSessionType : String) :
    HandlersM content Unit := do
  let _ ← operate env (.createListEntry mPathParent.pathRoot (dataCfg env.config idx))
  focus ofElements (updateRuElement (elementName env.config idx) (interfaceName env.config idx)
    (ethLeaf env.config idx "/leaf-ru-mac-address") (ethLeaf env.config idx "/leaf-vlan-id")
    (ethLeaf env.config idx "/leaf-o-du-mac-address"))

def transportSessionType (config : IYangConfig) : String :=
  let configured := config.getValue (baseConfigPath ++ "leaf-transport-session-type")
  if configured = "" then "ETH-INTERFACE" else configured

def numRuElements (config : IYangConfig) : Nat :=
  config.getNumOfListEntries (baseConfigPath ++ "list-ru-elements")

/-- `OranProcessingElementHandler::initialise`; the tree of state leaves is left
out. -/
def initialise : HandlersM content Bool := do
  if !(← YangHandlerSysrepoUnlogged.initialise env "o-ran-processing-element") then return false
  let transportSessionType := transportSessionType env.config
  let _ ← operate env (.setItemStr transportPath.pathRoot transportSessionType)
  forM (List.range (numRuElements env.config)) fun idx =>
    addRuProcessingElementConfig env idx transportSessionType
  getItemsSubscribe env "o-ran-processing-element"
    (path "o-ran-processing-element" "processing-elements")
  changeSubscribe env "o-ran-processing-element"
  return true

end OranProcessingElementHandler

namespace OranUplaneConfHandler

/-- The values at an xpath, none for a result other than OK. -/
def readValues (xpath : String) : HandlersM content (Option (List SrVal)) := do
  let number := (← get).interfaces.datastore.made.length
  let result ← operate env (.getItems xpath)
  return if result = .OK then env.sysrepo.get_items number else none

/-- A loop of `initialise` over what it reads at an xpath. -/
def initialiseFrom (xpath : String) (loop : UplaneEnv → UplaneM Unit) :
    HandlersM content Unit := do
  let values ← readValues env xpath
  focus ofUplane (loop ⟨env.hal, ⟨fun _ => values⟩⟩)

/-- `OranUplaneConfHandler::initialise`. -/
def initialiseHandler : HandlersM content Bool := do
  if !(← YangHandlerSysrepoUnlogged.initialise env "o-ran-uplane-conf") then return false
  getItemsSubscribe env "o-ran-uplane-conf" callbackPath
  changeSubscribe env "o-ran-uplane-conf"
  initialiseFrom env (callbackPath ++ "/low-level-tx-links//.") fun read =>
    initialiseLinks read "tx" "low-level-tx-endpoint" "tx-array-carrier"
      OranYangCarrierMgr.updateTxLink
  initialiseFrom env (callbackPath ++ "/low-level-rx-links//.") fun read =>
    initialiseLinks read "rx" "low-level-rx-endpoint" "rx-array-carrier"
      OranYangCarrierMgr.updateRxLink
  initialiseFrom env (callbackPath ++ "/tx-array-carriers//.") fun read =>
    initialiseCarriers read "tx" updateTxCarrier
  initialiseFrom env (callbackPath ++ "/rx-array-carriers//.") fun read =>
    initialiseCarriers read "rx" updateRxCarrier
  return true

end OranUplaneConfHandler

namespace OranUserMgmtHandler

def initialise : HandlersM content Bool := do
  if !(← YangHandlerSysrepoUnlogged.initialise env "o-ran-usermgmt") then return false
  registerRpc env "o-ran-usermgmt" "chg-password"
  return true

end OranUserMgmtHandler

namespace OranYangCarrierMgr

/-- `OranYangCarrierMgr::initialise` but for the tree of state leaves. -/
def initialise : HandlersM content Bool := do
  if (← get).mInitialised then return true
  modify fun state => { state with mInitialised := true }
  return true

end OranYangCarrierMgr

/-- An `IYangHandler`, by the name of its module. -/
structure YangHandler (content : Type) where
  name : String
  initialise : HandlersM content Bool

/-- The handlers in the order in which `OranYangHandlerMgr` registers them. -/
def OranYangHandlerMgr.mHandlers : List (YangHandler content) :=
  [⟨"ietf-interfaces", IetfInterfacesHandler.initialise env⟩,
    ⟨"ietf-netconf-acm", IetfNetconfAcmHandler.initialise env⟩,
    ⟨"ietf-netconf-server", IetfNetconfServerHandler.initialise env⟩,
    ⟨"o-ran-module-cap", OranModuleCapHandler.initialise env⟩,
    ⟨"o-ran-processing-element", OranProcessingElementHandler.initialise env⟩,
    ⟨"o-ran-uplane-conf", OranUplaneConfHandler.initialiseHandler env⟩,
    ⟨"o-ran-usermgmt", OranUserMgmtHandler.initialise env⟩]

namespace YangHandlerMgr

/-- The loop body of `YangHandlerMgr::initialise`. -/
def initialiseOne (ok : Bool) (handler : YangHandler content) : HandlersM content Bool := do
  modify fun state => { state with called := state.called ++ [handler.name] }
  return ok && (← handler.initialise)

/-- `YangHandlerMgr::initialise`; both sides of `&=` are evaluated. -/
def initialise : HandlersM content Bool := do
  let ok ← (OranYangHandlerMgr.mHandlers env).foldlM initialiseOne true
  return ok && (← OranYangCarrierMgr.initialise)

end YangHandlerMgr

end Source

end OpenMplane
