import OpenMplane.HandlerCallback
import OpenMplane.OranYangCarrierMgr

/-!
# The handler of `o-ran-uplane-conf`

`OranUplaneConfHandler` reads changed leaves by the list they stand in: links,
array carriers and low-level endpoints.  A transaction that activates a carrier
is applied leaf by leaf while it is validated, and once more when it is done.
-/

namespace OpenMplane

open StatePrograms

inductive ValuePhase
  | VALUE_VALIDATE
  | VALUE_APPLY
  deriving DecidableEq

namespace OranUplaneConfHandler

/-- `mCallback->path()`. -/
def callbackPath : String := "/o-ran-uplane-conf:user-plane-configuration"

section Endpoints

variable (env : UplaneEnv)

/-- The arguments behind the endpoint name that `handleEaxc` calls its update
function with, by the leaf. -/
def eaxcArguments (leaf value : String) :
    Option (String × String × String × String × String) :=
  if leaf = "o-du-port-bitmask" then some (value, "", "", "", "")
  else if leaf = "band-sector-bitmask" then some ("", value, "", "", "")
  else if leaf = "ccid-bitmask" then some ("", "", value, "", "")
  else if leaf = "ru-port-bitmask" then some ("", "", "", value, "")
  else if leaf = "eaxc-id" then some ("", "", "", "", value)
  else none

def handleEaxc (endpointName leaf value : String) (direction : Direction) : UplaneM Unit :=
  match eaxcArguments leaf value, direction with
  | none, _ => pure ()
  | some (odu, bandSector, ccid, ruPort, eaxcId), .rx =>
      OranYangCarrierMgr.updateRxEndpointEaxc env endpointName odu bandSector ccid ruPort eaxcId
  | some (odu, bandSector, ccid, ruPort, eaxcId), .tx =>
      OranYangCarrierMgr.updateTxEndpointEaxc env endpointName odu bandSector ccid ruPort eaxcId

/-- The arguments behind the id that `handleDynCompConfig` calls its update
function with. -/
def dynCompArguments (leaf value : String) : Option (String × String) :=
  if leaf = "iq-bitwidth" then some (value, "")
  else if leaf = "compression-method" then some ("", value)
  else none

def handleDynCompConfig (endpointName id leaf value : String) (direction : Direction) :
    UplaneM Unit :=
  match dynCompArguments leaf value, direction with
  | none, _ => pure ()
  | some (iqBitwidth, compressionMethod), .rx =>
      OranYangCarrierMgr.updateRxEndpointDynCompConfig env endpointName id iqBitwidth
        compressionMethod
  | some (iqBitwidth, compressionMethod), .tx =>
      OranYangCarrierMgr.updateTxEndpointDynCompConfig env endpointName id iqBitwidth
        compressionMethod

/-- The bit width, type, format and two values that `handleCompression` calls
its update function with. -/
def compressionArguments (leaf value : String) :
    Option (String × String × String × String × String) :=
  if leaf = "iq-bitwidth" then some (value, "", "", "", "")
  else if leaf = "compression-type" then some ("", value, "", "", "")
  else if leaf = "exponent" then some ("", "", "block-floating-point", value, "")
  else if leaf = "sres-exponent" then
    some ("", "", "block-floating-point-selective-re-sending", value, "")
  else if leaf = "block-scalar" then some ("", "", "block-scaling", value, "")
  else if leaf = "comp-bit-width" then some ("", "", "u-law", value, "")
  else if leaf = "comp-shift" then some ("", "", "u-law", "", value)
  else if leaf = "active-beam-space-coeficient-mask" then
    some ("", "", "beam-space-compression", value, "")
  else if leaf = "block-scaler" then some ("", "", "beam-space-compression", "", value)
  else if leaf = "csf" then some ("", "", "modulation-compression", value, "")
  else if leaf = "mod-comp-scaler" then some ("", "", "modulation-compression", "", value)
  else if leaf = "sres-csf" then
    some ("", "", "modulation-compression-selective-re-sending", value, "")
  else if leaf = "sres-mod-comp-scaler" then
    some ("", "", "modulation-compression-selective-re-sending", "", value)
  else none

def handleCompression (endpointName leaf value : String) (direction : Direction) :
    UplaneM Unit :=
  match compressionArguments leaf value, direction with
  | none, _ => pure ()
  | some (iqBitwidth, compressionType, compressionFormat, val1, val2), .rx =>
      OranYangCarrierMgr.updateRxEndpointCompression env endpointName iqBitwidth
        compressionType compressionFormat val1 val2
  | some (iqBitwidth, compressionType, compressionFormat, val1, val2), .tx =>
      OranYangCarrierMgr.updateTxEndpointCompression env endpointName iqBitwidth
        compressionType compressionFormat val1 val2

/-- Whether a path has the part `/compression/`. -/
def inCompression (xpath : String) : Bool :=
  "/compression/".toList <:+: xpath.toList

/-- The body of `processValue` for a leaf of a low-level endpoint.  It returns
the four output variables of the list readers, which `listIndexN` may change. -/
def processEndpoint (direction : Direction) (param : YangParam) (held : ListIndex)
    (leaf value xpath : String) : UplaneM ListIndex := do
  let endpointName := held.value
  if ¬ inCompression xpath then do
    emit (.handed param.name (.handleEaxc held.value leaf value direction))
    handleEaxc env held.value leaf value direction
    return held
  else
    let nested := listIndexN param.name held 2
    if nested.found then do
      emit (.handed param.name (.handleDynCompConfig endpointName nested.value leaf value
        direction))
      handleDynCompConfig env endpointName nested.value leaf value direction
      return nested
    else do
      emit (.handed param.name (.handleCompression nested.value leaf value direction))
      handleCompression env nested.value leaf value direction
      return nested

end Endpoints

section Carriers

variable (env : UplaneEnv)

def getArrayCarrier (txrx carrierName : String) : StdMap YangParam :=
  SysrepoUtils.getParams (RadioDatastoreSysrepo.getItems env.session)
    (callbackPath ++ "/" ++ txrx ++ "-array-carriers[name='" ++ carrierName ++ "']//.")

/-- The common body of `updateRxCarrier` and `updateTxCarrier` of the handler. -/
def updateCarrier (direction : Direction)
    (managed : String → StateFunc → UplaneM Unit) (carrierName : String) : UplaneM Unit := do
  let state ← get
  if carrierName ∈ state.handler.mCarrierState.get direction then return
  focus (UplaneState.mCarrierState.comp (TxRx.one direction)) <|
    modify fun states => states.insert carrierName "DISABLED"
  managed carrierName ⟨direction, carrierName⟩

def updateRxCarrier : String → UplaneM Unit :=
  updateCarrier .rx OranYangCarrierMgr.updateRxCarrier

def updateTxCarrier : String → UplaneM Unit :=
  updateCarrier .tx OranYangCarrierMgr.updateTxCarrier

/-- The leaf of a carrier that holds its gain. -/
def gainLeaf : Direction → String
  | .rx => "gain-correction"
  | .tx => "gain"

/-- The hardware call of `handleActivate` for a carrier, with the values the
running datastore has. -/
def stateChange (direction : Direction) (name value : String) (phase : ValuePhase) :
    HalCall :=
  let carrierData := getArrayCarrier env direction.txrx name
  .carrierStateChange direction name
    (SysrepoUtils.paramValUInt64 carrierData "channel-bandwidth")
    (SysrepoUtils.paramValUInt64 carrierData "center-of-channel-bandwidth")
    (SysrepoUtils.paramValDecimal64 carrierData (gainLeaf direction))
    value (phase = .VALUE_APPLY)

/-- The body of `handleActivate` for one of the two carrier lists. -/
def activate (direction : Direction) (name leaf value : String) (phase : ValuePhase) :
    UplaneM SrError := do
  if leaf ≠ "active" then return .ok
  let ret ← callHal env (stateChange env direction name value phase)
  if ret ≠ 0 then return .invalArg
  return .ok

def handleActivate (param : YangParam) (leaf value : String) (phase : ValuePhase) :
    UplaneM SrError :=
  let held := listIndex param.name
  if held.listName = "rx-array-carriers" then activate env .rx held.value leaf value phase
  else if held.listName = "tx-array-carriers" then activate env .tx held.value leaf value phase
  else return .ok

/-- `mRxCarrierState[index]` or `mTxCarrierState[index]`: a name that is not
there is inserted with an empty state. -/
def carrierStateAt (direction : Direction) (index : String) : UplaneM String := do
  let state ← get
  match (state.handler.mCarrierState.get direction)[index]? with
  | some current => return current
  | none =>
      focus (UplaneState.mCarrierState.comp (TxRx.one direction)) <|
        modify fun states => states.insert index ""
      return ""

end Carriers

section Values

variable (env : UplaneEnv)

/-- The body of `processValue` for a link. -/
def processLink (endpointLeaf carrierLeaf : String)
    (update : String → String → String → UplaneM Unit) (index leaf value : String) :
    UplaneM SrError := do
  let endpoint := if leaf = endpointLeaf then value else ""
  let carrierName := if leaf = carrierLeaf then value else ""
  if endpoint = "" ∧ carrierName = "" then return .invalArg
  update index endpoint carrierName
  return .ok

/-- The body of `processValue` for an array carrier. -/
def processCarrier (direction : Direction) (update : String → UplaneM Unit)
    (param : YangParam) (index leaf value : String) : UplaneM SrError := do
  if leaf = "name" then
    update value
    return .ok
  if leaf ≠ "active" then return .ok
  if value = "INACTIVE" then
    let current ← carrierStateAt direction index
    if current = "DISABLED" then return .ok
  handleActivate env param leaf value .VALUE_APPLY

def processValue (param : YangParam) (leaf value xpath : String) : UplaneM SrError := do
  let held := listIndex param.name
  if held.listName = "low-level-rx-links" then
    processLink "low-level-rx-endpoint" "rx-array-carrier" OranYangCarrierMgr.updateRxLink
      held.value leaf value
  else if held.listName = "low-level-tx-links" then
    processLink "low-level-tx-endpoint" "tx-array-carrier" OranYangCarrierMgr.updateTxLink
      held.value leaf value
  else if held.listName = "rx-array-carriers" then
    processCarrier env .rx updateRxCarrier param held.value leaf value
  else if held.listName = "tx-array-carriers" then
    processCarrier env .tx updateTxCarrier param held.value leaf value
  else do
    let held ←
      if held.listName = "low-level-rx-endpoints" then
        processEndpoint env .rx param held leaf value xpath
      else pure held
    -- a list nested in a receive endpoint has its name read here
    let _ ←
      if held.listName = "low-level-tx-endpoints" then
        processEndpoint env .tx param held leaf value xpath
      else pure held
    return .ok

def validateValue (param : YangParam) (leaf value : String) : UplaneM SrError :=
  if leaf ≠ "active" then return .ok
  else if value ≠ "ACTIVE" then return .ok
  else handleActivate env param leaf value .VALUE_VALIDATE

/-- `OranUplaneConfHandler::valueChange`; what `processValue` returns is
dropped. -/
def valueChange (xpath : String) (_oldValue : Option YangParam) (newValue : YangParam) :
    UplaneM Unit := do
  let _ ← processValue env newValue (leafName newValue.name)
    (YangParamUtils.toString newValue) xpath

/-- Run the steps until one returns something else than OK. -/
def untilError : List YangParam → (YangParam → UplaneM SrError) → UplaneM SrError
  | [], _ => return .ok
  | param :: params, step => do
      let rc ← step param
      if rc ≠ .ok then return rc
      untilError params step

/-- Whether a parameter is a leaf `active`. -/
def isActive (param : YangParam) : Bool :=
  leafName param.name = "active"

/-- Whether a parameter activates a carrier. -/
def activates (param : YangParam) : Bool :=
  isActive param && YangParamUtils.toString param = "ACTIVE"

def validate (params _deletedParams : List YangParam) : UplaneM SrError := do
  if ¬ params.any activates then return .ok
  let rc ← untilError params fun param =>
    if isActive param then return .ok
    else processValue env param (leafName param.name) (YangParamUtils.toString param) ""
  if rc ≠ .ok then return rc
  untilError params fun param =>
    if ¬ isActive param then return .ok
    else validateValue env param (leafName param.name) (YangParamUtils.toString param)

/-- The hooks of the handler; `paramDelete` is the one of the base class. -/
def hooks : Hooks UplaneState where
  valueChange := valueChange env
  paramDelete _ _ := pure ()
  validate := validate env

end Values

section Callbacks

/-- The notification of a carrier's new state. -/
def stateNotification (direction : Direction) (carrierName newState : String) : Effect :=
  let notifPath := "/o-ran-uplane-conf:" ++ direction.txrx ++ "-array-carriers-state-change"
  let carrierPath :=
    notifPath ++ "/" ++ direction.txrx ++ "-array-carriers[name='" ++ carrierName ++ "']"
  .notification notifPath
    [⟨carrierPath ++ "/name", .string carrierName⟩, ⟨carrierPath ++ "/state", .string newState⟩]

def carrierChangeNotification (direction : Direction)
    (carrierName currentState newState : String) : UplaneM Unit :=
  if newState = currentState then pure ()
  else emit (stateNotification direction carrierName newState)

/-- The `switch` of the carrier state callbacks. -/
def stateText : CarrierState → String
  | .DISABLED => "DISABLED"
  | .BUSY => "BUSY"
  | .READY => "READY"

/-- The common body of the carrier state callbacks. -/
def carrierStateCallback (direction : Direction) (update : String → UplaneM Unit)
    (name : String) (carrierState : CarrierState) : UplaneM Unit := do
  update name
  let oldState ← carrierStateAt direction name
  let newState := stateText carrierState
  focus (UplaneState.mCarrierState.comp (TxRx.one direction)) <|
    modify fun states => states.insert name newState
  carrierChangeNotification direction name oldState newState

def rxCarrierStateCallback : String → CarrierState → UplaneM Unit :=
  carrierStateCallback .rx updateRxCarrier

def txCarrierStateCallback : String → CarrierState → UplaneM Unit :=
  carrierStateCallback .tx updateTxCarrier

end Callbacks

section Initialise

variable (env : UplaneEnv)

def getLinks (txrx : String) : StdMap (StdMap String) :=
  SysrepoUtils.getKeyValues (RadioDatastoreSysrepo.getItems env.session)
    (callbackPath ++ "/low-level-" ++ txrx ++ "-links//.")

/-- The loop of `initialise` over the links of one direction. -/
def initialiseLinks (txrx endpointLeaf carrierLeaf : String)
    (update : String → String → String → UplaneM Unit) : UplaneM Unit :=
  forM (getLinks env txrx).toList fun entry =>
    forM entry.2.toList fun value =>
      if value.1 = carrierLeaf then update entry.1 "" value.2
      else if value.1 = endpointLeaf then update entry.1 value.2 ""
      else pure ()

/-- The loop of `initialise` over the carriers of one direction. -/
def initialiseCarriers (txrx : String) (update : String → UplaneM Unit) : UplaneM Unit :=
  forM (SysrepoUtils.getKeyValues (RadioDatastoreSysrepo.getItems env.session)
    (callbackPath ++ "/" ++ txrx ++ "-array-carriers//.")).toList fun entry => update entry.1

/-- `OranUplaneConfHandler::initialise` once the base class is initialised. -/
def initialise : UplaneM Unit := do
  initialiseLinks env "tx" "low-level-tx-endpoint" "tx-array-carrier"
    OranYangCarrierMgr.updateTxLink
  initialiseLinks env "rx" "low-level-rx-endpoint" "rx-array-carrier"
    OranYangCarrierMgr.updateRxLink
  initialiseCarriers env "tx" updateTxCarrier
  initialiseCarriers env "rx" updateRxCarrier

end Initialise

end OranUplaneConfHandler

end OpenMplane
