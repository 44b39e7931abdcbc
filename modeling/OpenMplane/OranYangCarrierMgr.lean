import OpenMplane.UplaneConf

/-!
# The carrier manager

`OranYangCarrierMgr` keeps the links, the eaxc and compression records of the
endpoints, and adds the carriers to the leaf tree.  Each of its functions exists
once for receive and once for transmit.  The pairs are alike but for the
compression records, where the transmit function converts both values of a
two-part format whether they are there or not.
-/

namespace OpenMplane

open StatePrograms

/-- Convert a text and store the number. -/
def storeField {ρ : Type} (text : String) (store : ρ → Int → ρ) :
    EStateM StdException ρ Unit := do
  let value ← stoiM text
  modify fun record => store record value

/-- Convert a text and store the number, unless the text is empty. -/
def storeNonempty {ρ : Type} (text : String) (store : ρ → Int → ρ) :
    EStateM StdException ρ Unit :=
  if text = "" then pure () else storeField text store

namespace EAxcid

/-- The writes of `updateRxEndpointEaxc` and `updateTxEndpointEaxc`. -/
def update (oduPortBitmask bandSectorBitmask ccidBitmask ruPortBitmask eaxcId : String) :
    EStateM StdException EAxcid Unit := do
  storeNonempty oduPortBitmask fun eaxc value =>
    { eaxc with o_du_port_bitmask := castUInt16 value }
  storeNonempty bandSectorBitmask fun eaxc value =>
    { eaxc with band_sector_bitmask := castUInt16 value }
  storeNonempty ccidBitmask fun eaxc value =>
    { eaxc with ccid_bitmask := castUInt16 value }
  storeNonempty ruPortBitmask fun eaxc value =>
    { eaxc with ru_port_bitmask := castUInt16 value }
  storeNonempty eaxcId fun eaxc value =>
    { eaxc with eaxc_id := castUInt16 value }

end EAxcid

namespace DynCompConfig

/-- The writes of `updateRxEndpointDynCompConfig` and its transmit twin.  The
string whose text the record points to is freed when the statement ends. -/
def update (id : Int) (iqBitwidth compressionMethod : String) :
    EStateM StdException DynCompConfig Unit := do
  modify fun config => { config with id := castUInt16 id }
  storeNonempty iqBitwidth fun config value =>
    { config with iq_bitwidth := castUInt8 value }
  if compressionMethod ≠ "" then
    modify fun config => { config with compression_method := .freed compressionMethod }

end DynCompConfig

namespace Compression

section Union

def setExponent (compression : Compression) (value : Int) : Compression :=
  { compression with byte0 := castUInt8 value }

def setSresExponent (compression : Compression) (value : Int) : Compression :=
  { compression with byte0 := castUInt8 value }

def setBlockScalar (compression : Compression) (value : Int) : Compression :=
  { compression with byte0 := castUInt8 value }

def setCompBitWidth (compression : Compression) (value : Int) : Compression :=
  { compression with byte0 := castUInt8 value }

def setCompShift (compression : Compression) (value : Int) : Compression :=
  { compression with byte1 := castUInt8 value }

def setActiveBeamSpaceCoeficientMask (compression : Compression) (value : Int) :
    Compression :=
  { compression with byte0 := castUInt8 value }

def setBlockScaler (compression : Compression) (value : Int) : Compression :=
  { compression with byte1 := castUInt8 value }

def setCsf (compression : Compression) (value : Int) : Compression :=
  { compression with byte0 := castUInt8 value }

def setModCompScaler (compression : Compression) (value : Int) : Compression :=
  { compression with half1 := castUInt16 value }

def setSresCsf (compression : Compression) (value : Int) : Compression :=
  { compression with byte0 := castUInt8 value }

def setSresModCompScaler (compression : Compression) (value : Int) : Compression :=
  { compression with half1 := castUInt16 value }

end Union

/-- The first writes of both directions: the bit width and the type. -/
def updateCommon (iqBitwidth compressionType : String) :
    EStateM StdException Compression Unit := do
  storeNonempty iqBitwidth fun compression value =>
    { compression with iq_bitwidth := castUInt8 value }
  if compressionType = "STATIC" then
    modify fun compression => { compression with compression_type := .STATIC }
  else if compressionType = "DYNAMIC" then
    modify fun compression => { compression with compression_type := .DYNAMIC }

/-- The writes of `updateRxEndpointCompression`. -/
def updateRx (iqBitwidth compressionType compressionFormat val1 val2 : String) :
    EStateM StdException Compression Unit := do
  updateCommon iqBitwidth compressionType
  if compressionFormat = "block-floating-point" then
    storeField val1 setExponent
  else if compressionFormat = "block-floating-point-selective-re-sending" then
    storeField val1 setSresExponent
  else if compressionFormat = "block-scaling" then
    storeField val1 setBlockScalar
  else if compressionFormat = "u-law" then do
    storeNonempty val1 setCompBitWidth
    storeNonempty val2 setCompShift
  else if compressionFormat = "beam-space-compression" then do
    storeNonempty val1 setActiveBeamSpaceCoeficientMask
    storeNonempty val2 setBlockScaler
  else if compressionFormat = "modulation-compression" then do
    storeNonempty val1 setCsf
    storeNonempty val2 setModCompScaler
  else if compressionFormat = "modulation-compression-selective-re-sending" then do
    storeNonempty val1 setSresCsf
    storeNonempty val2 setSresModCompScaler

/-- The writes of `updateTxEndpointCompression`. -/
def updateTx (iqBitwidth compressionType compressionFormat val1 val2 : String) :
    EStateM StdException Compression Unit := do
  updateCommon iqBitwidth compressionType
  if compressionFormat = "block-floating-point" then
    storeField val1 setExponent
  else if compressionFormat = "block-floating-point-selective-re-sending" then
    storeField val1 setSresExponent
  else if compressionFormat = "block-scaling" then
    storeField val1 setBlockScalar
  else if compressionFormat = "u-law" then do
    storeField val1 setCompBitWidth
    storeField val2 setCompShift
  else if compressionFormat = "beam-space-compression" then do
    storeField val1 setActiveBeamSpaceCoeficientMask
    storeField val2 setBlockScalar
  else if compressionFormat = "modulation-compression" then do
    storeField val1 setCsf
    storeField val2 setModCompScaler
  else if compressionFormat = "modulation-compression-selective-re-sending" then do
    storeField val1 setSresCsf
    storeField val2 setSresModCompScaler

/-- The update function of a direction. -/
def update : Direction → String → String → String → String → String →
    EStateM StdException Compression Unit
  | .rx => updateRx
  | .tx => updateTx

end Compression

namespace OranYangCarrierMgr

variable (env : UplaneEnv) (direction : Direction)

/-- The map after `updateRxLink` or `updateTxLink`. -/
def linkMap (links : StdMap Link) (name endpoint carrierName : String) : StdMap Link :=
  let link := Link.mk name endpoint carrierName
  match links[name]? with
  | none => if link.empty then links else links.insert name link
  | some entry => if link.empty then links.erase name else links.insert name (entry.merge link)

/-- The common body of `updateRxLink` and `updateTxLink`. -/
def updateLink (name endpoint carrierName : String) : UplaneM Unit :=
  focus (UplaneState.mLinks.comp (TxRx.one direction)) <|
    modify fun links => linkMap links name endpoint carrierName

def updateRxLink : String → String → String → UplaneM Unit := updateLink .rx

def updateTxLink : String → String → String → UplaneM Unit := updateLink .tx

/-- The container that `updateRxCarrier` or `updateTxCarrier` adds. -/
def carrierContainer (carrierName : String) (stateFunc : StateFunc) :
    LeafContainer StateFunc :=
  .container (direction.txrx ++ "-array-carriers") <|
    LeafContainer.addLeafFunc (LeafContainer.addLeaf [] "name" carrierName) "state" stateFunc

/-- The common body of `updateRxCarrier` and `updateTxCarrier`. -/
def updateCarrier (carrierName : String) (stateFunc : StateFunc) : UplaneM Unit := do
  let state ← get
  if carrierName ∈ state.carrierMgr.mCarriers.get direction then return
  focus UplaneState.mCallback <|
    modify fun contents => contents ++ [carrierContainer direction carrierName stateFunc]

def updateRxCarrier : String → StateFunc → UplaneM Unit := updateCarrier .rx

def updateTxCarrier : String → StateFunc → UplaneM Unit := updateCarrier .tx

/-- The common body of `updateRxEndpointEaxc` and `updateTxEndpointEaxc`. -/
def updateEndpointEaxc (endpointName oduPortBitmask bandSectorBitmask ccidBitmask
    ruPortBitmask eaxcId : String) : UplaneM Unit := do
  let eaxc ← focus (UplaneState.mEndpointEaxcs.comp (TxRx.one direction)) <|
    updateRecord endpointName EAxcid.zero <|
      EAxcid.update oduPortBitmask bandSectorBitmask ccidBitmask ruPortBitmask eaxcId
  let _ ← callHal env (.updateEaxc direction endpointName eaxc)

def updateRxEndpointEaxc : String → String → String → String → String → String → UplaneM Unit :=
  updateEndpointEaxc env .rx

def updateTxEndpointEaxc : String → String → String → String → String → String → UplaneM Unit :=
  updateEndpointEaxc env .tx

/-- The common frame of `updateRxEndpointCompression` and
`updateTxEndpointCompression` around the writes of the direction. -/
def updateEndpointCompression (endpointName iqBitwidth compressionType compressionFormat
    val1 val2 : String) : UplaneM Unit := do
  let compression ← focus (UplaneState.mEndpointComps.comp (TxRx.one direction)) <|
    updateRecord endpointName Compression.zero <|
      Compression.update direction iqBitwidth compressionType compressionFormat val1 val2
  let _ ← callHal env (.updateEndpointCompression direction endpointName compression)

def updateRxEndpointCompression :
    String → String → String → String → String → String → UplaneM Unit :=
  updateEndpointCompression env .rx

def updateTxEndpointCompression :
    String → String → String → String → String → String → UplaneM Unit :=
  updateEndpointCompression env .tx

/-- The map of one direction after `updateRxEndpointDynCompConfig` or its twin:
the entry of the endpoint is created before the id is converted. -/
def updateDynComps (endpointName id iqBitwidth compressionMethod : String) :
    EStateM StdException (StdMap (Std.ExtTreeMap Int DynCompConfig)) DynCompConfig := fun map =>
  let configs := map.getD endpointName ∅
  match stoi id with
  | .error exception => .error exception (map.insert endpointName configs)
  | .ok idVal =>
      match DynCompConfig.update idVal iqBitwidth compressionMethod
          (configs.getD idVal DynCompConfig.zero) with
      | .ok _ config => .ok config (map.insert endpointName (configs.insert idVal config))
      | .error exception config =>
          .error exception (map.insert endpointName (configs.insert idVal config))

/-- The common body of `updateRxEndpointDynCompConfig` and
`updateTxEndpointDynCompConfig`. -/
def updateEndpointDynCompConfig (endpointName id iqBitwidth compressionMethod : String) :
    UplaneM Unit := do
  let config ← focus (UplaneState.mEndpointDynComps.comp (TxRx.one direction)) <|
    updateDynComps endpointName id iqBitwidth compressionMethod
  let _ ← callHal env (.updateEndpointCompressionDynConfig direction endpointName config)

def updateRxEndpointDynCompConfig : String → String → String → String → UplaneM Unit :=
  updateEndpointDynCompConfig env .rx

def updateTxEndpointDynCompConfig : String → String → String → String → UplaneM Unit :=
  updateEndpointDynCompConfig env .tx

end OranYangCarrierMgr

end OpenMplane
