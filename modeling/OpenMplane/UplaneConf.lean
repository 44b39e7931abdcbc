import OpenMplane.StatePrograms
import OpenMplane.YangParam

/-!
# The state of the user-plane configuration

The handler of `o-ran-uplane-conf` and the carrier manager keep their data in
pairs of maps, one for receive and one for transmit.  This file has the records
of `MplaneUplaneConf.h` they keep, the calls they make to the hardware
abstraction layer, and the state that their functions run on.
-/

namespace OpenMplane

open StatePrograms

inductive Direction
  | rx
  | tx
  deriving DecidableEq, Repr

namespace Direction

/-- The `txrx` argument of the handler's functions. -/
def txrx : Direction → String
  | .rx => "rx"
  | .tx => "tx"

end Direction

/-- A member kept once for receive and once for transmit. -/
structure TxRx (α : Type) where
  rx : α
  tx : α
  deriving DecidableEq

namespace TxRx

variable {α : Type}

def get (pair : TxRx α) : Direction → α
  | .rx => pair.rx
  | .tx => pair.tx

def set (pair : TxRx α) (direction : Direction) (value : α) : TxRx α :=
  match direction with
  | .rx => { pair with rx := value }
  | .tx => { pair with tx := value }

@[simp] theorem get_set_same (pair : TxRx α) (direction : Direction) (value : α) :
    (pair.set direction value).get direction = value := by
  cases direction <;> rfl

theorem get_set (pair : TxRx α) (direction other : Direction) (value : α) :
    (pair.set direction value).get other =
      if direction = other then value else pair.get other := by
  cases direction <;> cases other <;> rfl

@[simp] theorem set_get (pair : TxRx α) (direction : Direction) :
    pair.set direction (pair.get direction) = pair := by
  cases direction <;> rfl

@[simp] theorem set_set (pair : TxRx α) (direction : Direction) (first second : α) :
    (pair.set direction first).set direction second = pair.set direction second := by
  cases direction <;> rfl

def one (direction : Direction) : Member (TxRx α) α where
  get pair := pair.get direction
  put pair value := pair.set direction value
  get_put := by simp
  put_get := by simp
  put_put := by simp

theorem ext_get {first second : TxRx α}
    (equal : ∀ direction, first.get direction = second.get direction) : first = second := by
  have receive := equal .rx
  have transmit := equal .tx
  cases first
  cases second
  simp_all [get]

end TxRx

section Records

structure Link where
  mName : String
  mEndpointName : String
  mCarrierName : String
  deriving DecidableEq

namespace Link

def merge (link rhs : Link) : Link :=
  { link with
    mEndpointName := if rhs.mEndpointName ≠ "" then rhs.mEndpointName else link.mEndpointName
    mCarrierName := if rhs.mCarrierName ≠ "" then rhs.mCarrierName else link.mCarrierName }

def empty (link : Link) : Bool :=
  link.mEndpointName = "" ∧ link.mCarrierName = ""

end Link

/-- The conversion of an `int` to `uint8_t`. -/
def castUInt8 (value : Int) : UInt8 :=
  UInt8.ofNat (value % 2 ^ 8).toNat

/-- The conversion of an `int` to `uint16_t`. -/
def castUInt16 (value : Int) : UInt16 :=
  UInt16.ofNat (value % 2 ^ 16).toNat

/-- `e_axcid_t`. -/
structure EAxcid where
  o_du_port_bitmask : UInt16
  band_sector_bitmask : UInt16
  ccid_bitmask : UInt16
  ru_port_bitmask : UInt16
  eaxc_id : UInt16
  deriving DecidableEq

def EAxcid.zero : EAxcid := ⟨0, 0, 0, 0, 0⟩

inductive CompressionType
  | STATIC
  | DYNAMIC
  deriving DecidableEq

/-- `c_type_t`. -/
inductive CType
  | NO_COMPRESSION
  | BLOCK_FLOATING_POINT
  | BLOCK_FLOATING_POINT_SRES
  | BLOCK_SCALING
  | U_LAW
  | MODULATION
  | MODULATION_COMPRESSION
  | MODULATION_COMPRESSION_SRES
  deriving DecidableEq

/-- `compression_t`.  The members of its union all begin at `byte0`; the second
8-bit member of a two-part format is `byte1`, the 16-bit one is aligned to
`half1`. -/
structure Compression where
  iq_bitwidth : UInt8
  compression_type : CompressionType
  compression_format : CType
  byte0 : UInt8
  byte1 : UInt8
  half1 : UInt16
  deriving DecidableEq

/-- `std::make_shared<compression_t>()`. -/
def Compression.zero : Compression := ⟨0, .STATIC, .NO_COMPRESSION, 0, 0, 0⟩

/-- `dynamic_compression_configuration_t`. -/
structure DynCompConfig where
  id : UInt16
  iq_bitwidth : UInt8
  compression_method : CharPtr
  deriving DecidableEq

def DynCompConfig.zero : DynCompConfig := ⟨0, 0, .null⟩

/-- `carrier_state_t`. -/
inductive CarrierState
  | DISABLED
  | BUSY
  | READY
  deriving DecidableEq

end Records

/-- A call to the hardware abstraction layer. -/
inductive HalCall
  | carrierStateChange (direction : Direction) (name : String) (chbw center : UInt64)
      (gain : Double) (value : String) (do_apply : Bool)
  | updateEaxc (direction : Direction) (endpointName : String) (eaxc : EAxcid)
  | updateEndpointCompression (direction : Direction) (endpointName : String)
      (compression : Compression)
  | updateEndpointCompressionDynConfig (direction : Direction) (endpointName : String)
      (config : DynCompConfig)
  deriving DecidableEq

/-- A call of one of the three functions that `processValue` hands an endpoint
leaf to. -/
inductive HandlerCall
  | handleEaxc (endpointName leaf value : String) (direction : Direction)
  | handleDynCompConfig (endpointName id leaf value : String) (direction : Direction)
  | handleCompression (endpointName leaf value : String) (direction : Direction)
  deriving DecidableEq

/-- What an observer sees: the hardware calls with their results, the
notifications, and, for the changed leaf of that path, which function it was
handed to. -/
inductive Effect
  | hal (call : HalCall) (result : Int)
  | notification (notifPath : String) (params : List YangParam)
  | handed (xpath : String) (call : HandlerCall)
  deriving DecidableEq

/-- A leaf function of the leaf tree: it reads the state of a carrier. -/
structure StateFunc where
  direction : Direction
  carrierName : String
  deriving DecidableEq

/-- `LeafContainer`: a container, a leaf with a value, or a leaf whose value a
function gives. -/
inductive LeafContainer (Func : Type)
  | container (name : String) (contents : List (LeafContainer Func))
  | leaf (name value : String)
  | funcLeaf (name : String) (func : Func)

namespace LeafContainer

variable {Func : Type}

def name : LeafContainer Func → String
  | .container name _ | .leaf name _ | .funcLeaf name _ => name

/-- `addLeaf` of a value; an empty value is skipped. -/
def addLeaf (contents : List (LeafContainer Func)) (leafName leafValue : String) :
    List (LeafContainer Func) :=
  if leafValue = "" then contents else contents ++ [.leaf leafName leafValue]

/-- `addLeaf` of a function. -/
def addLeafFunc (contents : List (LeafContainer Func)) (leafName : String) (func : Func) :
    List (LeafContainer Func) :=
  contents ++ [.funcLeaf leafName func]

end LeafContainer

/-- The members of `OranUplaneConfHandler`. -/
structure OranUplaneConfHandler where
  mCallback : List (LeafContainer StateFunc)
  mCarrierState : TxRx (StdMap String)

/-- The members of `OranYangCarrierMgr` that the handler's calls reach. -/
structure OranYangCarrierMgr where
  mLinks : TxRx (StdMap Link)
  mCarriers : TxRx (List String)
  mEndpointComps : TxRx (StdMap Compression)
  mEndpointEaxcs : TxRx (StdMap EAxcid)
  mEndpointDynComps : TxRx (StdMap (Std.ExtTreeMap Int DynCompConfig))

/-- The handler, the carrier manager it uses, and the trace of effects. -/
structure UplaneState where
  handler : OranUplaneConfHandler
  carrierMgr : OranYangCarrierMgr
  trace : List Effect

/-- The objects as they are constructed. -/
def UplaneState.constructed : UplaneState where
  handler := ⟨[], ⟨∅, ∅⟩⟩
  carrierMgr := ⟨⟨∅, ∅⟩, ⟨[], []⟩, ⟨∅, ∅⟩, ⟨∅, ∅⟩, ⟨∅, ∅⟩⟩
  trace := []

namespace UplaneState

def mCallback : Member UplaneState (List (LeafContainer StateFunc)) where
  get state := state.handler.mCallback
  put state value := { state with handler := { state.handler with mCallback := value } }
  get_put _ _ := rfl
  put_get _ := rfl
  put_put _ _ _ := rfl

def mCarrierState : Member UplaneState (TxRx (StdMap String)) where
  get state := state.handler.mCarrierState
  put state value := { state with handler := { state.handler with mCarrierState := value } }
  get_put _ _ := rfl
  put_get _ := rfl
  put_put _ _ _ := rfl

def mLinks : Member UplaneState (TxRx (StdMap Link)) where
  get state := state.carrierMgr.mLinks
  put state value := { state with carrierMgr := { state.carrierMgr with mLinks := value } }
  get_put _ _ := rfl
  put_get _ := rfl
  put_put _ _ _ := rfl

def mEndpointComps : Member UplaneState (TxRx (StdMap Compression)) where
  get state := state.carrierMgr.mEndpointComps
  put state value := { state with
    carrierMgr := { state.carrierMgr with mEndpointComps := value } }
  get_put _ _ := rfl
  put_get _ := rfl
  put_put _ _ _ := rfl

def mEndpointEaxcs : Member UplaneState (TxRx (StdMap EAxcid)) where
  get state := state.carrierMgr.mEndpointEaxcs
  put state value := { state with
    carrierMgr := { state.carrierMgr with mEndpointEaxcs := value } }
  get_put _ _ := rfl
  put_get _ := rfl
  put_put _ _ _ := rfl

def mEndpointDynComps :
    Member UplaneState (TxRx (StdMap (Std.ExtTreeMap Int DynCompConfig))) where
  get state := state.carrierMgr.mEndpointDynComps
  put state value := { state with
    carrierMgr := { state.carrierMgr with mEndpointDynComps := value } }
  get_put _ _ := rfl
  put_get _ := rfl
  put_put _ _ _ := rfl

end UplaneState

/-- What surrounds the handler: the results of the hardware calls, which may
depend on all that happened before, and the running datastore. -/
structure UplaneEnv where
  hal : List Effect → HalCall → Int
  session : SrSession

abbrev UplaneM := EStateM StdException UplaneState

/-- Add an effect to the trace. -/
def emit (effect : Effect) : UplaneM Unit :=
  modify fun state => { state with trace := state.trace ++ [effect] }

/-- A hardware call. -/
def callHal (env : UplaneEnv) (call : HalCall) : UplaneM Int := do
  let state ← get
  let result := env.hal state.trace call
  emit (.hal call result)
  return result

/-- Find the record at a key or create it, and run a program on it in place:
what the program wrote before it threw stays in the map. -/
def updateRecord {ρ : Type} (key : String) (created : ρ)
    (program : EStateM StdException ρ Unit) : EStateM StdException (StdMap ρ) ρ := fun map =>
  match program (map.getD key created) with
  | .ok _ record => .ok record (map.insert key record)
  | .error exception record => .error exception (map.insert key record)

end OpenMplane
