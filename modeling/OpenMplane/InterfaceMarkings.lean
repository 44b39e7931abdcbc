import OpenMplane.HandlerCallback

/-!
# The configured interfaces

`IetfInterfacesHandler::initialise` turns every interface of the configuration
into an entry of the datastore and a record for the hardware.  The two are
filled side by side from the same texts; the class-of-service markings are
filled by five copies of one block.  This file models the filling and proves
for which configurations the markings of both agree.
-/

namespace OpenMplane

open StatePrograms

/-- The configuration as the handlers read it: the value at a path, empty where
there is none, and the length of a list. -/
structure IYangConfig where
  getValue : String → String
  getNumOfListEntries : String → Nat

/-- An element of a `YangPath`. -/
structure YangPathEle where
  mModule : String
  mParam : String
  mKeyList : List (String × String)

namespace YangPathEle

def path (element : YangPathEle) (postSlash : Bool) : String :=
  let ofModule := if element.mModule = "" then "" else element.mModule ++ ":"
  let keys := element.mKeyList.map fun key => "[" ++ key.1 ++ "='" ++ key.2 ++ "']"
  let ofParam := if element.mParam = "" then ""
    else keys.foldl (fun text key => text ++ key) element.mParam ++
      if postSlash then "/" else ""
  ofModule ++ ofParam

end YangPathEle

abbrev YangPath := List YangPathEle

namespace YangPath

/-- The elements, each but the last with a slash behind it and the last one with
one if more parameters follow. -/
def joined (postSlash : Bool) : YangPath → String
  | [] => ""
  | [last] => last.path postSlash
  | element :: path => element.path true ++ joined postSlash path

def pathRoot (path : YangPath) : String :=
  let text := joined false path
  if text = "" then "" else "/" ++ text

/-- `YangPath::pathParam` without the dot. -/
def pathParam (path : YangPath) : String :=
  joined true path

end YangPath

/-- `cos_marking_t`. -/
structure CosMarking where
  uPlaneMarking : UInt8
  cPlaneMarking : UInt8
  mPlaneMarking : UInt8
  sPlaneMarking : UInt8
  otherMarking : UInt8
  deriving DecidableEq

/-- `interface_t`; the texts point into strings that are gone when a field has
been set. -/
structure Interface where
  name : CharPtr
  description : CharPtr
  type : CharPtr
  enabled : Bool
  l2Mtu : Int
  vlanTagging : Bool
  baseInterface : CharPtr
  vlanId : Int
  macAddress : CharPtr
  classOfService : CosMarking
  deriving DecidableEq

/-- The entry of the datastore and the record of the hardware, as far as they
are filled. -/
structure Filling where
  dataCfg : StdMap String
  interface : Interface

/-- The members of the handler that the configuration goes to: the records by
name, their number, and what the calls on the datastore change. -/
structure InterfaceStore (δ : Type) where
  mInterfaces : StdMap Interface
  mNumInterfaces : UInt32
  datastore : δ
  updates : List Interface

abbrev FillM := EStateM StdException Filling

namespace IetfInterfacesHandler

section Source

def modORanInt : String := "o-ran-interfaces"

def mPathParent : YangPath := [⟨"ietf-interfaces", "interfaces", []⟩]

def interfacePath (idx : Nat) : String :=
  "module-ietf-interfaces/container-interfaces/list-interface[" ++ idx.repr ++ "]"

/-- A text that is set in both when it is given. -/
def addText (key text : String) (use : Interface → Interface) : FillM Unit :=
  if text = "" then pure ()
  else modify fun filling => ⟨filling.dataCfg.insert key text, use filling.interface⟩

/-- A text that is set in the entry and, read as a number, in the record. -/
def addNumber (key text : String) (use : Int → Interface → Interface) : FillM Unit := do
  modify fun filling => { filling with dataCfg := filling.dataCfg.insert key text }
  let number ← stoiM text
  modify fun filling => { filling with interface := use number filling.interface }

/-- `addNumber` for a text that need not be given. -/
def addOptionalNumber (key text : String) (use : Int → Interface → Interface) : FillM Unit :=
  if text ≠ "" then addNumber key text use else pure ()

def setClassOfService (update : CosMarking → CosMarking) (interface : Interface) : Interface :=
  { interface with classOfService := update interface.classOfService }

/-- One of the five blocks of `addClassOfService`. -/
def addMarking (key text : String) (byDefault : UInt8)
    (put : UInt8 → CosMarking → CosMarking) : FillM Unit :=
  if text ≠ "" then
    addNumber key text fun number => setClassOfService (put (UInt8.ofInt number))
  else modify fun filling =>
    { filling with interface := setClassOfService (put byDefault) filling.interface }

def pathCoS : YangPath := [⟨modORanInt, "class-of-service", []⟩]

def addClassOfService (config : IYangConfig) (idx : Nat) : FillM Unit := do
  let baseConfigPath := interfacePath idx ++ "/container-class-of-service"
  addMarking (pathCoS.pathParam ++ "c-plane-marking")
    (config.getValue (baseConfigPath ++ "/leaf-u-plane-marking")) 7
    fun number markings => { markings with uPlaneMarking := number }
  addMarking (pathCoS.pathParam ++ "c-plane-marking")
    (config.getValue (baseConfigPath ++ "/leaf-c-plane-marking")) 7
    fun number markings => { markings with cPlaneMarking := number }
  addMarking (pathCoS.pathParam ++ "m-plane-marking")
    (config.getValue (baseConfigPath ++ "/leaf-m-plane-marking")) 2
    fun number markings => { markings with mPlaneMarking := number }
  addMarking (pathCoS.pathParam ++ "s-plane-marking")
    (config.getValue (baseConfigPath ++ "/leaf-s-plane-marking")) 7
    fun number markings => { markings with sPlaneMarking := number }
  addMarking (pathCoS.pathParam ++ "other-marking")
    (config.getValue (baseConfigPath ++ "/leaf-other-marking")) 1
    fun number markings => { markings with otherMarking := number }

/-- The type of the configuration, with the prefix that it may lack. -/
def ifType (config : IYangConfig) (idx : Nat) : String :=
  let ifType := config.getValue (interfacePath idx ++ "/leaf-type")
  if startsWith ifType "iana-if-type:" then ifType else "iana-if-type:" ++ ifType

def pathORanInt : YangPath := [⟨modORanInt, "", []⟩]

/-- The leaves that `addInterface` adds, in its order. -/
def fillInterface (config : IYangConfig) (idx : Nat) : FillM Unit := do
  let value (leaf : String) : String := config.getValue (interfacePath idx ++ leaf)
  let ifDesc := value "/leaf-description"
  addText "description" ifDesc fun interface => { interface with description := .freed ifDesc }
  let ifType := ifType config idx
  modify fun filling =>
    ⟨filling.dataCfg.insert "type" ifType, { filling.interface with type := .freed ifType }⟩
  let ifEnabled := value "/leaf-enabled"
  addText "enabled" ifEnabled fun interface => { interface with enabled := ifEnabled = "true" }
  if ifType = "iana-if-type:l2vlan" then do
    let baseIfName := value "/leaf-base-interface"
    addText (pathORanInt.pathParam ++ "base-interface") baseIfName
      fun interface => { interface with baseInterface := .freed baseIfName }
    addNumber (pathORanInt.pathParam ++ "vlan-id") (value "/leaf-vlan-id")
      fun vlanId interface => { interface with vlanId := vlanId }
  else do
    let ifL2mtu := value "/leaf-l2-mtu"
    addOptionalNumber (pathORanInt.pathParam ++ "l2-mtu") ifL2mtu
      fun l2Mtu interface => { interface with l2Mtu := l2Mtu }
    let ifVlanTagging := value "/leaf-vlan-tagging"
    addText (pathORanInt.pathParam ++ "vlan-tagging") ifVlanTagging
      fun interface => { interface with vlanTagging := ifVlanTagging = "true" }
    addClassOfService config idx
  let ifMac := value "/leaf-mac-address"
  addText (pathORanInt.pathParam ++ "mac-address") ifMac
    fun interface => { interface with macAddress := .freed ifMac }

def ifName (config : IYangConfig) (idx : Nat) : String :=
  config.getValue (interfacePath idx ++ "/leaf-name")

/-- The record before a leaf is added. -/
def newInterface (name : String) : Interface where
  name := .freed name
  description := .null
  type := .null
  enabled := true
  l2Mtu := 1500
  vlanTagging := true
  baseInterface := .null
  vlanId := 0
  macAddress := .null
  classOfService := ⟨0, 0, 0, 0, 0⟩

def pathIf (name : String) : YangPath :=
  mPathParent ++ [⟨"", "interface", [("name", name)]⟩]

variable {δ : Type}

/-- The call of `createListEntry`, whose result is dropped. -/
def writeEntry {α : Type} (createListEntry : String → StdMap String → EStateM StdException δ α)
    (xpath : String) (dataCfg : StdMap String) : EStateM StdException (InterfaceStore δ) Unit :=
  fun store => match createListEntry xpath dataCfg store.datastore with
    | .ok _ datastore => .ok () { store with datastore := datastore }
    | .error exception datastore => .error exception { store with datastore := datastore }

/-- `IetfInterfacesHandler::addInterface`.  The record is in `mInterfaces` while
it is filled, so that an exception leaves it there half filled. -/
def addInterface {α : Type}
    (createListEntry : String → StdMap String → EStateM StdException δ α)
    (config : IYangConfig) (idx : Nat) : EStateM StdException (InterfaceStore δ) Bool := do
  let name := ifName config idx
  let store ← get
  match fillInterface config idx ⟨∅, newInterface name⟩ with
  | .ok _ filling =>
      set { store with mInterfaces := store.mInterfaces.insert name filling.interface }
      writeEntry createListEntry (pathIf name).pathRoot filling.dataCfg
      modify fun store => { store with mNumInterfaces := store.mNumInterfaces + 1 }
      return true
  | .error exception filling =>
      set { store with mInterfaces := store.mInterfaces.insert name filling.interface }
      throw exception

/-- The loop body of `IetfInterfacesHandler::initialise`: the interface is added
and its record handed to the hardware. -/
def initialiseInterface {α : Type}
    (createListEntry : String → StdMap String → EStateM StdException δ α)
    (config : IYangConfig) (idx : Nat) : EStateM StdException (InterfaceStore δ) Unit := do
  let _ ← addInterface createListEntry config idx
  modify fun store => { store with
    updates := store.updates ++ (store.mInterfaces[ifName config idx]?).toList }

end Source

section Filling

variable {key text : String} {filling after : Filling}

/-- A text that is absent or read as a number. -/
def Accepted (text : String) : Prop :=
  text = "" ∨ ∃ number, stoi text = .ok number

/-- What `std::stoi` reads, where it reads something. -/
def numberOf (text : String) : Int :=
  match stoi text with
  | .ok number => number
  | .error _ => 0

/-- Both sides after a text. -/
def textAdded (key text : String) (use : Interface → Interface) (filling : Filling) : Filling :=
  if text = "" then filling else ⟨filling.dataCfg.insert key text, use filling.interface⟩

/-- Both sides after a marking. -/
def markingAdded (key text : String) (byDefault : UInt8) (put : UInt8 → CosMarking → CosMarking)
    (filling : Filling) : Filling :=
  textAdded key text id ⟨filling.dataCfg, setClassOfService
    (put (if text = "" then byDefault else UInt8.ofInt (numberOf text))) filling.interface⟩

theorem addText_eq_ok_iff {use : Interface → Interface} {value : Unit} :
    addText key text use filling = .ok value after ↔ textAdded key text use filling = after := by
  unfold addText textAdded
  split
  · simp
  · simp

theorem addNumber_eq_ok_iff {use : Int → Interface → Interface} {value : Unit} :
    addNumber key text use filling = .ok value after ↔
      ∃ number, stoi text = .ok number ∧
        ⟨filling.dataCfg.insert key text, use number filling.interface⟩ = after := by
  rw [addNumber, bind_ok (modify_apply _ _), stoiM]
  cases stoi text with
  | ok number =>
      rw [bind_ok (pure_apply _ _)]
      simp
  | error exception =>
      rw [bind_error (throw_apply _ _)]
      simp

theorem addOptionalNumber_eq_ok_iff {use : Int → Interface → Interface} {value : Unit} :
    addOptionalNumber key text use filling = .ok value after ↔
      Accepted text ∧ textAdded key text (use (numberOf text)) filling = after := by
  unfold addOptionalNumber textAdded
  by_cases absent : text = ""
  · rw [if_neg (not_not_intro absent), if_pos absent]
    simp [Accepted, absent]
  · rw [if_pos absent, if_neg absent, addNumber_eq_ok_iff]
    simp only [Accepted, absent, false_or]
    constructor
    · rintro ⟨number, read, rfl⟩
      rw [numberOf, read]
      exact ⟨⟨number, rfl⟩, rfl⟩
    · rintro ⟨⟨number, read⟩, rfl⟩
      rw [numberOf, read]
      exact ⟨number, rfl, rfl⟩

theorem addMarking_eq_ok_iff {byDefault : UInt8} {put : UInt8 → CosMarking → CosMarking}
    {value : Unit} :
    addMarking key text byDefault put filling = .ok value after ↔
      Accepted text ∧ markingAdded key text byDefault put filling = after := by
  unfold addMarking markingAdded textAdded
  by_cases absent : text = ""
  · rw [if_neg (not_not_intro absent)]
    simp [Accepted, absent]
  · rw [if_pos absent, addNumber_eq_ok_iff]
    simp only [Accepted, absent, false_or, if_false]
    constructor
    · rintro ⟨number, read, rfl⟩
      rw [numberOf, read]
      exact ⟨⟨number, rfl⟩, rfl⟩
    · rintro ⟨⟨number, read⟩, rfl⟩
      rw [numberOf, read]
      exact ⟨number, rfl, rfl⟩

theorem textAdded_dataCfg (key text : String) (use : Interface → Interface) (filling : Filling)
    (leaf : String) :
    (textAdded key text use filling).dataCfg[leaf]? =
      if text ≠ "" ∧ key = leaf then some text else filling.dataCfg[leaf]? := by
  unfold textAdded
  by_cases absent : text = ""
  · simp [absent]
  · simp [absent, Std.ExtTreeMap.getElem?_insert, Std.LawfulEqCmp.compare_eq_iff_eq]

theorem markingAdded_dataCfg (key text : String) (byDefault : UInt8)
    (put : UInt8 → CosMarking → CosMarking) (filling : Filling) (leaf : String) :
    (markingAdded key text byDefault put filling).dataCfg[leaf]? =
      if text ≠ "" ∧ key = leaf then some text else filling.dataCfg[leaf]? :=
  textAdded_dataCfg key text id _ leaf

theorem textAdded_classOfService {use : Interface → Interface}
    (keeps : ∀ interface, (use interface).classOfService = interface.classOfService) :
    (textAdded key text use filling).interface.classOfService =
      filling.interface.classOfService := by
  unfold textAdded
  split
  · rfl
  · exact keeps filling.interface

theorem markingAdded_classOfService {byDefault : UInt8} {put : UInt8 → CosMarking → CosMarking} :
    (markingAdded key text byDefault put filling).interface.classOfService =
      put (if text = "" then byDefault else UInt8.ofInt (numberOf text))
        filling.interface.classOfService :=
  textAdded_classOfService fun _ => rfl

end Filling

section Markings

inductive Marking
  | uPlane
  | cPlane
  | mPlane
  | sPlane
  | other
  deriving DecidableEq

namespace Marking

/-- The leaf of the datastore. -/
def leafPath : Marking → String
  | .uPlane => "o-ran-interfaces:class-of-service/u-plane-marking"
  | .cPlane => "o-ran-interfaces:class-of-service/c-plane-marking"
  | .mPlane => "o-ran-interfaces:class-of-service/m-plane-marking"
  | .sPlane => "o-ran-interfaces:class-of-service/s-plane-marking"
  | .other => "o-ran-interfaces:class-of-service/other-marking"

/-- The field of the record. -/
def get : Marking → CosMarking → UInt8
  | .uPlane => CosMarking.uPlaneMarking
  | .cPlane => CosMarking.cPlaneMarking
  | .mPlane => CosMarking.mPlaneMarking
  | .sPlane => CosMarking.sPlaneMarking
  | .other => CosMarking.otherMarking

def configLeaf : Marking → String
  | .uPlane => "/leaf-u-plane-marking"
  | .cPlane => "/leaf-c-plane-marking"
  | .mPlane => "/leaf-m-plane-marking"
  | .sPlane => "/leaf-s-plane-marking"
  | .other => "/leaf-other-marking"

/-- The marking that the configuration gives, if any. -/
def given (config : IYangConfig) (idx : Nat) (marking : Marking) : String :=
  config.getValue (interfacePath idx ++ "/container-class-of-service" ++ marking.configLeaf)

end Marking

/-- The entry and the record have the markings of the configuration. -/
def Agree (config : IYangConfig) (idx : Nat) (dataCfg : StdMap String)
    (interface : Interface) : Prop :=
  ∀ marking : Marking,
    (marking.given config idx ≠ "" →
      dataCfg[marking.leafPath]? = some (marking.given config idx) ∧
        stoi (marking.given config idx) =
          .ok (marking.get interface.classOfService).toNat) ∧
    (marking.given config idx = "" → dataCfg[marking.leafPath]? = none)

/-- A datastore that writes down the entries it is given. -/
def recordEntry (xpath : String) (dataCfg : StdMap String) :
    EStateM StdException (List (String × StdMap String)) Unit :=
  modify fun entries => entries ++ [(xpath, dataCfg)]

/-- Adding the interface gives the datastore one entry and the hardware one
record, whose markings agree. -/
def MarkingsAgree (config : IYangConfig) (idx : Nat) : Prop :=
  ∀ store : InterfaceStore (List (String × StdMap String)), ∃ dataCfg interface,
    initialiseInterface recordEntry config idx store = .ok ()
      { mInterfaces := store.mInterfaces.insert (ifName config idx) interface
        mNumInterfaces := store.mNumInterfaces + 1
        datastore := store.datastore ++ [((pathIf (ifName config idx)).pathRoot, dataCfg)]
        updates := store.updates ++ [interface] } ∧
      Agree config idx dataCfg interface

/-- No u-plane marking is given, and the numbers can be read. -/
structure MarkingsReadable (config : IYangConfig) (idx : Nat) : Prop where
  noUPlane : Marking.uPlane.given config idx = ""
  octets : ∀ marking : Marking, marking.given config idx = "" ∨
    ∃ number : Nat, number < 256 ∧ stoi (marking.given config idx) = .ok number
  l2Mtu : Accepted (config.getValue (interfacePath idx ++ "/leaf-l2-mtu"))

end Markings

section Fill

variable (config : IYangConfig) (idx : Nat)

/-- The markings of an entry and a record after `addClassOfService`. -/
def classOfServiceAdded (filling : Filling) : Filling :=
  markingAdded Marking.other.leafPath (Marking.other.given config idx) 1
    (fun number markings => { markings with otherMarking := number })
    (markingAdded Marking.sPlane.leafPath (Marking.sPlane.given config idx) 7
      (fun number markings => { markings with sPlaneMarking := number })
      (markingAdded Marking.mPlane.leafPath (Marking.mPlane.given config idx) 2
        (fun number markings => { markings with mPlaneMarking := number })
        (markingAdded Marking.cPlane.leafPath (Marking.cPlane.given config idx) 7
          (fun number markings => { markings with cPlaneMarking := number })
          (markingAdded Marking.cPlane.leafPath (Marking.uPlane.given config idx) 7
            (fun number markings => { markings with uPlaneMarking := number })
            filling))))

theorem addClassOfService_eq_ok_iff {filling after : Filling} {value : Unit} :
    addClassOfService config idx filling = .ok value after ↔
      (∀ marking : Marking, Accepted (marking.given config idx)) ∧
        classOfServiceAdded config idx filling = after := by
  have leafU : pathCoS.pathParam ++ "c-plane-marking" = Marking.cPlane.leafPath := by decide
  have leafM : pathCoS.pathParam ++ "m-plane-marking" = Marking.mPlane.leafPath := by decide
  have leafS : pathCoS.pathParam ++ "s-plane-marking" = Marking.sPlane.leafPath := by decide
  have leafOther : pathCoS.pathParam ++ "other-marking" = Marking.other.leafPath := by decide
  unfold addClassOfService
  rw [leafU, leafM, leafS, leafOther]
  simp only [bind_eq_ok, addMarking_eq_ok_iff]
  constructor
  · rintro ⟨-, -, ⟨uPlane, rfl⟩, -, -, ⟨cPlane, rfl⟩, -, -, ⟨mPlane, rfl⟩, -, -, ⟨sPlane, rfl⟩,
      other, rfl⟩
    refine ⟨?_, rfl⟩
    intro marking
    cases marking with
    | uPlane => exact uPlane
    | cPlane => exact cPlane
    | mPlane => exact mPlane
    | sPlane => exact sPlane
    | other => exact other
  · rintro ⟨accepted, rfl⟩
    exact ⟨(), _, ⟨accepted .uPlane, rfl⟩, (), _, ⟨accepted .cPlane, rfl⟩,
      (), _, ⟨accepted .mPlane, rfl⟩, (), _, ⟨accepted .sPlane, rfl⟩, accepted .other, rfl⟩

/-- The leaves in front of the markings. -/
def leavesAdded (filling : Filling) : Filling :=
  let value (leaf : String) : String := config.getValue (interfacePath idx ++ leaf)
  let described := textAdded "description" (value "/leaf-description")
    (fun interface => { interface with description := .freed (value "/leaf-description") }) filling
  let typed : Filling := ⟨described.dataCfg.insert "type" (ifType config idx),
    { described.interface with type := .freed (ifType config idx) }⟩
  textAdded (pathORanInt.pathParam ++ "vlan-tagging") (value "/leaf-vlan-tagging")
    (fun interface => { interface with vlanTagging := value "/leaf-vlan-tagging" = "true" })
    (textAdded (pathORanInt.pathParam ++ "l2-mtu") (value "/leaf-l2-mtu")
      (fun interface => { interface with l2Mtu := numberOf (value "/leaf-l2-mtu") })
      (textAdded "enabled" (value "/leaf-enabled")
        (fun interface => { interface with enabled := value "/leaf-enabled" = "true" }) typed))

def macAdded (filling : Filling) : Filling :=
  let ifMac := config.getValue (interfacePath idx ++ "/leaf-mac-address")
  textAdded (pathORanInt.pathParam ++ "mac-address") ifMac
    (fun interface => { interface with macAddress := .freed ifMac }) filling

theorem fillInterface_eq_ok_iff {filling after : Filling} {value : Unit}
    (notVlan : ifType config idx ≠ "iana-if-type:l2vlan") :
    fillInterface config idx filling = .ok value after ↔
      Accepted (config.getValue (interfacePath idx ++ "/leaf-l2-mtu")) ∧
        (∀ marking : Marking, Accepted (marking.given config idx)) ∧
          macAdded config idx (classOfServiceAdded config idx (leavesAdded config idx filling)) =
            after := by
  unfold fillInterface
  simp only [bind_eq_ok, if_neg notVlan, addText_eq_ok_iff, addOptionalNumber_eq_ok_iff,
    addClassOfService_eq_ok_iff, modify_apply, EStateM.Result.ok.injEq]
  constructor
  · rintro ⟨-, -, rfl, -, -, ⟨-, rfl⟩, -, -, rfl, -, -, ⟨l2Mtu, rfl⟩, -, -, rfl, -, -,
      ⟨accepted, rfl⟩, rfl⟩
    exact ⟨l2Mtu, accepted, rfl⟩
  · rintro ⟨l2Mtu, accepted, rfl⟩
    exact ⟨(), _, rfl, (), _, ⟨trivial, rfl⟩, (), _, rfl, (), _, ⟨l2Mtu, rfl⟩, (), _, rfl,
      (), _, ⟨accepted, rfl⟩, rfl⟩

/-- The leaves around the markings are none of theirs. -/
theorem leavesAdded_dataCfg (filling : Filling) (marking : Marking) :
    (leavesAdded config idx filling).dataCfg[marking.leafPath]? =
      filling.dataCfg[marking.leafPath]? := by
  have description : "description" ≠ marking.leafPath := by cases marking <;> decide
  have type : "type" ≠ marking.leafPath := by cases marking <;> decide
  have enabled : "enabled" ≠ marking.leafPath := by cases marking <;> decide
  have l2Mtu : pathORanInt.pathParam ++ "l2-mtu" ≠ marking.leafPath := by
    cases marking <;> decide
  have vlanTagging : pathORanInt.pathParam ++ "vlan-tagging" ≠ marking.leafPath := by
    cases marking <;> decide
  unfold leavesAdded
  simp [textAdded_dataCfg, description, type, enabled, l2Mtu, vlanTagging,
    Std.ExtTreeMap.getElem?_insert, Std.LawfulEqCmp.compare_eq_iff_eq]

theorem macAdded_dataCfg (filling : Filling) (marking : Marking) :
    (macAdded config idx filling).dataCfg[marking.leafPath]? =
      filling.dataCfg[marking.leafPath]? := by
  have macAddress : pathORanInt.pathParam ++ "mac-address" ≠ marking.leafPath := by
    cases marking <;> decide
  unfold macAdded
  simp [textAdded_dataCfg, macAddress]

theorem macAdded_classOfService (filling : Filling) :
    (macAdded config idx filling).interface.classOfService = filling.interface.classOfService :=
  textAdded_classOfService fun _ => rfl

theorem get_classOfServiceAdded (filling : Filling) {marking : Marking}
    (isGiven : marking.given config idx ≠ "") :
    marking.get (classOfServiceAdded config idx filling).interface.classOfService =
      UInt8.ofInt (numberOf (marking.given config idx)) := by
  unfold classOfServiceAdded
  cases marking <;> simp [markingAdded_classOfService, Marking.get, isGiven]

/-- Every marking but that of the u-plane is under its own leaf. -/
theorem classOfServiceAdded_dataCfg (filling : Filling) {marking : Marking}
    (notUPlane : marking ≠ .uPlane) (noUPlane : Marking.uPlane.given config idx = "") :
    (classOfServiceAdded config idx filling).dataCfg[marking.leafPath]? =
      if marking.given config idx ≠ "" then some (marking.given config idx)
      else filling.dataCfg[marking.leafPath]? := by
  unfold classOfServiceAdded
  cases marking with
  | uPlane => exact absurd rfl notUPlane
  | cPlane | mPlane | sPlane | other =>
      simp [markingAdded_dataCfg, Marking.leafPath, noUPlane]

/-- Nothing is ever put under the leaf of the u-plane marking. -/
theorem classOfServiceAdded_uPlane (filling : Filling) :
    (classOfServiceAdded config idx filling).dataCfg[Marking.uPlane.leafPath]? =
      filling.dataCfg[Marking.uPlane.leafPath]? := by
  unfold classOfServiceAdded
  simp [markingAdded_dataCfg, Marking.leafPath]

end Fill

section Event

variable {config : IYangConfig} {idx : Nat}

theorem initialiseInterface_of_ok {filling : Filling}
    (filled : fillInterface config idx ⟨∅, newInterface (ifName config idx)⟩ = .ok () filling)
    (store : InterfaceStore (List (String × StdMap String))) :
    initialiseInterface recordEntry config idx store = .ok ()
      { mInterfaces := store.mInterfaces.insert (ifName config idx) filling.interface
        mNumInterfaces := store.mNumInterfaces + 1
        datastore := store.datastore ++ [((pathIf (ifName config idx)).pathRoot, filling.dataCfg)]
        updates := store.updates ++ [filling.interface] } := by
  have added : addInterface recordEntry config idx store = .ok true
      { mInterfaces := store.mInterfaces.insert (ifName config idx) filling.interface
        mNumInterfaces := store.mNumInterfaces + 1
        datastore := store.datastore ++ [((pathIf (ifName config idx)).pathRoot, filling.dataCfg)]
        updates := store.updates } := by
    unfold addInterface
    rw [bind_ok (get_apply store), filled]
    rfl
  rw [initialiseInterface, bind_ok added, modify_apply]
  simp

/-- An interface whose leaves cannot be filled. -/
theorem initialiseInterface_of_error {filling : Filling} {exception : StdException}
    (stopped : fillInterface config idx ⟨∅, newInterface (ifName config idx)⟩ =
      .error exception filling) (store : InterfaceStore (List (String × StdMap String))) :
    initialiseInterface recordEntry config idx store = .error exception
      { store with
        mInterfaces := store.mInterfaces.insert (ifName config idx) filling.interface } := by
  have thrown : addInterface recordEntry config idx store = .error exception
      { store with
        mInterfaces := store.mInterfaces.insert (ifName config idx) filling.interface } := by
    unfold addInterface
    rw [bind_ok (get_apply store), stopped]
    rfl
  rw [initialiseInterface, bind_error thrown]

theorem markingsAgree_iff_filled :
    MarkingsAgree config idx ↔ ∃ filling,
      fillInterface config idx ⟨∅, newInterface (ifName config idx)⟩ = .ok () filling ∧
        Agree config idx filling.dataCfg filling.interface := by
  constructor
  · intro always
    obtain ⟨dataCfg, interface, run, agree⟩ := always ⟨∅, 0, [], []⟩
    cases filled : fillInterface config idx ⟨∅, newInterface (ifName config idx)⟩ with
    | ok value filling =>
        rw [initialiseInterface_of_ok filled] at run
        injection run with _ same
        rw [InterfaceStore.mk.injEq] at same
        obtain ⟨-, -, entries, updates⟩ := same
        have entry : filling.dataCfg = dataCfg := by simpa using entries
        have update : filling.interface = interface := by simpa using updates
        refine ⟨filling, rfl, ?_⟩
        rw [entry, update]
        exact agree
    | error exception filling =>
        rw [initialiseInterface_of_error filled] at run
        contradiction
  · rintro ⟨filling, filled, agree⟩ store
    exact ⟨filling.dataCfg, filling.interface, initialiseInterface_of_ok filled store, agree⟩

/-- An octet holds the number that was read exactly when it is one of an octet. -/
theorem stoi_eq_toNat_ofInt_iff {text : String} (accepted : Accepted text) (isGiven : text ≠ "") :
    stoi text = .ok (UInt8.ofInt (numberOf text)).toNat ↔
      ∃ octet : Nat, octet < 256 ∧ stoi text = .ok octet := by
  obtain ⟨number, read⟩ := accepted.resolve_left isGiven
  have value : numberOf text = number := by rw [numberOf, read]
  have residue : ((UInt8.ofInt number).toNat : Int) = number % 256 := by
    have below : (number % 2 ^ 8).toNat < 256 := by omega
    have held : (UInt8.ofInt number).toNat = (number % 2 ^ 8).toNat % 256 := rfl
    omega
  rw [value, read]
  constructor
  · intro same
    injection same with same
    exact ⟨(UInt8.ofInt number).toNat, by omega, by rw [← same]⟩
  · rintro ⟨octet, small, same⟩
    injection same with same
    congr 1
    omega

/-- The configurations whose markings agree in the datastore and the hardware. -/
theorem markingsAgree_iff (config : IYangConfig) (idx : Nat)
    (notVlan : ifType config idx ≠ "iana-if-type:l2vlan") :
    MarkingsAgree config idx ↔ MarkingsReadable config idx := by
  rw [markingsAgree_iff_filled]
  constructor
  · rintro ⟨filling, filled, agree⟩
    obtain ⟨l2Mtu, accepted, rfl⟩ := (fillInterface_eq_ok_iff config idx notVlan).mp filled
    constructor
    · -- the u-plane marking never has an entry
      by_contra isGiven
      have entry := ((agree .uPlane).1 isGiven).1
      rw [macAdded_dataCfg, classOfServiceAdded_uPlane, leavesAdded_dataCfg] at entry
      simp at entry
    · intro marking
      by_cases absent : marking.given config idx = ""
      · exact Or.inl absent
      · have number := ((agree marking).1 absent).2
        rw [macAdded_classOfService, get_classOfServiceAdded config idx _ absent] at number
        exact Or.inr ((stoi_eq_toNat_ofInt_iff (accepted marking) absent).mp number)
    · exact l2Mtu
  · intro readable
    have accepted : ∀ marking : Marking, Accepted (marking.given config idx) := by
      intro marking
      rcases readable.octets marking with absent | ⟨octet, _, read⟩
      · exact Or.inl absent
      · exact Or.inr ⟨octet, read⟩
    refine ⟨_, (fillInterface_eq_ok_iff config idx notVlan).mpr
      ⟨readable.l2Mtu, accepted, rfl⟩, ?_⟩
    intro marking
    constructor
    · intro isGiven
      have notUPlane : marking ≠ .uPlane := by
        rintro rfl
        exact isGiven readable.noUPlane
      constructor
      · rw [macAdded_dataCfg, classOfServiceAdded_dataCfg config idx _ notUPlane
          readable.noUPlane, if_pos isGiven]
      · rw [macAdded_classOfService, get_classOfServiceAdded config idx _ isGiven]
        exact (stoi_eq_toNat_ofInt_iff (accepted marking) isGiven).mpr
          ((readable.octets marking).resolve_left isGiven)
    · intro absent
      rw [macAdded_dataCfg]
      by_cases uPlane : marking = .uPlane
      · rw [uPlane, classOfServiceAdded_uPlane, leavesAdded_dataCfg]
        simp
      · rw [classOfServiceAdded_dataCfg config idx _ uPlane readable.noUPlane,
          if_neg (not_not_intro absent), leavesAdded_dataCfg]
        simp

/-- An interface with the given leaves. -/
def configuredLeaves (leaves : List (String × String)) : IYangConfig where
  getValue path := ((leaves.find? fun leaf => decide (interfacePath 0 ++ leaf.1 = path)).map
    Prod.snd).getD ""
  getNumOfListEntries _ := 1

/-- An interface without a u-plane marking. -/
def plainInterface : IYangConfig :=
  configuredLeaves [("/leaf-name", "eth0"), ("/leaf-type", "ethernetCsmacd"),
    ("/container-class-of-service/leaf-c-plane-marking", "5")]

theorem markingsAgree_plainInterface :
    MarkingsAgree plainInterface 0 ↔ MarkingsReadable plainInterface 0 :=
  markingsAgree_iff plainInterface 0 (by decide)

/-- An interface with a marking for the u-plane and none for the c-plane. -/
def uPlaneInterface : IYangConfig :=
  configuredLeaves [("/leaf-name", "eth0"), ("/leaf-type", "ethernetCsmacd"),
    ("/container-class-of-service/leaf-u-plane-marking", "5")]

/-- The u-plane marking is written under the leaf of the c-plane. -/
theorem uPlane_is_written_as_cPlane :
    ¬ ∀ config idx, ifType config idx ≠ "iana-if-type:l2vlan" → MarkingsAgree config idx := by
  intro always
  obtain ⟨filling, filled, agree⟩ :=
    markingsAgree_iff_filled.mp (always uPlaneInterface 0 (by decide))
  obtain ⟨-, -, rfl⟩ := (fillInterface_eq_ok_iff uPlaneInterface 0 (by decide)).mp filled
  have entry := ((agree .uPlane).1 (by decide)).1
  rw [macAdded_dataCfg, classOfServiceAdded_uPlane, leavesAdded_dataCfg] at entry
  simp at entry

end Event

end IetfInterfacesHandler

end OpenMplane
