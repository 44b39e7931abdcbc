import Mathlib.Data.List.Forall2
import OpenMplane.ConfigPlaces
import OpenMplane.LeafRecords

/-!
# The capabilities of the module

`OranModuleCapHandler` builds the operational data of `o-ran-module-cap` from the
configuration.  What it should build is read off the configuration itself: below a node its
leaves that have a value, and below these one node for each container and each list entry that
is configured.
-/

namespace OpenMplane

open ConfigStep LeafRecords

namespace ModuleCapabilities

def ruCapLeaves : List String :=
  ["ru-supported-category", "number-of-ru-ports-ul", "number-of-ru-ports-dl",
    "number-of-spatial-streams", "max-power-per-pa-antenna", "min-power-per-pa-antenna",
    "fronthaul-split-option", "energy-saving-by-transmission-blanks",
    "dynamic-transport-delay-management-supported", "support-only-unique-ecpri-seqid-per-eaxc",
    "ud-comp-len-supported"]

def iqSampLeaves : List String :=
  ["dynamic-compression-supported", "realtime-variable-bit-width-supported",
    "variable-bit-width-per-channel-supported", "syminc-supported",
    "regularization-factor-se-supported", "little-endian-supported"]

def ulMixLeaves : List String := ["scs-a", "scs-b", "number-of-guard-rbs-ul"]

def dlMixLeaves : List String := ["scs-a", "scs-b", "number-of-guard-rbs-dl"]

/-- The names are written down but no leaves are added from them. -/
def couplingLeaves : List String :=
  ["coupling-via-frequency-and-time", "coupling-via-frequency-and-time-with-priorities",
    "coupling-via-frequency-and-time-with-priorities-optimized"]

/-- The leaves of an entry of `compression-method-supported`. -/
def methodLeaves : List String := ["iq-bitwidth", "exponent"]

/-- The leaves of `band-capabilities`. -/
def bandLeaves : List String :=
  ["band-number", "max-supported-frequency-dl", "min-supported-frequency-dl",
    "max-supported-bandwidth-dl", "max-num-carriers-dl", "max-carrier-bandwidth-dl",
    "min-carrier-bandwidth-dl", "max-supported-frequency-ul", "min-supported-frequency-ul",
    "max-supported-bandwidth-ul", "max-num-carriers-ul", "max-carrier-bandwidth-ul",
    "min-carrier-bandwidth-ul", "max-num-component-carriers", "max-num-bands",
    "max-num-sectors", "max-power-per-antenna", "min-power-per-antenna",
    "codebook-configuration_ng", "codebook-configuration_n1", "codebook-configuration_n2"]

/-- The values of an `int` counter below an `unsigned` bound; it cannot pass the greatest
`int`. -/
def counterValues (bound : Nat) : Option (List Nat) :=
  if bound < 2 ^ 31 then some (List.range bound) else none

section Create

variable (mConfig : YangConfig)

def ruCapPath : String :=
  "module-o-ran-module-cap/container-module-capability/container-ru-capabilities"

def iqContPath : String := ruCapPath ++ "/container-format-of-iq-sample"

/-- A round of the loop over the compression methods. -/
def addCompressMethod (iqSampleFormat : Nat) (tree : LeafRecords) (i : Nat) :
    Option LeafRecords := do
  let listEntryPath := iqContPath ++ "/list-compression-method-supported[" ++ i.repr ++ "]"
  let (compressMethod, tree) := addContainer iqSampleFormat "compression-method-supported" tree
  let tree ← addLeafFromConfig compressMethod "iq-bitwidth" mConfig listEntryPath tree
  addLeafFromConfig compressMethod "exponent" mConfig listEntryPath tree

/-- What is added to `format-of-iq-sample`. -/
def fillIqSampleFormat (iqSampleFormat : Nat) (tree : LeafRecords) : Option LeafRecords := do
  let tree ← addLeavesFromConfig iqSampleFormat iqSampLeaves mConfig iqContPath tree
  let numMethods ← mConfig.getNumOfListEntries (iqContPath ++ "/list-compression-method-supported")
  let rounds ← counterValues numMethods
  rounds.foldlM (addCompressMethod mConfig iqSampleFormat) tree

/-- What is added for the two lists of guard resource blocks: the leaves of the downlink go to
the container of the uplink. -/
def addGuardRbs (ruCapability : Nat) (tree : LeafRecords) : Option LeafRecords := do
  let ulMixPath := ruCapPath ++ "/ul-mixed-num-required-guard-rbs"
  let (ulMix, tree) := addContainer ruCapability "ul-mixed-num-required-guard-rbs" tree
  let tree ← addLeavesFromConfig ulMix ulMixLeaves mConfig ulMixPath tree
  let dlMixPath := ruCapPath ++ "/dl-mixed-num-required-guard-rbs"
  let (_, tree) := addContainer ruCapability "dl-mixed-num-required-guard-rbs" tree
  addLeavesFromConfig ulMix dlMixLeaves mConfig dlMixPath tree

/-- What is added to `ru-capabilities`. -/
def fillRuCapabilities (ruCapability : Nat) (tree : LeafRecords) : Option LeafRecords := do
  let tree ← addLeavesFromConfig ruCapability ruCapLeaves mConfig ruCapPath tree
  let (iqSampleFormat, tree) := addContainer ruCapability "format-of-iq-sample" tree
  let tree ← fillIqSampleFormat mConfig iqSampleFormat tree
  let tree ← addGuardRbs mConfig ruCapability tree
  let (_, tree) := addContainer ruCapability "coupling-methods" tree
  return tree

def createRuCapabilities (tree : LeafRecords) : Option LeafRecords :=
  let (ruCapability, tree) := addContainer 0 "ru-capabilities" tree
  fillRuCapabilities mConfig ruCapability tree

def createBandCapabilities (tree : LeafRecords) : Option LeafRecords :=
  let (bandCapability, tree) := addContainer 0 "band-capabilities" tree
  addLeavesFromConfig bandCapability bandLeaves mConfig
    "module-o-ran-module-cap/container-module-capability/container-band-capabilities" tree

/-- What `initialise` adds to the callback. -/
def initialise : Option LeafRecords := createRuCapabilities mConfig [] >>= createBandCapabilities mConfig

end Create

/-! ## What should be built -/

/-- The place of `ru-capabilities` in the configuration. -/
def ruCapPlace : List ConfigStep :=
  [.named "module" "o-ran-module-cap", .named "container" "module-capability",
    .named "container" "ru-capabilities"]

/-- The container of a name, as none or one. -/
def containers (name : String) (element : YangElement) : List YangElement :=
  (element.getElement "container" name).toList

def entries (name : String) (element : YangElement) : List YangElement :=
  ((element.getElement "list" name).map YangElement.childElements).getD []

/-- The leaves that an element has, with their values. -/
def leavesOf (leafNames : List String) (element : YangElement) : List (String × String) :=
  Builds.given element.leafValue leafNames

/-- A node has the leaves that are configured, and nothing else. -/
def MirrorsLeaves (leafNames : List String) (element : YangElement)
    (contents : Forest LeafItem) : Prop :=
  (LeafItem.leavesIn contents).Perm (leavesOf leafNames element) ∧
    LeafItem.containerNames contents = []

/-- The node `format-of-iq-sample`. -/
structure MirrorsFormat (format : YangElement) (contents : Forest LeafItem) : Prop where
  leaves : (LeafItem.leavesIn contents).Perm (leavesOf iqSampLeaves format)
  methods : List.Forall₂ (MirrorsLeaves methodLeaves) (entries "compression-method-supported" format)
    (LeafItem.containersIn "compression-method-supported" contents)
  nothingElse : ∀ name ∈ LeafItem.containerNames contents, name = "compression-method-supported"

/-- The node `ru-capabilities`. -/
structure MirrorsRuCapabilities (ru : YangElement) (contents : Forest LeafItem) : Prop where
  leaves : (LeafItem.leavesIn contents).Perm (leavesOf ruCapLeaves ru)
  format : List.Forall₂ MirrorsFormat (containers "format-of-iq-sample" ru)
    (LeafItem.containersIn "format-of-iq-sample" contents)
  ulMix : List.Forall₂ (MirrorsLeaves ulMixLeaves) (entries "ul-mixed-num-required-guard-rbs" ru)
    (LeafItem.containersIn "ul-mixed-num-required-guard-rbs" contents)
  dlMix : List.Forall₂ (MirrorsLeaves dlMixLeaves) (entries "dl-mixed-num-required-guard-rbs" ru)
    (LeafItem.containersIn "dl-mixed-num-required-guard-rbs" contents)
  coupling : List.Forall₂ (MirrorsLeaves couplingLeaves) (containers "coupling-methods" ru)
    (LeafItem.containersIn "coupling-methods" contents)
  nothingElse : ∀ name ∈ LeafItem.containerNames contents,
    name ∈ ["format-of-iq-sample", "ul-mixed-num-required-guard-rbs",
      "dl-mixed-num-required-guard-rbs", "coupling-methods"]

/-- The tree that is built mirrors the capabilities in the configuration. -/
def Mirrored (mConfig : YangConfig) : Prop :=
  ∃ tree : Forest LeafItem, initialise mConfig = some (tree.records 0 1) ∧
    List.Forall₂ MirrorsRuCapabilities (resolve ruCapPlace mConfig.mConfig).toList
      (LeafItem.containersIn "ru-capabilities" tree)

/-- The nodes of the capabilities stand at their own places: below `ru-capabilities` are
elements of the types that elements have there, and the entries of the compression methods are
list entries. -/
structure InPlace (element : YangElement) : Prop where
  types : ∀ ru ∈ resolve ruCapPlace element, ∀ child ∈ ru.childElements,
    child.elementType ∈ ["container", "list", "leaf", "listLeaf", "choice", "feature"]
  entries : ∀ ru ∈ resolve ruCapPlace element,
    ∀ format ∈ containers "format-of-iq-sample" ru,
      ∀ entry ∈ entries "compression-method-supported" format, entry.elementType = "listEntry"

/-- When the tree is as it should be: the containers are all configured, there are fewer than
2^31 compression methods, and all that is configured of the others is one entry in each of the two lists
of guard resource blocks, none of which and no coupling method has a leaf. -/
def Meets (element : YangElement) : Prop :=
  ∃ ru ∈ resolve ruCapPlace element,
    (∃ format ∈ containers "format-of-iq-sample" ru,
      (entries "compression-method-supported" format).length < 2 ^ 31) ∧
    (∃ entry, entries "ul-mixed-num-required-guard-rbs" ru = [entry] ∧
      leavesOf ulMixLeaves entry = []) ∧
    (∃ entry, entries "dl-mixed-num-required-guard-rbs" ru = [entry] ∧
      leavesOf dlMixLeaves entry = []) ∧
    ∃ coupling ∈ containers "coupling-methods" ru, leavesOf couplingLeaves coupling = []

end ModuleCapabilities

end OpenMplane
