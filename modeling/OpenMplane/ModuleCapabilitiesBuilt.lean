import OpenMplane.ModuleCapabilities

/-!
# The tree of the module capabilities

What `OranModuleCapHandler` builds is a forest that the configuration determines: the leaves
of the capabilities and of the format are those that are configured, the entries of the
compression methods are one node each, and the nodes behind them are empty.
-/

namespace OpenMplane

namespace ModuleCapabilities

open ConfigStep LeafRecords LeafItem Builds

variable (mConfig : YangConfig)

def iqPlace : List ConfigStep := ruCapPlace ++ [.named "container" "format-of-iq-sample"]

/-- The leaves that stand at a place. -/
def placedLeaves (place : List ConfigStep) (leafNames : List String) : List (String × String) :=
  given (fun leafName =>
    ((resolve place mConfig.mConfig).map fun last => last.leafValue leafName).getD "") leafNames

theorem placedLeaves_some {place : List ConfigStep} {element : YangElement}
    (there : resolve place mConfig.mConfig = some element) (leafNames : List String) :
    placedLeaves mConfig place leafNames = leavesOf leafNames element := by
  unfold placedLeaves
  rw [there]
  rfl

theorem placedLeaves_none {place : List ConfigStep}
    (absent : resolve place mConfig.mConfig = none) (leafNames : List String) :
    placedLeaves mConfig place leafNames = [] := by
  unfold placedLeaves given
  rw [absent]
  exact List.flatMap_eq_nil_iff.mpr fun leafName _ => rfl

/-- Names that do not need to be cut. -/
def PlainLeaves (leafNames : List String) : Prop :=
  ∀ leafName ∈ leafNames, (named "leaf" leafName).Plain

instance (leafNames : List String) : Decidable (PlainLeaves leafNames) :=
  inferInstanceAs (Decidable (∀ leafName ∈ leafNames, (named "leaf" leafName).Plain))

theorem path_leaf {place : List ConfigStep} (nonempty : place ≠ []) (leafName : String) :
    path place ++ "/leaf-" ++ leafName = path (place ++ [.named "leaf" leafName]) := by
  rw [← path_behind nonempty]
  apply String.toList_injective
  simp [chars, suffix, isIndexed, ConfigStep.type, ConfigStep.name]

theorem builds_placedLeaves {place : List ConfigStep} (nonempty : place ≠ [])
    (plain : ∀ step ∈ place, step.Plain) (inner : ∀ step ∈ place, step.Inner)
    {leafNames : List String} (names : PlainLeaves leafNames) (parent : Nat) :
    Builds (addLeavesFromConfig parent leafNames mConfig (path place)) parent
      (leaves (placedLeaves mConfig place leafNames)) := by
  refine leavesFromConfig fun leafName member => ?_
  rw [path_leaf nonempty]
  exact getValue_leaf mConfig plain inner (names leafName member)

theorem ruCapPath_eq : ruCapPath = path ruCapPlace := by decide

theorem iqContPath_eq : iqContPath = path iqPlace := by decide

theorem plain_iqPlace : ∀ step ∈ iqPlace, step.Plain := by decide

theorem inner_iqPlace : ∀ step ∈ iqPlace, step.Inner := by decide

/-- The place of an entry of the compression methods. -/
def methodPlace (i : Nat) : List ConfigStep :=
  iqPlace ++ [.indexed "list" "compression-method-supported" i]

/-- The contents of a compression method. -/
def methodContents (i : Nat) : Forest LeafItem :=
  container "compression-method-supported"
    (leaves (placedLeaves mConfig (methodPlace i) methodLeaves))

theorem path_methodPlace (i : Nat) :
    iqContPath ++ "/list-compression-method-supported[" ++ i.repr ++ "]" = path (methodPlace i) := by
  rw [iqContPath_eq, methodPlace, ← path_behind (by decide)]
  apply String.toList_injective
  simp [chars, suffix, isIndexed, index, ConfigStep.type, ConfigStep.name]

theorem plain_methodPlace (i : Nat) : ∀ step ∈ methodPlace i, step.Plain := by
  intro step member
  rcases List.mem_append.mp member with inside | last
  · exact plain_iqPlace step inside
  · obtain rfl := List.mem_singleton.mp last
    have named : (ConfigStep.named "list" "compression-method-supported").Plain := by decide
    exact named.indexed i

theorem inner_methodPlace {i : Nat} (near : i < 2 ^ 31) : ∀ step ∈ methodPlace i, step.Inner := by
  intro step member
  rcases List.mem_append.mp member with inside | last
  · exact inner_iqPlace step inside
  · obtain rfl := List.mem_singleton.mp last
    exact ⟨rfl, near⟩

theorem builds_addCompressMethod {i : Nat} (near : i < 2 ^ 31) (parent : Nat) :
    Builds (fun tree => addCompressMethod mConfig parent tree i) parent
      (methodContents mConfig i) := by
  have filled := fun number => builds_placedLeaves mConfig
    (by simp [methodPlace] : methodPlace i ≠ []) (plain_methodPlace i) (inner_methodPlace near)
    (by decide : PlainLeaves methodLeaves) number
  have built := @inContainer parent "compression-method-supported" _ _ filled
  intro tree
  have both := built tree
  rw [methodContents, ← both]
  change addCompressMethod mConfig parent tree i = _
  unfold addCompressMethod
  rw [path_methodPlace]
  change (addLeafFromConfig _ _ _ _ _).bind _ = (addLeafFromConfig _ _ _ _ _).bind _
  congr 1
  funext after
  exact (Option.bind_fun_some _).symm

/-- The contents of `format-of-iq-sample`. -/
def iqContents (numMethods : Nat) : Forest LeafItem :=
  (leaves (placedLeaves mConfig iqPlace iqSampLeaves)).append
    ((List.range numMethods).foldr (fun i rest => (methodContents mConfig i).append rest) .nil)

theorem builds_fillIqSampleFormat {numMethods : Nat} (near : numMethods < 2 ^ 31)
    (counts : mConfig.getNumOfListEntries (iqContPath ++ "/list-compression-method-supported") =
      some numMethods) (parent : Nat) :
    Builds (fillIqSampleFormat mConfig parent) parent (iqContents mConfig numMethods) := by
  have own := builds_placedLeaves mConfig (by decide : iqPlace ≠ []) plain_iqPlace inner_iqPlace
    (by decide : PlainLeaves iqSampLeaves) parent
  have rounds := @Builds.loop parent _ (List.range numMethods) (addCompressMethod mConfig parent) _
    fun i member => builds_addCompressMethod mConfig
      (Nat.lt_trans (List.mem_range.mp member) near) parent
  have both := own.andThen rounds
  intro tree
  have counted : counterValues numMethods = some (List.range numMethods) := if_pos near
  rw [iqContents, ← both tree, fillIqSampleFormat, counts, iqContPath_eq]
  simp only [bind, Option.bind_some, counted]

/-- The place that the leaves of a list of guard resource blocks are read from. -/
def guardPlace (type : String) : List ConfigStep :=
  ruCapPlace ++ [.named type "mixed-num-required-guard-rbs"]

theorem resolve_guardPlace {type : String} (inPlace : InPlace mConfig.mConfig)
    (other : type ∉ ["container", "list", "leaf", "listLeaf", "choice", "feature"]) :
    resolve (guardPlace type) mConfig.mConfig = none := by
  rw [guardPlace, resolve_append]
  cases there : resolve ruCapPlace mConfig.mConfig with
  | none => rfl
  | some ru =>
      rw [Option.bind_some, resolve]
      cases found : ru.getElement type "mixed-num-required-guard-rbs" with
      | none =>
          simp only [ConfigStep.type, ConfigStep.name, found, Option.bind_none]
      | some child =>
          have typed := YangElement.elementType_of_getElement found
          have allowed := inPlace.types ru there child (YangElement.mem_of_getElement found)
          exact absurd (typed ▸ allowed) other

theorem addLeavesFromConfig_guardPlace {type : String} {leafNames : List String}
    (absent : resolve (guardPlace type) mConfig.mConfig = none)
    (plain : ∀ step ∈ guardPlace type, step.Plain) (inner : ∀ step ∈ guardPlace type, step.Inner)
    (names : PlainLeaves leafNames) (parent : Nat) (tree : LeafRecords) :
    addLeavesFromConfig parent leafNames mConfig (path (guardPlace type)) tree = some tree := by
  have nonempty : guardPlace type ≠ [] := by simp [guardPlace]
  have built := builds_placedLeaves mConfig nonempty plain inner names parent tree
  rw [placedLeaves_none mConfig absent] at built
  exact built.trans (congrArg some (List.append_nil tree))

/-- The two containers of the guard resource blocks, both empty. -/
def guardContents : Forest LeafItem :=
  (container "ul-mixed-num-required-guard-rbs" .nil).append
    (container "dl-mixed-num-required-guard-rbs" .nil)

theorem builds_addGuardRbs (inPlace : InPlace mConfig.mConfig) (parent : Nat) :
    Builds (addGuardRbs mConfig parent) parent guardContents := by
  have uplink : ruCapPath ++ "/ul-mixed-num-required-guard-rbs" = path (guardPlace "ul") := by
    decide
  have downlink : ruCapPath ++ "/dl-mixed-num-required-guard-rbs" = path (guardPlace "dl") := by
    decide
  have ulNothing := addLeavesFromConfig_guardPlace mConfig
    (resolve_guardPlace mConfig inPlace (by decide : "ul" ∉ _)) (by decide) (by decide)
    (by decide : PlainLeaves ulMixLeaves)
  have dlNothing := addLeavesFromConfig_guardPlace mConfig
    (resolve_guardPlace mConfig inPlace (by decide : "dl" ∉ _)) (by decide) (by decide)
    (by decide : PlainLeaves dlMixLeaves)
  intro tree
  unfold addGuardRbs
  rw [uplink, downlink]
  dsimp only [addContainer]
  rw [ulNothing]
  change addLeavesFromConfig _ _ _ _ _ = _
  rw [dlNothing, List.append_assoc]
  rfl

/-- The contents of `ru-capabilities`. -/
def ruContents (numMethods : Nat) : Forest LeafItem :=
  (leaves (placedLeaves mConfig ruCapPlace ruCapLeaves)).append
    ((container "format-of-iq-sample" (iqContents mConfig numMethods)).append
      (guardContents.append (container "coupling-methods" .nil)))

theorem builds_fillRuCapabilities (inPlace : InPlace mConfig.mConfig) {numMethods : Nat}
    (near : numMethods < 2 ^ 31)
    (counts : mConfig.getNumOfListEntries (iqContPath ++ "/list-compression-method-supported") =
      some numMethods) (parent : Nat) :
    Builds (fillRuCapabilities mConfig parent) parent (ruContents mConfig numMethods) := by
  have own := builds_placedLeaves mConfig (by decide : ruCapPlace ≠ []) (by decide) (by decide)
    (by decide : PlainLeaves ruCapLeaves) parent
  have format := @inContainer parent "format-of-iq-sample" _ _
    (builds_fillIqSampleFormat mConfig near counts)
  have coupling := @inContainer parent "coupling-methods" _ _ fun number => nothing number
  have all := own.andThen (format.andThen ((builds_addGuardRbs mConfig inPlace parent).andThen coupling))
  intro tree
  rw [ruContents, ← all tree, fillRuCapabilities, ruCapPath_eq]
  rfl

/-- The contents of `band-capabilities`. -/
def bandContents : Forest LeafItem :=
  leaves (placedLeaves mConfig [.named "module" "o-ran-module-cap",
    .named "container" "module-capability", .named "container" "band-capabilities"] bandLeaves)

theorem initialise_eq_some (inPlace : InPlace mConfig.mConfig) {numMethods : Nat}
    (near : numMethods < 2 ^ 31)
    (counts : mConfig.getNumOfListEntries (iqContPath ++ "/list-compression-method-supported") =
      some numMethods) :
    initialise mConfig = some (((container "ru-capabilities" (ruContents mConfig numMethods)).append
      (container "band-capabilities" (bandContents mConfig))).records 0 1) := by
  have ru := @inContainer 0 "ru-capabilities" _ _
    (builds_fillRuCapabilities mConfig inPlace near counts)
  have filled := builds_placedLeaves mConfig (by decide : [ConfigStep.named "module"
    "o-ran-module-cap", .named "container" "module-capability", .named "container"
    "band-capabilities"] ≠ []) (by decide) (by decide) (by decide : PlainLeaves bandLeaves)
  have band := @inContainer 0 "band-capabilities" _ _ filled
  exact (ru.andThen band) []

/-- Nothing comes back when there are too many of them for the counter. -/
theorem initialise_eq_none {numMethods : Nat} (far : ¬ numMethods < 2 ^ 31)
    (counts : mConfig.getNumOfListEntries (iqContPath ++ "/list-compression-method-supported") =
      some numMethods) : initialise mConfig = none := by
  have counted : counterValues numMethods = none := if_neg far
  have format : ∀ parent tree, fillIqSampleFormat mConfig parent tree = none := by
    intro parent tree
    rw [fillIqSampleFormat, counts]
    cases addLeavesFromConfig parent iqSampLeaves mConfig iqContPath tree with
    | none => rfl
    | some after => simp only [bind, Option.bind_some, counted, Option.bind_none]
  have capabilities : createRuCapabilities mConfig [] = none := by
    change fillRuCapabilities mConfig 1 [(0, ⟨true, "ru-capabilities", ""⟩)] = none
    rw [fillRuCapabilities]
    cases addLeavesFromConfig 1 ruCapLeaves mConfig ruCapPath [(0, ⟨true, "ru-capabilities", ""⟩)] with
    | none => rfl
    | some after => simp only [bind, Option.bind_some, addContainer, format, Option.bind_none]
  rw [initialise, capabilities]
  rfl

end ModuleCapabilities

end OpenMplane
