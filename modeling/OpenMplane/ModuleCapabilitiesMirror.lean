import OpenMplane.ModuleCapabilitiesBuilt

/-!
# Does the tree of the module capabilities mirror the configuration?

The leaves of the capabilities, of the format and of the compression methods do.  Of the other
parts there is one node each, without leaves, so that the tree is right only when just that is
configured.
-/

namespace OpenMplane

namespace ModuleCapabilities

open ConfigStep LeafItem Builds

variable {mConfig : YangConfig}

theorem forall₂_singleton_right {α β : Type} {relation : α → β → Prop} {inputs : List α}
    {output : β} : List.Forall₂ relation inputs [output] ↔
      ∃ input, inputs = [input] ∧ relation input output := by
  constructor
  · intro related
    obtain ⟨input, rest, own, none, rfl⟩ := List.forall₂_cons_right_iff.mp related
    obtain rfl := List.forall₂_nil_right_iff.mp none
    exact ⟨input, rfl, own⟩
  · rintro ⟨input, rfl, own⟩
    exact .cons own .nil

theorem containers_eq_singleton {name : String} {element found : YangElement} :
    containers name element = [found] ↔ element.getElement "container" name = some found := by
  rw [containers]
  cases element.getElement "container" name with
  | none => exact ⟨nofun, nofun⟩
  | some other => simp

theorem resolve_named {type name : String} (element : YangElement) :
    resolve [.named type name] element = element.getElement type name := by
  rw [resolve, ConfigStep.type, ConfigStep.name]
  cases element.getElement type name with
  | none => rfl
  | some found => rfl

theorem entries_of_list {name : String} {element list : YangElement}
    (there : element.getElement "list" name = some list) :
    entries name element = list.childElements := by
  rw [entries, there]
  rfl

theorem resolve_container {place : List ConfigStep} {element found : YangElement} {name : String}
    (there : resolve place mConfig.mConfig = some element)
    (inside : element.getElement "container" name = some found) :
    resolve (place ++ [.named "container" name]) mConfig.mConfig = some found := by
  rw [resolve_append, there, Option.bind_some, resolve_named, inside]

/-- The number of compression methods that is read. -/
def numMethods (mConfig : YangConfig) : Nat :=
  ((resolve (iqPlace ++ [named "list" "compression-method-supported"]) mConfig.mConfig).map
    YangElement.getNumberOfChildElements).getD 0

theorem getNumOfListEntries_methods (inPlace : InPlace mConfig.mConfig) :
    mConfig.getNumOfListEntries (iqContPath ++ "/list-compression-method-supported") =
      some (numMethods mConfig) := by
  have path : iqContPath ++ "/list-compression-method-supported" =
      path (iqPlace ++ [named "list" "compression-method-supported"]) := by
    rw [iqContPath_eq, ← path_behind (by decide)]
    rfl
  rw [path]
  refine getNumOfListEntries_list mConfig plain_iqPlace (by decide) (by decide) (by decide) ?_
  intro list there
  rw [iqPlace, resolve_append, resolve_append] at there
  obtain ⟨format, formatThere, listThere⟩ := Option.bind_eq_some_iff.mp there
  obtain ⟨ru, ruThere, formatThere⟩ := Option.bind_eq_some_iff.mp formatThere
  cases inside : list.getElement "list" "compression-method-supported" with
  | none => rfl
  | some inner =>
      have typed := YangElement.elementType_of_getElement inside
      rw [resolve_named] at formatThere listThere
      have member : inner ∈ entries "compression-method-supported" format := by
        rw [entries_of_list listThere]
        exact YangElement.mem_of_getElement inside
      have configured : format ∈ containers "format-of-iq-sample" ru := by
        rw [containers_eq_singleton.mpr formatThere]
        exact List.mem_singleton_self format
      have entry := inPlace.entries ru ruThere format configured inner member
      exact absurd (entry.symm.trans typed) (by decide)

theorem mirrored_iff_built (inPlace : InPlace mConfig.mConfig) : Mirrored mConfig ↔
    numMethods mConfig < 2 ^ 31 ∧ ∃ ru, resolve ruCapPlace mConfig.mConfig = some ru ∧
      MirrorsRuCapabilities ru (ruContents mConfig (numMethods mConfig)) := by
  have counts := getNumOfListEntries_methods inPlace
  by_cases near : numMethods mConfig < 2 ^ 31
  · have built := initialise_eq_some mConfig inPlace near counts
    have inside : containersIn "ru-capabilities"
        ((container "ru-capabilities" (ruContents mConfig (numMethods mConfig))).append
          (container "band-capabilities" (bandContents mConfig))) =
        [ruContents mConfig (numMethods mConfig)] := by
      rw [containersIn_append, containersIn_container, containersIn_container, if_pos rfl,
        if_neg (by decide), List.append_nil]
    have singleton : (List.Forall₂ MirrorsRuCapabilities
        (resolve ruCapPlace mConfig.mConfig).toList [ruContents mConfig (numMethods mConfig)]) ↔
        ∃ ru, resolve ruCapPlace mConfig.mConfig = some ru ∧
          MirrorsRuCapabilities ru (ruContents mConfig (numMethods mConfig)) := by
      rw [forall₂_singleton_right]
      simp only [Option.toList_eq_singleton_iff]
    rw [and_iff_right near, ← singleton, ← inside]
    constructor
    · rintro ⟨tree, same, mirrors⟩
      obtain rfl := ParentRecords.records_inj Nat.zero_lt_one (Option.some.inj (built.symm.trans same))
      exact mirrors
    · exact fun mirrors => ⟨_, built, mirrors⟩
  · have none := initialise_eq_none mConfig near counts
    constructor
    · rintro ⟨tree, same, -⟩
      exact absurd (none.symm.trans same) nofun
    · exact fun meets => absurd meets.1 near

section Capabilities

variable {ru format : YangElement}

/-- The number that is read, when the format is configured. -/
theorem numMethods_eq (ruThere : resolve ruCapPlace mConfig.mConfig = some ru)
    (formatThere : ru.getElement "container" "format-of-iq-sample" = some format) :
    numMethods mConfig = (entries "compression-method-supported" format).length % 2 ^ 32 := by
  rw [numMethods, iqPlace, resolve_append, resolve_container ruThere formatThere, Option.bind_some,
    resolve_named, entries]
  cases format.getElement "list" "compression-method-supported" with
  | none => rfl
  | some list => rfl

theorem containersIn_methods (indexes : List Nat) :
    containersIn "compression-method-supported"
        (indexes.foldr (fun i rest => (methodContents mConfig i).append rest) .nil) =
      indexes.map fun i => leaves (placedLeaves mConfig (methodPlace i) methodLeaves) := by
  induction indexes with
  | nil => rfl
  | cons i indexes ih =>
      rw [List.foldr_cons, containersIn_append, ih, methodContents, containersIn_container,
        if_pos rfl]
      rfl

theorem leavesIn_methods (indexes : List Nat) :
    leavesIn (indexes.foldr (fun i rest => (methodContents mConfig i).append rest) .nil) = [] := by
  induction indexes with
  | nil => rfl
  | cons i indexes ih =>
      rw [List.foldr_cons, leavesIn_append, ih]
      rfl

theorem containerNames_methods (indexes : List Nat) :
    ∀ name ∈ containerNames
        (indexes.foldr (fun i rest => (methodContents mConfig i).append rest) .nil),
      name = "compression-method-supported" := by
  induction indexes with
  | nil => exact fun name member => by cases member
  | cons i indexes ih =>
      intro name member
      rw [List.foldr_cons, containerNames_append, methodContents, containerNames_container] at member
      rcases List.mem_append.mp member with own | later
      · exact List.mem_singleton.mp own
      · exact ih name later

theorem resolve_methodPlace (inPlace : InPlace mConfig.mConfig)
    (ruThere : resolve ruCapPlace mConfig.mConfig = some ru)
    (formatThere : ru.getElement "container" "format-of-iq-sample" = some format) {i : Nat}
    (near : i < 2 ^ 31) {entry : YangElement}
    (here : (entries "compression-method-supported" format)[i]? = some entry) :
    resolve (methodPlace i) mConfig.mConfig = some entry := by
  have configured : format ∈ containers "format-of-iq-sample" ru := by
    rw [containers_eq_singleton.mpr formatThere]
    exact List.mem_singleton_self format
  have typed := inPlace.entries ru ruThere format configured entry (List.mem_of_getElem? here)
  rw [methodPlace, iqPlace, resolve_append, resolve_container ruThere formatThere,
    Option.bind_some]
  cases listThere : format.getElement "list" "compression-method-supported" with
  | none =>
      rw [entries, listThere] at here
      cases here
  | some list =>
      rw [entries_of_list listThere] at here
      have found := YangElement.getElementAt_of_getElem (by omega) here typed.symm
      simp only [resolve, ConfigStep.type, ConfigStep.name, listThere, Option.bind_some, below, found]

theorem mirrorsFormat_iff (inPlace : InPlace mConfig.mConfig)
    (ruThere : resolve ruCapPlace mConfig.mConfig = some ru)
    (formatThere : ru.getElement "container" "format-of-iq-sample" = some format)
    (near : numMethods mConfig < 2 ^ 31) :
    MirrorsFormat format (iqContents mConfig (numMethods mConfig)) ↔
      (entries "compression-method-supported" format).length = numMethods mConfig := by
  have nodes : containersIn "compression-method-supported" (iqContents mConfig (numMethods mConfig)) =
      (List.range (numMethods mConfig)).map fun i =>
        leaves (placedLeaves mConfig (methodPlace i) methodLeaves) := by
    rw [iqContents, containersIn_append, containersIn_leaves, List.nil_append, containersIn_methods]
  constructor
  · intro mirrors
    have lengths := mirrors.methods.length_eq
    rwa [nodes, List.length_map, List.length_range] at lengths
  · intro counted
    refine ⟨?_, ?_, ?_⟩
    · have place : resolve iqPlace mConfig.mConfig = some format :=
        resolve_container ruThere formatThere
      rw [iqContents, leavesIn_append, leavesIn_leaves, leavesIn_methods, List.append_nil,
        placedLeaves_some mConfig place]
    · rw [nodes]
      refine List.forall₂_iff_get.mpr ⟨by rw [counted, List.length_map, List.length_range], ?_⟩
      intro i inside _
      have here := List.getElem?_eq_getElem inside
      have place := resolve_methodPlace inPlace ruThere formatThere (by omega : i < 2 ^ 31) here
      rw [List.get_eq_getElem, List.get_eq_getElem, List.getElem_map, List.getElem_range]
      rw [placedLeaves_some mConfig place]
      exact ⟨by rw [leavesIn_leaves], containerNames_leaves _⟩
    · intro name member
      rw [iqContents, containerNames_append, containerNames_leaves, List.nil_append] at member
      exact containerNames_methods _ name member

/-- An empty node mirrors an element without leaves. -/
theorem mirrorsLeaves_nil {leafNames : List String} {element : YangElement} :
    MirrorsLeaves leafNames element .nil ↔ leavesOf leafNames element = [] := by
  constructor
  · exact fun mirrors => List.nil_perm.mp mirrors.1
  · exact fun none => ⟨List.nil_perm.mpr none, rfl⟩

theorem containersIn_ruContents (name : String) (numMethods : Nat) :
    containersIn name (ruContents mConfig numMethods) =
      (if "format-of-iq-sample" = name then [iqContents mConfig numMethods] else []) ++
        ((if "ul-mixed-num-required-guard-rbs" = name then [.nil] else []) ++
          ((if "dl-mixed-num-required-guard-rbs" = name then [.nil] else []) ++
            (if "coupling-methods" = name then [.nil] else []))) := by
  rw [ruContents, guardContents, containersIn_append, containersIn_leaves, containersIn_append,
    containersIn_append, containersIn_append, containersIn_container, containersIn_container,
    containersIn_container, containersIn_container, List.nil_append, List.append_assoc]

theorem mirrorsRuCapabilities_iff (inPlace : InPlace mConfig.mConfig)
    (ruThere : resolve ruCapPlace mConfig.mConfig = some ru) (near : numMethods mConfig < 2 ^ 31) :
    MirrorsRuCapabilities ru (ruContents mConfig (numMethods mConfig)) ↔
      (∃ format ∈ containers "format-of-iq-sample" ru,
        (entries "compression-method-supported" format).length = numMethods mConfig) ∧
      (∃ entry, entries "ul-mixed-num-required-guard-rbs" ru = [entry] ∧
        leavesOf ulMixLeaves entry = []) ∧
      (∃ entry, entries "dl-mixed-num-required-guard-rbs" ru = [entry] ∧
        leavesOf dlMixLeaves entry = []) ∧
      ∃ coupling ∈ containers "coupling-methods" ru, leavesOf couplingLeaves coupling = [] := by
  have formats : containersIn "format-of-iq-sample" (ruContents mConfig (numMethods mConfig)) =
      [iqContents mConfig (numMethods mConfig)] := containersIn_ruContents _ _
  have uplink : containersIn "ul-mixed-num-required-guard-rbs"
      (ruContents mConfig (numMethods mConfig)) = [.nil] := containersIn_ruContents _ _
  have downlink : containersIn "dl-mixed-num-required-guard-rbs"
      (ruContents mConfig (numMethods mConfig)) = [.nil] := containersIn_ruContents _ _
  have couplings : containersIn "coupling-methods" (ruContents mConfig (numMethods mConfig)) =
      [.nil] := containersIn_ruContents _ _
  constructor
  · rintro ⟨-, format, ulMix, dlMix, coupling, -⟩
    rw [formats, forall₂_singleton_right] at format
    rw [uplink, forall₂_singleton_right] at ulMix
    rw [downlink, forall₂_singleton_right] at dlMix
    rw [couplings, forall₂_singleton_right] at coupling
    obtain ⟨configured, alone, mirrors⟩ := format
    obtain ⟨ulEntry, ulAlone, ulNone⟩ := ulMix
    obtain ⟨dlEntry, dlAlone, dlNone⟩ := dlMix
    obtain ⟨methods, methodsAlone, methodsNone⟩ := coupling
    have formatThere := containers_eq_singleton.mp alone
    refine ⟨⟨configured, by rw [alone]; exact List.mem_singleton_self _,
        (mirrorsFormat_iff inPlace ruThere formatThere near).mp mirrors⟩,
      ⟨ulEntry, ulAlone, mirrorsLeaves_nil.mp ulNone⟩, ⟨dlEntry, dlAlone, mirrorsLeaves_nil.mp dlNone⟩,
      methods, by rw [methodsAlone]; exact List.mem_singleton_self _, mirrorsLeaves_nil.mp methodsNone⟩
  · rintro ⟨⟨configured, formatMember, counted⟩, ⟨ulEntry, ulAlone, ulNone⟩,
      ⟨dlEntry, dlAlone, dlNone⟩, methods, methodsMember, methodsNone⟩
    have formatThere := Option.mem_toList.mp formatMember
    have methodsThere := Option.mem_toList.mp methodsMember
    refine ⟨?_, ?_, ?_, ?_, ?_, ?_⟩
    · rw [ruContents, leavesIn_append, leavesIn_leaves, placedLeaves_some mConfig ruThere]
      exact List.Perm.of_eq (List.append_nil _)
    · rw [formats, forall₂_singleton_right]
      exact ⟨configured, containers_eq_singleton.mpr formatThere,
        (mirrorsFormat_iff inPlace ruThere formatThere near).mpr counted⟩
    · rw [uplink, forall₂_singleton_right]
      exact ⟨ulEntry, ulAlone, mirrorsLeaves_nil.mpr ulNone⟩
    · rw [downlink, forall₂_singleton_right]
      exact ⟨dlEntry, dlAlone, mirrorsLeaves_nil.mpr dlNone⟩
    · rw [couplings, forall₂_singleton_right]
      exact ⟨methods, containers_eq_singleton.mpr methodsThere, mirrorsLeaves_nil.mpr methodsNone⟩
    · intro name member
      rw [ruContents, containerNames_append, containerNames_leaves] at member
      exact member

end Capabilities

/-- The tree mirrors the configuration exactly when that has one entry without leaves in each
list of guard resource blocks, no leaf in its coupling methods and the other containers. -/
theorem mirrored_iff (mConfig : YangConfig) (inPlace : InPlace mConfig.mConfig) :
    Mirrored mConfig ↔ Meets mConfig.mConfig := by
  rw [mirrored_iff_built inPlace]
  constructor
  · rintro ⟨near, ru, ruThere, mirrors⟩
    obtain ⟨⟨format, member, counted⟩, others⟩ :=
      (mirrorsRuCapabilities_iff inPlace ruThere near).mp mirrors
    exact ⟨ru, ruThere, ⟨format, member, counted ▸ near⟩, others⟩
  · rintro ⟨ru, ruThere, ⟨format, member, few⟩, others⟩
    have read := numMethods_eq ruThere (Option.mem_toList.mp member)
    have counted : (entries "compression-method-supported" format).length = numMethods mConfig := by
      omega
    have near : numMethods mConfig < 2 ^ 31 := counted ▸ few
    exact ⟨near, ru, ruThere,
      (mirrorsRuCapabilities_iff inPlace ruThere near).mpr ⟨⟨format, member, counted⟩, others⟩⟩

/-- Capabilities with one coupling method. -/
def couplingCapabilities : YangElement :=
  ⟨"container", "ru-capabilities", "", "", "", [⟨"container", "coupling-methods", "", "", "",
    [⟨"leaf", "coupling-via-frequency-and-time", "true", "", "", []⟩]⟩]⟩

def couplingConfig : YangConfig :=
  { YangConfig.constructed with
    mConfig := ⟨"config", "", "", "", "", [⟨"module", "o-ran-module-cap", "", "", "",
      [⟨"container", "module-capability", "", "", "", [couplingCapabilities]⟩]⟩]⟩ }

theorem inPlace_couplingConfig : InPlace couplingConfig.mConfig := by
  have there : resolve ruCapPlace couplingConfig.mConfig = some couplingCapabilities := rfl
  constructor
  · intro ru member child inside
    obtain rfl := Option.some.inj (there.symm.trans member)
    obtain rfl := List.mem_singleton.mp inside
    decide
  · intro ru member format configured
    obtain rfl := Option.some.inj (there.symm.trans member)
    exact absurd configured List.not_mem_nil

theorem mirrored_iff_couplingConfig : InPlace couplingConfig.mConfig ∧
    (Mirrored couplingConfig ↔ Meets couplingConfig.mConfig) :=
  ⟨inPlace_couplingConfig, mirrored_iff couplingConfig inPlace_couplingConfig⟩

/-- A coupling method that is configured does not get into the tree. -/
theorem coupling_method_is_missing :
    ¬ ∀ mConfig : YangConfig, InPlace mConfig.mConfig → Mirrored mConfig := by
  intro always
  have inPlace := inPlace_couplingConfig
  obtain ⟨near, ru, there, mirrors⟩ := (mirrored_iff_built inPlace).mp (always _ inPlace)
  obtain rfl : couplingCapabilities = ru := Option.some.inj there
  obtain ⟨-, -, -, coupling, member, none⟩ := (mirrorsRuCapabilities_iff inPlace rfl near).mp mirrors
  obtain rfl := List.mem_singleton.mp member
  exact absurd none (by decide)

end ModuleCapabilities

end OpenMplane
