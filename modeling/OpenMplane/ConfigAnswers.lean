import OpenMplane.ConfigLookups

/-!
# What the configuration answers

A configuration document is answered when its parser succeeds and the configuration then
has exactly the elements of the flattened document, and returns the value and the access
of every leaf, list-leaf entry and feature on the path built from its ancestors.
`answered_iff` says when that is so: the parser knows the features that stand directly
below their module, it keeps the access of leaves with a value only, and the look-up
takes positions that are an `int`.
-/

namespace OpenMplane

open Forest YangConfigParser ExtractElements ConfigStep

/-- A configuration document: the general information, the version and the modules.
Every element has the attributes that the extractors read and what has to be below it,
and no two siblings but entries have the same type and name once the blocks of enabled
features are flattened. -/
structure ConfigDocument where
  root : XmlTag
  general : XmlTag
  oranInfo : XmlTag
  productInfo : XmlTag
  version : XmlTag
  /-- What stands below and behind these elements, which the parser does not read. -/
  oranInfoBelow : XMLElement
  productInfoBelow : XMLElement
  generalBehind : XMLElement
  versionBelow : XMLElement
  modules : XMLElement
  root_name : root.name.text = "root"
  general_name : general.name.text = "General"
  version_name : version.name.text = "yang-version"
  version_value : (version.Attribute "value").isSome
  formed : EachModule (ModuleFormed (stated modules)) modules
  distinct : (flattened (stated modules) modules).Distinct XmlTag.label XmlTag.IsEntry

/-- The elements of the configuration have the types and names of the document's, in the
same order and depth. -/
def Mirrors : XMLElement → List YangElement → Prop
  | .nil, [] => True
  | .node tag children siblings, element :: elements =>
      (element.elementType = tag.elementType ∧
        (tag.elementType ≠ "listEntry" → element.elementName = tag.elementName)) ∧
      Mirrors children element.childElements ∧ Mirrors siblings elements
  | _, _ => False

theorem Holds.mirrors {document : XMLElement} {elements : List YangElement}
    (holds : Holds document elements) : Mirrors document elements := by
  induction document generalizing elements with
  | nil =>
      cases elements with
      | nil => trivial
      | cons element elements => exact absurd holds (by simp [Holds])
  | node tag children siblings ihChildren ihSiblings =>
      obtain ⟨element, rest, rfl, keeps, below, behind⟩ := exists_of_holds_node holds
      exact ⟨⟨keeps.type, keeps.name⟩, ihChildren below, ihSiblings behind⟩

theorem Mirrors.count {document : XMLElement} {elements : List YangElement}
    (mirrors : Mirrors document elements) :
    document.count = YangElement.sizes elements := by
  induction document generalizing elements with
  | nil =>
      cases elements with
      | nil => rfl
      | cons element elements => exact absurd mirrors (by simp [Mirrors])
  | node tag children siblings ihChildren ihSiblings =>
      cases elements with
      | nil => exact absurd mirrors (by simp [Mirrors])
      | cons element elements =>
          have below := ihChildren mirrors.2.1
          have behind := ihSiblings mirrors.2.2
          have size := element.size_eq
          simp only [Forest.count, YangElement.sizes]
          omega

section Narrower

variable {narrow wide : Features}
  (narrower : ∀ moduleName featureName,
    narrow moduleName featureName = true → wide moduleName featureName = true)

include narrower

theorem opens_of_narrower {tag : XmlTag} (opened : opens narrow tag = true) :
    opens wide tag = true := by
  unfold opens at opened ⊢
  cases names : ifFeatureNames tag.name.text with
  | none => simp [names] at opened
  | some pair =>
      simp only [names] at opened
      exact narrower pair.1 pair.2 opened

theorem choose_narrower (tag : XmlTag) :
    choose narrow tag = choose wide tag ∨ choose narrow tag = .drop := by
  unfold choose
  by_cases opened : opens narrow tag = true
  · simp [opened, opens_of_narrower narrower opened]
  · split_ifs <;> simp

theorem count_flattened_le (modules : XMLElement) :
    (flattened narrow modules).count ≤ (flattened wide modules).count := by
  induction modules with
  | nil => exact le_rfl
  | node tag children siblings _ ih =>
      have below := count_splice_le (choose_narrower narrower) children
      by_cases isModule : tag.isModule = true
      · simp only [flattened, isModule, ↓reduceIte, Forest.count]
        omega
      · simpa [flattened, isModule] using ih

/-- With fewer features enabled as many elements are left only when the same are. -/
theorem flattened_eq_of_count_eq {modules : XMLElement}
    (same : (flattened narrow modules).count = (flattened wide modules).count) :
    flattened narrow modules = flattened wide modules := by
  induction modules with
  | nil => rfl
  | node tag children siblings _ ih =>
      have below := count_splice_le (choose_narrower narrower) children
      have behind := count_flattened_le narrower siblings
      by_cases isModule : tag.isModule = true
      · simp only [flattened, isModule, ↓reduceIte, Forest.count] at same ⊢
        rw [splice_eq_of_count_eq (choose_narrower narrower) (by omega), ih (by omega)]
      · simp only [flattened, isModule, Bool.false_eq_true, ↓reduceIte] at same ⊢
        exact ih same

theorem ModuleFormed.mono {tag : XmlTag} {children : XMLElement}
    (formed : ModuleFormed wide tag children) : ModuleFormed narrow tag children where
  named := formed.named
  body := formed.body
  carries := formed.carries
  filled := formed.filled.mono fun _ _ filled needs => filled (needs.imp id fun block =>
    ⟨block.1, opens_of_narrower narrower block.2⟩)

theorem EachModule.mono {modules : XMLElement}
    (formed : EachModule (ModuleFormed wide) modules) :
    EachModule (ModuleFormed narrow) modules :=
  formed.imp fun _ _ formed => formed.mono narrower

end Narrower

theorem any_of_anySibling {meets : XmlTag → Bool} {document : XMLElement}
    (found : document.anySibling meets = true) : document.any meets = true := by
  induction document with
  | nil => simp [anySibling] at found
  | node tag children siblings _ ih =>
      simp only [anySibling, Bool.or_eq_true] at found
      simp only [any, Bool.or_eq_true]
      exact found.imp Or.inl ih

theorem stated_of_declared {modules : XMLElement} {moduleName featureName : String}
    (enabled : declared modules moduleName featureName = true) :
    stated modules moduleName featureName = true := by
  unfold declared at enabled
  unfold stated
  induction modules with
  | nil => simp [hasFeature] at enabled
  | node tag children siblings _ ih =>
      rw [hasFeature_node, Bool.or_eq_true, Bool.and_eq_true] at enabled ⊢
      exact enabled.imp (fun here => ⟨here.1, any_of_anySibling here.2⟩) ih

namespace ConfigDocument

/-- The elements with the general information. -/
def generalNode (document : ConfigDocument) : XMLElement :=
  .node document.oranInfo document.oranInfoBelow
    (.node document.productInfo document.productInfoBelow document.generalBehind)

def xml (document : ConfigDocument) : XMLElement :=
  .node document.root
    (.node document.general document.generalNode
      (.node document.version document.versionBelow document.modules))
    .nil

/-- The document as if the blocks of features that are true anywhere were not there, and
without the other blocks. -/
def flat (document : ConfigDocument) : XMLElement :=
  flattened (stated document.modules) document.modules

/-- Its leaves, list-leaf entries and features. -/
def values (document : ConfigDocument) : List Place :=
  places .data document.flat

/-- The configuration is the flattened document, and returns the value and the access of
everything that has a value. -/
def Answered (document : ConfigDocument) : Prop :=
  ∃ config, parseConfig .constructed document.xml = some (true, config) ∧
    Mirrors document.flat config.mConfig.childElements ∧
    ∀ place ∈ document.values, config.getValue place.path = some place.tag.documentValue ∧
      config.getAccess place.path = some place.tag.documentAccess

/-- The document has a module, the features that are true directly below their module
leave the same elements as those that are true anywhere, no element but a leaf with a
value has an access, and no position is beyond the largest `int`. -/
structure Readable (document : ConfigDocument) : Prop where
  modules : document.modules ≠ .nil
  features : flattened (declared document.modules) document.modules = document.flat
  access : ∀ place ∈ document.values,
    place.tag.keepsAccess = true ∨ place.tag.documentAccess = ""
  positions : ∀ place ∈ document.values, place.InRange

variable {document : ConfigDocument}

theorem parseConfig_eq (document : ConfigDocument) :
    ∃ config : YangConfig, config.mConfig = YangConfig.constructed.mConfig ∧
      parseConfig .constructed document.xml =
        (extractAllFeatures document.modules ∅).bind fun featureMap =>
          (extractModule featureMap true document.modules config.mConfig).map
            fun result => (result.1, { config with mConfig := result.2 }) := by
  obtain ⟨yangVersion, value⟩ := Option.isSome_iff_exists.mp document.version_value
  obtain ⟨config, read, same⟩ : ∃ config : YangConfig,
      extractGeneral .constructed document.generalNode = some config ∧
        config.mConfig = YangConfig.constructed.mConfig := ⟨_, rfl, rfl⟩
  refine ⟨{ config with mYangVersion := yangVersion }, same, ?_⟩
  simp [xml, parseConfig, parseFrom, extractHeader, document.root_name, document.general_name,
    document.version_name, value, read, Option.map_bind, Function.comp_def]

/-- The parser reads the document with the features that are declared. -/
theorem parseConfig_spec (present : document.modules ≠ .nil) :
    ∃ config, parseConfig .constructed document.xml = some (true, config) ∧
      Holds (flattened (declared document.modules) document.modules)
        config.mConfig.childElements := by
  obtain ⟨config, empty, parsed⟩ := parseConfig_eq document
  obtain ⟨featureMap, run, enables⟩ := extractAllFeatures_spec document.formed
    document.distinct present ∅ fun _ _ _ => rfl
  have same : isFeatureEnabled featureMap = declared document.modules := by
    funext moduleName featureName
    rw [enables]
    exact Bool.or_false _
  obtain ⟨elements, holds, adds⟩ := extractModule_spec same
    (document.formed.mono fun _ _ => stated_of_declared) present
  refine ⟨{ config with mConfig := config.mConfig.addChildElements elements }, ?_, ?_⟩
  · rw [parsed, run, Option.bind_some, adds]
    rfl
  · rw [empty]
    exact holds

theorem parseConfig_eq_none (absent : document.modules = .nil) :
    parseConfig .constructed document.xml = none := by
  obtain ⟨config, -, parsed⟩ := parseConfig_eq document
  rw [parsed, absent]
  rfl

/-- What the configuration returns for each value of the document it was read from. -/
theorem commonGet_eq {config : YangConfig}
    (holds : Holds document.flat config.mConfig.childElements) {place : Place}
    (member : place ∈ document.values) : config.commonGet place.path = place.answer :=
  answers_places .data (fits_flattened document.formed) document.distinct
    (agrees_below holds) place member

/-- The exact condition under which a configuration document is answered. -/
theorem answered_iff (document : ConfigDocument) :
    document.Answered ↔ document.Readable := by
  constructor
  · rintro ⟨config, parsed, mirrors, answers⟩
    have present : document.modules ≠ .nil := by
      intro absent
      rw [parseConfig_eq_none absent] at parsed
      cases parsed
    obtain ⟨other, parsedToo, holds⟩ := parseConfig_spec present
    obtain rfl : config = other := by
      simpa using parsed.symm.trans parsedToo
    have features : flattened (declared document.modules) document.modules = document.flat :=
      flattened_eq_of_count_eq (fun _ _ => stated_of_declared)
        (holds.mirrors.count.trans mirrors.count.symm)
    rw [features] at holds
    have right : ∀ place ∈ document.values,
        place.answer = some (place.tag.documentValue, place.tag.documentAccess) := by
      intro place member
      have found := commonGet_eq holds member
      obtain ⟨value, access⟩ := answers place member
      rw [YangConfig.getValue, found] at value
      rw [YangConfig.getAccess, found] at access
      obtain ⟨pair, answered, sameValue⟩ := Option.map_eq_some_iff.mp value
      rw [answered, Option.map_some, Option.some.injEq] at access
      rw [answered, ← sameValue, ← access]
    refine ⟨present, features, fun place member => ?_, fun place member => ?_⟩
    · have answered := right place member
      by_cases keeps : place.tag.keepsAccess = true
      · exact Or.inl keeps
      · unfold Place.answer at answered
        split_ifs at answered
        simp only [Option.some.injEq, Prod.mk.injEq, true_and] at answered
        exact Or.inr answered.symm
    · by_contra far
      have answered := right place member
      rw [answer_eq_none far] at answered
      cases answered
  · rintro ⟨present, features, access, positions⟩
    obtain ⟨config, parsed, holds⟩ := parseConfig_spec present
    rw [features] at holds
    refine ⟨config, parsed, holds.mirrors, fun place member => ?_⟩
    have found := commonGet_eq holds member
    rw [Place.answer, if_pos (positions place member)] at found
    rw [YangConfig.getValue, YangConfig.getAccess, found]
    refine ⟨rfl, ?_⟩
    rcases access place member with keeps | none'
    · simp [keeps]
    · simp [none']

/-- The user names of an access-control group. -/
def userNames : ConfigDocument where
  root := ⟨⟨"root", by decide⟩, []⟩
  general := ⟨⟨"General", by decide⟩, []⟩
  oranInfo := ⟨⟨"OranInfo", by decide⟩,
    [("oranVersion", "7.01"), ("product", "Mplane-ORAN-Radio"), ("variant", "0.1")]⟩
  productInfo := ⟨⟨"ProductInfo", by decide⟩, [("formatVersion", "1.0"), ("company", "Mplane")]⟩
  version := ⟨⟨"yang-version", by decide⟩, [("value", "1.1")]⟩
  oranInfoBelow := .nil
  productInfoBelow := .nil
  generalBehind := .nil
  versionBelow := .nil
  modules :=
    .node ⟨⟨"module-ietf-netconf-acm", by decide⟩, []⟩
      (.node ⟨⟨"container-nacm", by decide⟩, []⟩
        (.node ⟨⟨"container-groups", by decide⟩, []⟩
          (.node ⟨⟨"list-group", by decide⟩, []⟩
            (.node ⟨⟨"listEntry", by decide⟩, []⟩
              (.node ⟨⟨"leaf-name", by decide⟩, [("value", ""), ("access", "rw")]⟩ .nil
                (.node ⟨⟨"listLeaf-user-name", by decide⟩, []⟩
                  (.node ⟨⟨"entry", by decide⟩, [("value", ""), ("access", "rw")]⟩ .nil .nil)
                  .nil))
              .nil)
            .nil)
          .nil)
        .nil)
      .nil
  root_name := rfl
  general_name := rfl
  version_name := rfl
  version_value := rfl
  formed := by decide +kernel
  distinct := by decide +kernel

/-- The entry of the list leaf, and where it stands. -/
def userName : Place :=
  ⟨[.named "module" "ietf-netconf-acm", .named "container" "nacm", .named "container" "groups",
      .indexed "list" "group" 0, .indexed "listLeaf" "user-name" 0],
    ⟨⟨"entry", by decide⟩, [("value", ""), ("access", "rw")]⟩⟩

/-- The access of a list-leaf entry is not kept. -/
theorem entry_access_is_lost : ¬ userNames.Answered := by
  rintro ⟨config, parsed, -, answers⟩
  have member : userName ∈ userNames.values := by decide +kernel
  have lost : ((parseConfig .constructed userNames.xml).bind fun result =>
      result.2.getAccess userName.path) = some "" := by
    decide +kernel
  rw [parsed, Option.bind_some, (answers userName member).2] at lost
  exact absurd lost (by decide)

end ConfigDocument

end OpenMplane
