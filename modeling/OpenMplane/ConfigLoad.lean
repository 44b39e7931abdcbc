import OpenMplane.ConfigReached

/-!
# Loading a configuration file

`YangConfigParser::load` reads the file, takes the general information and the
version from the elements before the modules, reads all features and then extracts
the modules.  `Loadable` says for which documents that comes through; on the others
the parser follows a null pointer, and on none with the right root does it return
false.
-/

namespace OpenMplane

open ListCut Forest YangConfigParser ExtractElements

/-- The states of `ReturnType::State` that `load` returns. -/
inductive ReturnState
  | RT_OK
  | RT_NOT_INITIALISED
  | RT_NOT_FOUND
  | RT_SYNTAX_ERROR
  deriving DecidableEq

/-- What a load changes: two members of the parser, and the configuration
singleton with its flag. -/
structure ConfigLoader where
  mConfigFileLoaded : Bool
  mModuleFeatureMap : FeatureMap
  mConfig : YangConfig
  mIsConfigLoaded : Bool

namespace YangConfigParser

/-- `YangConfigParser::load`, where `files` says what the library makes of a
path: nothing when it cannot read the file, else the root element. -/
def load (files : String → Option XMLElement) (path : String) (loader : ConfigLoader) :
    Option (ReturnState × ConfigLoader) :=
  let loader := { loader with mConfigFileLoaded := false }
  if path = "" then some (.RT_NOT_INITIALISED, loader)
  else
    match files path with
    | none => some (.RT_NOT_FOUND, loader)
    | some .nil => some (.RT_NOT_FOUND, loader)
    | some (.node root children siblings) =>
        (parseFrom loader.mModuleFeatureMap loader.mConfig (.node root children siblings)).map
          fun (returnValue, mModuleFeatureMap, mConfig) =>
            let loader := { loader with mModuleFeatureMap, mConfig }
            if returnValue = false then (.RT_SYNTAX_ERROR, loader)
            else (.RT_OK, { loader with mConfigFileLoaded := true, mIsConfigLoaded := true })

end YangConfigParser

/-! ## The features that a document states -/

namespace Features

def set (features : Features) (moduleName featureName : String) (enabled : Bool) : Features :=
  fun otherModule otherName =>
    if moduleName = otherModule ∧ featureName = otherName then enabled
    else features otherModule otherName

/-- The features among the children of a module are set one after the other. -/
def readBelow (moduleName : String) : XMLElement → Features → Features
  | .nil, features => features
  | .node tag _ siblings, features =>
      match findElementNoAttributes tag "feature" with
      | none => readBelow moduleName siblings features
      | some featureName =>
          readBelow moduleName siblings
            (features.set moduleName featureName (tag.Attribute "value" = some "true"))

def read : XMLElement → Features → Features
  | .nil, features => features
  | .node tag children siblings, features =>
      match findElementNoAttributes tag "module" with
      | none => read siblings features
      | some moduleName => read siblings (readBelow moduleName children features)

end Features

/-- The features among the children of a module have a value. -/
def FeaturesCarry : XMLElement → Prop
  | .nil => True
  | .node tag _ siblings =>
      ((findElementNoAttributes tag "feature").isSome = true →
        (tag.Attribute "value").isSome = true) ∧ FeaturesCarry siblings

instance decidableFeaturesCarry : ∀ document : XMLElement, Decidable (FeaturesCarry document)
  | .nil => isTrue trivial
  | .node tag _ siblings =>
      have := decidableFeaturesCarry siblings
      inferInstanceAs (Decidable (((findElementNoAttributes tag "feature").isSome = true →
        (tag.Attribute "value").isSome = true) ∧ FeaturesCarry siblings))

theorem elementType_of_findElementNoAttributes {tag : XmlTag} {type name : String}
    (found : findElementNoAttributes tag type = some name) : tag.elementType = type := by
  unfold findElementNoAttributes at found
  unfold XmlTag.elementType getElementType
  cases cut : cutFirst '-' tag.name.text.toList with
  | none => simp [cut] at found
  | some parts =>
      obtain ⟨before, after⟩ := parts
      simp only [cut] at found
      split_ifs at found with typed
      cases before with
      | nil => exact absurd rfl (tag.name.nonempty_of_cut cut)
      | cons first rest =>
          dsimp only
          rw [typed, String.ofList_toList]

section Reading

variable {moduleName : String}

/-- The inner loop reads the features, or follows a missing value. -/
theorem extractFeatures_cases (document : XMLElement) (featureMap : FeatureMap) :
    (FeaturesCarry document → ∃ after, extractFeatures moduleName document featureMap = some after ∧
      isFeatureEnabled after =
        Features.readBelow moduleName document (isFeatureEnabled featureMap)) ∧
    (¬ FeaturesCarry document → extractFeatures moduleName document featureMap = none) := by
  induction document generalizing featureMap with
  | nil => exact ⟨fun _ => ⟨featureMap, rfl, rfl⟩, fun never => absurd trivial never⟩
  | node tag children siblings _ ih =>
      cases found : findElementNoAttributes tag "feature" with
      | none =>
          have skipped : extractFeatures moduleName (.node tag children siblings) featureMap =
              extractFeatures moduleName siblings featureMap := by
            rw [extractFeatures]
            split
            · rw [findElementWithAttributes, found]
            · rfl
          have carry : FeaturesCarry (.node tag children siblings) ↔ FeaturesCarry siblings := by
            simp [FeaturesCarry, found]
          rw [skipped, carry, Features.readBelow, found]
          exact ih featureMap
      | some featureName =>
          have typed : (getElementType tag.name.text).2 = "feature" :=
            elementType_of_findElementNoAttributes found
          rw [extractFeatures, if_pos typed, findElementWithAttributes, found]
          cases value : tag.Attribute "value" with
          | none =>
              have missing : ¬ FeaturesCarry (.node tag children siblings) := by
                simp [FeaturesCarry, found, value]
              exact ⟨fun carry => absurd carry missing, fun _ => rfl⟩
          | some text =>
              have carry : FeaturesCarry (.node tag children siblings) ↔
                  FeaturesCarry siblings := by
                simp [FeaturesCarry, value]
              have set : isFeatureEnabled
                  (setFeature featureMap moduleName featureName (text = "true")) =
                  Features.set (isFeatureEnabled featureMap) moduleName featureName
                    (text = "true") := by
                funext otherModule otherName
                exact isFeatureEnabled_setFeature featureMap moduleName featureName _ _ _
              have behind := ih (setFeature featureMap moduleName featureName (text = "true"))
              rw [set] at behind
              rw [carry, Features.readBelow, found, value]
              simpa using behind

/-- The features of every module have a value. -/
def ModulesCarry (modules : XMLElement) : Prop :=
  EachModule (fun _ children => FeaturesCarry children) modules

instance (modules : XMLElement) : Decidable (ModulesCarry modules) :=
  inferInstanceAs (Decidable (EachModule _ modules))

/-- The body of the outer loop. -/
theorem extractModuleFeatures_cases (tag : XmlTag) (children : XMLElement)
    (featureMap : FeatureMap) :
    ((tag.isModule = true → FeaturesCarry children) →
      ∃ after, extractModuleFeatures tag children featureMap = some after ∧
        isFeatureEnabled after =
          match findElementNoAttributes tag "module" with
          | none => isFeatureEnabled featureMap
          | some moduleName =>
              Features.readBelow moduleName children (isFeatureEnabled featureMap)) ∧
    (¬ (tag.isModule = true → FeaturesCarry children) →
      extractModuleFeatures tag children featureMap = none) := by
  rw [extractModuleFeatures]
  cases found : findElementNoAttributes tag "module" with
  | none =>
      have other : tag.isModule = false := by simp [XmlTag.isModule, found]
      refine ⟨fun _ => ⟨featureMap, rfl, rfl⟩, fun missing => absurd (fun isModule => ?_) missing⟩
      exact absurd (isModule.symm.trans other) (by decide)
  | some moduleName =>
      have isModule : tag.isModule = true := by simp [XmlTag.isModule, found]
      obtain ⟨reads, stops⟩ := extractFeatures_cases children featureMap
      exact ⟨fun carry => reads (carry isModule), fun missing => stops fun carry =>
        missing fun _ => carry⟩

theorem extractAllFeatures_cases (modules : XMLElement) (featureMap : FeatureMap) :
    (modules ≠ .nil ∧ ModulesCarry modules →
      ∃ after, extractAllFeatures modules featureMap = some after ∧
        isFeatureEnabled after = Features.read modules (isFeatureEnabled featureMap)) ∧
    (¬ (modules ≠ .nil ∧ ModulesCarry modules) →
      extractAllFeatures modules featureMap = none) := by
  induction modules generalizing featureMap with
  | nil => exact ⟨fun both => absurd rfl both.1, fun _ => rfl⟩
  | node tag children siblings _ ih =>
      obtain ⟨reads, stops⟩ := extractModuleFeatures_cases tag children featureMap
      have present : Forest.node tag children siblings ≠ .nil := by simp
      rw [extractAllFeatures]
      constructor
      · rintro ⟨-, here, behind⟩
        obtain ⟨after, run, enables⟩ := reads here
        have next : Features.read (.node tag children siblings) (isFeatureEnabled featureMap) =
            Features.read siblings (isFeatureEnabled after) := by
          rw [Features.read, enables]
          cases findElementNoAttributes tag "module" <;> rfl
        rw [run, Option.bind_some, next]
        cases siblings with
        | nil => exact ⟨after, rfl, rfl⟩
        | node next inner rest => exact (ih after).1 ⟨by simp, behind⟩
      · intro missing
        by_cases here : tag.isModule = true → FeaturesCarry children
        · obtain ⟨after, run, -⟩ := reads here
          have missingBehind : ¬ ModulesCarry siblings := fun behind =>
            missing ⟨present, here, behind⟩
          rw [run, Option.bind_some]
          cases siblings with
          | nil => exact absurd trivial missingBehind
          | node next inner rest => exact (ih after).2 fun both => missingBehind both.2
        · rw [stops here]
          rfl

/-- The loop over the modules comes through when each of them does. -/
theorem decided_extractModule {featureMap : FeatureMap} {enabled : Features}
    (enables : isFeatureEnabled featureMap = enabled) (modules : XMLElement) :
    DecidedInModule (extractModule featureMap true modules)
      (modules ≠ .nil ∧ EachModule (fun _ children => ModuleRuns enabled children) modules) := by
  induction modules with
  | nil => exact ⟨fun both => absurd rfl both.1, fun _ _ => rfl⟩
  | node tag children siblings _ ih =>
      have first := decided_extractModuleElement enables tag children
      constructor
      · rintro ⟨-, here, behind⟩ parent
        obtain ⟨after, run⟩ := first.1 here parent
        rw [extractModule, run, Option.bind_some]
        cases siblings with
        | nil => exact ⟨after, rfl⟩
        | node next inner rest => exact ih.1 ⟨by simp, behind⟩ after
      · intro stuck parent
        by_cases here : tag.isModule = true → ModuleRuns enabled children
        · obtain ⟨after, run⟩ := first.1 here parent
          have stuckBehind : ¬ EachModule (fun _ children => ModuleRuns enabled children)
              siblings := fun behind => stuck ⟨by simp, here, behind⟩
          rw [extractModule, run, Option.bind_some]
          cases siblings with
          | nil => exact absurd trivial stuckBehind
          | node next inner rest => exact ih.2 (fun both => stuckBehind both.2) after
        · rw [extractModule, first.2 here]
          rfl

end Reading

/-! ## The whole document -/

/-- The general information has its two elements. -/
def HasGeneral : XMLElement → Prop
  | .node _ _ (.node _ _ _) => True
  | _ => False

/-- What the elements before the modules need. -/
def HeaderRuns (general : XmlTag) (generalNode : XMLElement) (version : XmlTag) : Prop :=
  (general.name.text = "General" → HasGeneral generalNode) ∧
    (version.name.text = "yang-version" → (version.Attribute "value").isSome = true)

/-- What is below the root element of a document that comes through. -/
def Loadable (features : Features) : XMLElement → Prop
  | .node general generalNode (.node version _ modules) =>
      HeaderRuns general generalNode version ∧ modules ≠ .nil ∧ ModulesCarry modules ∧
        EachModule (fun _ children => ModuleRuns (Features.read modules features) children) modules
  | _ => False

theorem extractGeneral_cases (config : YangConfig) (generalNode : XMLElement) :
    (HasGeneral generalNode → ∃ after, extractGeneral config generalNode = some after) ∧
    (¬ HasGeneral generalNode → extractGeneral config generalNode = none) := by
  cases generalNode with
  | nil => exact ⟨fun never => never.elim, fun _ => rfl⟩
  | node oranInfo below siblings =>
      cases siblings with
      | nil => exact ⟨fun never => never.elim, fun _ => rfl⟩
      | node productInfo productBelow rest =>
          exact ⟨fun _ => ⟨_, rfl⟩, fun missing => absurd trivial missing⟩

theorem extractHeader_cases (config : YangConfig) (general : XmlTag) (generalNode : XMLElement)
    (version : XmlTag) :
    (HeaderRuns general generalNode version →
      ∃ after, extractHeader config general generalNode version = some after) ∧
    (¬ HeaderRuns general generalNode version →
      extractHeader config general generalNode version = none) := by
  have first : ∀ needs : Prop, needs = (general.name.text = "General" → HasGeneral generalNode) →
      (needs → ∃ after, (if general.name.text = "General" then extractGeneral config generalNode
        else some config) = some after) ∧
      (¬ needs → (if general.name.text = "General" then extractGeneral config generalNode
        else some config) = none) := by
    rintro needs rfl
    by_cases named : general.name.text = "General"
    · rw [if_pos named]
      obtain ⟨reads, stops⟩ := extractGeneral_cases config generalNode
      exact ⟨fun has => reads (has named), fun missing => stops fun has => missing fun _ => has⟩
    · rw [if_neg named]
      exact ⟨fun _ => ⟨config, rfl⟩, fun missing => absurd (fun same => absurd same named) missing⟩
  obtain ⟨reads, stops⟩ := first _ rfl
  rw [extractHeader]
  by_cases has : general.name.text = "General" → HasGeneral generalNode
  · obtain ⟨middle, run⟩ := reads has
    rw [run, Option.bind_some]
    by_cases named : version.name.text = "yang-version"
    · rw [if_pos named]
      cases value : version.Attribute "value" with
      | none =>
          have missing : ¬ HeaderRuns general generalNode version := fun both => by
            have given := both.2 named
            rw [value] at given
            cases given
          exact ⟨fun both => absurd both missing, fun _ => rfl⟩
      | some text =>
          refine ⟨fun _ => ⟨_, rfl⟩, fun missing => absurd ⟨has, fun _ => ?_⟩ missing⟩
          rw [value]
          rfl
    · rw [if_neg named]
      exact ⟨fun _ => ⟨middle, rfl⟩,
        fun missing => absurd ⟨has, fun same => absurd same named⟩ missing⟩
  · rw [stops has]
    exact ⟨fun both => absurd both.1 has, fun _ => rfl⟩

/-- A document with the right root comes through exactly when it is loadable; no
element is ever reported as a failure. -/
theorem parseFrom_cases {root : XmlTag} (rooted : root.name.text = "root")
    (children : XMLElement) (featureMap : FeatureMap) (config : YangConfig) :
    (Loadable (isFeatureEnabled featureMap) children →
      ∃ after result, parseFrom featureMap config (.node root children .nil) =
        some (true, after, result)) ∧
    (¬ Loadable (isFeatureEnabled featureMap) children →
      parseFrom featureMap config (.node root children .nil) = none) := by
  cases children with
  | nil =>
      refine ⟨fun never => never.elim, fun _ => ?_⟩
      rw [parseFrom, if_pos rooted]
      all_goals simp
  | node general generalNode siblings =>
      cases siblings with
      | nil =>
          refine ⟨fun never => never.elim, fun _ => ?_⟩
          rw [parseFrom, if_pos rooted]
          all_goals simp
      | node version versionBelow modules =>
          obtain ⟨reads, stops⟩ := extractHeader_cases config general generalNode version
          rw [parseFrom, if_pos rooted]
          constructor
          · rintro ⟨header, present, carry, runs⟩
            obtain ⟨middle, run⟩ := reads header
            obtain ⟨after, features, enables⟩ :=
              (extractAllFeatures_cases modules featureMap).1 ⟨present, carry⟩
            obtain ⟨file, extracted⟩ :=
              (decided_extractModule enables modules).1 ⟨present, runs⟩ middle.mConfig
            rw [run, Option.bind_some, features, Option.bind_some, extracted]
            exact ⟨_, _, rfl⟩
          · intro stuck
            by_cases header : HeaderRuns general generalNode version
            · obtain ⟨middle, run⟩ := reads header
              rw [run, Option.bind_some]
              by_cases carry : modules ≠ .nil ∧ ModulesCarry modules
              · obtain ⟨after, features, enables⟩ :=
                  (extractAllFeatures_cases modules featureMap).1 carry
                have stuckBelow := (decided_extractModule enables modules).2
                  fun both => stuck ⟨header, both.1, carry.2, both.2⟩
                rw [features, Option.bind_some, stuckBelow]
                rfl
              · rw [(extractAllFeatures_cases modules featureMap).2 carry]
                rfl
            · rw [stops header]
              rfl

theorem parseFrom_of_not_rooted {root : XmlTag} (other : root.name.text ≠ "root")
    (children : XMLElement) (featureMap : FeatureMap) (config : YangConfig) :
    parseFrom featureMap config (.node root children .nil) = some (false, featureMap, config) := by
  cases children with
  | nil =>
      rw [parseFrom, if_neg other]
      all_goals simp
  | node general generalNode siblings =>
      cases siblings with
      | nil =>
          rw [parseFrom, if_neg other]
          all_goals simp
      | node version versionBelow modules => rw [parseFrom, if_neg other]

end OpenMplane
