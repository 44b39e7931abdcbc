import OpenMplane.ConfigSafety

/-!
# Elements that are reached

Extraction goes down from the children of a module: below the elements that
stand around others, and below an `if_feature` element whose feature is enabled.
Each element that is reached is to be added to its parent element or reported.
This file says exactly for which elements below a module that happens and no null
pointer is followed.
-/

namespace OpenMplane

open ListCut Forest YangConfigParser ExtractElements

/-- The elements below this one are extracted, when it has any. -/
def descends (enabled : Features) (tag : XmlTag) : Bool :=
  decide (tag.elementType ∈ filledTypes) || decide (tag.elementType = "case") ||
    (tag.isIfFeature && opens enabled tag)

/-- Every element that is reached meets the condition. -/
def EachReached (enabled : Features) (holds : XmlTag → XMLElement → Prop) : XMLElement → Prop
  | .nil => True
  | .node tag children siblings =>
      holds tag children ∧
        (descends enabled tag = true → EachReached enabled holds children) ∧
        EachReached enabled holds siblings

/-- `extractLeaf` reports an element with neither a value nor a reference. -/
def reportsLeaf (tag : XmlTag) : Bool :=
  decide (tag.elementType = "leaf") && (tag.Attribute "value").isNone &&
    (tag.Attribute "ref").isNone

/-- An `if_feature` element names the feature of a module. -/
def NamesFeature (tag : XmlTag) (_children : XMLElement) : Prop :=
  tag.isIfFeature = true → (ifFeatureNames tag.name.text).isSome = true

/-- The method returns, and it has added an element of the type or set the
version, or the element stands for what is below it, or it was reported. -/
def AddsOrReports (tag : XmlTag) (method : YangElement → Extracted) : Prop :=
  ∀ parent, ∃ returnValue after, method parent = some (returnValue, after) ∧
    ((∃ element, element.elementType = tag.elementType ∧
        after = parent.addChildElement element) ∨
      (tag.isFileVersion = true ∧ ∃ version, after = parent.setVersion version) ∨
      (tag.isIfFeature = true ∧ (ifFeatureNames tag.name.text).isSome = true) ∨
      reportsLeaf tag = true)

theorem MethodRuns.below {enabled : Features} {tag : XmlTag} {children : XMLElement}
    {below : Prop} (needs : MethodRuns enabled tag children below)
    (down : descends enabled tag = true) : below := by
  simp only [descends, Bool.or_eq_true, decide_eq_true_eq, Bool.and_eq_true] at down
  unfold MethodRuns at needs
  rcases down with (filled | typed) | ⟨block, opened⟩
  · rw [if_pos filled] at needs
    exact needs.2
  · simpa [typed, filledTypes] using needs
  · have typed : tag.elementType = "if_feature" := by simpa [XmlTag.isIfFeature] using block
    simp [typed, filledTypes, opened] at needs
    exact needs.2

section Reached

variable {featureMap : FeatureMap} {enabled : Features} {tag : XmlTag} {children : XMLElement}

theorem addsOrReports_one (element : YangElement) (typed : element.elementType = tag.elementType)
    {method : YangElement → Extracted}
    (adds : ∀ parent, method parent = some (true, parent.addChildElement element)) :
    AddsOrReports tag method :=
  fun parent => ⟨true, parent.addChildElement element, adds parent, Or.inl ⟨element, typed, rfl⟩⟩

theorem addsOrReports_extractBelow {below : YangElement → Extracted} {elements : List YangElement}
    (adds : ∀ parent, below parent = some (true, parent.addChildElements elements))
    (name : String) : AddsOrReports tag (extractBelow tag.elementType name below) := by
  refine addsOrReports_one ⟨tag.elementType, name, "", "", "", elements⟩ rfl fun parent => ?_
  rw [extractBelow, adds]
  rfl

theorem addsOrReports_call (enables : isFeatureEnabled featureMap = enabled)
    (runs : MethodRuns enabled tag children (Runs enabled children))
    (named : NamesFeature tag children) :
    AddsOrReports tag
      (call featureMap tag.elementType tag children (extractCommon featureMap children)) := by
  have decided := (decided_call enables tag (decided_extractCommon enables children)).1 runs
  have below := (decided_extractCommon enables children).1
  unfold MethodRuns at runs
  rcases call_cases featureMap tag children (extractCommon featureMap children) with
    ⟨typed, name, method⟩ | ⟨typed, method⟩ | ⟨typed, method⟩ | ⟨typed, method⟩ |
    ⟨typed, method⟩ | ⟨typed, method⟩
  · rw [if_pos typed] at runs
    obtain ⟨elements, adds⟩ := below runs
    rw [method]
    exact addsOrReports_extractBelow adds name
  · have runsBelow : Runs enabled children := by simpa [typed, filledTypes] using runs
    rw [method]
    cases children with
    | nil =>
        exact addsOrReports_one (.makeElement "case" (getElementName tag.name.text) "" "")
          typed.symm fun _ => rfl
    | node first inner siblings =>
        obtain ⟨elements, adds⟩ := below ⟨by simp, runsBelow⟩
        have added : AddsOrReports tag (extractBelow tag.elementType (getElementName tag.name.text)
            (extractCommon featureMap (.node first inner siblings))) :=
          addsOrReports_extractBelow adds (getElementName tag.name.text)
        rwa [typed] at added
  · have given : (tag.Attribute "value").isSome = true := by
      rcases typed with typed | typed <;> simpa [typed, filledTypes] using runs
    obtain ⟨text, value⟩ := Option.isSome_iff_exists.mp given
    rw [method]
    refine addsOrReports_one (.makeElement tag.elementType (getElementName tag.name.text) text "")
      rfl fun parent => ?_
    simp [extractValue, value]
  · have block : tag.isIfFeature = true := by simp [XmlTag.isIfFeature, typed]
    obtain ⟨elements, adds⟩ := decided
    exact fun parent => ⟨true, _, adds parent, Or.inr (Or.inr (Or.inl ⟨block, named block⟩))⟩
  · rw [method]
    cases value : tag.Attribute "value" with
    | some text =>
        refine addsOrReports_one (.makeElement "leaf" (getElementName tag.name.text) text
          ((tag.Attribute "access").getD "")) typed.symm fun parent => ?_
        simp [extractLeaf, value]
    | none =>
        cases ref : tag.Attribute "ref" with
        | some text =>
            refine addsOrReports_one (.makeElement "leaf" (getElementName tag.name.text) text "")
              typed.symm fun parent => ?_
            simp [extractLeaf, value, ref]
        | none =>
            have reported : reportsLeaf tag = true := by simp [reportsLeaf, typed, value, ref]
            exact fun parent => ⟨true, parent, by simp [extractLeaf, value, ref],
              Or.inr (Or.inr (Or.inr reported))⟩
  · obtain ⟨elements, adds⟩ := decided
    have run := adds (.makeElement "" "" "" "")
    rw [method] at run
    cases run

theorem addChildElement_ne (parent element : YangElement) :
    parent ≠ parent.addChildElement element := by
  intro same
  have lengths := congrArg (fun changed => changed.childElements.length) same
  simp [YangElement.addChildElement] at lengths

/-- An element that is added or reported had what its method needs, and a block
had a name. -/
theorem runs_of_addsOrReports (enables : isFeatureEnabled featureMap = enabled)
    (handled : AddsOrReports tag
      (call featureMap tag.elementType tag children (extractCommon featureMap children))) :
    MethodRuns enabled tag children (Runs enabled children) ∧ NamesFeature tag children := by
  have decided := decided_call enables tag (decided_extractCommon enables children)
  constructor
  · by_contra stuck
    obtain ⟨returnValue, after, run, -⟩ := handled (.makeElement "" "" "" "")
    rw [decided.2 stuck] at run
    cases run
  · intro block
    have typed : tag.elementType = "if_feature" := by simpa [XmlTag.isIfFeature] using block
    by_contra unnamed
    have names : ifFeatureNames tag.name.text = none := by simpa using unnamed
    have method : call featureMap tag.elementType tag children
        (extractCommon featureMap children) (.makeElement "" "" "" "") =
        some (true, .makeElement "" "" "" "") := by
      simp [call, typed, extractIfFeature, names]
    obtain ⟨returnValue, after, run, outcome⟩ := handled (.makeElement "" "" "" "")
    rw [method] at run
    obtain ⟨rfl, rfl⟩ : true = returnValue ∧ YangElement.makeElement "" "" "" "" = after := by
      simpa using run
    rcases outcome with ⟨element, -, added⟩ | ⟨version, -⟩ | ⟨-, named⟩ | reported
    · exact addChildElement_ne _ _ added
    · have file := XmlTag.elementType_of_isFileVersion version
      exact absurd (file.symm.trans typed) (by decide)
    · exact unnamed named
    · simp [reportsLeaf, typed] at reported

/-- What happens to an element that is reached below the children of a module. -/
def Handled (featureMap : FeatureMap) (tag : XmlTag) (children : XMLElement) : Prop :=
  AddsOrReports tag
    (call featureMap tag.elementType tag children (extractCommon featureMap children))

theorem eachReached_handled_iff (enables : isFeatureEnabled featureMap = enabled)
    (document : XMLElement) :
    EachReached enabled (Handled featureMap) document ↔
      Runs enabled document ∧ EachReached enabled NamesFeature document := by
  induction document with
  | nil => exact ⟨fun _ => ⟨trivial, trivial⟩, fun _ => trivial⟩
  | node tag children siblings ihChildren ihSiblings =>
      constructor
      · rintro ⟨handled, below, behind⟩
        obtain ⟨runs, named⟩ := runs_of_addsOrReports enables handled
        obtain ⟨runsBehind, namedBehind⟩ := ihSiblings.mp behind
        exact ⟨⟨runs, runsBehind⟩, named, fun down => (ihChildren.mp (below down)).2, namedBehind⟩
      · rintro ⟨⟨runs, runsBehind⟩, named, namedBelow, namedBehind⟩
        exact ⟨addsOrReports_call enables runs named,
          fun down => ihChildren.mpr ⟨runs.below down, namedBelow down⟩,
          ihSiblings.mpr ⟨runsBehind, namedBehind⟩⟩

/-- Every element that is reached below a module is added or reported. -/
def EachInModule (featureMap : FeatureMap) : XMLElement → Prop
  | .nil => True
  | .node tag children siblings =>
      AddsOrReports tag (callExtractMethod featureMap tag children) ∧
        (descends (isFeatureEnabled featureMap) tag = true →
          EachReached (isFeatureEnabled featureMap) (Handled featureMap) children) ∧
        EachInModule featureMap siblings

theorem callExtractMethod_eq (other : tag.name.text ≠ "file-version") (module : YangElement) :
    callExtractMethod featureMap tag children module =
      (call featureMap tag.elementType tag children (extractCommon featureMap children)
        module).map fun result => (true, result.2) := by
  rw [callExtractMethod, if_neg other, tag.elementType_eq]

/-- The method of a child of the module, but for what it returns. -/
theorem addsOrReports_callExtractMethod_iff (other : tag.name.text ≠ "file-version") :
    AddsOrReports tag (callExtractMethod featureMap tag children) ↔
      Handled featureMap tag children := by
  constructor
  · intro handled parent
    obtain ⟨returnValue, after, run, outcome⟩ := handled parent
    rw [callExtractMethod_eq other] at run
    obtain ⟨⟨value, result⟩, method, same⟩ := Option.map_eq_some_iff.mp run
    obtain ⟨-, rfl⟩ := Prod.mk.inj same
    exact ⟨value, result, method, outcome⟩
  · intro handled parent
    obtain ⟨returnValue, after, run, outcome⟩ := handled parent
    exact ⟨true, after, by rw [callExtractMethod_eq other, run]; rfl, outcome⟩

theorem addsOrReports_fileVersion_iff (version : tag.isFileVersion = true) :
    AddsOrReports tag (callExtractMethod featureMap tag children) ↔
      (tag.Attribute "value").isSome = true := by
  have text : tag.name.text = "file-version" := by simpa [XmlTag.isFileVersion] using version
  constructor
  · intro handled
    obtain ⟨returnValue, after, run, -⟩ := handled (.makeElement "" "" "" "")
    rw [callExtractMethod, if_pos text] at run
    obtain ⟨value, given, -⟩ := Option.map_eq_some_iff.mp run
    rw [given]
    rfl
  · intro given parent
    obtain ⟨value, given⟩ := Option.isSome_iff_exists.mp given
    refine ⟨true, parent.setVersion value, ?_, Or.inr (Or.inl ⟨version, value, rfl⟩)⟩
    rw [callExtractMethod, if_pos text, given]
    rfl

theorem eachInModule_iff (enables : isFeatureEnabled featureMap = enabled)
    (document : XMLElement) :
    EachInModule featureMap document ↔
      ModuleRuns enabled document ∧ EachReached enabled NamesFeature document := by
  subst enables
  induction document with
  | nil => exact ⟨fun _ => ⟨trivial, trivial⟩, fun _ => trivial⟩
  | node tag children siblings _ ihSiblings =>
      have below : EachReached _ (Handled featureMap) children ↔ _ :=
        eachReached_handled_iff rfl children
      by_cases version : tag.isFileVersion = true
      · have typed := XmlTag.elementType_of_isFileVersion version
        have stays : ¬ descends (isFeatureEnabled featureMap) tag = true := by
          simp [descends, XmlTag.isIfFeature, typed, filledTypes]
        have unnamed : NamesFeature tag children := by
          intro block
          simp [XmlTag.isIfFeature, typed] at block
        rw [EachInModule, addsOrReports_fileVersion_iff version, ihSiblings, ModuleRuns,
          ModuleElementRuns, if_pos version, EachReached]
        constructor
        · rintro ⟨given, -, runs, named⟩
          exact ⟨⟨given, runs⟩, unnamed, fun down => absurd down stays, named⟩
        · rintro ⟨⟨given, runs⟩, -, -, named⟩
          exact ⟨given, fun down => absurd down stays, runs, named⟩
      · have text : tag.name.text ≠ "file-version" := by
          simpa [XmlTag.isFileVersion] using version
        rw [EachInModule, addsOrReports_callExtractMethod_iff text, ihSiblings, ModuleRuns,
          ModuleElementRuns, if_neg version, EachReached]
        constructor
        · rintro ⟨handled, handledBelow, runsBehind, namedBehind⟩
          obtain ⟨runs, named⟩ := runs_of_addsOrReports rfl handled
          exact ⟨⟨runs, runsBehind⟩, named, fun down => (below.mp (handledBelow down)).2,
            namedBehind⟩
        · rintro ⟨⟨runs, runsBehind⟩, named, namedBelow, namedBehind⟩
          exact ⟨addsOrReports_call rfl runs named,
            fun down => below.mpr ⟨runs.below down, namedBelow down⟩, runsBehind, namedBehind⟩

end Reached

/-- The elements below an element of the document are extracted, if it is a
module: the run returns, and every element that it reaches is added or reported. -/
def SafelyExtracted (featureMap : FeatureMap) (tag : XmlTag) (children : XMLElement) : Prop :=
  (∀ parentElement, (extractModuleElement featureMap true tag children parentElement).isSome) ∧
    (tag.isModule = true → EachInModule featureMap children)

/-- Extraction below a module is safe exactly when every element that it reaches
has what its method needs, and every `if_feature` element names a feature. -/
theorem safelyExtracted_iff (featureMap : FeatureMap) (tag : XmlTag) (children : XMLElement) :
    SafelyExtracted featureMap tag children ↔
      (tag.isModule = true → ModuleRuns (isFeatureEnabled featureMap) children ∧
        EachReached (isFeatureEnabled featureMap) NamesFeature children) := by
  have decided : DecidedInModule (extractModuleElement featureMap true tag children) _ :=
    decided_extractModuleElement rfl tag children
  have each : EachInModule featureMap children ↔ _ := eachInModule_iff rfl children
  rw [SafelyExtracted, each]
  constructor
  · rintro ⟨-, handled⟩
    exact handled
  · intro handled
    refine ⟨fun parentElement => ?_, handled⟩
    obtain ⟨after, run⟩ := decided.1 (fun isModule => (handled isModule).1) parentElement
    rw [run]
    rfl

/-- A module with one container that has nothing below it. -/
def emptyContainer : XMLElement :=
  .node ⟨⟨"container-c", by decide⟩, []⟩ .nil .nil

/-- The container's missing first child is followed. -/
theorem empty_container_is_followed :
    ¬ SafelyExtracted ∅ ⟨⟨"module-m", by decide⟩, []⟩ emptyContainer := by
  intro safe
  have stuck : ¬ (XmlTag.isModule ⟨⟨"module-m", by decide⟩, []⟩ = true →
      ModuleRuns (isFeatureEnabled ∅) emptyContainer) := by
    intro runs
    exact absurd (runs (by decide)) (by decide)
  have decided := (decided_extractModuleElement rfl _ _).2 stuck (.makeElement "file" "" "" "")
  have returned := safe.1 (.makeElement "file" "" "" "")
  rw [decided] at returned
  exact absurd returned (by decide)

end OpenMplane
