import OpenMplane.ConfigExtraction

/-!
# Extraction of any elements

The extraction of a module follows whatever elements the document has below it.
An extractor reads the first child of its element before it asks whether there
is one, takes the method of a type without looking whether there is one, and
makes a text from an attribute that may be missing.  Whether a run comes through
is decided by the elements that it reaches: `Runs` says what each of them needs,
and with that nothing else can go wrong.
-/

namespace OpenMplane

open ListCut Forest YangConfigParser ExtractElements

/-- The types of element with a method. -/
def methodTypes : List String :=
  filledTypes ++ ["case", "entry", "feature", "if_feature", "leaf"]

/-- What the method of an element needs, given what the elements below it
need. -/
def MethodRuns (enabled : Features) (tag : XmlTag) (children : XMLElement) (below : Prop) : Prop :=
  if tag.elementType ∈ filledTypes then children ≠ .nil ∧ below
  else if tag.elementType = "case" then below
  else if tag.elementType = "entry" ∨ tag.elementType = "feature" then
    (tag.Attribute "value").isSome = true
  else if tag.elementType = "if_feature" then opens enabled tag = true → children ≠ .nil ∧ below
  else tag.elementType = "leaf"

/-- Every element that is reached has what its method needs. -/
def Runs (enabled : Features) : XMLElement → Prop
  | .nil => True
  | .node tag children siblings =>
      MethodRuns enabled tag children (Runs enabled children) ∧ Runs enabled siblings

/-- What an element among the children of a module needs. -/
def ModuleElementRuns (enabled : Features) (tag : XmlTag) (children : XMLElement) : Prop :=
  if tag.isFileVersion then (tag.Attribute "value").isSome = true
  else MethodRuns enabled tag children (Runs enabled children)

/-- Every element of a module that is reached has what it needs. -/
def ModuleRuns (enabled : Features) : XMLElement → Prop
  | .nil => True
  | .node tag children siblings =>
      ModuleElementRuns enabled tag children ∧ ModuleRuns enabled siblings

instance (enabled : Features) (tag : XmlTag) (children : XMLElement) (below : Prop)
    [Decidable below] : Decidable (MethodRuns enabled tag children below) :=
  inferInstanceAs (Decidable
    (if tag.elementType ∈ filledTypes then children ≠ .nil ∧ below
    else if tag.elementType = "case" then below
    else if tag.elementType = "entry" ∨ tag.elementType = "feature" then
      (tag.Attribute "value").isSome = true
    else if tag.elementType = "if_feature" then
      opens enabled tag = true → children ≠ .nil ∧ below
    else tag.elementType = "leaf"))

instance decidableRuns (enabled : Features) :
    ∀ document : XMLElement, Decidable (Runs enabled document)
  | .nil => isTrue trivial
  | .node tag children siblings =>
      have := decidableRuns enabled children
      have := decidableRuns enabled siblings
      inferInstanceAs (Decidable
        (MethodRuns enabled tag children (Runs enabled children) ∧ Runs enabled siblings))

instance (enabled : Features) (tag : XmlTag) (children : XMLElement) :
    Decidable (ModuleElementRuns enabled tag children) :=
  inferInstanceAs (Decidable
    (if tag.isFileVersion then (tag.Attribute "value").isSome = true
    else MethodRuns enabled tag children (Runs enabled children)))

instance decidableModuleRuns (enabled : Features) :
    ∀ document : XMLElement, Decidable (ModuleRuns enabled document)
  | .nil => isTrue trivial
  | .node tag children siblings =>
      have := decidableModuleRuns enabled siblings
      inferInstanceAs (Decidable
        (ModuleElementRuns enabled tag children ∧ ModuleRuns enabled siblings))

/-- The method comes through and adds some elements, the same to every parent
element, or it follows a null pointer, exactly when `runs` says so. -/
def Decided (method : YangElement → Extracted) (runs : Prop) : Prop :=
  (runs → ∃ elements, ∀ parent, method parent = some (true, parent.addChildElements elements)) ∧
    (¬ runs → ∀ parent, method parent = none)

section Methods

variable {method below : YangElement → Extracted} {runs : Prop} {tag : XmlTag}

theorem Decided.congr {other : YangElement → Extracted} {needs : Prop}
    (decided : Decided other needs) (same : ∀ parent, method parent = other parent)
    (agree : runs ↔ needs) : Decided method runs := by
  have methods : method = other := funext same
  rwa [methods, propext agree]

theorem decided_one (element : YangElement)
    (adds : ∀ parent, method parent = some (true, parent.addChildElement element)) :
    Decided method True :=
  ⟨fun _ => ⟨[element], adds⟩, fun never => absurd trivial never⟩

theorem Decided.extractBelow (type name : String) (decided : Decided below runs) :
    Decided (extractBelow type name below) runs := by
  constructor
  · intro comes
    obtain ⟨elements, adds⟩ := decided.1 comes
    refine ⟨[⟨type, name, "", "", "", elements⟩], fun parent => ?_⟩
    rw [ExtractElements.extractBelow, adds]
    rfl
  · intro stuck parent
    rw [ExtractElements.extractBelow, decided.2 stuck]
    rfl

theorem decided_extractLeaf (tag : XmlTag) : Decided (extractLeaf tag) True := by
  cases value : tag.Attribute "value" with
  | some text =>
      refine decided_one (.makeElement "leaf" (getElementName tag.name.text) text
        ((tag.Attribute "access").getD "")) fun parent => ?_
      simp [extractLeaf, value]
  | none =>
      cases ref : tag.Attribute "ref" with
      | some text =>
          refine decided_one (.makeElement "leaf" (getElementName tag.name.text) text "")
            fun parent => ?_
          simp [extractLeaf, value, ref]
      | none =>
          refine ⟨fun _ => ⟨[], fun parent => ?_⟩, fun never => absurd trivial never⟩
          simp [extractLeaf, value, ref, parent.addChildElements_nil]

theorem decided_extractValue (type : String) (tag : XmlTag) :
    Decided (extractValue type tag) ((tag.Attribute "value").isSome = true) := by
  cases value : tag.Attribute "value" with
  | some text =>
      have adds : Decided (extractValue type tag) True :=
        decided_one (.makeElement type (getElementName tag.name.text) text "") fun parent => by
          simp [extractValue, value]
      exact adds.congr (fun _ => rfl) (by simp)
  | none =>
      refine ⟨fun comes => absurd comes (by simp), fun _ parent => ?_⟩
      simp [extractValue, value]

theorem Decided.extractCase {children : XMLElement} (empty : children = .nil → runs)
    (decided : Decided below (children ≠ .nil ∧ runs)) :
    Decided (extractCase tag children below) runs := by
  cases children with
  | nil =>
      have adds : Decided (ExtractElements.extractCase tag .nil below) True :=
        decided_one (.makeElement "case" (getElementName tag.name.text) "" "") fun _ => rfl
      exact adds.congr (fun _ => rfl) (by simp [empty])
  | node first inner siblings =>
      have adds := decided.extractBelow "case" (getElementName tag.name.text)
      exact adds.congr (fun _ => rfl) (by simp)

theorem Decided.extractIfFeature {featureMap : FeatureMap} {enabled : Features}
    (enables : isFeatureEnabled featureMap = enabled) (decided : Decided below runs) :
    Decided (extractIfFeature featureMap tag below) (opens enabled tag = true → runs) := by
  by_cases opened : opens enabled tag = true
  · refine decided.congr (fun parent => ?_) (by simp [opened])
    rw [extractIfFeature_eq enables, if_pos opened]
  · have skips : ∀ parent,
        ExtractElements.extractIfFeature featureMap tag below parent = some (true, parent) := by
      intro parent
      rw [extractIfFeature_eq enables, if_neg opened]
    refine ⟨fun _ => ⟨[], fun parent => ?_⟩, fun never => absurd (fun same => absurd same opened) never⟩
    rw [skips, parent.addChildElements_nil]


/-- What is behind an element adds its own elements. -/
theorem Decided.andThen {next both : YangElement → Extracted} {nextRuns : Prop}
    (decided : Decided method runs) (behind : Decided next nextRuns)
    (continues : ∀ parent returnValue after, method parent = some (returnValue, after) →
      both parent = next after)
    (stops : ∀ parent, method parent = none → both parent = none) :
    Decided both (runs ∧ nextRuns) := by
  constructor
  · rintro ⟨comes, comesBehind⟩
    obtain ⟨elements, adds⟩ := decided.1 comes
    obtain ⟨others, addsBehind⟩ := behind.1 comesBehind
    refine ⟨elements ++ others, fun parent => ?_⟩
    rw [continues parent true _ (adds parent), addsBehind,
      parent.addChildElements_addChildElements]
  · intro stuck parent
    by_cases comes : runs
    · obtain ⟨elements, adds⟩ := decided.1 comes
      rw [continues parent true _ (adds parent)]
      exact behind.2 (fun comesBehind => stuck ⟨comes, comesBehind⟩) _
    · exact stops parent (decided.2 comes parent)

end Methods

section Walk

variable {featureMap : FeatureMap} {enabled : Features}

theorem call_cases (featureMap : FeatureMap) (tag : XmlTag) (children : XMLElement)
    (below : YangElement → Extracted) :
    (tag.elementType ∈ filledTypes ∧ ∃ name,
      call featureMap tag.elementType tag children below =
        extractBelow tag.elementType name below) ∨
    (tag.elementType = "case" ∧
      call featureMap tag.elementType tag children below = extractCase tag children below) ∨
    ((tag.elementType = "entry" ∨ tag.elementType = "feature") ∧
      call featureMap tag.elementType tag children below = extractValue tag.elementType tag) ∨
    (tag.elementType = "if_feature" ∧
      call featureMap tag.elementType tag children below =
        extractIfFeature featureMap tag below) ∨
    (tag.elementType = "leaf" ∧
      call featureMap tag.elementType tag children below = extractLeaf tag) ∨
    (tag.elementType ∉ methodTypes ∧
      call featureMap tag.elementType tag children below = fun _ => none) := by
  by_cases known : tag.elementType ∈ methodTypes
  · simp only [methodTypes, filledTypes, List.cons_append, List.nil_append, List.mem_cons,
      List.not_mem_nil, or_false] at known
    rcases known with typed | typed | typed | typed | typed | typed | typed | typed | typed | typed
    · exact Or.inl ⟨by simp [typed, filledTypes], tag.elementName, by
        funext parent
        simp [call, typed, extractSubContainer, XmlTag.elementName]⟩
    · exact Or.inl ⟨by simp [typed, filledTypes], tag.elementName, by
        funext parent
        simp [call, typed, extractList, XmlTag.elementName]⟩
    · exact Or.inl ⟨by simp [typed, filledTypes], "", by
        funext parent
        simp [call, typed, extractListEntry]⟩
    · exact Or.inl ⟨by simp [typed, filledTypes], tag.elementName, by
        funext parent
        simp [call, typed, extractChoice, XmlTag.elementName]⟩
    · exact Or.inl ⟨by simp [typed, filledTypes], tag.elementName, by
        funext parent
        simp [call, typed, extractListLeaf, XmlTag.elementName]⟩
    · exact Or.inr (Or.inl ⟨typed, by
        funext parent
        simp [call, typed]⟩)
    · exact Or.inr (Or.inr (Or.inl ⟨Or.inl typed, by
        funext parent
        simp [call, typed, extractEntry]⟩))
    · exact Or.inr (Or.inr (Or.inl ⟨Or.inr typed, by
        funext parent
        simp [call, typed, extractFeature]⟩))
    · exact Or.inr (Or.inr (Or.inr (Or.inl ⟨typed, by
        funext parent
        simp [call, typed]⟩)))
    · exact Or.inr (Or.inr (Or.inr (Or.inr (Or.inl ⟨typed, by
        funext parent
        simp [call, typed]⟩))))
  · refine Or.inr (Or.inr (Or.inr (Or.inr (Or.inr ⟨known, ?_⟩))))
    simp only [methodTypes, filledTypes, List.cons_append, List.nil_append, List.mem_cons,
      List.not_mem_nil, or_false, not_or] at known
    funext parent
    simp [call, known]

theorem MethodRuns.mem_methodTypes {tag : XmlTag} {children : XMLElement} {below : Prop}
    (runs : MethodRuns enabled tag children below) : tag.elementType ∈ methodTypes := by
  by_contra unknown
  have filled : tag.elementType ∉ filledTypes := fun member =>
    unknown (List.mem_append_left _ member)
  simp only [methodTypes, filledTypes, List.cons_append, List.nil_append, List.mem_cons,
    List.not_mem_nil, or_false, not_or] at unknown
  simp [MethodRuns, filled, unknown] at runs

theorem decided_call (enables : isFeatureEnabled featureMap = enabled) (tag : XmlTag)
    {children : XMLElement}
    (below : Decided (extractCommon featureMap children)
      (children ≠ .nil ∧ Runs enabled children)) :
    Decided (call featureMap tag.elementType tag children (extractCommon featureMap children))
      (MethodRuns enabled tag children (Runs enabled children)) := by
  rcases call_cases featureMap tag children (extractCommon featureMap children) with
    ⟨typed, name, method⟩ | ⟨typed, method⟩ | ⟨typed, method⟩ | ⟨typed, method⟩ |
    ⟨typed, method⟩ | ⟨typed, method⟩
  · rw [method, MethodRuns, if_pos typed]
    exact below.extractBelow tag.elementType name
  · rw [method]
    have empty : children = .nil → Runs enabled children := by
      rintro rfl
      trivial
    have decided : Decided (extractCase tag children (extractCommon featureMap children))
        (Runs enabled children) := below.extractCase empty
    exact decided.congr (fun _ => rfl) (by simp [MethodRuns, filledTypes, typed])
  · rw [method]
    refine (decided_extractValue tag.elementType tag).congr (fun _ => rfl) ?_
    rcases typed with typed | typed <;> simp [MethodRuns, filledTypes, typed]
  · rw [method]
    have decided : Decided (extractIfFeature featureMap tag (extractCommon featureMap children))
        (opens enabled tag = true → children ≠ .nil ∧ Runs enabled children) :=
      below.extractIfFeature enables
    exact decided.congr (fun _ => rfl) (by simp [MethodRuns, filledTypes, typed])
  · rw [method]
    exact (decided_extractLeaf tag).congr (fun _ => rfl) (by simp [MethodRuns, filledTypes, typed])
  · rw [method]
    exact ⟨fun comes => absurd comes.mem_methodTypes typed, fun _ _ => rfl⟩

theorem extractCommon_node (tag : XmlTag) (children siblings : XMLElement)
    (parentElement : YangElement) :
    extractCommon featureMap (.node tag children siblings) parentElement =
      (call featureMap tag.elementType tag children (extractCommon featureMap children)
        parentElement).bind fun result =>
          match siblings with
          | .nil => some result
          | .node .. => extractCommon featureMap siblings result.2 := rfl

/-- The loop over siblings comes through exactly when there is an element and all
that are reached have what they need. -/
theorem decided_extractCommon (enables : isFeatureEnabled featureMap = enabled)
    (document : XMLElement) :
    Decided (extractCommon featureMap document) (document ≠ .nil ∧ Runs enabled document) := by
  induction document with
  | nil => exact ⟨fun comes => absurd rfl comes.1, fun _ _ => rfl⟩
  | node tag children siblings ihChildren ihSiblings =>
      have first := decided_call enables tag ihChildren
      cases siblings with
      | nil =>
          refine first.congr (fun parent => ?_) (by simp [Runs])
          rw [extractCommon_node]
          dsimp only
          exact Option.bind_fun_some _
      | node next inner behind =>
          have both : Decided
              (extractCommon featureMap (.node tag children (.node next inner behind)))
              (MethodRuns enabled tag children (Runs enabled children) ∧
                (Forest.node next inner behind ≠ .nil ∧
                  Runs enabled (.node next inner behind))) :=
            first.andThen ihSiblings
            (fun parent returnValue after run => by rw [extractCommon_node, run]; rfl)
            (fun parent run => by rw [extractCommon_node, run]; rfl)
          exact both.congr (fun _ => rfl) (by simp [Runs])

/-! ## The children of a module -/

/-- The method comes through, or follows a null pointer, exactly when `runs` says
so; the version of the module may change. -/
def DecidedInModule (method : YangElement → Extracted) (runs : Prop) : Prop :=
  (runs → ∀ module, ∃ after, method module = some (true, after)) ∧
    (¬ runs → ∀ module, method module = none)

theorem decided_callExtractMethod (enables : isFeatureEnabled featureMap = enabled)
    (tag : XmlTag) (children : XMLElement) :
    DecidedInModule (callExtractMethod featureMap tag children)
      (ModuleElementRuns enabled tag children) := by
  by_cases version : tag.isFileVersion = true
  · have text : tag.name.text = "file-version" := by simpa [XmlTag.isFileVersion] using version
    rw [ModuleElementRuns, if_pos version]
    constructor
    · intro given module
      obtain ⟨fileVersion, value⟩ := Option.isSome_iff_exists.mp given
      refine ⟨module.setVersion fileVersion, ?_⟩
      rw [callExtractMethod, if_pos text, value]
      rfl
    · intro missing module
      have value : tag.Attribute "value" = none := by simpa using missing
      rw [callExtractMethod, if_pos text, value]
      rfl
  · have text : tag.name.text ≠ "file-version" := by simpa [XmlTag.isFileVersion] using version
    have decided := decided_call enables tag (decided_extractCommon enables children)
    rw [ModuleElementRuns, if_neg version]
    constructor
    · intro comes module
      obtain ⟨elements, adds⟩ := decided.1 comes
      refine ⟨module.addChildElements elements, ?_⟩
      rw [callExtractMethod, if_neg text, tag.elementType_eq]
      dsimp only
      rw [adds]
      rfl
    · intro stuck module
      rw [callExtractMethod, if_neg text, tag.elementType_eq]
      dsimp only
      rw [decided.2 stuck]
      rfl

theorem decided_findElementAndExtract (enables : isFeatureEnabled featureMap = enabled)
    (document : XMLElement) :
    DecidedInModule (findElementAndExtract featureMap document)
      (document ≠ .nil ∧ ModuleRuns enabled document) := by
  induction document with
  | nil => exact ⟨fun comes => absurd rfl comes.1, fun _ _ => rfl⟩
  | node tag children siblings _ ihSiblings =>
      have first := decided_callExtractMethod enables tag children
      constructor
      · rintro ⟨-, comes, behind⟩ module
        obtain ⟨after, run⟩ := first.1 comes module
        rw [findElementAndExtract, run, Option.bind_some]
        cases siblings with
        | nil => exact ⟨after, rfl⟩
        | node next inner rest => exact ihSiblings.1 ⟨by simp, behind⟩ after
      · intro stuck module
        by_cases comes : ModuleElementRuns enabled tag children
        · obtain ⟨after, run⟩ := first.1 comes module
          have stuckBehind : ¬ ModuleRuns enabled siblings := fun behind =>
            stuck ⟨by simp, comes, behind⟩
          rw [findElementAndExtract, run, Option.bind_some]
          cases siblings with
          | nil => exact absurd trivial stuckBehind
          | node next inner rest => exact ihSiblings.2 (fun both => stuckBehind both.2) after
        · rw [findElementAndExtract, first.2 comes]
          rfl

/-- The body of the loop over the modules: an empty module is left alone. -/
theorem decided_extractModuleElement (enables : isFeatureEnabled featureMap = enabled)
    (tag : XmlTag) (children : XMLElement) :
    DecidedInModule (extractModuleElement featureMap true tag children)
      (tag.isModule = true → ModuleRuns enabled children) := by
  cases found : findElementNoAttributes tag "module" with
  | none =>
      have other : tag.isModule = false := by simp [XmlTag.isModule, found]
      constructor
      · intro _ parent
        exact ⟨parent, by simp only [extractModuleElement, found]⟩
      · intro stuck
        exact absurd (fun isModule => absurd (isModule.symm.trans other) (by decide)) stuck
  | some moduleName =>
      have isModule : tag.isModule = true := by simp [XmlTag.isModule, found]
      cases children with
      | nil =>
          constructor
          · intro _ parent
            exact ⟨parent.addChildElement (.makeElement "module" moduleName "" ""), by
              simp only [extractModuleElement, found]⟩
          · intro stuck
            exact absurd (fun _ => trivial) stuck
      | node first inner siblings =>
          have decided := decided_findElementAndExtract enables (.node first inner siblings)
          constructor
          · intro comes parent
            obtain ⟨module, run⟩ := decided.1 ⟨by simp, comes isModule⟩
              (.makeElement "module" moduleName "" "")
            exact ⟨parent.addChildElement module, by
              simp only [extractModuleElement, found, run, Option.map_some]⟩
          · intro stuck parent
            have stuckBelow : ¬ (Forest.node first inner siblings ≠ .nil ∧
                ModuleRuns enabled (.node first inner siblings)) := fun both =>
              stuck fun _ => both.2
            simp only [extractModuleElement, found, decided.2 stuckBelow, Option.map_none]

end Walk

end OpenMplane
