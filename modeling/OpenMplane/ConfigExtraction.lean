import OpenMplane.ConfigDocuments

/-!
# What the parser extracts

The parser adds to the parent element what the flattened document has below it.  One
call of a method is specified from what is extracted below its element; the loops over
siblings, the modules and the features follow by induction on the document.
-/

namespace OpenMplane

open ListCut Forest YangConfigParser ExtractElements

/-- `addChildElement` for a row of elements. -/
def YangElement.addChildElements (element : YangElement) (elements : List YangElement) :
    YangElement :=
  { element with childElements := element.childElements ++ elements }

theorem YangElement.addChildElements_nil (element : YangElement) :
    element.addChildElements [] = element := by
  cases element
  simp [addChildElements]

theorem YangElement.addChildElements_addChildElements (element : YangElement)
    (first second : List YangElement) :
    (element.addChildElements first).addChildElements second =
      element.addChildElements (first ++ second) := by
  simp [addChildElements]

theorem XmlTag.elementType_eq (tag : XmlTag) :
    getElementType tag.name.text = (true, tag.elementType) := by
  unfold elementType getElementType
  cases cut : cutFirst '-' tag.name.text.toList with
  | none => rfl
  | some parts =>
      obtain ⟨type, name⟩ := parts
      cases type with
      | nil => exact absurd rfl (tag.name.nonempty_of_cut cut)
      | cons first rest => rfl

theorem XmlTag.elementType_of_isFileVersion {tag : XmlTag} (version : tag.isFileVersion = true) :
    tag.elementType = "file" := by
  have text : tag.name.text = "file-version" := by simpa [isFileVersion] using version
  rw [elementType, text]
  decide

theorem choose_of_keeps {enabled : Features} {tag : XmlTag} (notFile : tag.elementType ≠ "file")
    (notBlock : tag.elementType ≠ "if_feature") : choose enabled tag = .keep := by
  have notVersion : tag.isFileVersion = false := by
    by_contra version
    exact notFile (XmlTag.elementType_of_isFileVersion (by simpa using version))
  simp [choose, notVersion, XmlTag.isIfFeature, notBlock]

section Extracts

variable {featureMap : FeatureMap} {enabled : Features} {level inner : Level}
  {tag : XmlTag} {children : XMLElement}

/-- The method adds to every parent what is left of the document. -/
def Adds (method : YangElement → Extracted) (document : XMLElement) : Prop :=
  ∃ elements, Holds document elements ∧
    ∀ parent, method parent = some (true, parent.addChildElements elements)

theorem Adds.congr {method other : YangElement → Extracted} {document : XMLElement}
    (adds : Adds other document) (same : ∀ parent, method parent = other parent) :
    Adds method document := by
  rwa [funext same]

theorem adds_one {method : YangElement → Extracted} (element : YangElement)
    (keeps : KeepsTag tag element) (below : Holds children element.childElements)
    (adds : ∀ parent : YangElement, method parent = some (true, parent.addChildElement element)) :
    Adds method (.node tag children .nil) :=
  ⟨[element], holds_singleton.mpr ⟨keeps, below⟩, adds⟩

theorem Adds.extractBelow {type name : String} {below : YangElement → Extracted}
    (typed : tag.elementType = type) (inner : type ≠ "leaf" ∧ type ≠ "entry" ∧ type ≠ "feature")
    (named : type ≠ "listEntry" → name = tag.elementName) (adds : Adds below children) :
    Adds (extractBelow type name below) (.node tag children .nil) := by
  obtain ⟨elements, holds, adds⟩ := adds
  subst typed
  refine adds_one ⟨tag.elementType, name, "", "", "", elements⟩
    ⟨rfl, named, ?_, ?_⟩ holds ?_
  · intro valued
    simp [inner] at valued
  · simp [XmlTag.keepsAccess, inner]
  · intro parent
    simp [ExtractElements.extractBelow, adds, YangElement.addChildElements,
      YangElement.makeElement]

theorem Adds.nothing {method : YangElement → Extracted}
    (adds : ∀ parent, method parent = some (true, parent)) : Adds method .nil :=
  ⟨[], trivial, fun parent => by rw [adds, parent.addChildElements_nil]⟩

theorem adds_extractLeaf (typed : tag.elementType = "leaf") (carries : tag.Carries) :
    Adds (extractLeaf tag) (.node tag .nil .nil) := by
  have attributed := carries.1 typed
  cases value : tag.Attribute "value" with
  | some text =>
      refine adds_one (.makeElement "leaf" (getElementName tag.name.text) text
        tag.documentAccess) ⟨typed.symm, fun _ => rfl, ?_, ?_⟩ trivial ?_
      · simp [XmlTag.documentValue, value, YangElement.makeElement]
      · simp [XmlTag.keepsAccess, typed, value, YangElement.makeElement]
      · simp [extractLeaf, value, XmlTag.documentAccess]
  | none =>
      obtain ⟨text, ref⟩ := Option.isSome_iff_exists.mp (attributed.resolve_left (by simp [value]))
      refine adds_one (.makeElement "leaf" (getElementName tag.name.text) text "")
        ⟨typed.symm, fun _ => rfl, ?_, ?_⟩ trivial ?_
      · simp [XmlTag.documentValue, value, ref, YangElement.makeElement]
      · simp [XmlTag.keepsAccess, value, YangElement.makeElement]
      · simp [extractLeaf, value, ref]

theorem adds_extractValue {type : String} (typed : tag.elementType = type)
    (valued : type = "entry" ∨ type = "feature") (carries : tag.Carries) :
    Adds (extractValue type tag) (.node tag .nil .nil) := by
  subst typed
  obtain ⟨text, value⟩ := Option.isSome_iff_exists.mp
    (carries.2 (valued.elim Or.inl fun feature => Or.inr (Or.inl feature)))
  refine adds_one (.makeElement tag.elementType (getElementName tag.name.text) text "")
    ⟨rfl, fun _ => rfl, ?_, ?_⟩ trivial ?_
  · simp [XmlTag.documentValue, value, YangElement.makeElement]
  · rcases valued with typed | typed <;>
      simp [XmlTag.keepsAccess, typed, YangElement.makeElement]
  · simp [extractValue, value]

theorem adds_extractCase {below : YangElement → Extracted} {firstChild : XMLElement}
    (typed : tag.elementType = "case") (empty : firstChild = .nil → children = .nil)
    (adds : firstChild ≠ .nil → Adds below children) :
    Adds (extractCase tag firstChild below) (.node tag children .nil) := by
  cases firstChild with
  | nil =>
      rw [empty rfl]
      refine adds_one (.makeElement "case" (getElementName tag.name.text) "" "")
        ⟨typed.symm, fun _ => rfl, ?_, ?_⟩ trivial fun _ => rfl
      · simp [typed]
      · simp [XmlTag.keepsAccess, typed, YangElement.makeElement]
  | node first below siblings =>
      exact (adds (by simp)).extractBelow typed (by decide) fun _ => rfl

/-- The two ways in which the grammar takes an element. -/
theorem documentLevel_cases (allowed : documentLevel level tag = some inner) :
    (tag.elementType = "if_feature" ∧ inner = level ∧ level ≠ .nothing) ∨
      (tag.elementType ≠ "if_feature" ∧ elementLevel level tag = some inner) := by
  unfold documentLevel at allowed
  split_ifs at allowed with block
  · exact Or.inl ⟨by simpa [XmlTag.isIfFeature] using block.1, by simpa using allowed.symm,
      block.2⟩
  · refine Or.inr ⟨fun typed => ?_, allowed⟩
    have nothing : level = .nothing := by simpa [XmlTag.isIfFeature, typed] using block
    simp [nothing, elementLevel] at allowed

theorem elementLevel_cases (allowed : elementLevel level tag = some inner) :
    (level = .data ∧ tag.isNamed = true ∧
      ((tag.elementType = "container" ∧ inner = .data) ∨
        (tag.elementType = "choice" ∧ inner = .data) ∨
        (tag.elementType = "case" ∧ inner = .data) ∨
        (tag.elementType = "list" ∧ inner = .listEntries) ∨
        (tag.elementType = "listLeaf" ∧ inner = .leafEntries) ∨
        (tag.elementType = "leaf" ∧ inner = .nothing) ∨
        (tag.elementType = "feature" ∧ inner = .nothing))) ∨
      (level = .listEntries ∧ tag.elementType = "listEntry" ∧ inner = .data) ∨
      (level = .leafEntries ∧ tag.elementType = "entry" ∧ inner = .nothing) := by
  cases level with
  | data =>
      simp only [elementLevel, dataLevel] at allowed
      split_ifs at allowed with named inside list listLeaf ending
      · obtain rfl := Option.some.inj allowed
        rcases inside with typed | typed | typed <;> simp [named, typed]
      · obtain rfl := Option.some.inj allowed
        simp [named, list]
      · obtain rfl := Option.some.inj allowed
        simp [named, listLeaf]
      · obtain rfl := Option.some.inj allowed
        rcases ending with typed | typed <;> simp [named, typed]
  | listEntries =>
      simp only [elementLevel] at allowed
      split_ifs at allowed with typed
      simp [typed, Option.some.inj allowed]
  | leafEntries =>
      simp only [elementLevel] at allowed
      split_ifs at allowed with typed
      simp [typed, Option.some.inj allowed]
  | nothing => simp [elementLevel] at allowed

theorem eq_nil_of_fits_nothing {document : XMLElement}
    (fits : document.Fits documentLevel .nothing) : document = .nil := by
  cases document with
  | nil => rfl
  | node tag children siblings =>
      obtain ⟨⟨inner, allowed, -⟩, -⟩ := fits
      simp [documentLevel, elementLevel] at allowed

theorem extractIfFeature_eq (enables : isFeatureEnabled featureMap = enabled)
    (below : YangElement → Extracted) (parentElement : YangElement) :
    extractIfFeature featureMap tag below parentElement =
      if opens enabled tag then below parentElement else some (true, parentElement) := by
  unfold extractIfFeature opens
  cases ifFeatureNames tag.name.text with
  | none => simp
  | some names => simp [enables]

/-- What the method of an element adds, when the children are extracted as they should
be. -/
theorem adds_call (enables : isFeatureEnabled featureMap = enabled)
    (fits : (Forest.node tag children .nil).Fits documentLevel level) (carries : tag.Carries)
    (filled : FilledBelow enabled tag children)
    (below : children ≠ .nil →
      Adds (extractCommon featureMap children) (children.splice (choose enabled))) :
    Adds (call featureMap tag.elementType tag children (extractCommon featureMap children))
      ((Forest.node tag children .nil).splice (choose enabled)) := by
  obtain ⟨⟨inner, allowed, fitsBelow⟩, -⟩ := fits
  rcases documentLevel_cases allowed with ⟨block, rfl, -⟩ | ⟨notBlock, allowed⟩
  · have notVersion : tag.isFileVersion = false := by
      by_contra version
      have file := XmlTag.elementType_of_isFileVersion (by simpa using version)
      exact absurd (file.symm.trans block) (by decide)
    have isBlock : tag.isIfFeature = true := by simp [XmlTag.isIfFeature, block]
    have method : call featureMap tag.elementType tag children
        (extractCommon featureMap children) =
        extractIfFeature featureMap tag (extractCommon featureMap children) := by
      funext parent
      simp [call, block]
    rw [method]
    by_cases opened : opens enabled tag = true
    · have chosen : choose enabled tag = .unwrap := by simp [choose, notVersion, isBlock, opened]
      obtain ⟨elements, holds, adds⟩ := below (filled (Or.inr ⟨isBlock, opened⟩))
      simp only [splice, chosen, append_nil]
      refine ⟨elements, holds, fun parent => ?_⟩
      rw [extractIfFeature_eq enables, if_pos opened, adds]
    · have chosen : choose enabled tag = .drop := by simp [choose, notVersion, isBlock, opened]
      simp only [splice, chosen]
      refine Adds.nothing fun parent => ?_
      rw [extractIfFeature_eq enables, if_neg opened]
  · have keptAs (notFile : tag.elementType ≠ "file") :
        (Forest.node tag children .nil).splice (choose enabled) =
          .node tag (children.splice (choose enabled)) .nil := by
      simp only [splice, choose_of_keeps notFile notBlock]
    have full (filledType : tag.elementType ∈ filledTypes) :=
      below (filled (Or.inl filledType))
    rcases elementLevel_cases allowed with ⟨-, -, typed⟩ | ⟨-, typed, -⟩ | ⟨-, typed, rfl⟩
    · rcases typed with ⟨typed, -⟩ | ⟨typed, -⟩ | ⟨typed, -⟩ | ⟨typed, -⟩ | ⟨typed, -⟩ |
        ⟨typed, rfl⟩ | ⟨typed, rfl⟩
      · rw [keptAs (by simp [typed])]
        have added := (full (by simp [typed, filledTypes])).extractBelow typed (by decide)
          fun _ => rfl
        exact added.congr fun parent => by simp [call, typed, extractSubContainer, XmlTag.elementName]
      · rw [keptAs (by simp [typed])]
        have added := (full (by simp [typed, filledTypes])).extractBelow typed (by decide)
          fun _ => rfl
        exact added.congr fun parent => by simp [call, typed, extractChoice, XmlTag.elementName]
      · rw [keptAs (by simp [typed])]
        have added := adds_extractCase typed (fun empty : children = .nil => by rw [empty]; rfl)
          below
        exact added.congr fun parent => by simp [call, typed]
      · rw [keptAs (by simp [typed])]
        have added := (full (by simp [typed, filledTypes])).extractBelow typed (by decide)
          fun _ => rfl
        exact added.congr fun parent => by simp [call, typed, extractList, XmlTag.elementName]
      · rw [keptAs (by simp [typed])]
        have added := (full (by simp [typed, filledTypes])).extractBelow typed (by decide)
          fun _ => rfl
        exact added.congr fun parent => by simp [call, typed, extractListLeaf, XmlTag.elementName]
      · rw [keptAs (by simp [typed]), eq_nil_of_fits_nothing fitsBelow]
        exact (adds_extractLeaf typed carries).congr fun parent => by simp [call, typed]
      · rw [keptAs (by simp [typed]), eq_nil_of_fits_nothing fitsBelow]
        exact (adds_extractValue typed (Or.inr rfl) carries).congr fun parent => by
          simp [call, typed, extractFeature]
    · rw [keptAs (by simp [typed])]
      have added : Adds (extractBelow "listEntry" "" (extractCommon featureMap children)) _ :=
        (full (by simp [typed, filledTypes])).extractBelow typed (by decide)
          fun notEntry => absurd rfl notEntry
      exact added.congr fun parent => by simp [call, typed, extractListEntry]
    · rw [keptAs (by simp [typed]), eq_nil_of_fits_nothing fitsBelow]
      exact (adds_extractValue typed (Or.inl rfl) carries).congr fun parent => by
        simp [call, typed, extractEntry]

/-- Two methods in a row add what is left of two documents in a row. -/
theorem Adds.andThen {method next both : YangElement → Extracted} {first second : XMLElement}
    (adds : Adds method first) (addsNext : Adds next second)
    (runs : ∀ parent returnValue after, method parent = some (returnValue, after) →
      both parent = next after) :
    Adds both (first.append second) := by
  obtain ⟨elements, holds, adds⟩ := adds
  obtain ⟨others, holdsNext, addsNext⟩ := addsNext
  refine ⟨elements ++ others, holds.append holdsNext, fun parent => ?_⟩
  rw [runs parent true _ (adds parent), addsNext, parent.addChildElements_addChildElements]

theorem splice_node (document : XmlTag → Splice) (tag : XmlTag) (children siblings : XMLElement) :
    (Forest.node tag children siblings).splice document =
      ((Forest.node tag children .nil).splice document).append (siblings.splice document) := by
  cases choice : document tag <;> simp [splice, choice, append]

/-- The loop over siblings adds what is left of the document. -/
theorem extractCommon_spec (enables : isFeatureEnabled featureMap = enabled)
    {document : XMLElement} (fits : document.Fits documentLevel level)
    (carries : document.All fun tag _ => tag.Carries)
    (filled : document.All (FilledBelow enabled)) (present : document ≠ .nil) :
    Adds (extractCommon featureMap document) (document.splice (choose enabled)) := by
  induction document generalizing level with
  | nil => exact absurd rfl present
  | node tag children siblings ihChildren ihSiblings =>
      obtain ⟨⟨inner, allowed, fitsBelow⟩, fitsBehind⟩ := fits
      have alone : (Forest.node tag children .nil).Fits documentLevel level :=
        ⟨⟨inner, allowed, fitsBelow⟩, trivial⟩
      have first := adds_call enables alone carries.1 filled.1
        (ihChildren fitsBelow carries.2.1 filled.2.1)
      have typed : (getElementType tag.name.text).2 = tag.elementType := rfl
      rw [splice_node]
      cases siblings with
      | nil =>
          rw [splice, append_nil]
          refine first.congr fun parent => ?_
          rw [extractCommon, typed]
          dsimp only
          cases call featureMap tag.elementType tag children
            (extractCommon featureMap children) parent <;> rfl
      | node next below behind =>
          refine first.andThen (ihSiblings fitsBehind carries.2.2 filled.2.2 (by simp)) ?_
          intro parent returnValue after run
          rw [extractCommon, typed]
          dsimp only
          rw [run, Option.bind_some]

/-- The method adds to every module what is left of the document, and may set the
version of the module. -/
def AddsToModule (method : YangElement → Extracted) (document : XMLElement) : Prop :=
  ∃ elements, Holds document elements ∧ ∀ module : YangElement, ∃ version,
    method module = some (true, (module.addChildElements elements).setVersion version)

theorem Adds.toModule {method : YangElement → Extracted} {document : XMLElement}
    (adds : Adds method document) : AddsToModule method document := by
  obtain ⟨elements, holds, adds⟩ := adds
  refine ⟨elements, holds, fun module => ⟨module.elementVersion, ?_⟩⟩
  rw [adds]
  rfl

theorem addsToModule_callExtractMethod (enables : isFeatureEnabled featureMap = enabled)
    (allowed : tag.isFileVersion = true ∨
      (Forest.node tag children .nil).Fits documentLevel .data)
    (carries : (Forest.node tag children .nil).All fun tag _ => tag.Carries)
    (filled : (Forest.node tag children .nil).All (FilledBelow enabled)) :
    AddsToModule (callExtractMethod featureMap tag children)
      ((Forest.node tag children .nil).splice (choose enabled)) := by
  by_cases version : tag.isFileVersion = true
  · have chosen : choose enabled tag = .drop := by simp [choose, version]
    have text : tag.name.text = "file-version" := by simpa [XmlTag.isFileVersion] using version
    obtain ⟨fileVersion, value⟩ := Option.isSome_iff_exists.mp
      (carries.1.2 (Or.inr (Or.inr version)))
    simp only [splice, chosen]
    refine ⟨[], trivial, fun module => ⟨fileVersion, ?_⟩⟩
    rw [callExtractMethod, if_pos text, value, module.addChildElements_nil]
    rfl
  · have text : tag.name.text ≠ "file-version" := by simpa [XmlTag.isFileVersion] using version
    have fits := allowed.resolve_left version
    have added := adds_call enables fits carries.1 filled.1 fun present => by
      obtain ⟨⟨inner, -, fitsBelow⟩, -⟩ := fits
      exact extractCommon_spec enables fitsBelow carries.2.1 filled.2.1 present
    refine (added.congr fun parent => ?_).toModule
    obtain ⟨elements, -, adds⟩ := added
    rw [callExtractMethod, if_neg text, tag.elementType_eq]
    dsimp only
    rw [adds parent]
    rfl

theorem AddsToModule.andThen {method next both : YangElement → Extracted}
    {first second : XMLElement} (adds : AddsToModule method first)
    (addsNext : AddsToModule next second)
    (runs : ∀ module returnValue after, method module = some (returnValue, after) →
      both module = next after) :
    AddsToModule both (first.append second) := by
  obtain ⟨elements, holds, adds⟩ := adds
  obtain ⟨others, holdsNext, addsNext⟩ := addsNext
  refine ⟨elements ++ others, holds.append holdsNext, fun module => ?_⟩
  obtain ⟨version, run⟩ := adds module
  obtain ⟨nextVersion, runNext⟩ :=
    addsNext ((module.addChildElements elements).setVersion version)
  refine ⟨nextVersion, ?_⟩
  rw [runs module true _ run, runNext]
  simp [YangElement.addChildElements, YangElement.setVersion]

theorem findElementAndExtract_spec (enables : isFeatureEnabled featureMap = enabled)
    {document : XMLElement} (body : ModuleBody document)
    (carries : document.All fun tag _ => tag.Carries)
    (filled : document.All (FilledBelow enabled)) (present : document ≠ .nil) :
    AddsToModule (findElementAndExtract featureMap document)
      (document.splice (choose enabled)) := by
  induction document with
  | nil => exact absurd rfl present
  | node tag children siblings _ ihSiblings =>
      have first := addsToModule_callExtractMethod enables body.1
        ⟨carries.1, carries.2.1, trivial⟩ ⟨filled.1, filled.2.1, trivial⟩
      rw [splice_node]
      cases siblings with
      | nil =>
          rw [splice, append_nil]
          have same : findElementAndExtract featureMap (.node tag children .nil) =
              callExtractMethod featureMap tag children := by
            funext module
            rw [findElementAndExtract]
            cases callExtractMethod featureMap tag children module <;> rfl
          rwa [same]
      | node next below behind =>
          refine first.andThen (ihSiblings body.2 carries.2.2 filled.2.2 (by simp)) ?_
          intro module returnValue after run
          rw [findElementAndExtract, run, Option.bind_some]

theorem isModule_cases (isModule : tag.isModule = true) :
    ∃ moduleName, findElementNoAttributes tag "module" = some moduleName ∧
      tag.elementType = "module" ∧ tag.elementName = moduleName := by
  obtain ⟨moduleName, found⟩ := Option.isSome_iff_exists.mp isModule
  refine ⟨moduleName, found, ?_⟩
  unfold findElementNoAttributes at found
  cases cut : cutFirst '-' tag.name.text.toList with
  | none => simp [cut] at found
  | some parts =>
      obtain ⟨type, name⟩ := parts
      simp only [cut] at found
      split_ifs at found with typed
      subst typed
      obtain rfl := Option.some.inj found
      constructor
      · simp [XmlTag.elementType, getElementType, cut]
      · simp [XmlTag.elementName, getElementName, cut]

theorem adds_extractModuleElement (enables : isFeatureEnabled featureMap = enabled)
    (formed : tag.isModule = true → ModuleFormed enabled tag children) :
    Adds (extractModuleElement featureMap true tag children)
      (flattened enabled (.node tag children .nil)) := by
  by_cases isModule : tag.isModule = true
  · obtain ⟨-, body, carries, filled⟩ := formed isModule
    obtain ⟨moduleName, found, typed, named⟩ := isModule_cases isModule
    simp only [flattened, isModule, ↓reduceIte]
    have keeps (version : String) (elements : List YangElement) :
        KeepsTag tag ⟨"module", moduleName, "", version, "", elements⟩ :=
      ⟨typed.symm, fun _ => named.symm, by simp [typed], by simp [XmlTag.keepsAccess, typed]⟩
    cases children with
    | nil =>
        refine adds_one _ (keeps "" []) trivial fun parent => ?_
        simp [extractModuleElement, found, YangElement.makeElement]
    | node first below siblings =>
        obtain ⟨elements, holds, adds⟩ := findElementAndExtract_spec enables body carries filled
          (by simp)
        obtain ⟨version, run⟩ := adds (.makeElement "module" moduleName "" "")
        refine adds_one _ (keeps version elements) holds fun parent => ?_
        simp only [extractModuleElement, found, run, Option.map_some]
        simp [YangElement.addChildElements, YangElement.setVersion, YangElement.makeElement]
  · have unnamed : findElementNoAttributes tag "module" = none := by
      simpa [XmlTag.isModule] using isModule
    simp only [flattened, isModule, Bool.false_eq_true, ↓reduceIte]
    refine Adds.nothing fun parent => ?_
    simp [extractModuleElement, unnamed]

/-- The loop over the modules adds them with what is left of their elements. -/
theorem extractModule_spec (enables : isFeatureEnabled featureMap = enabled)
    {modules : XMLElement} (formed : EachModule (ModuleFormed enabled) modules)
    (present : modules ≠ .nil) :
    Adds (extractModule featureMap true modules) (flattened enabled modules) := by
  induction modules with
  | nil => exact absurd rfl present
  | node tag children siblings _ ihSiblings =>
      obtain ⟨here, behind⟩ := formed
      have first := adds_extractModuleElement enables here
      have split : flattened enabled (.node tag children siblings) =
          (flattened enabled (.node tag children .nil)).append (flattened enabled siblings) := by
        by_cases isModule : tag.isModule = true <;> simp [flattened, isModule, append]
      rw [split]
      cases siblings with
      | nil =>
          have same : extractModule featureMap true (.node tag children .nil) =
              extractModuleElement featureMap true tag children := by
            funext parent
            rw [extractModule]
            cases extractModuleElement featureMap true tag children parent <;> rfl
          rw [same, flattened, append_nil]
          exact first
      | node next below after =>
          obtain ⟨elements, holds, adds⟩ := first
          refine Adds.andThen ⟨elements, holds, adds⟩ (ihSiblings behind (by simp)) ?_
          intro parent returnValue after run
          rw [extractModule, run, Option.bind_some]
          have returned := (adds parent).symm.trans run
          simp only [Option.some.injEq, Prod.mk.injEq] at returned
          rw [← returned.1]

end Extracts

section Features

/-- A feature of the map is looked up under its module. -/
theorem isFeatureEnabled_setFeature (featureMap : FeatureMap)
    (moduleName elementName : String) (enabled : Bool) (otherModule otherName : String) :
    isFeatureEnabled (setFeature featureMap moduleName elementName enabled) otherModule otherName =
      if moduleName = otherModule ∧ elementName = otherName then enabled
      else isFeatureEnabled featureMap otherModule otherName := by
  unfold isFeatureEnabled setFeature
  rw [Std.ExtTreeMap.getElem?_insert]
  simp only [Std.LawfulEqCmp.compare_eq_iff_eq]
  by_cases sameModule : moduleName = otherModule
  · subst sameModule
    simp only [↓reduceIte, true_and]
    rw [Std.ExtTreeMap.getElem?_insert]
    simp only [Std.LawfulEqCmp.compare_eq_iff_eq]
    by_cases sameName : elementName = otherName
    · simp [sameName]
    · simp only [sameName, ↓reduceIte]
      cases featureMap[moduleName]? <;> simp
  · simp [sameModule]

variable {enabled : Features} {moduleName featureName : String} {document : XMLElement}

/-- A feature among the siblings stays there. -/
theorem mem_siblingKeys_splice
    (member : ("feature", featureName) ∈ document.siblingKeys XmlTag.label) :
    ("feature", featureName) ∈
      (document.splice (choose enabled)).siblingKeys XmlTag.label := by
  induction document with
  | nil => simp [siblingKeys] at member
  | node tag children siblings _ ih =>
      rcases List.mem_cons.mp member with here | behind
      · have typed : tag.elementType = "feature" := (congrArg Prod.fst here).symm
        have chosen : choose enabled tag = .keep :=
          choose_of_keeps (by simp [typed]) (by simp [typed])
        simp only [splice, chosen, siblingKeys]
        rw [← here]
        exact List.mem_cons_self
      · cases chosen : choose enabled tag with
        | keep =>
            simp only [splice, chosen, siblingKeys]
            exact List.mem_cons_of_mem _ (ih behind)
        | unwrap =>
            simp only [splice, chosen]
            exact mem_siblingKeys_append.mpr (Or.inr (ih behind))
        | drop =>
            simp only [splice, chosen]
            exact ih behind

theorem distinct_behind {tag : XmlTag} {children siblings : XMLElement}
    (distinct : ((Forest.node tag children siblings).splice (choose enabled)).Distinct
      XmlTag.label XmlTag.IsEntry) :
    (siblings.splice (choose enabled)).Distinct XmlTag.label XmlTag.IsEntry := by
  cases chosen : choose enabled tag with
  | keep =>
      simp only [splice, chosen] at distinct
      exact distinct.2.2
  | unwrap =>
      simp only [splice, chosen] at distinct
      exact distinct.of_append
  | drop =>
      simp only [splice, chosen] at distinct
      exact distinct

theorem findElementWithAttributes_feature {tag : XmlTag} (named : tag.isNamed = true)
    (typed : tag.elementType = "feature") (carries : tag.Carries) :
    ∃ value, tag.Attribute "value" = some value ∧
      findElementWithAttributes tag "feature" = some (some (tag.elementName, value)) := by
  obtain ⟨value, valued⟩ := Option.isSome_iff_exists.mp
    (carries.2 (Or.inr (Or.inl typed)))
  refine ⟨value, valued, ?_⟩
  unfold XmlTag.isNamed at named
  unfold XmlTag.elementType getElementType at typed
  unfold findElementWithAttributes findElementNoAttributes XmlTag.elementName getElementName
  cases cut : cutFirst '-' tag.name.text.toList with
  | none => simp [cut] at named
  | some parts =>
      obtain ⟨type, name⟩ := parts
      cases type with
      | nil => exact absurd rfl (tag.name.nonempty_of_cut cut)
      | cons first rest =>
          have letters : first :: rest = "feature".toList := by
            rw [← typed, cut]
            exact String.toList_ofList.symm
          simp [letters, valued]

theorem isNamed_of_feature {tag : XmlTag} {children : XMLElement}
    (typed : tag.elementType = "feature")
    (allowed : tag.isFileVersion = true ∨
      (Forest.node tag children .nil).Fits documentLevel .data) : tag.isNamed = true := by
  rcases allowed with version | ⟨⟨inner, allowed, -⟩, -⟩
  · have file := XmlTag.elementType_of_isFileVersion version
    exact absurd (file.symm.trans typed) (by decide)
  · rcases documentLevel_cases allowed with ⟨block, -⟩ | ⟨-, allowed⟩
    · exact absurd (block.symm.trans typed) (by decide)
    · rcases elementLevel_cases allowed with ⟨-, named, -⟩ | ⟨entry, -⟩ | ⟨entry, -⟩
      · exact named
      · exact absurd entry (by decide)
      · exact absurd entry (by decide)

theorem isTrueFeature_of_ne {tag : XmlTag} (differs : tag.elementType ≠ "feature") :
    XmlTag.isTrueFeature featureName tag = false := by
  simp [XmlTag.isTrueFeature, differs]

/-- The features among the children of a module come into the map, beside what it has. -/
theorem extractFeatures_spec (moduleName : String) (body : ModuleBody document)
    (carries : document.All fun tag _ => tag.Carries)
    (distinct : (document.splice (choose enabled)).Distinct XmlTag.label XmlTag.IsEntry)
    (featureMap : FeatureMap)
    (fresh : ∀ featureName, ("feature", featureName) ∈ document.siblingKeys XmlTag.label →
      isFeatureEnabled featureMap moduleName featureName = false) :
    ∃ after, extractFeatures moduleName document featureMap = some after ∧
      ∀ otherModule otherName, isFeatureEnabled after otherModule otherName =
        ((decide (moduleName = otherModule) &&
          document.anySibling (XmlTag.isTrueFeature otherName)) ||
        isFeatureEnabled featureMap otherModule otherName) := by
  induction document generalizing featureMap with
  | nil => exact ⟨featureMap, rfl, fun otherModule otherName => by simp [anySibling]⟩
  | node tag children siblings _ ih =>
      have behind := ih body.2 carries.2.2 (distinct_behind distinct)
      by_cases typed : tag.elementType = "feature"
      · obtain ⟨value, valued, found⟩ := findElementWithAttributes_feature
          (isNamed_of_feature typed body.1) typed carries.1
        have chosen : choose enabled tag = .keep :=
          choose_of_keeps (by simp [typed]) (by simp [typed])
        have alone : ("feature", tag.elementName) ∉ siblings.siblingKeys XmlTag.label := by
          intro member
          simp only [splice, chosen] at distinct
          rcases distinct.1 with entry | absent
          · rcases entry with entry | entry <;> exact absurd (typed.symm.trans entry) (by decide)
          · rw [XmlTag.label, typed] at absent
            exact absent (mem_siblingKeys_splice member)
        obtain ⟨after, run, enables⟩ := behind
          (setFeature featureMap moduleName tag.elementName (value = "true")) (by
            intro featureName member
            have differs : tag.elementName ≠ featureName := by
              rintro rfl
              exact alone member
            rw [isFeatureEnabled_setFeature, if_neg (by simp [differs])]
            exact fresh featureName (List.mem_cons_of_mem _ member))
        have type' : (getElementType tag.name.text).2 = "feature" := typed
        refine ⟨after, ?_, fun otherModule otherName => ?_⟩
        · simp only [extractFeatures, type', ↓reduceIte, found, run]
        · rw [enables, isFeatureEnabled_setFeature, anySibling]
          by_cases set : moduleName = otherModule ∧ tag.elementName = otherName
          · obtain ⟨rfl, rfl⟩ := set
            have unset := fresh tag.elementName (by simp [siblingKeys, XmlTag.label, typed])
            simp [XmlTag.isTrueFeature, typed, valued, unset, Bool.or_comm]
          · rw [if_neg set]
            by_cases sameModule : moduleName = otherModule
            · have differs : tag.elementName ≠ otherName := fun same => set ⟨sameModule, same⟩
              simp [XmlTag.isTrueFeature, differs]
            · simp [sameModule]
      · have type' : (getElementType tag.name.text).2 ≠ "feature" := typed
        obtain ⟨after, run, enables⟩ := behind featureMap fun featureName member =>
          fresh featureName (List.mem_cons_of_mem _ member)
        refine ⟨after, ?_, fun otherModule otherName => ?_⟩
        · simp only [extractFeatures, type', ↓reduceIte, run]
        · rw [enables, anySibling, isTrueFeature_of_ne typed, Bool.false_or]

theorem extractModuleFeatures_spec {narrow : Features} {tag : XmlTag} {children : XMLElement}
    (formed : tag.isModule = true → ModuleFormed narrow tag children)
    (distinct : tag.isModule = true →
      (children.splice (choose enabled)).Distinct XmlTag.label XmlTag.IsEntry)
    (featureMap : FeatureMap)
    (fresh : tag.isModule = true → ∀ featureName,
      isFeatureEnabled featureMap tag.elementName featureName = false) :
    ∃ after, extractModuleFeatures tag children featureMap = some after ∧
      ∀ moduleName featureName, isFeatureEnabled after moduleName featureName =
        ((decide (findElementNoAttributes tag "module" = some moduleName) &&
          children.anySibling (XmlTag.isTrueFeature featureName)) ||
        isFeatureEnabled featureMap moduleName featureName) := by
  by_cases isModule : tag.isModule = true
  · obtain ⟨moduleName, found, -, rfl⟩ := isModule_cases isModule
    have conditions := formed isModule
    obtain ⟨after, run, enables⟩ := extractFeatures_spec tag.elementName
      conditions.body conditions.carries (distinct isModule) featureMap
      fun featureName _ => fresh isModule featureName
    refine ⟨after, ?_, fun moduleName featureName => ?_⟩
    · simp only [extractModuleFeatures, found, run]
    · rw [enables, found]
      simp
  · have unnamed : findElementNoAttributes tag "module" = none := by
      simpa [XmlTag.isModule] using isModule
    refine ⟨featureMap, ?_, fun moduleName featureName => ?_⟩
    · simp only [extractModuleFeatures, unnamed]
    · simp [unnamed]

/-- All features of the modules come into the map, wherever the modules stand. -/
theorem extractAllFeatures_spec {narrow : Features} {modules : XMLElement}
    (formed : EachModule (ModuleFormed narrow) modules)
    (distinct : (flattened enabled modules).Distinct XmlTag.label XmlTag.IsEntry)
    (present : modules ≠ .nil) (featureMap : FeatureMap)
    (fresh : ∀ moduleName,
      ("module", moduleName) ∈ (flattened enabled modules).siblingKeys XmlTag.label →
      ∀ featureName, isFeatureEnabled featureMap moduleName featureName = false) :
    ∃ after, extractAllFeatures modules featureMap = some after ∧
      ∀ moduleName featureName, isFeatureEnabled after moduleName featureName =
        (declared modules moduleName featureName ||
          isFeatureEnabled featureMap moduleName featureName) := by
  induction modules generalizing featureMap with
  | nil => exact absurd rfl present
  | node tag children siblings _ ih =>
      have labelled (isModule : tag.isModule = true) :
          tag.label = ("module", tag.elementName) := by
        obtain ⟨moduleName, -, typed, -⟩ := isModule_cases isModule
        rw [XmlTag.label, typed]
      have behind : (flattened enabled siblings).Distinct XmlTag.label XmlTag.IsEntry ∧
          ∀ label ∈ (flattened enabled siblings).siblingKeys XmlTag.label,
            label ∈ (flattened enabled (.node tag children siblings)).siblingKeys XmlTag.label := by
        by_cases isModule : tag.isModule = true
        · simp only [flattened, isModule, ↓reduceIte] at distinct ⊢
          exact ⟨distinct.2.2, fun label member => List.mem_cons_of_mem _ member⟩
        · simp only [flattened, isModule, Bool.false_eq_true, ↓reduceIte] at distinct ⊢
          exact ⟨distinct, fun label member => member⟩
      obtain ⟨middle, first, enables⟩ := extractModuleFeatures_spec formed.1
        (fun isModule => by
          simp only [flattened, isModule, ↓reduceIte] at distinct
          exact distinct.2.1)
        featureMap (fun isModule => by
          refine fresh tag.elementName ?_
          simp only [flattened, isModule, ↓reduceIte, siblingKeys, labelled isModule]
          exact List.mem_cons_self)
      cases siblings with
      | nil =>
          refine ⟨middle, ?_, fun moduleName featureName => ?_⟩
          · rw [extractAllFeatures, first]
            rfl
          · rw [enables]
            simp [declared, hasFeature]
      | node next below after =>
          obtain ⟨last, run, enablesNext⟩ := ih formed.2 behind.1 (by simp) middle (by
            intro moduleName member featureName
            rw [enables, fresh moduleName (behind.2 _ member) featureName, Bool.or_false]
            by_cases named : findElementNoAttributes tag "module" = some moduleName
            · have isModule : tag.isModule = true := by simp [XmlTag.isModule, named]
              obtain ⟨_, found, typed, rfl⟩ := isModule_cases isModule
              obtain rfl := Option.some.inj (found.symm.trans named)
              simp only [flattened, isModule, ↓reduceIte] at distinct
              rcases distinct.1 with entry | absent
              · rcases entry with entry | entry <;>
                  exact absurd (typed.symm.trans entry) (by decide)
              · rw [labelled isModule] at absent
                exact absurd member absent
            · simp [named])
          refine ⟨last, ?_, fun moduleName featureName => ?_⟩
          · rw [extractAllFeatures, first, Option.bind_some]
            exact run
          · rw [enablesNext, enables]
            have both : declared (.node tag children (.node next below after)) moduleName
                featureName = _ :=
              hasFeature_node Forest.anySibling tag children (.node next below after) _ _
            rw [both]
            simp only [declared, Bool.or_assoc, Bool.or_left_comm]

end Features

end OpenMplane
