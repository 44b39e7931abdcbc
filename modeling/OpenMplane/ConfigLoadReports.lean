import OpenMplane.ConfigLoad

/-!
# What a load reports

A load is to fail when any element that is reached in any module fails to be
extracted, wherever it stands, and to succeed when none does.  No extractor ever
returns false: an element without a usable type leads to a method that does not
exist.  So a load that returns has met no such element, and reports what it
should; the result says for which documents that is.
-/

namespace OpenMplane

open ListCut Forest YangConfigParser ExtractElements

/-- An element fails to be extracted: its name gives no type, or a type without a
method, or the method returns false. -/
def ExtractionFails (featureMap : FeatureMap) (tag : XmlTag) (children : XMLElement) : Prop :=
  (getElementType tag.name.text).1 = false ∨ tag.elementType ∉ methodTypes ∨
    ∃ parent after, call featureMap tag.elementType tag children
      (extractCommon featureMap children) parent = some (false, after)

/-- No element that is reached below a module fails; the version is no element of
its own. -/
def NoneFailsBelow (featureMap : FeatureMap) : XMLElement → Prop
  | .nil => True
  | .node tag children siblings =>
      (tag.isFileVersion = true ∨ ¬ ExtractionFails featureMap tag children) ∧
        (descends (isFeatureEnabled featureMap) tag = true →
          EachReached (isFeatureEnabled featureMap)
            (fun tag children => ¬ ExtractionFails featureMap tag children) children) ∧
        NoneFailsBelow featureMap siblings

def modulesOf : XMLElement → XMLElement
  | .node _ _ (.node _ _ modules) => modules
  | _ => .nil

/-- The document is no configuration, or some element of a module fails, with the
features that were read. -/
def Rejected (featureMap : FeatureMap) (root : XmlTag) (children : XMLElement) : Prop :=
  root.name.text ≠ "root" ∨
    ∃ after, extractAllFeatures (modulesOf children) featureMap = some after ∧
      ¬ EachModule (fun _ children => NoneFailsBelow after children) (modulesOf children)

/-- Loading the document, from whatever path, fails and leaves the flag of the
configuration alone when the document is rejected, and succeeds and sets it
otherwise. -/
def LoadReports (loader : ConfigLoader) (root : XmlTag) (children : XMLElement) : Prop :=
  ∀ files path, path ≠ "" → files path = some (.node root children .nil) →
    (Rejected loader.mModuleFeatureMap root children →
      ∃ state after, load files path loader = some (state, after) ∧ state ≠ .RT_OK ∧
        after.mIsConfigLoaded = loader.mIsConfigLoaded) ∧
    (¬ Rejected loader.mModuleFeatureMap root children →
      ∃ after, load files path loader = some (.RT_OK, after) ∧ after.mIsConfigLoaded = true)

theorem not_fails_of_runs {featureMap : FeatureMap} {enabled : Features}
    (enables : isFeatureEnabled featureMap = enabled) {tag : XmlTag} {children : XMLElement}
    (runs : MethodRuns enabled tag children (Runs enabled children)) :
    ¬ ExtractionFails featureMap tag children := by
  obtain ⟨elements, adds⟩ :=
    (decided_call enables tag (decided_extractCommon enables children)).1 runs
  rintro (untyped | unknown | ⟨parent, after, failed⟩)
  · rw [tag.elementType_eq] at untyped
    cases untyped
  · exact unknown runs.mem_methodTypes
  · rw [adds] at failed
    cases failed

theorem noneFails_of_runs {featureMap : FeatureMap} {enabled : Features}
    (enables : isFeatureEnabled featureMap = enabled) {document : XMLElement}
    (runs : Runs enabled document) :
    EachReached enabled (fun tag children => ¬ ExtractionFails featureMap tag children)
      document := by
  induction document with
  | nil => trivial
  | node tag children siblings ihChildren ihSiblings =>
      exact ⟨not_fails_of_runs enables runs.1, fun down => ihChildren (runs.1.below down),
        ihSiblings runs.2⟩

theorem noneFailsBelow_of_moduleRuns {featureMap : FeatureMap} {document : XMLElement}
    (runs : ModuleRuns (isFeatureEnabled featureMap) document) :
    NoneFailsBelow featureMap document := by
  induction document with
  | nil => trivial
  | node tag children siblings _ ih =>
      obtain ⟨here, behind⟩ := runs
      by_cases version : tag.isFileVersion = true
      · have typed := XmlTag.elementType_of_isFileVersion version
        have stays : ¬ descends (isFeatureEnabled featureMap) tag = true := by
          simp [descends, XmlTag.isIfFeature, typed, filledTypes]
        exact ⟨Or.inl version, fun down => absurd down stays, ih behind⟩
      · rw [ModuleElementRuns, if_neg version] at here
        exact ⟨Or.inr (not_fails_of_runs rfl here),
          fun down => noneFails_of_runs rfl (here.below down), ih behind⟩

theorem not_rejected_of_loadable {featureMap : FeatureMap} {root : XmlTag}
    (rooted : root.name.text = "root") {children : XMLElement}
    (loadable : Loadable (isFeatureEnabled featureMap) children) :
    ¬ Rejected featureMap root children := by
  rintro (other | ⟨after, run, fails⟩)
  · exact other rooted
  · cases children with
    | nil => exact loadable
    | node general generalNode siblings =>
        cases siblings with
        | nil => exact loadable
        | node version versionBelow modules =>
            obtain ⟨-, present, carry, runs⟩ := loadable
            obtain ⟨read, same, enables⟩ :=
              (extractAllFeatures_cases modules featureMap).1 ⟨present, carry⟩
            rw [modulesOf] at run fails
            obtain rfl : after = read := Option.some.inj (run.symm.trans same)
            rw [← enables] at runs
            exact fails (runs.imp fun _ _ => noneFailsBelow_of_moduleRuns)

theorem load_document (files : String → Option XMLElement) {path : String} (given : path ≠ "")
    {root : XmlTag} {children : XMLElement}
    (file : files path = some (.node root children .nil)) (loader : ConfigLoader) :
    load files path loader =
      (parseFrom loader.mModuleFeatureMap loader.mConfig (.node root children .nil)).map
        fun result =>
          let after := { loader with
            mConfigFileLoaded := false
            mModuleFeatureMap := result.2.1
            mConfig := result.2.2 }
          if result.1 = false then (.RT_SYNTAX_ERROR, after)
          else (.RT_OK, { after with mConfigFileLoaded := true, mIsConfigLoaded := true }) := by
  rw [load, if_neg given, file]

/-- A load that follows a null pointer reports nothing. -/
theorem not_loadReports_of_stuck {loader : ConfigLoader} {root : XmlTag} {children : XMLElement}
    (rooted : root.name.text = "root")
    (stuck : ¬ Loadable (isFeatureEnabled loader.mModuleFeatureMap) children) :
    ¬ LoadReports loader root children := by
  intro reports
  have given : "/config.xml" ≠ "" := by decide
  have lost := load_document (fun _ => some (.node root children .nil)) given rfl loader
  rw [(parseFrom_cases rooted children _ _).2 stuck, Option.map_none] at lost
  obtain ⟨fails, succeeds⟩ := reports (fun _ => some (.node root children .nil)) _ given rfl
  by_cases rejected : Rejected loader.mModuleFeatureMap root children
  · obtain ⟨state, after, run, -⟩ := fails rejected
    rw [lost] at run
    cases run
  · obtain ⟨after, run, -⟩ := succeeds rejected
    rw [lost] at run
    cases run

/-- A load reports what it should exactly when the document is no configuration,
or nothing in it makes the parser follow a null pointer. -/
theorem loadReports_iff (loader : ConfigLoader) (root : XmlTag) (children : XMLElement) :
    LoadReports loader root children ↔
      root.name.text ≠ "root" ∨
        Loadable (isFeatureEnabled loader.mModuleFeatureMap) children := by
  constructor
  · intro reports
    by_cases rooted : root.name.text = "root"
    · refine Or.inr ?_
      by_contra stuck
      exact not_loadReports_of_stuck rooted stuck reports
    · exact Or.inl rooted
  · rintro (other | loadable) files path given file
    · refine ⟨fun _ => ?_, fun accepted => absurd (Or.inl other) accepted⟩
      rw [load_document files given file, parseFrom_of_not_rooted other]
      exact ⟨.RT_SYNTAX_ERROR, _, rfl, by decide, rfl⟩
    · by_cases rooted : root.name.text = "root"
      · obtain ⟨after, result, run⟩ := (parseFrom_cases rooted children _ loader.mConfig).1 loadable
        refine ⟨fun rejected => absurd rejected (not_rejected_of_loadable rooted loadable),
          fun _ => ?_⟩
        rw [load_document files given file, run]
        exact ⟨_, rfl, rfl⟩
      · refine ⟨fun _ => ?_, fun accepted => absurd (Or.inl rooted) accepted⟩
        rw [load_document files given file, parseFrom_of_not_rooted rooted]
        exact ⟨.RT_SYNTAX_ERROR, _, rfl, by decide, rfl⟩

/-- The elements below the root of a document with one module that has an element
of no type. -/
def untypedElement : XMLElement :=
  .node ⟨⟨"Info", by decide⟩, []⟩ .nil
    (.node ⟨⟨"Version", by decide⟩, []⟩ .nil
      (.node ⟨⟨"module-m", by decide⟩, []⟩
        (.node ⟨⟨"setting-s", by decide⟩, []⟩ .nil .nil) .nil))

/-- A load of it does not return. -/
theorem untyped_element_is_followed :
    ¬ LoadReports ⟨false, ∅, .constructed, false⟩ ⟨⟨"root", by decide⟩, []⟩ untypedElement := by
  refine not_loadReports_of_stuck rfl ?_
  rintro ⟨-, -, -, runs⟩
  exact absurd (runs.1 (by decide)).1 (by decide)

end OpenMplane
