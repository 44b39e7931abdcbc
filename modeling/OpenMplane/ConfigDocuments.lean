import OpenMplane.YangConfigParser

/-!
# Configuration documents

What a configuration document is, and what its parser is meant to make of it.  The
elements of a module fit a small grammar: entries stand in lists and in list leaves, and
everything else stands in a module, a container, a choice, a case or a list entry.  An
`if_feature` element may stand around any of them; flattening puts what is below it in
its place when the feature is enabled, and drops it otherwise.

`extractCommon_spec` says that the parser adds an element for every element of the
flattened document.
-/

namespace OpenMplane

open ListCut Forest YangConfigParser ExtractElements

namespace XmlTag

def elementType (tag : XmlTag) : String :=
  (getElementType tag.name.text).2

def elementName (tag : XmlTag) : String :=
  getElementName tag.name.text

/-- The name of the element has the form `TYPE-NAME`. -/
def isNamed (tag : XmlTag) : Bool :=
  match cutFirst '-' tag.name.text.toList with
  | none => false
  | some (_, name) => decide (name ≠ [])

def isModule (tag : XmlTag) : Bool :=
  (findElementNoAttributes tag "module").isSome

def isFileVersion (tag : XmlTag) : Bool :=
  tag.name.text = "file-version"

def isIfFeature (tag : XmlTag) : Bool :=
  tag.elementType = "if_feature"

/-- The element is a feature of that name that is true. -/
def isTrueFeature (feature : String) (tag : XmlTag) : Bool :=
  tag.elementType = "feature" && tag.elementName = feature &&
    tag.Attribute "value" = some "true"

/-- The attributes that the extractors read are there. -/
def Carries (tag : XmlTag) : Prop :=
  (tag.elementType = "leaf" →
    (tag.Attribute "value").isSome ∨ (tag.Attribute "ref").isSome) ∧
  (tag.elementType = "entry" ∨ tag.elementType = "feature" ∨ tag.isFileVersion = true →
    (tag.Attribute "value").isSome)

instance (tag : XmlTag) : Decidable tag.Carries :=
  inferInstanceAs (Decidable ((_ → _) ∧ (_ → _)))

end XmlTag

/-- Which features of which modules are enabled. -/
abbrev Features := String → String → Bool

/-- The feature that the element names is enabled. -/
def opens (enabled : Features) (tag : XmlTag) : Bool :=
  match ifFeatureNames tag.name.text with
  | none => false
  | some (moduleName, featureName) => enabled moduleName featureName

inductive Level
  | data
  | listEntries
  | leafEntries
  | nothing
  deriving DecidableEq, Repr

/-- Where the children of an element stand that is among the data. -/
def dataLevel (type : String) : Option Level :=
  if type = "container" ∨ type = "choice" ∨ type = "case" then some .data
  else if type = "list" then some .listEntries
  else if type = "listLeaf" then some .leafEntries
  else if type = "leaf" ∨ type = "feature" then some .nothing
  else none

/-- Where the children of an element stand, `if_feature` elements apart. -/
def elementLevel : Level → XmlTag → Option Level
  | .data, tag => if tag.isNamed then dataLevel tag.elementType else none
  | .listEntries, tag => if tag.elementType = "listEntry" then some .data else none
  | .leafEntries, tag => if tag.elementType = "entry" then some .nothing else none
  | .nothing, _ => none

/-- Where the children of an element stand. -/
def documentLevel (level : Level) (tag : XmlTag) : Option Level :=
  if tag.isIfFeature ∧ level ≠ .nothing then some level else elementLevel level tag

/-- What is below a module: data, and its version. -/
def ModuleBody : XMLElement → Prop
  | .nil => True
  | .node tag children siblings =>
      (tag.isFileVersion = true ∨ (Forest.node tag children .nil).Fits documentLevel .data) ∧
        ModuleBody siblings

instance decidableModuleBody : ∀ document : XMLElement, Decidable (ModuleBody document)
  | .nil => isTrue trivial
  | .node tag children siblings =>
      have := decidableModuleBody siblings
      inferInstanceAs (Decidable ((tag.isFileVersion = true ∨
        (Forest.node tag children .nil).Fits documentLevel .data) ∧ ModuleBody siblings))

/-- The types of element that have something below them. -/
def filledTypes : List String := ["container", "list", "listEntry", "choice", "listLeaf"]

/-- There is something below the element, where the extractors need it. -/
def FilledBelow (enabled : Features) (tag : XmlTag) (children : XMLElement) : Prop :=
  tag.elementType ∈ filledTypes ∨ (tag.isIfFeature = true ∧ opens enabled tag = true) →
    children ≠ .nil

instance (enabled : Features) (tag : XmlTag) (children : XMLElement) :
    Decidable (FilledBelow enabled tag children) :=
  inferInstanceAs (Decidable (_ → _))

/-- The conditions on a module. -/
structure ModuleFormed (enabled : Features) (tag : XmlTag) (children : XMLElement) : Prop where
  named : tag.isNamed = true
  body : ModuleBody children
  carries : children.All fun tag _ => tag.Carries
  filled : children.All (FilledBelow enabled)

instance (enabled : Features) (tag : XmlTag) (children : XMLElement) :
    Decidable (ModuleFormed enabled tag children) :=
  decidable_of_iff (tag.isNamed = true ∧ ModuleBody children ∧
      (children.All fun tag _ => tag.Carries) ∧ children.All (FilledBelow enabled))
    ⟨fun ⟨named, body, carries, filled⟩ => ⟨named, body, carries, filled⟩,
      fun ⟨named, body, carries, filled⟩ => ⟨named, body, carries, filled⟩⟩

/-- The modules meet the condition; other elements beside them do not matter. -/
def EachModule (holds : XmlTag → XMLElement → Prop) : XMLElement → Prop
  | .nil => True
  | .node tag children siblings =>
      (tag.isModule = true → holds tag children) ∧ EachModule holds siblings

instance decidableEachModule (holds : XmlTag → XMLElement → Prop)
    [∀ tag children, Decidable (holds tag children)] :
    ∀ modules : XMLElement, Decidable (EachModule holds modules)
  | .nil => isTrue trivial
  | .node tag children siblings =>
      have := decidableEachModule holds siblings
      inferInstanceAs
        (Decidable ((tag.isModule = true → holds tag children) ∧ EachModule holds siblings))

theorem EachModule.imp {first second : XmlTag → XMLElement → Prop}
    (stronger : ∀ tag children, first tag children → second tag children)
    {modules : XMLElement} (each : EachModule first modules) : EachModule second modules := by
  induction modules with
  | nil => trivial
  | node tag children siblings _ ih =>
      exact ⟨fun isModule => stronger tag children (each.1 isModule), ih each.2⟩

/-- What flattening does with an element: the version of a module is no element of its
own. -/
def choose (enabled : Features) (tag : XmlTag) : Splice :=
  if tag.isFileVersion then .drop
  else if tag.isIfFeature then (if opens enabled tag then .unwrap else .drop)
  else .keep

/-- The modules with what is left of their elements. -/
def flattened (enabled : Features) : XMLElement → XMLElement
  | .nil => .nil
  | .node tag children siblings =>
      if tag.isModule then
        .node tag (children.splice (choose enabled)) (flattened enabled siblings)
      else flattened enabled siblings

/-- A module has a true feature, looked for in its children or anywhere below it. -/
def hasFeature (search : (XmlTag → Bool) → XMLElement → Bool) : XMLElement → Features
  | .nil, _, _ => false
  | .node tag children siblings, moduleName, featureName =>
      (decide (findElementNoAttributes tag "module" = some moduleName) &&
        search (XmlTag.isTrueFeature featureName) children) ||
      hasFeature search siblings moduleName featureName

theorem hasFeature_node (search : (XmlTag → Bool) → XMLElement → Bool) (tag : XmlTag)
    (children siblings : XMLElement) (moduleName featureName : String) :
    hasFeature search (.node tag children siblings) moduleName featureName =
      ((decide (findElementNoAttributes tag "module" = some moduleName) &&
        search (XmlTag.isTrueFeature featureName) children) ||
      hasFeature search siblings moduleName featureName) := rfl

/-- The features that are true directly below the module. -/
def declared (modules : XMLElement) : Features :=
  hasFeature Forest.anySibling modules

/-- The features that are true anywhere below the module. -/
def stated (modules : XMLElement) : Features :=
  hasFeature Forest.any modules

/-- What distinguishes an element from its siblings. -/
def XmlTag.label (tag : XmlTag) : String × String :=
  (tag.elementType, tag.elementName)

/-- Entries are told apart by their positions. -/
def XmlTag.IsEntry (tag : XmlTag) : Prop :=
  tag.elementType = "listEntry" ∨ tag.elementType = "entry"

instance : DecidablePred XmlTag.IsEntry := fun tag =>
  inferInstanceAs (Decidable (tag.elementType = "listEntry" ∨ tag.elementType = "entry"))

/-- The value of a leaf, an entry or a feature: its `value`, or else its `ref`. -/
def XmlTag.documentValue (tag : XmlTag) : String :=
  ((tag.Attribute "value").or (tag.Attribute "ref")).getD ""

def XmlTag.documentAccess (tag : XmlTag) : String :=
  (tag.Attribute "access").getD ""

/-- A leaf with a value: of no other element does the parser keep the access. -/
def XmlTag.keepsAccess (tag : XmlTag) : Bool :=
  tag.elementType = "leaf" && (tag.Attribute "value").isSome

/-- What the configuration keeps of an element. -/
structure KeepsTag (tag : XmlTag) (element : YangElement) : Prop where
  type : element.elementType = tag.elementType
  name : tag.elementType ≠ "listEntry" → element.elementName = tag.elementName
  value : tag.elementType ∈ ["leaf", "entry", "feature"] →
    element.elementValue = tag.documentValue
  access : element.elementAccessPermissions =
    if tag.keepsAccess then tag.documentAccess else ""

/-- The elements of the configuration are those of the flattened document. -/
def Holds : XMLElement → List YangElement → Prop
  | .nil, [] => True
  | .node tag children siblings, element :: elements =>
      KeepsTag tag element ∧ Holds children element.childElements ∧ Holds siblings elements
  | _, _ => False

theorem Holds.append {first second : XMLElement} {elements others : List YangElement}
    (holds : Holds first elements) (holdsToo : Holds second others) :
    Holds (first.append second) (elements ++ others) := by
  induction first generalizing elements with
  | nil =>
      cases elements with
      | nil => exact holdsToo
      | cons element elements => exact absurd holds (by simp [Holds])
  | node tag children siblings _ ih =>
      cases elements with
      | nil => exact absurd holds (by simp [Holds])
      | cons element elements => exact ⟨holds.1, holds.2.1, ih holds.2.2⟩

theorem holds_singleton {tag : XmlTag} {children : XMLElement} {element : YangElement} :
    Holds (.node tag children .nil) [element] ↔
      KeepsTag tag element ∧ Holds children element.childElements := by
  simp [Holds]

end OpenMplane
