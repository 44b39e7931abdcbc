import OpenMplane.XmlElements
import OpenMplane.YangConfig

/-!
# The configuration parser

`YangConfigParser::parseConfig` walks through the elements of the document and adds an
element to the configuration for each of them.  The type and the name of an element
stand in the name of the XML element, with `-` between.  An `if_feature` element stands
for what is below it when the feature it names is enabled, and for nothing otherwise.

A run that follows a null pointer (an element without the child or the attribute that
the code reads, or of a type without a method) has no result.
-/

namespace OpenMplane

open ListCut Forest

/-- `mModuleFeatureMap`. -/
abbrev FeatureMap := StdMap (StdMap Bool)

namespace YangConfigParser

/-- What a method returns, beside the parent element with what it added. -/
abbrev Extracted := Option (Bool × YangElement)

/-- `_getElementType`: what it returns, and the type. -/
def getElementType (nodeName : String) : Bool × String :=
  match cutFirst '-' nodeName.toList with
  | none => (true, nodeName)
  | some ([], _) => (false, "")
  | some (type, _) => (true, String.ofList type)

/-- `findElementNoAttributes`: the name of an element of the type to find. -/
def findElementNoAttributes (node : XmlTag) (elementTypeToFind : String) : Option String :=
  match cutFirst '-' node.name.text.toList with
  | none => none
  | some (type, name) =>
      if type = elementTypeToFind.toList then some (String.ofList name) else none

/-- `findElementWithAttributes`: the name and the value; no result when the value is
missing. -/
def findElementWithAttributes (node : XmlTag) (elementTypeToFind : String) :
    Option (Option (String × String)) :=
  match findElementNoAttributes node elementTypeToFind with
  | none => some none
  | some name => (node.Attribute "value").map fun value => some (name, value)

namespace ExtractElements

/-- `getElementName`; the name stays empty when it returns false. -/
def getElementName (nodeName : String) : String :=
  match cutFirst '-' nodeName.toList with
  | none => nodeName
  | some ([], _) => ""
  | some (_, name) => String.ofList name

def isFeatureEnabled (featureMap : FeatureMap) (moduleName featureName : String) : Bool :=
  match featureMap[moduleName]? with
  | none => false
  | some features => (features[featureName]?).getD false

/-- The methods that add an element of a type and extract what is below it. -/
def extractBelow (type name : String) (below : YangElement → Extracted)
    (parentElement : YangElement) : Extracted :=
  (below (.makeElement type name "" "")).map fun (returnValue, element) =>
    (returnValue, parentElement.addChildElement element)

def extractSubContainer (node : XmlTag) := extractBelow "container" (getElementName node.name.text)
def extractList (node : XmlTag) := extractBelow "list" (getElementName node.name.text)
def extractChoice (node : XmlTag) := extractBelow "choice" (getElementName node.name.text)
def extractListLeaf (node : XmlTag) := extractBelow "listLeaf" (getElementName node.name.text)

/-- `extractListEntry`: the element gets no name. -/
def extractListEntry := extractBelow "listEntry" ""

/-- `extractCase`: there may be nothing below. -/
def extractCase (node : XmlTag) (firstChild : XMLElement) (below : YangElement → Extracted)
    (parentElement : YangElement) : Extracted :=
  match firstChild with
  | .nil => some (true, parentElement.addChildElement
      (.makeElement "case" (getElementName node.name.text) "" ""))
  | .node .. => extractBelow "case" (getElementName node.name.text) below parentElement

/-- `extractLeaf`: a value with its access, or else a reference. -/
def extractLeaf (node : XmlTag) (parentElement : YangElement) : Extracted :=
  match node.Attribute "value", node.Attribute "ref" with
  | some value, _ => some (true, parentElement.addChildElement
      (.makeElement "leaf" (getElementName node.name.text) value
        ((node.Attribute "access").getD "")))
  | none, some ref => some (true, parentElement.addChildElement
      (.makeElement "leaf" (getElementName node.name.text) ref ""))
  | none, none => some (true, parentElement)

/-- `extractEntry` and `extractFeature`: the value alone. -/
def extractValue (type : String) (node : XmlTag) (parentElement : YangElement) : Extracted :=
  (node.Attribute "value").map fun value => (true, parentElement.addChildElement
    (.makeElement type (getElementName node.name.text) value ""))

def extractEntry := extractValue "entry"
def extractFeature := extractValue "feature"

/-- The module and the feature that an `if_feature` element names: the unique number
behind the last `-` goes, and the first `.` stands between the two. -/
def ifFeatureNames (nodeName : String) : Option (String × String) :=
  let elementName := (getElementName nodeName).toList
  let elementName := match cutLast '-' elementName with
    | none => elementName
    | some ([], _) => elementName
    | some (name, _) => name
  (cutFirst '.' elementName).map fun cut => (String.ofList cut.1, String.ofList cut.2)

def extractIfFeature (featureMap : FeatureMap) (node : XmlTag)
    (below : YangElement → Extracted) (parentElement : YangElement) : Extracted :=
  match ifFeatureNames node.name.text with
  | none => some (true, parentElement)
  | some (moduleName, featureName) =>
      if isFeatureEnabled featureMap moduleName featureName then below parentElement
      else some (true, parentElement)

/-- `call`: the method of a type, where `below` is `extractCommon` at the first child; no
result when there is no method. -/
def call (featureMap : FeatureMap) (elementStr : String) (node : XmlTag)
    (firstChild : XMLElement) (below : YangElement → Extracted)
    (parentElement : YangElement) : Extracted :=
  if elementStr = "container" then extractSubContainer node below parentElement
  else if elementStr = "list" then extractList node below parentElement
  else if elementStr = "choice" then extractChoice node below parentElement
  else if elementStr = "listEntry" then extractListEntry below parentElement
  else if elementStr = "leaf" then extractLeaf node parentElement
  else if elementStr = "listLeaf" then extractListLeaf node below parentElement
  else if elementStr = "entry" then extractEntry node parentElement
  else if elementStr = "case" then extractCase node firstChild below parentElement
  else if elementStr = "feature" then extractFeature node parentElement
  else if elementStr = "if_feature" then extractIfFeature featureMap node below parentElement
  else none

/-- `extractCommon`: the method of each sibling in turn.  The loop reads the first
element before it asks whether there is one. -/
def extractCommon (featureMap : FeatureMap) : XMLElement → YangElement → Extracted
  | .nil => fun _ => none
  | .node tag firstChild nextSibling => fun parentElement =>
      (call featureMap (getElementType tag.name.text).2 tag firstChild
          (extractCommon featureMap firstChild) parentElement).bind fun result =>
        match nextSibling with
        | .nil => some result
        | .node .. => extractCommon featureMap nextSibling result.2

end ExtractElements

open ExtractElements

/-- `callExtractMethod`: the module is the parent element. -/
def callExtractMethod (featureMap : FeatureMap) (node : XmlTag) (firstChild : XMLElement)
    (moduleElement : YangElement) : Extracted :=
  if node.name.text = "file-version" then
    (node.Attribute "value").map fun fileVersion =>
      (true, moduleElement.setVersion fileVersion)
  else
    let (returnValue, elementType) := getElementType node.name.text
    (call featureMap elementType node firstChild (extractCommon featureMap firstChild)
      moduleElement).map fun (_, moduleElement) => (returnValue, moduleElement)

def findElementAndExtract (featureMap : FeatureMap) : XMLElement → YangElement → Extracted
  | .nil, _ => none
  | .node tag firstChild nextSibling, moduleElement =>
      (callExtractMethod featureMap tag firstChild moduleElement).bind fun result =>
        match nextSibling with
        | .nil => some result
        | .node .. => findElementAndExtract featureMap nextSibling result.2

/-- The body of the loop of `extractModule`. -/
def extractModuleElement (featureMap : FeatureMap) (returnValue : Bool) (node : XmlTag)
    (firstChild : XMLElement) (parentElement : YangElement) : Extracted :=
  match findElementNoAttributes node "module", firstChild with
  | none, _ => some (returnValue, parentElement)
  | some moduleName, .nil =>
      some (returnValue, parentElement.addChildElement (.makeElement "module" moduleName "" ""))
  | some moduleName, .node .. =>
      (findElementAndExtract featureMap firstChild (.makeElement "module" moduleName "" "")).map
        fun (returnValue, module) => (returnValue, parentElement.addChildElement module)

/-- `extractModule`: its loop, with what `returnValue` holds. -/
def extractModule (featureMap : FeatureMap) :
    Bool → XMLElement → YangElement → Extracted
  | _, .nil, _ => none
  | returnValue, .node tag firstChild nextSibling, parentElement =>
      (extractModuleElement featureMap returnValue tag firstChild parentElement).bind
        fun result =>
          match nextSibling with
          | .nil => some result
          | .node .. => extractModule featureMap result.1 nextSibling result.2

/-- `mModuleFeatureMap[moduleName][elementName] = enabled`. -/
def setFeature (featureMap : FeatureMap) (moduleName elementName : String) (enabled : Bool) :
    FeatureMap :=
  featureMap.insert moduleName
    (((featureMap[moduleName]?).getD ∅).insert elementName enabled)

/-- The inner loop of `extractAllFeatures`, over the children of a module. -/
def extractFeatures (moduleName : String) : XMLElement → FeatureMap → Option FeatureMap
  | .nil, featureMap => some featureMap
  | .node tag _ nextSibling, featureMap =>
      if (getElementType tag.name.text).2 = "feature" then
        match findElementWithAttributes tag "feature" with
        | none => none
        | some none => extractFeatures moduleName nextSibling featureMap
        | some (some (elementName, elementAttrValue)) =>
            extractFeatures moduleName nextSibling
              (setFeature featureMap moduleName elementName (elementAttrValue = "true"))
      else extractFeatures moduleName nextSibling featureMap

/-- The body of the outer loop of `extractAllFeatures`. -/
def extractModuleFeatures (node : XmlTag) (firstChild : XMLElement) (featureMap : FeatureMap) :
    Option FeatureMap :=
  match findElementNoAttributes node "module" with
  | none => some featureMap
  | some moduleName => extractFeatures moduleName firstChild featureMap

def extractAllFeatures : XMLElement → FeatureMap → Option FeatureMap
  | .nil, _ => none
  | .node tag firstChild nextSibling, featureMap =>
      (extractModuleFeatures tag firstChild featureMap).bind fun featureMap =>
        match nextSibling with
        | .nil => some featureMap
        | .node .. => extractAllFeatures nextSibling featureMap

/-- An attribute of the general information, empty when it is missing. -/
def attributeText (node : XmlTag) (name : String) : String :=
  (node.Attribute name).getD ""

/-- The two elements of the general information. -/
def extractGeneral (config : YangConfig) : XMLElement → Option YangConfig
  | .node oranInfo _ (.node productInfo _ _) => some { config with
      mOranVersion := attributeText oranInfo "oranVersion"
      mProductName := attributeText oranInfo "product"
      mVarientName := attributeText oranInfo "variant"
      mFormatVersion := attributeText productInfo "formatVersion"
      mCompanyName := attributeText productInfo "company" }
  | _ => none

/-- What `parseConfig` takes from the elements before the modules. -/
def extractHeader (config : YangConfig) (general : XmlTag) (generalNode : XMLElement)
    (version : XmlTag) : Option YangConfig :=
  (if general.name.text = "General" then extractGeneral config generalNode
    else some config).bind fun config =>
  if version.name.text = "yang-version" then
    (version.Attribute "value").map fun yangVersion => { config with mYangVersion := yangVersion }
  else some config

/-- `parseConfig` of a parser with the features of earlier files. -/
def parseFrom (featureMap : FeatureMap) (config : YangConfig) :
    XMLElement → Option (Bool × FeatureMap × YangConfig)
  | .node root (.node general generalNode (.node version _ modules)) _ =>
      if root.name.text = "root" then
        (extractHeader config general generalNode version).bind fun config =>
        (extractAllFeatures modules featureMap).bind fun featureMap =>
        (extractModule featureMap true modules config.mConfig).map fun (returnValue, file) =>
          (returnValue, featureMap, { config with mConfig := file })
      else some (false, featureMap, config)
  | .node root _ _ =>
      if root.name.text = "root" then none else some (false, featureMap, config)
  | .nil => none

/-- `parseConfig` of a new parser, which has no features yet. -/
def parseConfig (config : YangConfig) (root : XMLElement) : Option (Bool × YangConfig) :=
  (parseFrom ∅ config root).map fun result => (result.1, result.2.2)

end YangConfigParser

end OpenMplane
