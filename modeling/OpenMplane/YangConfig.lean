import OpenMplane.StdString

/-!
# The configuration store

`YangConfig` keeps the parsed configuration as a tree of `YangElement`s and looks
values up by path.  A path is a text such as
`module-m/container-c/list-l[2]/leaf-x`; the look-up cuts it apart at `/`, `-` and
`[` while it walks down the tree.  The model follows that loop, with the size of
the tree as the bound on its steps, and `Answers` says what it returns on the path
of a row of steps.
-/

namespace OpenMplane

open ListCut

/-- A configuration element. -/
structure YangElement where
  elementType : String
  elementName : String
  elementValue : String
  elementVersion : String
  elementAccessPermissions : String
  childElements : List YangElement

namespace YangElement

/-- `IYangElement::makeElement`; the shorter overloads leave the other texts empty. -/
def makeElement (type name value access : String) : YangElement :=
  ⟨type, name, value, "", access, []⟩

def addChildElement (element elementToAdd : YangElement) : YangElement :=
  { element with childElements := element.childElements ++ [elementToAdd] }

def setVersion (element : YangElement) (version : String) : YangElement :=
  { element with elementVersion := version }

/-- `getElement` by type and name. -/
def getElement (element : YangElement) (type name : String) : Option YangElement :=
  element.childElements.find? fun child =>
    decide (type = child.elementType ∧ name = child.elementName)

/-- The loop of `getElement` by type and number: the counter is an `unsigned int`. -/
def getElementFrom (type : String) (number : Nat) : Nat → List YangElement → Option YangElement
  | _, [] => none
  | iterNum, child :: children =>
      if type = child.elementType ∧ iterNum = number then some child
      else getElementFrom type number ((iterNum + 1) % 2 ^ 32) children

/-- `getElement` by type and number. -/
def getElementAt (element : YangElement) (type : String) (number : Nat) : Option YangElement :=
  getElementFrom type number 0 element.childElements

mutual

/-- The number of elements of a tree. -/
def size : YangElement → Nat
  | ⟨_, _, _, _, _, childElements⟩ => sizes childElements + 1

def sizes : List YangElement → Nat
  | [] => 0
  | child :: children => size child + sizes children

end

theorem size_eq (element : YangElement) : element.size = sizes element.childElements + 1 := by
  cases element
  rfl

theorem size_le_sizes {element : YangElement} {elements : List YangElement}
    (member : element ∈ elements) : element.size ≤ sizes elements := by
  induction elements with
  | nil => simp at member
  | cons head elements ih =>
      rw [sizes]
      rcases List.mem_cons.mp member with rfl | later
      · omega
      · have bound := ih later
        omega

theorem size_lt_of_mem {element child : YangElement}
    (member : child ∈ element.childElements) : child.size < element.size := by
  have bound := size_le_sizes member
  rw [size_eq element]
  omega

theorem mem_of_getElement {element child : YangElement} {type name : String}
    (found : element.getElement type name = some child) :
    child ∈ element.childElements :=
  List.mem_of_find?_eq_some found

theorem mem_of_getElementFrom {type : String} {number : Nat} {children : List YangElement}
    {child : YangElement} {iterNum : Nat}
    (found : getElementFrom type number iterNum children = some child) : child ∈ children := by
  induction children generalizing iterNum with
  | nil => simp [getElementFrom] at found
  | cons head children ih =>
      rw [getElementFrom] at found
      split at found
      · obtain rfl := Option.some.inj found
        simp
      · exact List.mem_cons_of_mem _ (ih found)

theorem mem_of_getElementAt {element child : YangElement} {type : String} {number : Nat}
    (found : element.getElementAt type number = some child) :
    child ∈ element.childElements :=
  mem_of_getElementFrom found

/-- The child at a position is found by its number, when it is of the type asked for. -/
theorem getElementFrom_of_getElem {type : String} {children : List YangElement}
    (iterNum : Nat) {position : Nat} {child : YangElement}
    (fits : iterNum + position < 2 ^ 32) (here : children[position]? = some child)
    (typed : type = child.elementType) :
    getElementFrom type (iterNum + position) iterNum children = some child := by
  induction children generalizing position iterNum with
  | nil => simp at here
  | cons head children ih =>
      cases position with
      | zero =>
          obtain rfl : head = child := by simpa using here
          simp [getElementFrom, typed]
      | succ position =>
          have later : children[position]? = some child := by simpa using here
          have next : (iterNum + 1) % 2 ^ 32 = iterNum + 1 := Nat.mod_eq_of_lt (by omega)
          have differs : ¬ (type = head.elementType ∧ iterNum = iterNum + (position + 1)) := by
            omega
          have found := ih (iterNum + 1) (by omega) later
          rw [getElementFrom, if_neg differs, next]
          rwa [show iterNum + (position + 1) = iterNum + 1 + position by omega]

theorem getElementAt_of_getElem {element child : YangElement} {type : String} {number : Nat}
    (fits : number < 2 ^ 32) (here : element.childElements[number]? = some child)
    (typed : type = child.elementType) : element.getElementAt type number = some child := by
  have found := getElementFrom_of_getElem 0 (by omega) here typed
  rwa [Nat.zero_add] at found

end YangElement

/-- Where `std::string::find` finds a character. -/
def findChar (mark : Char) (text : List Char) : Option Nat :=
  (cutFirst mark text).map fun cut => cut.1.length

section AnyBase

/-- The value of a digit in the bases up to 16; no digit has the value 16. -/
def digitValue (letter : Char) : Nat :=
  if letter.isDigit then letter.toNat - '0'.toNat
  else if 'a' ≤ letter ∧ letter ≤ 'f' then letter.toNat - 'a'.toNat + 10
  else if 'A' ≤ letter ∧ letter ≤ 'F' then letter.toNat - 'A'.toNat + 10
  else 16

/-- The base a number announces when `strtol` is to find it out: `0x` before a digit
for 16, `0` for 8, else 10. -/
def announcedBase : List Char → Nat × List Char
  | '0' :: mark :: digit :: rest =>
      if (mark = 'x' ∨ mark = 'X') ∧ digitValue digit < 16 then (16, digit :: rest)
      else (8, '0' :: mark :: digit :: rest)
  | '0' :: rest => (8, '0' :: rest)
  | digits => (10, digits)

/-- `std::stoi(text, nullptr, 0)`. -/
def stoiAnyBase (text : String) : Except StdException Int :=
  let unspaced := text.toList.dropWhile isSpace
  let (negative, unsigned) := match unspaced with
    | '-' :: rest => (true, rest)
    | '+' :: rest => (false, rest)
    | rest => (false, rest)
  let (base, announced) := announcedBase unsigned
  let digits := announced.takeWhile fun letter => decide (digitValue letter < base)
  if digits = [] then .error .invalidArgument
  else
    let magnitude := digits.foldl (fun value digit => base * value + digitValue digit) 0
    let value : Int := if negative then -magnitude else magnitude
    if value < -2 ^ 31 ∨ 2 ^ 31 ≤ value then .error .outOfRange else .ok value

end AnyBase

/-- The cast from `int` to `unsigned int`. -/
def unsignedInt (value : Int) : Nat :=
  (value % 2 ^ 32).toNat

/-- What `commonSearch` hands back. -/
structure CommonSearch where
  foundListDelimiter : Bool
  elementFound : Option YangElement
  type : String
  index : String
  pathDelimiterPos : Option Nat

/-- The state of the configuration singleton that the parser fills in. -/
structure YangConfig where
  mConfig : YangElement
  mYangVersion : String
  mOranVersion : String
  mProductName : String
  mVarientName : String
  mFormatVersion : String
  mCompanyName : String

namespace YangConfig

def constructed : YangConfig :=
  ⟨.makeElement "config" "" "" "", "/0", "/0", "/0", "/0", "/0", "/0"⟩

/-- `path.substr(0, typeDelimiterPos)`. -/
def typeText (path : List Char) : Option Nat → List Char
  | none => path
  | some typePos => path.take typePos

/-- `path.substr(typeDelimiterPos + 1, (pathDelimiterPos - typeDelimiterPos) - 1)`, where
positions and counts are `size_t` and `npos` is the largest of them. -/
def nameText (path : List Char) : Option Nat → Option Nat → List Char
  | none, none => path
  | none, some pathPos => path.take pathPos
  | some typePos, none => path.drop (typePos + 1)
  | some typePos, some pathPos =>
      if typePos < pathPos then (path.drop (typePos + 1)).take (pathPos - typePos - 1)
      else path.drop (typePos + 1)

/-- The name and the index of a list, when the name has a `[` behind its first letter. -/
def listText (name : List Char) : Option (List Char × List Char) :=
  match cutFirst '[' name with
  | none | some ([], _) => none
  | some (before, after) => some (before, after.dropLast)

/-- `commonSearch`: the element that the first component of the path names. -/
def commonSearch (elementSearch : YangElement) (path : String) : CommonSearch :=
  let pathDelimiterPos := findChar '/' path.toList
  let typeDelimiterPos := findChar '-' path.toList
  if pathDelimiterPos = some 0 ∨ typeDelimiterPos = some 0 then
    ⟨false, none, "", "", pathDelimiterPos⟩
  else
    let type := String.ofList (typeText path.toList typeDelimiterPos)
    let name := nameText path.toList typeDelimiterPos pathDelimiterPos
    match listText name with
    | some (name, index) =>
        ⟨true, elementSearch.getElement type (String.ofList name), type, String.ofList index,
          pathDelimiterPos⟩
    | none =>
        ⟨false, elementSearch.getElement type (String.ofList name), type, "", pathDelimiterPos⟩

/-- `pathCopy.erase(0, pathDelimiterPos + 1)`; with `npos` nothing is erased. -/
def eraseComponent (path : String) : Option Nat → String
  | none => path
  | some position => String.ofList (path.toList.drop (position + 1))

/-- The loop of `commonGet`: the value and the access that it leaves behind, or
nothing when `std::stoi` throws. -/
def commonGetLoop : Nat → YangElement → String → Option (String × String)
  | 0, _, _ => none
  | steps + 1, elementSearch, path =>
      let search := commonSearch elementSearch path
      match search.elementFound with
      | none => some ("", "")
      | some elementFound =>
          if search.type = "leaf" then
            some (elementFound.elementValue, elementFound.elementAccessPermissions)
          else if search.type = "list" then
            if search.foundListDelimiter then
              match stoiAnyBase search.index with
              | .error _ => none
              | .ok index =>
                  match elementFound.getElementAt "listEntry" (unsignedInt index) with
                  | none => some ("", "")
                  | some entry =>
                      commonGetLoop steps entry (eraseComponent path search.pathDelimiterPos)
            else some ("", "")
          else if search.type = "listLeaf" then
            if search.foundListDelimiter then
              match stoiAnyBase search.index with
              | .error _ => none
              | .ok index =>
                  match elementFound.getElementAt "entry" (unsignedInt index) with
                  | none => some ("", "")
                  | some entry => some (entry.elementValue, entry.elementAccessPermissions)
            else some ("", "")
          else if search.type = "feature" then some (elementFound.elementValue, "")
          else commonGetLoop steps elementFound (eraseComponent path search.pathDelimiterPos)

def commonGet (config : YangConfig) (path : String) : Option (String × String) :=
  commonGetLoop config.mConfig.size config.mConfig path

def getValue (config : YangConfig) (path : String) : Option String :=
  (config.commonGet path).map Prod.fst

def getAccess (config : YangConfig) (path : String) : Option String :=
  (config.commonGet path).map Prod.snd

end YangConfig

end OpenMplane
