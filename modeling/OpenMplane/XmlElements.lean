import OpenMplane.Forest
import OpenMplane.StdString

/-!
# XML elements

What the configuration parser sees of a document that the XML library has read: for
every element its name, its attributes, its first child element and its next sibling
element.  The library refuses a name with characters that XML names do not have, so a
name here carries that condition.
-/

namespace OpenMplane

open ListCut

def isNameStartChar (letter : Char) : Bool :=
  128 ≤ letter.toNat || letter.isAlpha || letter = ':' || letter = '_'

def isNameChar (letter : Char) : Bool :=
  isNameStartChar letter || letter.isDigit || letter = '.' || letter = '-'

def isXmlName : List Char → Bool
  | [] => false
  | first :: rest => isNameStartChar first && rest.all isNameChar

/-- A name that the library lets through. -/
structure XmlName where
  text : String
  valid : isXmlName text.toList = true
  deriving DecidableEq

/-- The name and the attributes of an element. -/
structure XmlTag where
  name : XmlName
  attributes : List (String × String)
  deriving DecidableEq

/-- `tinyxml2::XMLElement*`: the null pointer, or an element with its first child
element and its next sibling element. -/
abbrev XMLElement := Forest XmlTag

/-- `Attribute`: null when the element has no such attribute. -/
def XmlTag.Attribute (tag : XmlTag) (name : String) : Option String :=
  tag.attributes.lookup name

theorem XmlName.isNameChar_of_mem (name : XmlName) {letter : Char}
    (member : letter ∈ name.text.toList) : isNameChar letter = true := by
  have valid := name.valid
  cases letters : name.text.toList with
  | nil => simp [letters] at member
  | cons first rest =>
      rw [letters] at valid member
      simp only [isXmlName, Bool.and_eq_true, List.all_eq_true] at valid
      rcases List.mem_cons.mp member with rfl | later
      · simp [isNameChar, valid.1]
      · exact valid.2 letter later

theorem XmlName.notMem_of_not_isNameChar (name : XmlName) {letter : Char}
    (foreign : isNameChar letter = false) : letter ∉ name.text.toList := by
  intro member
  rw [name.isNameChar_of_mem member] at foreign
  exact absurd foreign (by decide)

/-- No name begins with the delimiter between a type and a name. -/
theorem XmlName.nonempty_of_cut (name : XmlName) {before after : List Char}
    (cut : cutFirst '-' name.text.toList = some (before, after)) : before ≠ [] := by
  rintro rfl
  have valid := name.valid
  rw [(cutFirst_eq_some.mp cut).1, List.nil_append] at valid
  exact absurd valid (by simp [isXmlName, isNameStartChar])

end OpenMplane
