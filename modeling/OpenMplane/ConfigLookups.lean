import OpenMplane.ConfigExtraction
import OpenMplane.ConfigPaths

/-!
# Looking up what a document says

For every leaf, list-leaf entry and feature of a configuration document there is a path
built from its ancestors.  `answered_iff` says exactly when the parsed configuration
returns the value and the access of each of them on that path and has no other elements:
the parser knows the features that stand directly below their module, it keeps the
access of leaves with a value only, and the look-up takes positions that are an `int`.
-/

namespace OpenMplane

open ListCut Forest YangConfigParser ExtractElements ConfigStep

/-- An element with a value, and the steps that lead to it. -/
structure Place where
  steps : List ConfigStep
  tag : XmlTag
  deriving DecidableEq

namespace Place

def below (step : ConfigStep) (place : Place) : Place :=
  ⟨step :: place.steps, place.tag⟩

def path (place : Place) : String :=
  ConfigStep.path place.steps

def InRange (place : Place) : Prop :=
  ∀ step ∈ place.steps, step.InRange

instance (place : Place) : Decidable place.InRange :=
  inferInstanceAs (Decidable (∀ step ∈ place.steps, step.InRange))

/-- What the look-up returns: nothing when a position is no `int`, and the access of a
leaf with a value only. -/
def answer (place : Place) : Option (String × String) :=
  if place.InRange then
    some (place.tag.documentValue,
      if place.tag.keepsAccess then place.tag.documentAccess else "")
  else none

end Place

/-- What a row of siblings stands in. -/
inductive Around
  | data
  | listEntries (name : String) (position : Nat)
  | leafEntries (name : String) (position : Nat)

def Around.level : Around → Level
  | data => .data
  | listEntries _ _ => .listEntries
  | leafEntries _ _ => .leafEntries

/-- The leaves, list-leaf entries and features of a flattened document, each with the
steps from its ancestors. -/
def places : Around → XMLElement → List Place
  | _, .nil => []
  | .data, .node tag children siblings =>
      (if tag.elementType = "leaf" ∨ tag.elementType = "feature" then
        [⟨[.named tag.elementType tag.elementName], tag⟩]
      else if tag.elementType = "list" then places (.listEntries tag.elementName 0) children
      else if tag.elementType = "listLeaf" then places (.leafEntries tag.elementName 0) children
      else (places .data children).map (.below (.named tag.elementType tag.elementName))) ++
        places .data siblings
  | .listEntries name position, .node _ children siblings =>
      (places .data children).map (.below (.indexed "list" name position)) ++
        places (.listEntries name (position + 1)) siblings
  | .leafEntries name position, .node tag _ siblings =>
      ⟨[.indexed "listLeaf" name position], tag⟩ ::
        places (.leafEntries name (position + 1)) siblings

/-- The grammar of a flattened document, modules included. -/
def flatLevel (level : Level) (tag : XmlTag) : Option Level :=
  if level = .data ∧ tag.isNamed = true ∧ tag.elementType = "module" then some .data
  else elementLevel level tag

section Flattened

variable {enabled : Features}

theorem fits_of_moduleBody {document : XMLElement} (body : ModuleBody document) :
    (document.splice (choose enabled)).Fits flatLevel .data := by
  induction document with
  | nil => trivial
  | node tag children siblings _ ih =>
      rw [splice_node]
      refine fits_append.mpr ⟨?_, ih body.2⟩
      rcases body.1 with version | fits
      · have chosen : choose enabled tag = .drop := by simp [choose, version]
        simp only [splice, chosen]
        trivial
      · refine Fits.splice ?_ ?_ fits
        · intro level tag inner allowed chosen
          rcases documentLevel_cases allowed with ⟨block, -⟩ | ⟨-, allowed⟩
          · exfalso
            unfold choose at chosen
            split_ifs at chosen with version ifFeature
            exact ifFeature (by simp [XmlTag.isIfFeature, block])
          · unfold flatLevel
            split_ifs with isModule
            · obtain ⟨rfl, named, typed⟩ := isModule
              simp [elementLevel, dataLevel, named, typed] at allowed
            · exact allowed
        · intro level tag inner allowed chosen
          rcases documentLevel_cases allowed with ⟨-, same, -⟩ | ⟨notBlock, allowed⟩
          · exact same
          · exfalso
            unfold choose at chosen
            split_ifs at chosen with version ifFeature
            exact notBlock (by simpa [XmlTag.isIfFeature] using ifFeature)

theorem fits_flattened {narrow : Features} {modules : XMLElement}
    (formed : EachModule (ModuleFormed narrow) modules) :
    (flattened enabled modules).Fits flatLevel .data := by
  induction modules with
  | nil => trivial
  | node tag children siblings _ ih =>
      by_cases isModule : tag.isModule = true
      · obtain ⟨_, -, typed, -⟩ := isModule_cases isModule
        have conditions := formed.1 isModule
        simp only [flattened, isModule, ↓reduceIte]
        refine ⟨⟨.data, ?_, fits_of_moduleBody conditions.body⟩, ih formed.2⟩
        rw [flatLevel, if_pos ⟨rfl, conditions.named, typed⟩]
      · simp only [flattened, isModule, Bool.false_eq_true, ↓reduceIte]
        exact ih formed.2

end Flattened

/-- A name that stays in one piece on a path. -/
structure PlainName (name : String) : Prop where
  nonempty : name.toList ≠ []
  slash : '/' ∉ name.toList
  bracket : '[' ∉ name.toList

theorem XmlTag.parts_of_isNamed {tag : XmlTag} (named : tag.isNamed = true) :
    tag.name.text.toList = tag.elementType.toList ++ '-' :: tag.elementName.toList ∧
      tag.elementType.toList ≠ [] ∧ '-' ∉ tag.elementType.toList ∧
      tag.elementName.toList ≠ [] := by
  unfold isNamed at named
  unfold elementType elementName getElementType getElementName
  cases cut : cutFirst '-' tag.name.text.toList with
  | none => simp [cut] at named
  | some parts =>
      obtain ⟨type, name⟩ := parts
      cases type with
      | nil => exact absurd rfl (tag.name.nonempty_of_cut cut)
      | cons first rest =>
          obtain ⟨whole, absent⟩ := cutFirst_eq_some.mp cut
          simp only [cut, decide_eq_true_eq] at named
          simp only [String.toList_ofList]
          exact ⟨whole, by simp, absent, named⟩

theorem XmlTag.plainName {tag : XmlTag} (named : tag.isNamed = true) :
    PlainName tag.elementName := by
  obtain ⟨whole, -, -, nonempty⟩ := parts_of_isNamed named
  have subset {letter : Char} (member : letter ∈ tag.elementName.toList) :
      letter ∈ tag.name.text.toList := by
    rw [whole]
    simp [member]
  exact ⟨nonempty, fun member => tag.name.notMem_of_not_isNameChar (by decide) (subset member),
    fun member => tag.name.notMem_of_not_isNameChar (by decide) (subset member)⟩

theorem XmlTag.plain_named {tag : XmlTag} (named : tag.isNamed = true) :
    (ConfigStep.named tag.elementType tag.elementName).Plain := by
  obtain ⟨whole, nonempty, dash, -⟩ := parts_of_isNamed named
  have name := plainName named
  refine ⟨nonempty, dash, fun member => ?_, name.nonempty, name.slash, name.bracket⟩
  have member' : '/' ∈ tag.name.text.toList := by
    rw [whole]
    exact List.mem_append_left _ member
  exact tag.name.notMem_of_not_isNameChar (by decide) member'

theorem PlainName.plain_list {name : String} (plain : PlainName name) (position : Nat) :
    (ConfigStep.indexed "list" name position).Plain :=
  ⟨by simp [ConfigStep.type], by simp [ConfigStep.type], by simp [ConfigStep.type],
    plain.nonempty, plain.slash, plain.bracket⟩

theorem PlainName.plain_listLeaf {name : String} (plain : PlainName name) (position : Nat) :
    (ConfigStep.indexed "listLeaf" name position).Plain :=
  ⟨by simp [ConfigStep.type], by simp [ConfigStep.type], by simp [ConfigStep.type],
    plain.nonempty, plain.slash, plain.bracket⟩

theorem flatLevel_cases {tag : XmlTag} {inner : Level}
    (allowed : flatLevel .data tag = some inner) :
    tag.isNamed = true ∧
      ((tag.elementType ∈ ["module", "container", "choice", "case"] ∧ inner = .data) ∨
        (tag.elementType = "list" ∧ inner = .listEntries) ∨
        (tag.elementType = "listLeaf" ∧ inner = .leafEntries) ∨
        (tag.elementType = "leaf" ∧ inner = .nothing) ∨
        (tag.elementType = "feature" ∧ inner = .nothing)) := by
  unfold flatLevel at allowed
  split_ifs at allowed with isModule
  · obtain ⟨-, named, typed⟩ := isModule
    simp [named, typed, Option.some.inj allowed]
  · rcases elementLevel_cases allowed with ⟨-, named, types⟩ | ⟨entries, -⟩ | ⟨entries, -⟩
    · refine ⟨named, ?_⟩
      rcases types with ⟨typed, rfl⟩ | ⟨typed, rfl⟩ | ⟨typed, rfl⟩ | ⟨typed, rfl⟩ | ⟨typed, rfl⟩ |
        ⟨typed, rfl⟩ | ⟨typed, rfl⟩ <;> simp [typed]
    · exact absurd entries (by decide)
    · exact absurd entries (by decide)

section Answers

/-- The parent has the document below it, in what surrounds it. -/
def Agrees (parent : YangElement) : Around → XMLElement → Prop
  | .data, document => ∃ elements, Holds document elements ∧
      ∀ label ∈ document.siblingKeys XmlTag.label, parent.getElement label.1 label.2 =
        elements.find? fun element =>
          decide (label.1 = element.elementType ∧ label.2 = element.elementName)
  | .listEntries name position, document => PlainName name ∧
      ∃ found, parent.getElement "list" name = some found ∧
        Holds document (found.childElements.drop position)
  | .leafEntries name position, document => PlainName name ∧
      ∃ found, parent.getElement "listLeaf" name = some found ∧
        Holds document (found.childElements.drop position)

theorem exists_of_holds_node {tag : XmlTag} {children siblings : XMLElement}
    {elements : List YangElement} (holds : Holds (.node tag children siblings) elements) :
    ∃ element rest, elements = element :: rest ∧ KeepsTag tag element ∧
      Holds children element.childElements ∧ Holds siblings rest := by
  cases elements with
  | nil => exact absurd holds (by simp [Holds])
  | cons element rest => exact ⟨element, rest, rfl, holds⟩

theorem agrees_below {children : XMLElement} {element : YangElement}
    (holds : Holds children element.childElements) : Agrees element .data children :=
  ⟨element.childElements, holds, fun _ _ => rfl⟩

variable {tag : XmlTag} {children siblings : XMLElement} {parent : YangElement}

/-- Among the data the first element is found by its label, and the others are found as
without it. -/
theorem agrees_data (fits : (Forest.node tag children siblings).Fits flatLevel .data)
    (distinct : (Forest.node tag children siblings).Distinct XmlTag.label XmlTag.IsEntry)
    (agrees : Agrees parent .data (.node tag children siblings)) :
    tag.isNamed = true ∧
      (∃ element, parent.getElement tag.elementType tag.elementName = some element ∧
        KeepsTag tag element ∧ Holds children element.childElements) ∧
      Agrees parent .data siblings := by
  obtain ⟨⟨inner, allowed, -⟩, -⟩ := fits
  obtain ⟨named, types⟩ := flatLevel_cases allowed
  obtain ⟨elements, holds, finds⟩ := agrees
  obtain ⟨element, rest, rfl, keeps, below, behind⟩ := exists_of_holds_node holds
  have notEntry : ¬ tag.IsEntry := by
    rintro (entry | entry) <;> simp [entry] at types
  have sameName := keeps.name fun entry => notEntry (Or.inl entry)
  have absent := distinct.1.resolve_left notEntry
  refine ⟨named, ⟨element, ?_, keeps, below⟩, rest, behind, fun label member => ?_⟩
  · have found := finds tag.label (by simp [siblingKeys])
    rw [List.find?_cons_of_pos (by simp [XmlTag.label, keeps.type, sameName])] at found
    exact found
  · have found := finds label (List.mem_cons_of_mem _ member)
    have differs : ¬ (label.1 = element.elementType ∧ label.2 = element.elementName) := by
      rw [keeps.type, sameName]
      rintro ⟨sameType, sameLabel⟩
      have same : label = tag.label := Prod.ext sameType sameLabel
      exact absent (same ▸ member)
    rw [List.find?_cons_of_neg (by simpa using differs)] at found
    exact found

theorem exists_entry {entries : List YangElement} {position : Nat}
    (holds : Holds (.node tag children siblings) (entries.drop position)) :
    ∃ entry, entries[position]? = some entry ∧ KeepsTag tag entry ∧
      Holds children entry.childElements ∧ Holds siblings (entries.drop (position + 1)) := by
  obtain ⟨entry, rest, split, keeps, below, behind⟩ := exists_of_holds_node holds
  refine ⟨entry, ?_, keeps, below, ?_⟩
  · have first := congrArg List.head? split
    simpa [List.head?_drop] using first
  · have tail := congrArg List.tail split
    rw [List.tail_drop] at tail
    rwa [tail]

theorem steps_ne_nil {around : Around} {document : XMLElement} {place : Place}
    (member : place ∈ places around document) : place.steps ≠ [] := by
  induction document generalizing around place with
  | nil => simp [places] at member
  | node tag children siblings ihChildren ihSiblings =>
      cases around with
      | data =>
          rcases List.mem_append.mp member with here | behind
          · split_ifs at here
            · obtain rfl := List.mem_singleton.mp here
              simp
            · exact ihChildren here
            · exact ihChildren here
            · obtain ⟨inner, -, rfl⟩ := List.mem_map.mp here
              simp [Place.below]
          · exact ihSiblings behind
      | listEntries name position =>
          rcases List.mem_append.mp member with here | behind
          · obtain ⟨inner, -, rfl⟩ := List.mem_map.mp here
            simp [Place.below]
          · exact ihSiblings behind
      | leafEntries name position =>
          rcases List.mem_cons.mp member with rfl | behind
          · simp
          · exact ihSiblings behind

theorem answer_below_of_inRange {step : ConfigStep} {place : Place} (near : step.InRange) :
    (place.below step).answer = place.answer := by
  have iff : (place.below step).InRange ↔ place.InRange := by
    simp [Place.InRange, Place.below, near]
  simp only [Place.answer, iff]
  rfl

theorem answer_eq_none {place : Place} (far : ¬ place.InRange) : place.answer = none := by
  rw [Place.answer, if_neg far]

theorem answer_eq_none_of_mem {place : Place} {step : ConfigStep} (member : step ∈ place.steps)
    (far : ¬ step.InRange) : place.answer = none :=
  answer_eq_none fun inRange => far (inRange step member)

theorem answer_leafEntry {name : String} {position : Nat} {tag : XmlTag} (near : position < 2 ^ 31) :
    (Place.mk [.indexed "listLeaf" name position] tag).answer =
      some (tag.documentValue, if tag.keepsAccess then tag.documentAccess else "") :=
  if_pos fun step member => by
    obtain rfl := List.mem_singleton.mp member
    exact near

/-- The look-up returns on the path of every place what was kept of the element there. -/
theorem answers_places {document : XMLElement} (around : Around)
    (fits : document.Fits flatLevel around.level)
    (distinct : document.Distinct XmlTag.label XmlTag.IsEntry)
    (agrees : Agrees parent around document) :
    ∀ place ∈ places around document, Answers parent place.steps place.answer := by
  induction document generalizing around parent with
  | nil =>
      intro place member
      simp [places] at member
  | node tag children siblings ihChildren ihSiblings =>
      intro place member
      have fitsBehind := fits.2
      cases around with
      | data =>
          obtain ⟨named, ⟨element, found, keeps, below⟩, agreesBehind⟩ :=
            agrees_data fits distinct agrees
          obtain ⟨⟨inner, allowed, fitsBelow⟩, -⟩ := fits
          obtain ⟨-, types⟩ := flatLevel_cases allowed
          rcases List.mem_append.mp member with here | behind
          · rcases types with ⟨typed, rfl⟩ | ⟨typed, rfl⟩ | ⟨typed, rfl⟩ | ⟨typed, rfl⟩ | ⟨typed, rfl⟩
            · have inner : tag.elementType ∉ endingTypes ∧ tag.elementType ≠ "leaf" ∧
                  tag.elementType ≠ "feature" ∧ tag.elementType ≠ "list" ∧
                  tag.elementType ≠ "listLeaf" := by
                simp only [List.mem_cons, List.not_mem_nil, or_false] at typed
                rcases typed with typed | typed | typed | typed <;> simp [typed, endingTypes]
              simp only [inner, or_self, ↓reduceIte] at here
              obtain ⟨deeper, memberBelow, rfl⟩ := List.mem_map.mp here
              have answers := ihChildren .data fitsBelow distinct.2.1
                (agrees_below below) deeper memberBelow
              have near : (ConfigStep.named tag.elementType tag.elementName).InRange := trivial
              rw [answer_below_of_inRange near]
              exact answers.below (XmlTag.plain_named named) inner.1 found
                (steps_ne_nil memberBelow)
            · simp only [typed, String.reduceEq, or_self, ↓reduceIte] at here
              rw [typed] at found
              exact ihChildren (.listEntries tag.elementName 0) fitsBelow distinct.2.1
                ⟨XmlTag.plainName named, element, found, below⟩ place here
            · simp only [typed, String.reduceEq, or_self, ↓reduceIte] at here
              rw [typed] at found
              exact ihChildren (.leafEntries tag.elementName 0) fitsBelow distinct.2.1
                ⟨XmlTag.plainName named, element, found, below⟩ place here
            · simp only [typed, true_or, ↓reduceIte, List.mem_singleton] at here
              obtain rfl := here
              rw [typed] at found
              have plain := XmlTag.plain_named named
              rw [typed] at plain
              have answers := answers_leaf plain found
              rw [keeps.value (by simp [typed]), keeps.access] at answers
              simpa [Place.answer, Place.InRange, ConfigStep.InRange] using answers
            · simp only [typed, or_true, ↓reduceIte, List.mem_singleton] at here
              obtain rfl := here
              rw [typed] at found
              have plain := XmlTag.plain_named named
              rw [typed] at plain
              have answers := answers_feature plain found
              rw [keeps.value (by simp [typed])] at answers
              simpa [Place.answer, Place.InRange, ConfigStep.InRange, XmlTag.keepsAccess,
                typed] using answers
          · exact ihSiblings .data fitsBehind distinct.2.2 agreesBehind place behind
      | listEntries name position =>
          obtain ⟨plain, list, found, holds⟩ := agrees
          obtain ⟨entry, here, keeps, below, holdsBehind⟩ := exists_entry holds
          obtain ⟨⟨inner, allowed, fitsBelow⟩, -⟩ := fits
          obtain ⟨typed, rfl⟩ : tag.elementType = "listEntry" ∧ inner = .data := by
            simp only [flatLevel, Around.level, reduceCtorEq, false_and, ↓reduceIte,
              elementLevel] at allowed
            split_ifs at allowed with typed
            exact ⟨typed, (Option.some.inj allowed).symm⟩
          rcases List.mem_append.mp member with first | behind
          · obtain ⟨deeper, memberBelow, rfl⟩ := List.mem_map.mp first
            by_cases near : position < 2 ^ 31
            · have answers := ihChildren .data fitsBelow distinct.2.1
                (agrees_below below) deeper memberBelow
              have inRange : (ConfigStep.indexed "list" name position).InRange := near
              rw [answer_below_of_inRange inRange]
              exact answers.belowEntry (plain.plain_list position) found near here
                (keeps.type.trans typed) (steps_ne_nil memberBelow)
            · have far : ¬ (ConfigStep.indexed "list" name position).InRange := near
              have first : ConfigStep.indexed "list" name position ∈
                  (deeper.below (.indexed "list" name position)).steps := List.mem_cons_self
              rw [answer_eq_none_of_mem first far]
              exact answers_out_of_range (plain.plain_list position) (Or.inl rfl) found near
          · exact ihSiblings (.listEntries name (position + 1)) fitsBehind
              distinct.2.2 ⟨plain, list, found, holdsBehind⟩ place behind
      | leafEntries name position =>
          obtain ⟨plain, list, found, holds⟩ := agrees
          obtain ⟨entry, here, keeps, below, holdsBehind⟩ := exists_entry holds
          obtain ⟨⟨inner, allowed, fitsBelow⟩, -⟩ := fits
          obtain ⟨typed, rfl⟩ : tag.elementType = "entry" ∧ inner = .nothing := by
            simp only [flatLevel, Around.level, reduceCtorEq, false_and, ↓reduceIte,
              elementLevel] at allowed
            split_ifs at allowed with typed
            exact ⟨typed, (Option.some.inj allowed).symm⟩
          rcases List.mem_cons.mp member with rfl | behind
          · by_cases near : position < 2 ^ 31
            · have answers := answers_entry (plain.plain_listLeaf position) found near here
                (keeps.type.trans typed)
              rw [keeps.value (by simp [typed]), keeps.access] at answers
              rw [answer_leafEntry near]
              exact answers
            · have far : ¬ (ConfigStep.indexed "listLeaf" name position).InRange := near
              rw [answer_eq_none_of_mem (List.mem_singleton_self _) far]
              exact answers_out_of_range (plain.plain_listLeaf position) (Or.inr rfl) found near
          · exact ihSiblings (.leafEntries name (position + 1)) fitsBehind
              distinct.2.2 ⟨plain, list, found, holdsBehind⟩ place behind

end Answers

end OpenMplane
