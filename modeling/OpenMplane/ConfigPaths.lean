import OpenMplane.YangConfig

/-!
# Paths of configuration elements

A row of steps leads from the top of the configuration to an element, and its text is
a path.  This file says what the look-up returns on such a path: the first component
falls apart where it was put together, and the rest of the path is looked up below the
element that the first step names.
-/

namespace OpenMplane

open ListCut

theorem findChar_append {mark : Char} {before : List Char} (after : List Char)
    (absent : mark ∉ before) :
    findChar mark (before ++ mark :: after) = some before.length := by
  simp [findChar, cutFirst_append after absent]

theorem findChar_eq_none {mark : Char} {text : List Char} (absent : mark ∉ text) :
    findChar mark text = none := by
  simp [findChar, cutFirst_eq_none.mpr absent]

section Positions

/-- No decimal text of a number but zero begins with `0`. -/
theorem toDigits_head {number : Nat} (positive : 0 < number) :
    ∃ first rest, Nat.toDigits 10 number = first :: rest ∧ first ≠ '0' := by
  induction number using Nat.strong_induction_on with
  | _ number ih =>
      by_cases small : number < 10
      · refine ⟨number.digitChar, [], Nat.toDigits_of_lt_base small, ?_⟩
        have digitChars : ∀ digit < 10, 0 < digit → digit.digitChar ≠ '0' := by decide
        exact digitChars number small positive
      · obtain ⟨first, rest, digits, nonzero⟩ := ih (number / 10) (by omega) (by omega)
        refine ⟨first, rest ++ [(number % 10).digitChar], ?_, nonzero⟩
        rw [Nat.toDigits_of_base_le (by decide) (by omega), digits, List.cons_append]

theorem digitValue_of_isDigit {letter : Char} (digit : letter.isDigit = true) :
    digitValue letter = letter.toNat - '0'.toNat ∧ digitValue letter < 10 := by
  have value : digitValue letter = letter.toNat - '0'.toNat := by simp [digitValue, digit]
  refine ⟨value, ?_⟩
  have bounds := Char.isDigit_iff_toNat.mp digit
  rw [value]
  simp only [Char.reduceToNat] at bounds ⊢
  omega

theorem announcedBase_of_ne {first : Char} (rest : List Char) (nonzero : first ≠ '0') :
    announcedBase (first :: rest) = (10, first :: rest) := by
  unfold announcedBase
  split
  · next same => exact absurd (List.cons.inj same).1 nonzero
  · next same => exact absurd (List.cons.inj same).1 nonzero
  · rfl

theorem foldl_digitValue {digits : List Char} (decimal : ∀ letter ∈ digits, letter.isDigit = true)
    (start : Nat) :
    digits.foldl (fun value digit => 10 * value + digitValue digit) start =
      digits.foldl (fun value digit => 10 * value + (digit.toNat - '0'.toNat)) start := by
  induction digits generalizing start with
  | nil => rfl
  | cons first digits ih =>
      have here := (digitValue_of_isDigit (decimal first (by simp))).1
      rw [List.foldl_cons, List.foldl_cons, here]
      exact ih (fun letter member => decimal letter (by simp [member])) _

/-- `std::stoi` reads a position back, whatever base it may announce, up to the largest
`int`. -/
theorem stoiAnyBase_repr (number : Nat) :
    stoiAnyBase number.repr =
      if number < 2 ^ 31 then .ok (number : Int) else .error .outOfRange := by
  rcases Nat.eq_zero_or_pos number with rfl | positive
  · decide
  · obtain ⟨first, rest, digits, nonzero⟩ := toDigits_head positive
    have decimal : ∀ letter ∈ first :: rest, letter.isDigit = true := by
      intro letter member
      rw [← digits] at member
      exact Nat.isDigit_of_mem_toDigits (by decide) (by decide) member
    have isDigit := decimal first (by simp)
    have unspaced : (first :: rest).dropWhile isSpace = first :: rest := by
      simp [isSpace_of_isDigit isDigit]
    have all : (first :: rest).takeWhile (fun letter => decide (digitValue letter < 10)) =
        first :: rest := by
      refine List.takeWhile_eq_self_iff.mpr fun letter member => ?_
      exact decide_eq_true (digitValue_of_isDigit (decimal letter member)).2
    have value : (first :: rest).foldl
        (fun value digit => 10 * value + digitValue digit) 0 = number := by
      have read := digitsValue_repr number
      rw [Nat.toList_repr, digits] at read
      exact (foldl_digitValue decimal 0).trans read
    unfold stoiAnyBase
    rw [Nat.toList_repr, digits]
    dsimp only
    rw [unspaced]
    split
    · next same =>
        obtain ⟨rfl, -⟩ := List.cons.inj same
        exact absurd isDigit (by decide)
    · next same =>
        obtain ⟨rfl, -⟩ := List.cons.inj same
        exact absurd isDigit (by decide)
    · rw [announcedBase_of_ne rest nonzero]
      dsimp only
      rw [all, if_neg (by simp), value]
      by_cases fits : number < 2 ^ 31
      · rw [if_pos fits, if_neg (by simp; omega)]
        rfl
      · rw [if_neg fits, if_pos (Or.inr (by simp; omega))]

end Positions

/-- A step of a path: an element by type and name, or an entry of a list or of a list
leaf by its position. -/
inductive ConfigStep
  | named (type name : String)
  | indexed (type name : String) (position : Nat)
  deriving DecidableEq, Repr

namespace ConfigStep

def type : ConfigStep → String
  | named type _ => type
  | indexed type _ _ => type

def name : ConfigStep → String
  | named _ name => name
  | indexed _ name _ => name

def isIndexed : ConfigStep → Bool
  | named _ _ => false
  | indexed _ _ _ => true

/-- The text of the position. -/
def index : ConfigStep → String
  | named _ _ => ""
  | indexed _ _ position => position.repr

/-- `std::stoi` takes the position. -/
def InRange : ConfigStep → Prop
  | named _ _ => True
  | indexed _ _ position => position < 2 ^ 31

instance : ∀ step : ConfigStep, Decidable step.InRange
  | named _ _ => isTrue trivial
  | indexed _ _ position => inferInstanceAs (Decidable (position < 2 ^ 31))

/-- What stands behind the name. -/
def suffix (step : ConfigStep) : List Char :=
  if step.isIndexed then '[' :: (step.index.toList ++ [']']) else []

def chars (step : ConfigStep) : List Char :=
  step.type.toList ++ '-' :: (step.name.toList ++ step.suffix)

/-- The letters of the path of a row of steps. -/
def pathChars : List ConfigStep → List Char
  | [] => []
  | [step] => step.chars
  | step :: rest => step.chars ++ '/' :: pathChars rest

def path (steps : List ConfigStep) : String :=
  String.ofList (pathChars steps)

/-- The parts of a step do not contain what separates them. -/
structure Plain (step : ConfigStep) : Prop where
  type_nonempty : step.type.toList ≠ []
  type_dash : '-' ∉ step.type.toList
  type_slash : '/' ∉ step.type.toList
  name_nonempty : step.name.toList ≠ []
  name_slash : '/' ∉ step.name.toList
  name_bracket : '[' ∉ step.name.toList

variable {step : ConfigStep} {rest : List ConfigStep}

theorem slash_notMem_suffix (step : ConfigStep) : '/' ∉ step.suffix := by
  cases step with
  | named type name => simp [suffix, isIndexed]
  | indexed type name position =>
      simp only [suffix, isIndexed, index, ↓reduceIte, List.mem_cons, List.mem_append,
        List.not_mem_nil, or_false, not_or]
      refine ⟨by decide, fun member => ?_, by decide⟩
      have digits := (decimal_repr (Nat.lt_succ_self position)).digits
      exact absurd (digits '/' member) (by decide)

theorem Plain.slash_notMem (plain : step.Plain) : '/' ∉ step.chars := by
  simp only [chars, List.mem_append, List.mem_cons, not_or]
  exact ⟨plain.type_slash, by decide, plain.name_slash, slash_notMem_suffix step⟩

theorem pathChars_cons (nonempty : rest ≠ []) :
    pathChars (step :: rest) = step.chars ++ '/' :: pathChars rest := by
  cases rest with
  | nil => exact absurd rfl nonempty
  | cons next rest => rfl

/-- Where the path delimiter stands behind the first step. -/
def delimiter (step : ConfigStep) (rest : List ConfigStep) : Option Nat :=
  if rest = [] then none else some step.chars.length

theorem findChar_slash (plain : step.Plain) (rest : List ConfigStep) :
    findChar '/' (pathChars (step :: rest)) = delimiter step rest := by
  by_cases last : rest = []
  · subst last
    exact findChar_eq_none plain.slash_notMem
  · rw [pathChars_cons last, findChar_append _ plain.slash_notMem, delimiter, if_neg last]

/-- The first component is there letter by letter, with more of the path behind. -/
theorem pathChars_eq (step : ConfigStep) (rest : List ConfigStep) :
    ∃ behind, pathChars (step :: rest) = step.chars ++ behind ∧ (rest = [] → behind = []) := by
  by_cases last : rest = []
  · subst last
    exact ⟨[], by simp [pathChars], fun _ => rfl⟩
  · exact ⟨'/' :: pathChars rest, pathChars_cons last, fun empty => absurd empty last⟩

theorem eraseComponent_path (nonempty : rest ≠ []) :
    YangConfig.eraseComponent (path (step :: rest)) (delimiter step rest) = path rest := by
  rw [delimiter, if_neg nonempty]
  simp only [YangConfig.eraseComponent, path, String.toList_ofList, pathChars_cons nonempty]
  rw [show step.chars ++ '/' :: pathChars rest = (step.chars ++ ['/']) ++ pathChars rest by simp]
  rw [List.drop_left' (by simp)]

theorem typeText_path (plain : step.Plain) (rest : List ConfigStep) :
    YangConfig.typeText (pathChars (step :: rest))
      (findChar '-' (pathChars (step :: rest))) = step.type.toList := by
  obtain ⟨behind, letters, -⟩ := pathChars_eq step rest
  rw [letters, chars, List.append_assoc, List.cons_append,
    findChar_append _ plain.type_dash]
  exact List.take_left

theorem nameText_path (plain : step.Plain) (rest : List ConfigStep) :
    YangConfig.nameText (pathChars (step :: rest))
      (findChar '-' (pathChars (step :: rest))) (delimiter step rest) =
      step.name.toList ++ step.suffix := by
  obtain ⟨behind, letters, ends⟩ := pathChars_eq step rest
  have whole : pathChars (step :: rest) =
      step.type.toList ++ '-' :: (step.name.toList ++ step.suffix ++ behind) := by
    rw [letters]
    simp [chars]
  have typePos : findChar '-' (pathChars (step :: rest)) = some step.type.toList.length := by
    rw [whole]
    exact findChar_append _ plain.type_dash
  have afterType : (pathChars (step :: rest)).drop (step.type.toList.length + 1) =
      step.name.toList ++ step.suffix ++ behind := by
    rw [whole, List.drop_append]
    simp
  have size : step.chars.length =
      step.type.toList.length + 1 + (step.name.toList ++ step.suffix).length := by
    simp only [chars, List.length_append, List.length_cons]
    omega
  rw [typePos, delimiter]
  by_cases last : rest = []
  · rw [if_pos last]
    simp only [YangConfig.nameText, afterType, ends last, List.append_nil]
  · rw [if_neg last]
    have before : step.type.toList.length < step.chars.length := by omega
    simp only [YangConfig.nameText, if_pos before, afterType]
    exact List.take_left' (by omega)

theorem listText_suffix (plain : step.Plain) :
    YangConfig.listText (step.name.toList ++ step.suffix) =
      if step.isIndexed then some (step.name.toList, step.index.toList) else none := by
  cases step with
  | named type name =>
      have letters : ConfigStep.name (.named type name) = name := rfl
      have absent := plain.name_bracket
      simp only [suffix, isIndexed, Bool.false_eq_true, ↓reduceIte, List.append_nil,
        YangConfig.listText, cutFirst_eq_none.mpr absent]
  | indexed type name position =>
      have cut := cutFirst_append
        ((ConfigStep.index (.indexed type name position)).toList ++ [']']) plain.name_bracket
      simp only [suffix, isIndexed, ↓reduceIte, YangConfig.listText, cut]
      cases letters : (ConfigStep.name (.indexed type name position)).toList with
      | nil => exact absurd letters plain.name_nonempty
      | cons first more => simp

/-- The search takes a plain first component apart where it was put together. -/
theorem commonSearch_path (plain : step.Plain) (element : YangElement)
    (rest : List ConfigStep) :
    YangConfig.commonSearch element (path (step :: rest)) =
      ⟨step.isIndexed, element.getElement step.type step.name, step.type, step.index,
        delimiter step rest⟩ := by
  have typePos : findChar '-' (pathChars (step :: rest)) ≠ some 0 := by
    obtain ⟨behind, letters, -⟩ := pathChars_eq step rest
    rw [letters, chars, List.append_assoc, List.cons_append, findChar_append _ plain.type_dash]
    simpa using plain.type_nonempty
  have pathPos : delimiter step rest ≠ some 0 := by
    unfold delimiter
    split_ifs <;> simp [chars]
  unfold YangConfig.commonSearch
  simp only [path, String.toList_ofList, typeText_path plain, findChar_slash plain,
    nameText_path plain, listText_suffix plain, String.ofList_toList]
  rw [if_neg (by simp [typePos, pathPos])]
  cases step with
  | named type name => simp [isIndexed, index, suffix]
  | indexed type name position => simp only [isIndexed, ↓reduceIte, String.ofList_toList]

end ConfigStep

open ConfigStep YangConfig

/-- The result of a search stands below the element it starts from. -/
theorem mem_of_commonSearch {element found : YangElement} {text : String}
    (there : (commonSearch element text).elementFound = some found) :
    found ∈ element.childElements := by
  unfold commonSearch at there
  dsimp only at there
  split at there
  · exact absurd there (by simp)
  · split at there
    · exact YangElement.mem_of_getElement there
    · exact YangElement.mem_of_getElement there

theorem exists_round {element : YangElement} {rounds : Nat} (enough : element.size ≤ rounds) :
    ∃ more, rounds = more + 1 := by
  have size := element.size_eq
  exact ⟨rounds - 1, by omega⟩

/-- Rounds beyond the size of the tree change nothing: the loop has ended by then. -/
theorem commonGetLoop_eq_of_size_le {element : YangElement} (text : String)
    {rounds others : Nat} (enough : element.size ≤ rounds) (enoughToo : element.size ≤ others) :
    commonGetLoop rounds element text = commonGetLoop others element text := by
  induction rounds generalizing element text others with
  | zero =>
      have size := element.size_eq
      omega
  | succ rounds ih =>
      obtain ⟨others, rfl⟩ := exists_round enoughToo
      rw [commonGetLoop, commonGetLoop]
      cases there : (commonSearch element text).elementFound with
      | none => rfl
      | some found =>
          have smaller := YangElement.size_lt_of_mem (mem_of_commonSearch there)
          dsimp only
          split_ifs
          · rfl
          · cases stoiAnyBase (commonSearch element text).index with
            | error exception => rfl
            | ok index =>
                cases entry : found.getElementAt "listEntry" (unsignedInt index) with
                | none => simp only [entry]
                | some below =>
                    have smallerBelow := YangElement.size_lt_of_mem
                      (YangElement.mem_of_getElementAt entry)
                    simp only [entry]
                    exact ih _ (by omega) (by omega)
          · rfl
          · rfl
          · rfl
          · rfl
          · exact ih _ (by omega) (by omega)

/-- What the look-up from an element returns on the path of a row of steps. -/
def Answers (element : YangElement) (steps : List ConfigStep)
    (answer : Option (String × String)) : Prop :=
  commonGetLoop element.size element (path steps) = answer

section Answers

variable {element found : YangElement} {step : ConfigStep} {rest : List ConfigStep}
  {type name : String} {answer : Option (String × String)}

theorem answers_leaf (plain : (named "leaf" name).Plain)
    (there : element.getElement "leaf" name = some found) :
    Answers element [.named "leaf" name]
      (some (found.elementValue, found.elementAccessPermissions)) := by
  rw [Answers, element.size_eq]
  simp [commonGetLoop, commonSearch_path plain, ConfigStep.type, ConfigStep.name, there]

theorem answers_feature (plain : (named "feature" name).Plain)
    (there : element.getElement "feature" name = some found) :
    Answers element [.named "feature" name] (some (found.elementValue, "")) := by
  rw [Answers, element.size_eq]
  simp [commonGetLoop, commonSearch_path plain, ConfigStep.type, ConfigStep.name, there]

/-- The types that end a look-up or ask for an index. -/
def endingTypes : List String := ["leaf", "list", "listLeaf", "feature"]

theorem Answers.below (plain : (named type name).Plain) (inner : type ∉ endingTypes)
    (there : element.getElement type name = some found) (nonempty : rest ≠ [])
    (answers : Answers found rest answer) :
    Answers element (.named type name :: rest) answer := by
  rw [Answers, element.size_eq]
  have smaller := YangElement.size_lt_of_mem (YangElement.mem_of_getElement there)
  have next : commonGetLoop (YangElement.sizes element.childElements) _ (path rest) = answer :=
    (commonGetLoop_eq_of_size_le _ (by rw [element.size_eq] at smaller; omega) le_rfl).trans answers
  simp only [endingTypes, List.mem_cons, List.not_mem_nil, or_false, not_or] at inner
  simp [commonGetLoop, commonSearch_path plain, ConfigStep.type, ConfigStep.name, there, inner,
    eraseComponent_path nonempty, next]

theorem answers_out_of_range {position : Nat} (plain : (indexed type name position).Plain)
    (listed : type = "list" ∨ type = "listLeaf")
    (there : element.getElement type name = some found) (far : ¬ position < 2 ^ 31) :
    Answers element (.indexed type name position :: rest) none := by
  rw [Answers, element.size_eq]
  have throws : stoiAnyBase (index (.indexed type name position)) = .error .outOfRange := by
    rw [index, stoiAnyBase_repr, if_neg far]
  rcases listed with rfl | rfl <;>
    simp [commonGetLoop, commonSearch_path plain, ConfigStep.type, ConfigStep.name, isIndexed,
      there, throws]

theorem unsignedInt_of_lt {position : Nat} (near : position < 2 ^ 31) :
    unsignedInt position = position := by
  unfold unsignedInt
  omega

theorem Answers.belowEntry {entry : YangElement} {position : Nat}
    (plain : (indexed "list" name position).Plain)
    (there : element.getElement "list" name = some found) (near : position < 2 ^ 31)
    (here : found.childElements[position]? = some entry)
    (typed : entry.elementType = "listEntry") (nonempty : rest ≠ [])
    (answers : Answers entry rest answer) :
    Answers element (.indexed "list" name position :: rest) answer := by
  rw [Answers, element.size_eq]
  have number : stoiAnyBase (index (.indexed "list" name position)) = .ok (position : Int) := by
    rw [index, stoiAnyBase_repr, if_pos near]
  have numbered := YangElement.getElementAt_of_getElem (by omega) here typed.symm
  have smaller := YangElement.size_lt_of_mem (YangElement.mem_of_getElement there)
  have smallerEntry := YangElement.size_lt_of_mem (List.mem_of_getElem? here)
  have next : commonGetLoop (YangElement.sizes element.childElements) _ (path rest) = answer :=
    (commonGetLoop_eq_of_size_le _ (by rw [element.size_eq] at smaller; omega) le_rfl).trans answers
  simp [commonGetLoop, commonSearch_path plain, ConfigStep.type, ConfigStep.name, isIndexed,
    there, number, unsignedInt_of_lt near, numbered, eraseComponent_path nonempty, next]

theorem answers_entry {entry : YangElement} {position : Nat}
    (plain : (indexed "listLeaf" name position).Plain)
    (there : element.getElement "listLeaf" name = some found) (near : position < 2 ^ 31)
    (here : found.childElements[position]? = some entry)
    (typed : entry.elementType = "entry") :
    Answers element [.indexed "listLeaf" name position]
      (some (entry.elementValue, entry.elementAccessPermissions)) := by
  rw [Answers, element.size_eq]
  have number : stoiAnyBase (index (.indexed "listLeaf" name position)) =
      .ok (position : Int) := by
    rw [index, stoiAnyBase_repr, if_pos near]
  have numbered := YangElement.getElementAt_of_getElem (by omega) here typed.symm
  simp [commonGetLoop, commonSearch_path plain, ConfigStep.type, ConfigStep.name, isIndexed,
    there, number, unsignedInt_of_lt near, numbered]

end Answers

end OpenMplane
