import OpenMplane.InterfaceMarkings

/-!
# The lists of a built path

A `YangPath` is built from modules, parameters and lists with one key, and
`pathRoot` writes it as an xpath.  `listIndexN` reads the lists back by counting
closing brackets: it cuts the xpath behind the last bracket it counted and looks
there for the first index and for the slash before it.  The cut for the first
list takes the leading slash away, which is the only one when nothing but
modules stands before the list.
-/

namespace OpenMplane

open ListCut

/-- The characters that the scanners stop at. -/
def scannerMarks : List Char := ['/', '[', ']', '=', '\'']

/-- A name or a key value without a character that the scanners stop at. -/
structure PathName where
  text : String
  plain : (text ≠ "" && text.toList.all fun letter => !scannerMarks.contains letter) = true

namespace PathName

variable (name : PathName)

def letters : List Char := name.text.toList

theorem text_ne_empty : name.text ≠ "" :=
  of_decide_eq_true (Bool.and_eq_true_iff.mp name.plain).1

theorem notMem_letters (mark : Char) (special : mark ∈ scannerMarks) : mark ∉ name.letters := by
  intro member
  have all := List.all_eq_true.mp (Bool.and_eq_true_iff.mp name.plain).2 mark member
  rw [List.contains_iff_mem.mpr special] at all
  cases all

end PathName

/-- What `addModule` and the `add`s of a `YangPath` append. -/
inductive PathPart
  | module (name : PathName)
  | parameter (inModule : Option PathName) (name : PathName)
  | list (inModule : Option PathName) (name key value : PathName)

namespace PathPart

def moduleText (inModule : Option PathName) : String :=
  (inModule.map PathName.text).getD ""

/-- The element that `YangPathEle` keeps of it. -/
def element : PathPart → YangPathEle
  | .module name => ⟨name.text, "", []⟩
  | .parameter inModule name => ⟨moduleText inModule, name.text, []⟩
  | .list inModule name key value => ⟨moduleText inModule, name.text, [(key.text, value.text)]⟩

def xpath (parts : List PathPart) : String :=
  YangPath.pathRoot (parts.map element)

def prefixed (inModule : Option PathName) (name : PathName) : List Char :=
  match inModule with
  | none => name.letters
  | some other => other.letters ++ ':' :: name.letters

/-- The path without its leading slash. -/
def text (parts : List PathPart) : List Char :=
  (YangPath.joined false (parts.map element)).toList

/-- What stands behind a part: nothing, or a slash and the other parts. -/
def slashed : List PathPart → List Char
  | [] => []
  | part :: parts => '/' :: text (part :: parts)

/-- The lists of a path, each with the modules directly before it in its name. -/
def lists (modules : List Char) : List PathPart → List ListIndex
  | [] => []
  | .module name :: parts => lists (modules ++ name.letters ++ [':']) parts
  | .parameter _ _ :: parts => lists [] parts
  | .list inModule name key value :: parts =>
      ⟨true, String.ofList (modules ++ prefixed inModule name), key.text, value.text⟩ ::
        lists [] parts

def behindList : List PathPart → Option (List PathPart)
  | [] => none
  | .module _ :: parts | .parameter _ _ :: parts => behindList parts
  | .list _ _ _ _ :: parts => some parts

/-- Nothing but modules stands before the first list. -/
def startsWithList : List PathPart → Bool
  | [] => false
  | .module _ :: parts => startsWithList parts
  | .parameter _ _ :: _ => false
  | .list _ _ _ _ :: _ => true

theorem text_cons (part : PathPart) (parts : List PathPart) :
    text (part :: parts) = (part.element.path (!parts.isEmpty)).toList ++ text parts := by
  cases parts with
  | nil => simp [text, YangPath.joined]
  | cons next parts => simp [text, YangPath.joined]

theorem slashed_eq (parts : List PathPart) :
    slashed parts = (if !parts.isEmpty then "/" else "").toList ++ text parts := by
  cases parts with
  | nil => rfl
  | cons next parts => simp [slashed]

theorem text_module (name : PathName) (parts : List PathPart) :
    text (.module name :: parts) = name.letters ++ ':' :: text parts := by
  simp [text_cons, element, YangPathEle.path, name.text_ne_empty, PathName.letters]

theorem text_parameter (inModule : Option PathName) (name : PathName)
    (parts : List PathPart) :
    text (.parameter inModule name :: parts) = prefixed inModule name ++ slashed parts := by
  cases inModule with
  | none =>
      simp [text_cons, slashed_eq, element, YangPathEle.path, name.text_ne_empty, moduleText,
        prefixed, PathName.letters]
  | some other =>
      simp [text_cons, slashed_eq, element, YangPathEle.path, name.text_ne_empty,
        other.text_ne_empty, moduleText, prefixed, PathName.letters]

theorem text_list (inModule : Option PathName) (name key value : PathName)
    (parts : List PathPart) :
    text (.list inModule name key value :: parts) =
      prefixed inModule name ++ '[' ::
        ((key.letters ++ '=' :: ('\'' :: value.letters ++ ['\''])) ++ ']' :: slashed parts) := by
  cases inModule with
  | none =>
      simp [text_cons, slashed_eq, element, YangPathEle.path, name.text_ne_empty, moduleText,
        prefixed, PathName.letters]
  | some other =>
      simp [text_cons, slashed_eq, element, YangPathEle.path, name.text_ne_empty,
        other.text_ne_empty, moduleText, prefixed, PathName.letters]

theorem notMem_prefixed (mark : Char) (special : mark ∈ scannerMarks)
    (inModule : Option PathName) (name : PathName) : mark ∉ prefixed inModule name := by
  have notColon : mark ≠ ':' := by
    rintro rfl
    exact absurd special (by decide)
  cases inModule with
  | none => exact name.notMem_letters mark special
  | some other =>
      simp [prefixed, other.notMem_letters mark special, name.notMem_letters mark special, notColon]

theorem text_ne_nil (part : PathPart) (parts : List PathPart) : text (part :: parts) ≠ [] := by
  have nonempty : ∀ inModule (name : PathName), prefixed inModule name ≠ [] := by
    intro inModule name
    have letters : name.letters ≠ [] := by simp [PathName.letters, name.text_ne_empty]
    cases inModule <;> simp [prefixed, letters]
  cases part with
  | module name => simp [text_module]
  | parameter inModule name => simp [text_parameter, nonempty]
  | list inModule name key value => simp [text_list]

theorem toList_xpath (parts : List PathPart) : (xpath parts).toList = slashed parts := by
  cases parts with
  | nil => rfl
  | cons part parts =>
      have written : YangPath.joined false ((part :: parts).map element) ≠ "" := by
        intro empty
        exact text_ne_nil part parts (by rw [text, empty]; rfl)
      rw [xpath, YangPath.pathRoot, if_neg written, String.toList_append]
      rfl

section Scan

/-- What `listIndex` leaves when it finds no index. -/
def missing : ListIndex := ⟨false, "", "", ""⟩

theorem listIndex_of_notMem {letters : List Char} (absent : '[' ∉ letters) :
    listIndex (String.ofList letters) = missing := by
  rw [listIndex, String.toList_ofList, cutFirst_eq_none.mpr absent]
  rfl

/-- An index behind a slash and the name of its list is read as written. -/
theorem listIndex_entry {lead key value : List Char} (name rest : List Char)
    (leadPlain : '[' ∉ lead) (namePlain : '[' ∉ name ∧ '/' ∉ name)
    (keyPlain : ']' ∉ key ∧ '=' ∉ key) (valuePlain : ']' ∉ value) :
    listIndex (String.ofList (lead ++ '/' :: (name ++ '[' ::
        ((key ++ '=' :: ('\'' :: value ++ ['\''])) ++ ']' :: rest)))) =
      ⟨true, String.ofList name, String.ofList key, String.ofList value⟩ := by
  have shape : lead ++ '/' :: (name ++ '[' ::
        ((key ++ '=' :: ('\'' :: value ++ ['\''])) ++ ']' :: rest)) =
      (lead ++ '/' :: name) ++ '[' ::
        ((key ++ '=' :: ('\'' :: value ++ ['\''])) ++ ']' :: rest) := by
    simp
  have opens : '[' ∉ lead ++ '/' :: name := by simp [leadPlain, namePlain.1]
  have closes : ']' ∉ key ++ '=' :: ('\'' :: value ++ ['\'']) := by
    simp [keyPlain.1, valuePlain]
  simp only [listIndex, String.toList_ofList, shape, cutFirst_append _ opens,
    cutLast_append _ namePlain.2, cutFirst_append _ closes, cutFirst_append _ keyPlain.2,
    stripQuotes_quoted]
  simp

/-- Behind a slash the first index is that of the first list. -/
theorem listIndex_text (lead modules : List Char) (parts : List PathPart)
    (leadPlain : '[' ∉ lead)
    (modulesPlain : '[' ∉ modules ∧ '/' ∉ modules) :
    listIndex (String.ofList (lead ++ '/' :: (modules ++ text parts))) =
      (lists modules parts).head?.getD missing := by
  induction parts generalizing lead modules with
  | nil => exact listIndex_of_notMem (by simp [text, YangPath.joined, leadPlain, modulesPlain.1])
  | cons part parts ih =>
      cases part with
      | module name =>
          have plain := ih lead (modules ++ name.letters ++ [':']) leadPlain
            (by simp [modulesPlain.1, modulesPlain.2, name.notMem_letters '[' (by decide),
              name.notMem_letters '/' (by decide)])
          rw [text_module, lists, ← plain]
          simp
      | parameter inModule name =>
          have opens := notMem_prefixed '[' (by decide) inModule name
          cases parts with
          | nil =>
              rw [text_parameter]
              exact listIndex_of_notMem (by simp [slashed, leadPlain, modulesPlain.1, opens])
          | cons next parts =>
              have plain := ih (lead ++ '/' :: (modules ++ prefixed inModule name)) []
                (by simp [leadPlain, modulesPlain.1, opens]) (by simp)
              rw [text_parameter, lists, ← plain]
              simp [slashed]
      | list inModule name key value =>
          have opens := notMem_prefixed '[' (by decide) inModule name
          have slash := notMem_prefixed '/' (by decide) inModule name
          have read := listIndex_entry (modules ++ prefixed inModule name) (slashed parts)
            leadPlain (by simp [modulesPlain.1, modulesPlain.2, opens, slash])
            ⟨key.notMem_letters ']' (by decide),
              key.notMem_letters '=' (by decide)⟩
            (value.notMem_letters ']' (by decide))
          rw [text_list, lists]
          simp only [List.append_assoc] at read ⊢
          rw [read]
          simp [PathName.letters]

/-- Without the leading slash a list that only modules stand before is missed. -/
theorem listIndex_start (modules : List Char) (parts : List PathPart)
    (modulesPlain : '[' ∉ modules ∧ '/' ∉ modules) :
    listIndex (String.ofList (modules ++ text parts)) =
      if startsWithList parts then missing else (lists modules parts).head?.getD missing := by
  induction parts generalizing modules with
  | nil => exact listIndex_of_notMem (by simp [text, YangPath.joined, modulesPlain.1])
  | cons part parts ih =>
      cases part with
      | module name =>
          have plain := ih (modules ++ name.letters ++ [':'])
            (by simp [modulesPlain.1, modulesPlain.2, name.notMem_letters '[' (by decide),
              name.notMem_letters '/' (by decide)])
          have shape : modules ++ text (.module name :: parts) =
              modules ++ name.letters ++ [':'] ++ text parts := by
            simp [text_module]
          rw [shape, plain]
          rfl
      | parameter inModule name =>
          have opens := notMem_prefixed '[' (by decide) inModule name
          rw [if_neg (by simp [startsWithList]), text_parameter, lists]
          cases parts with
          | nil => exact listIndex_of_notMem (by simp [slashed, modulesPlain.1, opens])
          | cons next parts =>
              have plain := listIndex_text (modules ++ prefixed inModule name) [] (next :: parts)
                (by simp [modulesPlain.1, opens]) (by simp)
              rw [← plain]
              simp [slashed]
      | list inModule name key value =>
          have opens : '[' ∉ modules ++ prefixed inModule name := by
            simp [modulesPlain.1, notMem_prefixed '[' (by decide) inModule name]
          have slash : '/' ∉ modules ++ prefixed inModule name := by
            simp [modulesPlain.2, notMem_prefixed '/' (by decide) inModule name]
          rw [if_pos (by simp [startsWithList]), text_list, ← List.append_assoc, listIndex,
            String.toList_ofList, cutFirst_append _ opens]
          dsimp only
          rw [cutLast_eq_none.mpr slash]
          rfl

/-- The first closing bracket is that of the first list. -/
theorem cutFirst_text (lead : List Char) (parts : List PathPart) (leadPlain : ']' ∉ lead) :
    (cutFirst ']' (lead ++ text parts)).map Prod.snd = (behindList parts).map slashed := by
  induction parts generalizing lead with
  | nil =>
      rw [cutFirst_eq_none.mpr (by simp [text, YangPath.joined, leadPlain])]
      rfl
  | cons part parts ih =>
      cases part with
      | module name =>
          have plain := ih (lead ++ name.letters ++ [':'])
            (by simp [leadPlain, name.notMem_letters ']' (by decide)])
          rw [text_module, behindList, ← plain]
          simp
      | parameter inModule name =>
          have closes := notMem_prefixed ']' (by decide) inModule name
          rw [text_parameter, behindList]
          cases parts with
          | nil =>
              rw [cutFirst_eq_none.mpr (by simp [slashed, leadPlain, closes])]
              rfl
          | cons next parts =>
              have plain := ih (lead ++ prefixed inModule name ++ ['/'])
                (by simp [leadPlain, closes])
              rw [← plain]
              simp [slashed]
      | list inModule name key value =>
          have shape : lead ++ text (.list inModule name key value :: parts) =
              (lead ++ prefixed inModule name ++ '[' ::
                (key.letters ++ '=' :: ('\'' :: value.letters ++ ['\'']))) ++
                ']' :: slashed parts := by
            rw [text_list]
            simp
          have closes : ']' ∉ lead ++ prefixed inModule name ++ '[' ::
              (key.letters ++ '=' :: ('\'' :: value.letters ++ ['\''])) := by
            simp [leadPlain, notMem_prefixed ']' (by decide) inModule name,
              key.notMem_letters ']' (by decide), value.notMem_letters ']' (by decide)]
          rw [shape, cutFirst_append _ closes]
          rfl

theorem lists_eq (modules : List Char) (parts : List PathPart) :
    match behindList parts with
    | none => lists modules parts = []
    | some rest => ∃ first, lists modules parts = first :: lists [] rest := by
  induction parts generalizing modules with
  | nil => rfl
  | cons part parts ih =>
      cases part with
      | module name => exact ih _
      | parameter inModule name => exact ih _
      | list inModule name key value => exact ⟨_, rfl⟩

theorem closing_mem_iff (lead : List Char) (parts : List PathPart) (leadPlain : ']' ∉ lead)
    (modules : List Char) : ']' ∈ lead ++ text parts ↔ lists modules parts ≠ [] := by
  have cut := cutFirst_text lead parts leadPlain
  have shape := lists_eq modules parts
  cases behind : behindList parts with
  | none =>
      rw [behind] at cut shape
      have absent := cutFirst_eq_none.mp (Option.map_eq_none_iff.mp cut)
      simp [absent, shape]
  | some rest =>
      rw [behind] at cut shape
      obtain ⟨first, shape⟩ := shape
      have present : ']' ∈ lead ++ text parts := by
        by_contra absent
        rw [cutFirst_eq_none.mpr absent] at cut
        cases cut
      simp [present, shape]

theorem behindBrackets_text (count : Nat) (lead : List Char) (parts : List PathPart)
    (leadPlain : ']' ∉ lead) :
    behindBrackets (count + 2) (lead ++ text parts) =
      (behindList parts).bind fun rest => behindBrackets (count + 1) (slashed rest) := by
  have cut := cutFirst_text lead parts leadPlain
  rw [behindBrackets]
  cases found : cutFirst ']' (lead ++ text parts) with
  | none =>
      rw [found] at cut
      rw [Option.map_eq_none_iff.mp cut.symm]
      rfl
  | some cutting =>
      rw [found] at cut
      obtain ⟨rest, behind, same⟩ := Option.map_eq_some_iff.mp cut.symm
      rw [behind]
      exact congrArg (behindBrackets (count + 1)) same.symm

/-- Behind the brackets that were counted stands the list that was asked for. -/
theorem behindBrackets_slashed (count : Nat) (parts : List PathPart) :
    match behindBrackets (count + 1) (slashed parts) with
    | none => (lists [] parts)[count]? = none
    | some rest => (lists [] parts)[count]? = some (listIndex (String.ofList rest)) := by
  induction count generalizing parts with
  | zero =>
      cases parts with
      | nil => rfl
      | cons part parts =>
          have present := closing_mem_iff ['/'] (part :: parts) (by simp) []
          have read := listIndex_text [] [] (part :: parts) (by simp) (by simp)
          change ']' ∈ slashed (part :: parts) ↔ _ at present
          change listIndex (String.ofList (slashed (part :: parts))) = _ at read
          rw [behindBrackets]
          cases entries : lists [] (part :: parts) with
          | nil =>
              rw [if_neg (by simp [present, entries])]
              rfl
          | cons first entries =>
              rw [if_pos (by simp [present, entries])]
              dsimp only
              rw [read, entries]
              rfl
  | succ count ih =>
      cases parts with
      | nil => rfl
      | cons part parts =>
          have shape := lists_eq [] (part :: parts)
          have counted := behindBrackets_text count ['/'] (part :: parts) (by simp)
          change behindBrackets (count + 2) (slashed (part :: parts)) = _ at counted
          rw [counted]
          cases behind : behindList (part :: parts) with
          | none =>
              rw [behind] at shape
              simp [shape]
          | some rest =>
              rw [behind] at shape
              obtain ⟨first, shape⟩ := shape
              rw [shape, Option.bind_some, List.getElem?_cons_succ]
              exact ih rest

end Scan

/-- `listIndexN` finds the `n`th list when there are so many, with its name, its
key and its value, and agrees with `listIndex` on the first. -/
structure ReadsLists (parts : List PathPart) (held : ListIndex) (n : Nat) : Prop where
  found_iff : (listIndexN (xpath parts) held n).found = true ↔ n ≤ (lists [] parts).length
  entry : ∀ entry, (lists [] parts)[n - 1]? = some entry →
    listIndexN (xpath parts) held n = entry
  first : n = 1 → (listIndexN (xpath parts) held n).found = (listIndex (xpath parts)).found ∧
    ((listIndex (xpath parts)).found = true →
      listIndexN (xpath parts) held n = listIndex (xpath parts))

variable (parts : List PathPart) (held : ListIndex)

theorem found_of_mem (modules : List Char) (parts : List PathPart) {entry : ListIndex}
    (member : entry ∈ lists modules parts) : entry.found = true := by
  induction parts generalizing modules with
  | nil => cases member
  | cons part parts ih =>
      cases part with
      | module name => exact ih _ member
      | parameter inModule name => exact ih _ member
      | list inModule name key value =>
          rcases List.mem_cons.mp member with rfl | later
          · rfl
          · exact ih _ later

theorem lists_ne_nil (modules : List Char) {parts : List PathPart}
    (starts : startsWithList parts = true) : lists modules parts ≠ [] := by
  induction parts generalizing modules with
  | nil => cases starts
  | cons part parts ih =>
      cases part with
      | module name => exact ih _ starts
      | parameter inModule name => cases starts
      | list inModule name key value => exact List.cons_ne_nil _ _

theorem listIndex_xpath : listIndex (xpath parts) = (lists [] parts).head?.getD missing := by
  have letters := toList_xpath parts
  rw [← String.ofList_toList (s := xpath parts), letters]
  cases parts with
  | nil => exact listIndex_of_notMem (by simp [slashed])
  | cons part parts => exact listIndex_text [] [] (part :: parts) (by simp) (by simp)

theorem toList_xpath_drop : (xpath parts).toList.drop 1 = text parts := by
  rw [toList_xpath]
  cases parts with
  | nil => rfl
  | cons part parts => rfl

theorem listIndexN_one :
    listIndexN (xpath parts) held 1 =
      if lists [] parts = [] then { held with found := false }
      else if startsWithList parts then missing else (lists [] parts).head?.getD missing := by
  have present := closing_mem_iff [] parts (by simp) []
  have read := listIndex_start [] parts (by simp)
  rw [List.nil_append] at present read
  rw [listIndexN, toList_xpath_drop, behindBrackets]
  by_cases none : lists [] parts = []
  · rw [if_neg (by simp [present, none]), if_pos none]
  · rw [if_pos (by simp [present, none]), if_neg none, ← read]

theorem listIndexN_later (count : Nat) :
    listIndexN (xpath parts) held (count + 2) =
      ((lists [] parts)[count + 1]?).getD { held with found := false } := by
  have counted := behindBrackets_text count [] parts (by simp)
  have shape := lists_eq [] parts
  rw [List.nil_append] at counted
  rw [listIndexN, toList_xpath_drop, counted]
  cases behind : behindList parts with
  | none =>
      rw [behind] at shape
      simp [shape]
  | some rest =>
      rw [behind] at shape
      obtain ⟨first, shape⟩ := shape
      have found := behindBrackets_slashed count rest
      rw [shape, Option.bind_some, List.getElem?_cons_succ]
      cases scanned : behindBrackets (count + 1) (slashed rest) with
      | none =>
          rw [scanned] at found
          rw [found]
          rfl
      | some letters =>
          rw [scanned] at found
          rw [found]
          rfl

/-- The lists of a built path are read, unless the first one is asked for and
nothing but modules stands before it. -/
theorem readsLists_iff {n : Nat} (positive : 1 ≤ n) :
    ReadsLists parts held n ↔ ¬ (n = 1 ∧ startsWithList parts = true) := by
  have whole := listIndex_xpath parts
  rcases Nat.exists_eq_add_of_le' positive with ⟨count, rfl⟩
  cases count with
  | zero =>
      have first := listIndexN_one parts held
      cases starts : startsWithList parts with
      | true =>
          have some := lists_ne_nil [] starts
          rw [if_neg some, starts, if_pos rfl] at first
          constructor
          · rintro ⟨found_iff, -, -⟩ -
            have length : 0 + 1 ≤ (lists [] parts).length := List.length_pos_iff.mpr some
            have wrong := found_iff.mpr length
            rw [first] at wrong
            cases wrong
          · intro wrong
            exact absurd ⟨rfl, rfl⟩ wrong
      | false =>
          refine ⟨fun _ wrong => (by cases wrong.2), fun _ => ?_⟩
          rw [starts] at first
          cases entries : lists [] parts with
          | nil =>
              rw [entries, if_pos rfl] at first
              rw [entries] at whole
              constructor
              · simp [first, entries]
              · simp [entries]
              · intro _
                simp [first, whole, missing]
          | cons entry rest =>
              have found : entry.found = true := found_of_mem [] parts (by simp [entries])
              rw [entries] at first whole
              simp only [List.cons_ne_nil, if_false, Bool.false_eq_true, List.head?_cons,
                Option.getD_some] at first whole
              constructor
              · simp [first, entries, found]
              · simp [first, entries]
              · intro _
                simp [first, whole]
  | succ count =>
      refine ⟨fun _ wrong => by simp at wrong, fun _ => ?_⟩
      have later := listIndexN_later parts held count
      constructor
      · rw [later]
        by_cases below : count + 1 < (lists [] parts).length
        · have found := found_of_mem [] parts (List.getElem_mem below)
          simp only [List.getElem?_eq_getElem below, Option.getD_some, found, true_iff]
          omega
        · simp only [List.getElem?_eq_none (Nat.le_of_not_lt below), Option.getD_none,
            Bool.false_eq_true, false_iff]
          omega
      · intro entry there
        rw [later]
        simp only [Nat.add_sub_cancel] at there
        rw [there]
        rfl
      · intro same
        omega

/-- The alarms of a list below the active ones. -/
def alarmParts : List PathPart :=
  [.parameter (some ⟨"o-ran-fm", rfl⟩) ⟨"active-alarm-list", rfl⟩,
    .list none ⟨"active-alarms", rfl⟩ ⟨"fault-id", rfl⟩ ⟨"7", rfl⟩]

theorem readsLists_alarmParts : ReadsLists alarmParts missing 1 :=
  (readsLists_iff alarmParts missing (by decide)).mpr (by decide)

/-- A list on top of the path is not found as its first. -/
theorem list_on_top_is_missed : ¬ ∀ (parts : List PathPart) (held : ListIndex) (n : Nat),
    1 ≤ n → ReadsLists parts held n := by
  intro claim
  have read := (claim [.list (some ⟨"m", rfl⟩) ⟨"carrier", rfl⟩ ⟨"name", rfl⟩ ⟨"c0", rfl⟩]
    missing 1 (by decide)).found_iff.mpr (by decide)
  exact absurd read (by decide)

end PathPart

end OpenMplane
