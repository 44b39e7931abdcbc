import OpenMplane.ListCut
import Mathlib.Data.List.Basic

/-!
# Variables in a text

The model of `expandStr`, which copies a text and puts the value of a variable wherever
the text names one as `${NAME}`.  The scan keeps two positions: where the copy goes on,
and where the next dollar sign stands.  What it makes is compared with the pieces of the
text read from the left.
-/

namespace OpenMplane

open ListCut

/-- `find_first_of` with one character. -/
def find_first_of (wanted : Char) (str : List Char) (pos : Nat) : Option Nat :=
  (cutFirst wanted (str.drop pos)).map fun cut => pos + cut.1.length

/-- The scan of `expandStr`; the result is what was copied and where the copy goes on. -/
def expandLoop (str : List Char) (vars : List Char → Option (List Char)) :
    Nat → List Char → Nat → Option Nat → Option (List Char × Nat)
  | _, expanded, prevPos, none => some (expanded, prevPos)
  | 0, _, _, some _ => none
  | rounds + 1, expanded, prevPos, some pos =>
      let expanded := expanded ++ (str.drop prevPos).take (pos - prevPos)
      let prevPos := pos
      let pos := pos + 1
      if pos + 2 ≥ str.length then some (expanded, prevPos)
      else if str[pos]? ≠ some '{' then
        expandLoop str vars rounds expanded prevPos (find_first_of '$' str pos)
      else
        match find_first_of '}' str pos with
        | none => expandLoop str vars rounds expanded prevPos (some pos)
        | some epos =>
            let var := (str.drop (pos + 1)).take (epos - (pos + 1))
            expandLoop str vars rounds (expanded ++ (vars var).getD []) (epos + 1)
              (find_first_of '$' str epos)

/-- `expandStr`, with as many rounds of the scan as are given. -/
def expandStr (rounds : Nat) (str : List Char) (vars : List Char → Option (List Char)) :
    Option (List Char) :=
  if str = [] then some []
  else if find_first_of '$' str 0 = none then some str
  else
    (expandLoop str vars rounds [] 0 (find_first_of '$' str 0)).map fun copied =>
      copied.1 ++ str.drop copied.2

/-- A text consists of characters and of names of variables. -/
inductive Piece
  | text (letter : Char)
  | named (name : List Char)
  deriving DecidableEq

/-- A variable at the start of a text: its name, and what follows it. -/
def leadingVariable : List Char → Option (List Char × List Char)
  | '$' :: '{' :: inside => cutFirst '}' inside
  | _ => none

theorem leadingVariable_eq_some {str name after : List Char}
    (leads : leadingVariable str = some (name, after)) :
    str = '$' :: '{' :: (name ++ '}' :: after) ∧ '}' ∉ name := by
  rw [leadingVariable.eq_def] at leads
  split at leads
  · next inside =>
      obtain ⟨whole, absent⟩ := cutFirst_eq_some.mp leads
      rw [whole]
      exact ⟨rfl, absent⟩
  · cases leads

/-- The pieces of a text from the left. -/
def textPieces (str : List Char) : List Piece :=
  match str with
  | [] => []
  | letter :: rest =>
      match _ : leadingVariable (letter :: rest) with
      | none => .text letter :: textPieces rest
      | some (name, after) => .named name :: textPieces after
termination_by str.length
decreasing_by
  · exact Nat.lt_succ_self _
  · next leads =>
      rw [(leadingVariable_eq_some leads).1]
      simp only [List.length_cons, List.length_append]
      omega

/-- What a piece stands for. -/
def Piece.value (vars : List Char → Option (List Char)) : Piece → List Char
  | .text letter => [letter]
  | .named name => (vars name).getD []

/-- The text with the value of each variable in the place of its name. -/
def expansion (str : List Char) (vars : List Char → Option (List Char)) : List Char :=
  (textPieces str).flatMap (Piece.value vars)

variable {str : List Char} {vars : List Char → Option (List Char)} {letter : Char}
  {rest name after expanded : List Char} {prevPos pos rounds : Nat} {list : List Piece}

section Pieces

theorem textPieces_nil : textPieces [] = [] := by
  rw [textPieces]

theorem textPieces_cons (none : leadingVariable (letter :: rest) = none) :
    textPieces (letter :: rest) = .text letter :: textPieces rest := by
  rw [textPieces]
  split
  · rfl
  · next leads =>
      rw [none] at leads
      cases leads

theorem textPieces_variable (leads : leadingVariable str = some (name, after)) :
    textPieces str = .named name :: textPieces after := by
  cases str with
  | nil => cases leads
  | cons letter rest =>
      rw [textPieces]
      split
      · next none =>
          rw [leads] at none
          cases none
      · next other =>
          rw [leads] at other
          cases other
          rfl

/-- No variable begins where no dollar sign stands, or where no brace closes it. -/
theorem leadingVariable_eq_none (apart : letter ≠ '$' ∨ rest.head? ≠ some '{' ∨ '}' ∉ rest) :
    leadingVariable (letter :: rest) = none := by
  cases found : leadingVariable (letter :: rest) with
  | none => rfl
  | some cut =>
      obtain ⟨name, after⟩ := cut
      obtain ⟨same, -⟩ := leadingVariable_eq_some found
      obtain ⟨rfl, rfl⟩ := List.cons.inj same
      simp at apart

/-- Where no variable begins, characters are pieces of their own. -/
theorem textPieces_append {front : List Char} (plain : '$' ∉ front) (rest : List Char) :
    textPieces (front ++ rest) = front.map .text ++ textPieces rest := by
  induction front with
  | nil => rfl
  | cons letter front ih =>
      rw [List.mem_cons, not_or] at plain
      rw [List.cons_append, textPieces_cons (leadingVariable_eq_none (Or.inl (Ne.symm plain.1))),
        ih plain.2]
      rfl

theorem textPieces_of_notMem (plain : '$' ∉ str) : textPieces str = str.map .text := by
  have whole := textPieces_append plain []
  rwa [List.append_nil, textPieces_nil, List.append_nil] at whole

end Pieces

section Copies

/-- What the scan copies: it leaves a variable without a name as it is at the end. -/
def copied (vars : List Char → Option (List Char)) : List Piece → List Char
  | [] => []
  | [.named []] => ['$', '{', '}']
  | piece :: rest => piece.value vars ++ copied vars rest

theorem copied_text (letter : Char) (list : List Piece) :
    copied vars (.text letter :: list) = letter :: copied vars list := by
  rw [copied.eq_def]
  rfl

theorem copied_variable (other : name ≠ [] ∨ list ≠ []) :
    copied vars (.named name :: list) = (vars name).getD [] ++ copied vars list := by
  rw [copied.eq_def]
  split
  · next none => cases none
  · next same =>
      cases same
      simp at other
  · next piece rest _ same =>
      cases same
      rfl

theorem copied_append (front : List Char) (list : List Piece) :
    copied vars (front.map .text ++ list) = front ++ copied vars list := by
  induction front with
  | nil => rfl
  | cons letter front ih =>
      rw [List.map_cons, List.cons_append, copied_text, ih]
      rfl

theorem copied_map (front : List Char) : copied vars (front.map .text) = front := by
  have whole := @copied_append vars front []
  rwa [List.append_nil, copied, List.append_nil] at whole

/-- The copy is the expansion up to a variable without a name at the end. -/
theorem copied_eq (list : List Piece) :
    copied vars list =
      if list.getLast? = some (.named []) then
        list.dropLast.flatMap (Piece.value vars) ++ ['$', '{', '}']
      else list.flatMap (Piece.value vars) := by
  induction list with
  | nil => rfl
  | cons piece list ih =>
      cases list with
      | nil =>
          cases piece with
          | text letter => rfl
          | named name =>
              cases name with
              | nil => rfl
              | cons head tail =>
                  rw [copied_variable (Or.inl (List.cons_ne_nil head tail))]
                  simp [copied, Piece.value]
      | cons next list =>
          have step : copied vars (piece :: next :: list) =
              piece.value vars ++ copied vars (next :: list) := by
            cases piece with
            | text letter => exact copied_text letter _
            | named name => exact copied_variable (Or.inr (List.cons_ne_nil next list))
          rw [step, ih, List.getLast?_cons_cons, List.dropLast_cons_cons, List.flatMap_cons,
            List.flatMap_cons]
          split
          · rw [List.append_assoc]
          · rfl

/-- The last three characters are copied as they are. -/
theorem copied_short (short : str.length ≤ 3) : copied vars (textPieces str) = str := by
  cases found : leadingVariable str with
  | some cut =>
      obtain ⟨name, after⟩ := cut
      have same := (leadingVariable_eq_some found).1
      rw [same] at short
      simp only [List.length_cons, List.length_append] at short
      have noName : name = [] := List.eq_nil_of_length_eq_zero (by omega)
      have noAfter : after = [] := List.eq_nil_of_length_eq_zero (by omega)
      rw [textPieces_variable found, noAfter, noName, textPieces_nil, same, noName, noAfter]
      rfl
  | none =>
      cases str with
      | nil => rw [textPieces_nil]; rfl
      | cons letter rest =>
          have plain : textPieces rest = rest.map .text := by
            rcases rest with _ | ⟨first, _ | ⟨second, _ | ⟨third, more⟩⟩⟩
            · exact textPieces_nil
            · rw [textPieces_cons (leadingVariable_eq_none (Or.inr (Or.inl (by simp)))),
                textPieces_nil]
              rfl
            · have last : leadingVariable [second] = none :=
                leadingVariable_eq_none (Or.inr (Or.inl (by simp)))
              have before : leadingVariable [first, second] = none := by
                by_cases closes : second = '}'
                · exact leadingVariable_eq_none (Or.inr (Or.inl (by simp [closes])))
                · exact leadingVariable_eq_none (Or.inr (Or.inr (by simp [Ne.symm closes])))
              rw [textPieces_cons before, textPieces_cons last, textPieces_nil]
              rfl
            · simp only [List.length_cons] at short
              omega
          rw [textPieces_cons found, copied_text, plain, copied_map]

end Copies

section Scan

/-- What stands between the two positions of the scan is to be copied as it is. -/
def Ahead (str : List Char) (prevPos : Nat) : Option Nat → Prop
  | none => textPieces (str.drop prevPos) = (str.drop prevPos).map .text
  | some pos =>
      prevPos ≤ pos ∧ pos < str.length ∧
        textPieces (str.drop prevPos) =
          ((str.drop prevPos).take (pos - prevPos)).map .text ++ textPieces (str.drop pos) ∧
        (str[pos]? = some '$' ∨ '}' ∉ str.drop pos)

theorem find_first_of_eq_some {wanted : Char} {found : Nat}
    (finds : find_first_of wanted str pos = some found) :
    pos ≤ found ∧ found < str.length ∧ str[found]? = some wanted ∧
      wanted ∉ (str.drop pos).take (found - pos) := by
  rw [find_first_of, Option.map_eq_some_iff] at finds
  obtain ⟨⟨before, after⟩, cut, rfl⟩ := finds
  obtain ⟨whole, absent⟩ := cutFirst_eq_some.mp cut
  have there : str[pos + before.length]? = some wanted := by
    rw [← List.getElem?_drop, whole]
    simp
  have inside := (List.getElem?_eq_some_iff.mp there).1
  refine ⟨Nat.le_add_right _ _, inside, there, ?_⟩
  rw [Nat.add_sub_cancel_left, whole, List.take_left]
  exact absent

theorem find_first_of_eq_none {wanted : Char} :
    find_first_of wanted str pos = none ↔ wanted ∉ str.drop pos := by
  rw [find_first_of, Option.map_eq_none_iff, cutFirst_eq_none]

/-- The scan goes on at the next dollar sign. -/
theorem ahead_find {start : Nat} (order : prevPos ≤ start)
    (literal : textPieces (str.drop prevPos) =
      ((str.drop prevPos).take (start - prevPos)).map .text ++ textPieces (str.drop start)) :
    Ahead str prevPos (find_first_of '$' str start) := by
  have parts : str.drop prevPos = (str.drop prevPos).take (start - prevPos) ++ str.drop start := by
    have cut := List.take_append_drop (start - prevPos) (str.drop prevPos)
    rw [List.drop_drop, Nat.add_sub_cancel' order] at cut
    exact cut.symm
  cases finds : find_first_of '$' str start with
  | none =>
      rw [Ahead, literal, textPieces_of_notMem (find_first_of_eq_none.mp finds), ← List.map_append,
        ← parts]
  | some found =>
      obtain ⟨later, inside, dollar, absent⟩ := find_first_of_eq_some finds
      refine ⟨Nat.le_trans order later, inside, ?_, Or.inl dollar⟩
      have cut := List.take_append_drop (found - start) (str.drop start)
      rw [List.drop_drop, Nat.add_sub_cancel' later] at cut
      have between : (str.drop prevPos).take (found - prevPos) =
          (str.drop prevPos).take (start - prevPos) ++ (str.drop start).take (found - start) := by
        have split : found - prevPos = (start - prevPos) + (found - start) := by omega
        rw [split, List.take_add, List.drop_drop, Nat.add_sub_cancel' order]
      rw [literal, between, List.map_append, List.append_assoc, ← textPieces_append absent, cut]

/-- The variable that begins where a dollar sign and a brace stand. -/
theorem leadingVariable_drop {epos : Nat} (dollar : str[pos]? = some '$')
    (brace : str[pos + 1]? = some '{') (closes : find_first_of '}' str (pos + 1) = some epos) :
    pos + 2 ≤ epos ∧ leadingVariable (str.drop pos) =
      some ((str.drop (pos + 2)).take (epos - (pos + 2)), str.drop (epos + 1)) := by
  obtain ⟨later, within, there, absent⟩ := find_first_of_eq_some closes
  have first : str.drop pos = '$' :: str.drop (pos + 1) := by
    obtain ⟨bound, value⟩ := List.getElem?_eq_some_iff.mp dollar
    rw [List.drop_eq_getElem_cons bound, value]
  have second : str.drop (pos + 1) = '{' :: str.drop (pos + 2) := by
    obtain ⟨bound, value⟩ := List.getElem?_eq_some_iff.mp brace
    rw [List.drop_eq_getElem_cons bound, value]
  have last : str.drop epos = '}' :: str.drop (epos + 1) := by
    obtain ⟨bound, value⟩ := List.getElem?_eq_some_iff.mp there
    rw [List.drop_eq_getElem_cons bound, value]
  have beyond : pos + 2 ≤ epos := by
    by_contra before
    have same : epos = pos + 1 := by omega
    rw [same, brace] at there
    cases there
  have inner : str.drop (pos + 2) =
      (str.drop (pos + 2)).take (epos - (pos + 2)) ++ '}' :: str.drop (epos + 1) := by
    have cut := List.take_append_drop (epos - (pos + 2)) (str.drop (pos + 2))
    rw [List.drop_drop, Nat.add_sub_cancel' beyond, last] at cut
    exact cut.symm
  have clean : '}' ∉ (str.drop (pos + 2)).take (epos - (pos + 2)) := by
    have more : epos - (pos + 1) = epos - (pos + 2) + 1 := by omega
    rw [second, more, List.take_succ_cons, List.mem_cons, not_or] at absent
    exact absent.2
  refine ⟨beyond, ?_⟩
  rw [first, second, leadingVariable]
  exact cutFirst_eq_some.mpr ⟨inner, clean⟩

/-- The scan ends, and with the rest of the text it has copied all pieces. -/
theorem expandLoop_eq {next : Option Nat} (ahead : Ahead str prevPos next)
    (enough : ∀ pos, next = some pos → str.length ≤ pos + rounds) :
    (expandLoop str vars rounds expanded prevPos next).map
        (fun copied => copied.1 ++ str.drop copied.2) =
      some (expanded ++ copied vars (textPieces (str.drop prevPos))) := by
  induction rounds generalizing expanded prevPos next with
  | zero =>
      cases next with
      | none =>
          rw [expandLoop, Option.map_some, ahead, copied_map]
      | some pos =>
          have short := enough pos rfl
          have inside := ahead.2.1
          omega
  | succ rounds ih =>
      cases next with
      | none =>
          rw [expandLoop, Option.map_some, ahead, copied_map]
      | some pos =>
          obtain ⟨order, inside, literal, begins⟩ := ahead
          have some_le := enough pos rfl
          rw [literal, copied_append, ← List.append_assoc, expandLoop]
          generalize expanded ++ (str.drop prevPos).take (pos - prevPos) = whole
          dsimp only
          split
          · next few =>
              have short : (str.drop pos).length ≤ 3 := by
                rw [List.length_drop]
                omega
              rw [Option.map_some, copied_short short]
          next many =>
          have first : str.drop pos = str[pos] :: str.drop (pos + 1) :=
            List.drop_eq_getElem_cons inside
          have second : (str.drop (pos + 1)).head? = str[pos + 1]? := List.head?_drop
          have one : (str.drop pos).take (pos + 1 - pos) = [str[pos]] := by
            rw [first, Nat.add_sub_cancel_left]
            rfl
          split
          · next other =>
              -- no brace follows: the character is copied
              have none : leadingVariable (str[pos] :: str.drop (pos + 1)) = none :=
                leadingVariable_eq_none (Or.inr (Or.inl (second ▸ other)))
              refine ih (ahead_find (Nat.le_succ pos) ?_) ?_
              · rw [one, first, textPieces_cons none]
                rfl
              · intro found finds
                have later := (find_first_of_eq_some finds).1
                omega
          next brace =>
          rw [ne_eq, not_not] at brace
          split
          · next opened =>
              -- no brace closes: from here on the text has no variable
              have absent := find_first_of_eq_none.mp opened
              have none : leadingVariable (str[pos] :: str.drop (pos + 1)) = none :=
                leadingVariable_eq_none (Or.inr (Or.inr absent))
              have literal' : textPieces (str.drop pos) =
                  ((str.drop pos).take (pos + 1 - pos)).map .text ++
                    textPieces (str.drop (pos + 1)) := by
                rw [one, first, textPieces_cons none]
                rfl
              refine ih ⟨Nat.le_succ pos, by omega, literal', Or.inr absent⟩ ?_
              rintro found ⟨⟩
              omega
          · next epos closes =>
              obtain ⟨later, within, there, -⟩ := find_first_of_eq_some closes
              -- a brace closes, so a dollar sign begins
              have dollar : str[pos]? = some '$' := by
                rcases begins with dollar | opened
                · exact dollar
                · refine absurd ?_ opened
                  have member : '}' ∈ str.drop (pos + 1) := by
                    by_contra never
                    rw [find_first_of_eq_none.mpr never] at closes
                    cases closes
                  rw [first]
                  exact List.mem_cons_of_mem _ member
              obtain ⟨beyond, leads⟩ := leadingVariable_drop dollar brace closes
              have nameOrMore : (str.drop (pos + 2)).take (epos - (pos + 2)) ≠ [] ∨
                  textPieces (str.drop (epos + 1)) ≠ [] := by
                by_cases closing : epos = pos + 2
                · refine Or.inr fun none => ?_
                  have some : 0 < (str.drop (epos + 1)).length := by
                    rw [List.length_drop]
                    omega
                  obtain ⟨head, tail, more⟩ := List.exists_cons_of_length_pos some
                  rw [more, textPieces] at none
                  split at none
                  · cases none
                  · cases none
                · refine Or.inl fun none => ?_
                  have size := congrArg List.length none
                  rw [List.length_take, List.length_drop, List.length_nil] at size
                  omega
              have same : find_first_of '$' str epos = find_first_of '$' str (epos + 1) := by
                obtain ⟨bound, value⟩ := List.getElem?_eq_some_iff.mp there
                rw [find_first_of, find_first_of, List.drop_eq_getElem_cons bound, value, cutFirst,
                  if_neg (by decide), Option.map_map]
                congr 1
                funext cut
                simp only [Function.comp_apply, List.length_cons]
                omega
              rw [textPieces_variable leads, copied_variable nameOrMore, ← List.append_assoc, same]
              refine ih (ahead_find (Nat.le_refl _) ?_) ?_
              · simp
              · intro found finds
                have further := (find_first_of_eq_some finds).1
                omega

theorem expandStr_eq (enough : str.length ≤ rounds) :
    expandStr rounds str vars = some (copied vars (textPieces str)) := by
  rw [expandStr]
  split
  · next empty =>
      rw [empty, textPieces_nil]
      rfl
  split
  · next plain =>
      have absent := find_first_of_eq_none.mp plain
      rw [List.drop_zero] at absent
      rw [textPieces_of_notMem absent, copied_map]
  · have ahead : Ahead str 0 (find_first_of '$' str 0) := ahead_find (Nat.le_refl 0) (by simp)
    rw [expandLoop_eq ahead, List.drop_zero, List.nil_append]
    intro pos _
    omega

end Scan

section Expansion

/-- `expandStr` ends and replaces each variable of the text by its value. -/
def Expands (str : List Char) (vars : List Char → Option (List Char)) : Prop :=
  ∃ enough, ∀ rounds ≥ enough, expandStr rounds str vars = some (expansion str vars)

/-- Only a variable without a name at the end is copied as it stands. -/
theorem copied_eq_expansion_iff (str : List Char) (vars : List Char → Option (List Char)) :
    copied vars (textPieces str) = expansion str vars ↔
      (textPieces str).getLast? ≠ some (.named []) ∨ vars [] = some ['$', '{', '}'] := by
  rw [copied_eq, expansion]
  by_cases nameless : (textPieces str).getLast? = some (.named [])
  · rw [if_pos nameless]
    obtain ⟨front, split⟩ := List.getLast?_eq_some_iff.mp nameless
    have other : ¬ ((textPieces str).getLast? ≠ some (.named [])) := not_not.mpr nameless
    rw [or_iff_right other, split, List.dropLast_concat, List.flatMap_append,
      List.append_cancel_left_eq, List.flatMap_singleton, Piece.value]
    cases vars [] with
    | none => simp
    | some value =>
        rw [Option.getD_some, Option.some.injEq]
        exact eq_comm
  · rw [if_neg nameless]
    exact iff_of_true rfl (Or.inl nameless)

/-- It does so unless the text ends with a variable that has no name, which is copied as
it stands. -/
theorem expands_iff (str : List Char) (vars : List Char → Option (List Char)) :
    Expands str vars ↔
      (textPieces str).getLast? ≠ some (.named []) ∨ vars [] = some ['$', '{', '}'] := by
  rw [← copied_eq_expansion_iff]
  constructor
  · rintro ⟨enough, ends⟩
    have result := ends (max enough str.length) (Nat.le_max_left _ _)
    rw [expandStr_eq (Nat.le_max_right _ _)] at result
    exact Option.some.inj result
  · intro same
    refine ⟨str.length, fun rounds enough => ?_⟩
    rw [expandStr_eq enough, same]

/-- A variable without a name is left in a text that consists of it. -/
theorem nameless_variable_is_not_expanded : ¬ ∀ str vars, Expands str vars := by
  intro all
  obtain ⟨enough, ends⟩ := all ['$', '{', '}'] fun _ => none
  have result := ends (max enough ['$', '{', '}'].length) (Nat.le_max_left _ _)
  have leads : leadingVariable ['$', '{', '}'] = some ([], []) := rfl
  rw [expandStr_eq (Nat.le_max_right _ _), expansion, textPieces_variable leads,
    textPieces_nil] at result
  cases result

end Expansion

end OpenMplane
