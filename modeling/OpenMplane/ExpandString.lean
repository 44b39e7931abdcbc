import OpenMplane.ExpandStr
import OpenMplane.ReplaceStrs

/-!
# The other expansion of variables

The model of `expandString` of `DataVariantSettings`, which refuses a text with a variable
that it does not know or that is not closed.  The second argument of `substr` is the length
of a part, for which the position of the next variable is given: from the second variable
on too much is copied.
-/

namespace OpenMplane

open ListCut StringFunc

/-- `DataVariantSettings`, some of which are registered. -/
structure DataVariantSettings where
  mSettings : List (List Char × List Char)
  registered : mSettings ≠ []

namespace DataVariantSettings

/-- The value of a setting. -/
def find (settings : DataVariantSettings) (name : List Char) : Option (List Char) :=
  settings.mSettings.lookup name

/-- The loop of `expandString`, at the position of a variable. -/
def expandStringLoop (settings : DataVariantSettings) (str : List Char) :
    Nat → List Char → Nat → Nat → Option (List Char × List Char)
  | 0, _, _, _ => none
  | rounds + 1, expanded, offset, startPos =>
      match find_first_of '}' str startPos with
      | none => some ([], "Invalid variable definition, no closing \x7d".toList)
      | some endPos =>
          let expanded := expanded ++ (str.drop offset).take startPos
          let var := (str.drop (startPos + 2)).take (endPos - startPos - 2)
          match settings.find var with
          | none => some ([], "Invalid variable '".toList ++ var ++ ['\''])
          | some value =>
              let expanded := expanded ++ value
              let offset := endPos + 1
              match findStr ['$', '{'] str offset with
              | some startPos => expandStringLoop settings str rounds expanded offset startPos
              | none => some (expanded ++ str.drop offset, [])

/-- `expandString`: the text and the error, with as many rounds of the loop as are given. -/
def expandString (settings : DataVariantSettings) (rounds : Nat) (str : List Char) :
    Option (List Char × List Char) :=
  if settings.mSettings = [] then some (str, [])
  else match findStr ['$', '{'] str 0 with
    | none => some (str, [])
    | some startPos => settings.expandStringLoop str rounds [] 0 startPos

end DataVariantSettings

/-- Behind every `${` of a text there is a closing brace. -/
def Closed (str : List Char) : Prop :=
  ∀ before after, str = before ++ '$' :: '{' :: after → '}' ∈ after

/-- The names of the variables of a text. -/
def variableNames (str : List Char) : List (List Char) :=
  (textPieces str).filterMap fun
    | .named name => some name
    | .text _ => none

/-- All variables are closed and known. -/
def Complete (settings : DataVariantSettings) (str : List Char) : Prop :=
  Closed str ∧ ∀ name ∈ variableNames str, (settings.find name).isSome

variable {settings : DataVariantSettings} {str before after name rest : List Char} {rounds : Nat}

section Cuts

/-- A text is cut where its first variable begins. -/
theorem textPieces_of_cut (cut : cutWord ['$', '{'] str = some (before, after)) :
    textPieces str = before.map .text ++ textPieces ('$' :: '{' :: after) := by
  induction str generalizing before with
  | nil => cases cut
  | cons letter tail ih =>
      rw [cutWord] at cut
      split at cut
      · next here =>
          cases cut
          obtain ⟨tail', whole⟩ := here
          rw [← whole]
          rfl
      · next elsewhere =>
          rw [Option.map_eq_some_iff] at cut
          obtain ⟨⟨front, last⟩, found, same⟩ := cut
          cases same
          have none : leadingVariable (letter :: tail) = none := by
            cases leads : leadingVariable (letter :: tail) with
            | none => rfl
            | some parts =>
                refine absurd ?_ elsewhere
                rw [(leadingVariable_eq_some leads).1]
                exact ⟨_, rfl⟩
          rw [textPieces_cons none, ih found]
          rfl

/-- Without `${` there is no variable in a text, and nothing to close. -/
theorem plain_of_no_cut (uncut : cutWord ['$', '{'] str = none) :
    textPieces str = str.map .text ∧ Closed str := by
  suffices plain : textPieces str = str.map .text ∧
      ∀ before after, str ≠ before ++ '$' :: '{' :: after from
    ⟨plain.1, fun before after whole => absurd whole (plain.2 before after)⟩
  induction str with
  | nil => exact ⟨textPieces_nil, fun before after whole => by simp at whole⟩
  | cons letter tail ih =>
      rw [cutWord] at uncut
      split at uncut
      · cases uncut
      · next elsewhere =>
          obtain ⟨pieces, nowhere⟩ := ih (Option.map_eq_none_iff.mp uncut)
          have none : leadingVariable (letter :: tail) = none := by
            cases leads : leadingVariable (letter :: tail) with
            | none => rfl
            | some parts =>
                refine absurd ?_ elsewhere
                rw [(leadingVariable_eq_some leads).1]
                exact ⟨_, rfl⟩
          refine ⟨by rw [textPieces_cons none, pieces]; rfl, fun before after whole => ?_⟩
          cases before with
          | nil => exact elsewhere ⟨after, whole.symm⟩
          | cons first before => exact nowhere before after (List.cons.inj whole).2

theorem not_closed_of_cut (cut : cutWord ['$', '{'] str = some (before, after))
    (opened : cutFirst '}' after = none) : ¬ Closed str := by
  intro closed
  obtain ⟨whole, -⟩ := cutWord_eq_some cut
  rw [List.append_assoc] at whole
  exact cutFirst_eq_none.mp opened (closed before after whole)

theorem closed_of_cut (cut : cutWord ['$', '{'] str = some (before, after))
    (closes : cutFirst '}' after = some (name, rest)) : Closed str ↔ Closed rest := by
  obtain ⟨whole, -⟩ := cutWord_eq_some cut
  obtain ⟨inside, -⟩ := cutFirst_eq_some.mp closes
  have parts : str = (before ++ '$' :: '{' :: name) ++ '}' :: rest := by
    rw [whole, inside]
    simp
  constructor
  · intro closed front last same
    refine closed ((before ++ '$' :: '{' :: name) ++ '}' :: front) last ?_
    rw [parts, same]
    simp
  · intro closed front last same
    rw [parts, List.append_eq_append_iff] at same
    rcases same with ⟨middle, -, behind⟩ | ⟨middle, -, behind⟩
    · cases middle with
      | nil => cases behind
      | cons first middle => exact closed middle last (List.cons.inj behind).2
    · have member : '}' ∈ '$' :: '{' :: last := by
        rw [behind]
        simp
      simpa using member

theorem textPieces_of_variable (cut : cutWord ['$', '{'] str = some (before, after))
    (closes : cutFirst '}' after = some (name, rest)) :
    textPieces str = before.map .text ++ .named name :: textPieces rest := by
  rw [textPieces_of_cut cut, textPieces_variable]
  exact closes

end Cuts

section Names

theorem variableNames_of_no_cut (uncut : cutWord ['$', '{'] str = none) :
    variableNames str = [] ∧ expansion str settings.find = str := by
  rw [variableNames, expansion, (plain_of_no_cut uncut).1]
  constructor
  · simp [List.filterMap_map]
  · rw [List.flatMap_map]
    exact List.flatMap_singleton' str

theorem variableNames_of_cut (cut : cutWord ['$', '{'] str = some (before, after))
    (closes : cutFirst '}' after = some (name, rest)) :
    variableNames str = name :: variableNames rest ∧
      expansion str settings.find =
        before ++ ((settings.find name).getD [] ++ expansion rest settings.find) := by
  rw [variableNames, expansion, textPieces_of_variable cut closes]
  constructor
  · rw [List.filterMap_append]
    simp [List.filterMap_map, variableNames]
  · rw [List.flatMap_append, List.flatMap_map, List.flatMap_cons]
    congr 1
    exact List.flatMap_singleton' before

theorem complete_of_no_cut (uncut : cutWord ['$', '{'] str = none) : Complete settings str := by
  refine ⟨(plain_of_no_cut uncut).2, fun name member => ?_⟩
  rw [(@variableNames_of_no_cut settings str uncut).1] at member
  cases member

theorem complete_of_cut (cut : cutWord ['$', '{'] str = some (before, after))
    (closes : cutFirst '}' after = some (name, rest)) :
    Complete settings str ↔ (settings.find name).isSome ∧ Complete settings rest := by
  rw [Complete, Complete, closed_of_cut cut closes,
    (@variableNames_of_cut settings _ _ _ _ _ cut closes).1, List.forall_mem_cons]
  exact and_left_comm

end Names

section Loop

open DataVariantSettings

/-- The loop and what is behind it, from a position on. -/
def expandFrom (settings : DataVariantSettings) (rounds : Nat) (str expanded : List Char)
    (offset : Nat) : Option (List Char × List Char) :=
  match findStr ['$', '{'] str offset with
  | some startPos => settings.expandStringLoop str rounds expanded offset startPos
  | none => some (expanded ++ str.drop offset, [])

/-- What the loop makes of the rest of a text: an error, or a text that is too long when
there is a variable and something has been read already. -/
def Continues (settings : DataVariantSettings) (expanded front rest : List Char)
    (outcome : Option (List Char × List Char)) : Prop :=
  (Complete settings rest → ∃ result, outcome = some (result, []) ∧
    (variableNames rest = [] ∨ front = [] ∧ (variableNames rest).length ≤ 1 →
      result = expanded ++ expansion rest settings.find) ∧
    (expanded ++ expansion rest settings.find).length ≤ result.length ∧
    (front ≠ [] ∧ variableNames rest ≠ [] ∨ 1 < (variableNames rest).length →
      (expanded ++ expansion rest settings.find).length < result.length)) ∧
  (¬ Complete settings rest → ∃ error, outcome = some ([], error) ∧ error ≠ [])

theorem expandFrom_of_cut {expanded front : List Char} {rounds : Nat}
    (cut : cutWord ['$', '{'] rest = some (before, after)) :
    expandFrom settings (rounds + 1) (front ++ rest) expanded front.length =
      match cutFirst '}' after with
      | none => some ([], "Invalid variable definition, no closing \x7d".toList)
      | some (name, _) =>
          match settings.find name with
          | none => some ([], "Invalid variable '".toList ++ name ++ ['\''])
          | some value =>
              expandFrom settings rounds (front ++ rest)
                (expanded ++ rest.take (front.length + before.length) ++ value)
                (front ++ before ++ '$' :: '{' :: name ++ ['}']).length := by
  obtain ⟨whole, -⟩ := cutWord_eq_some cut
  rw [expandFrom, findStr_append, cut, Option.map_some]
  have start : (front ++ rest).drop (front.length + before.length) = '$' :: '{' :: after := by
    rw [whole, ← List.length_append, List.append_assoc, ← List.append_assoc, List.drop_left]
    rfl
  have behind : (front ++ rest).drop (front.length + before.length + 2) = after := by
    rw [← List.drop_drop, start]
    rfl
  dsimp only
  rw [expandStringLoop, find_first_of, start]
  have braces : cutFirst '}' ('$' :: '{' :: after) =
      (cutFirst '}' after).map fun cut => ('$' :: '{' :: cut.1, cut.2) := by
    rw [cutFirst, if_neg (by decide), cutFirst, if_neg (by decide), Option.map_map]
    rfl
  rw [braces]
  cases closes : cutFirst '}' after with
  | none => rfl
  | some parts =>
      obtain ⟨name, last⟩ := parts
      obtain ⟨inside, -⟩ := cutFirst_eq_some.mp closes
      have taken : after.take (front.length + before.length + ('$' :: '{' :: name).length -
          (front.length + before.length) - 2) = name := by
        have size : front.length + before.length + ('$' :: '{' :: name).length -
            (front.length + before.length) - 2 = name.length := by
          simp only [List.length_cons]
          omega
        rw [size, inside, List.take_left]
      simp only [Option.map_some]
      rw [behind, taken, List.drop_left]
      cases settings.find name with
      | none => rfl
      | some value =>
          have size : (front ++ before ++ '$' :: '{' :: name ++ ['}']).length =
              front.length + before.length + ('$' :: '{' :: name).length + 1 := by
            simp only [List.length_append, List.length_singleton]
          unfold expandFrom
          rw [size]

/-- A rest without a variable is copied. -/
theorem continues_of_no_cut {expanded front : List Char} {rounds : Nat}
    (cut : cutWord ['$', '{'] rest = none) :
    Continues settings expanded front rest
      (expandFrom settings rounds (front ++ rest) expanded front.length) := by
  obtain ⟨names, same⟩ := @variableNames_of_no_cut settings rest cut
  have found : expandFrom settings rounds (front ++ rest) expanded front.length =
      some (expanded ++ rest, []) := by
    rw [expandFrom, findStr_append, cut, Option.map_none, List.drop_left]
  rw [found, Continues, same, names]
  refine ⟨fun _ => ⟨_, rfl, fun _ => rfl, Nat.le_refl _, ?_⟩, fun incomplete => ?_⟩
  · rintro (⟨-, some⟩ | many)
    · exact absurd rfl some
    · cases many
  · exact absurd (complete_of_no_cut cut) incomplete

theorem continues_expandFrom {expanded front : List Char} {rounds : Nat}
    (enough : rest.length ≤ rounds) :
    Continues settings expanded front rest
      (expandFrom settings rounds (front ++ rest) expanded front.length) := by
  induction rounds generalizing expanded front rest with
  | zero =>
      obtain rfl : rest = [] := List.eq_nil_of_length_eq_zero (Nat.le_zero.mp enough)
      exact continues_of_no_cut rfl
  | succ rounds ih =>
      cases cut : cutWord ['$', '{'] rest with
      | none => exact continues_of_no_cut cut
      | some parts =>
          obtain ⟨before, after⟩ := parts
          obtain ⟨whole, -⟩ := cutWord_eq_some cut
          have size := congrArg List.length whole
          simp only [List.length_append, List.length_cons, List.length_nil] at size
          rw [expandFrom_of_cut cut]
          cases closes : cutFirst '}' after with
          | none =>
              refine ⟨fun complete => ?_, fun _ => ⟨_, rfl, by decide⟩⟩
              exact absurd complete.1 (not_closed_of_cut cut closes)
          | some parts =>
              obtain ⟨name, last⟩ := parts
              obtain ⟨inside, -⟩ := cutFirst_eq_some.mp closes
              have complete_iff := @complete_of_cut settings _ _ _ _ _ cut closes
              obtain ⟨names, expands⟩ := @variableNames_of_cut settings _ _ _ _ _ cut closes
              dsimp only
              cases known : settings.find name with
              | none =>
                  rw [known] at complete_iff
                  refine ⟨fun complete => ?_, fun _ => ⟨_, rfl, by simp⟩⟩
                  cases (complete_iff.mp complete).1
              | some value =>
                  rw [known] at complete_iff expands
                  have shorter := congrArg List.length inside
                  simp only [List.length_append, List.length_cons] at shorter
                  have parts : front ++ rest =
                      (front ++ before ++ '$' :: '{' :: name ++ ['}']) ++ last := by
                    rw [whole, inside]
                    simp
                  rw [parts]
                  obtain ⟨succeeds, fails⟩ := @ih last
                    (expanded ++ rest.take (front.length + before.length) ++ value)
                    (front ++ before ++ '$' :: '{' :: name ++ ['}']) (by omega)
                  have taken : (rest.take (front.length + before.length)).length =
                      min (front.length + before.length) rest.length := List.length_take
                  refine ⟨fun complete => ?_, fun incomplete => ?_⟩
                  · obtain ⟨result, outcome, exact', atLeast, more⟩ :=
                      succeeds (complete_iff.mp complete).2
                    simp only [List.length_append] at atLeast more
                    refine ⟨result, outcome, ?_, ?_, ?_⟩
                    · rintro (none | ⟨first, single⟩)
                      · rw [names] at none
                        cases none
                      · rw [names, List.length_cons] at single
                        have noMore : variableNames last = [] :=
                          List.eq_nil_of_length_eq_zero (by omega)
                        have copied : rest.take (front.length + before.length) = before := by
                          rw [first, whole, List.length_nil, Nat.zero_add, List.append_assoc,
                            List.take_left]
                        rw [exact' (.inl noMore), expands, copied]
                        simp
                    · rw [expands]
                      simp only [List.length_append, Option.getD_some]
                      omega
                    · rw [expands, names]
                      simp only [List.length_append, Option.getD_some, List.length_cons]
                      rintro (⟨read, -⟩ | many)
                      · have some := List.length_pos_of_ne_nil read
                        omega
                      · have further : variableNames last ≠ [] := by
                          intro none
                          rw [none] at many
                          exact absurd many (by decide)
                        have longer := more (.inl ⟨by simp, further⟩)
                        omega
                  · exact fails fun complete => incomplete (complete_iff.mpr ⟨rfl, complete⟩)

end Loop

section Expansion

open DataVariantSettings

/-- `expandString` ends; it replaces each variable by its value and does what `expandStr`
does with the same settings, or reports an error if a variable is not closed or not known. -/
def ExpandsString (settings : DataVariantSettings) (str : List Char) : Prop :=
  ∃ enough, ∀ rounds ≥ enough, ∃ result error,
    settings.expandString rounds str = some (result, error) ∧
      (Complete settings str → error = [] ∧ result = expansion str settings.find ∧
        expandStr rounds str settings.find = some result) ∧
      (¬ Complete settings str → error ≠ [] ∧ result = [])

theorem continues_expandString (enough : str.length ≤ rounds) :
    Continues settings [] [] str (settings.expandString rounds str) := by
  have same : settings.expandString rounds str = expandFrom settings rounds ([] ++ str) [] 0 := by
    rw [expandString, if_neg settings.registered, expandFrom, List.nil_append]
    cases findStr ['$', '{'] str 0 <;> rfl
  rw [same]
  exact continues_expandFrom enough

/-- It does so unless there are two variables or more, or one without a name at the end. -/
theorem expandsString_iff (settings : DataVariantSettings) (str : List Char) :
    ExpandsString settings str ↔ ¬ Complete settings str ∨
      (variableNames str).length ≤ 1 ∧
        ((textPieces str).getLast? ≠ some (.named []) ∨
          settings.find [] = some ['$', '{', '}']) := by
  rw [← copied_eq_expansion_iff]
  constructor
  · rintro ⟨enough, ends⟩
    by_cases complete : Complete settings str
    · obtain ⟨result, error, outcome, good, -⟩ :=
        ends (max enough str.length) (Nat.le_max_left _ _)
      obtain ⟨-, same, alike⟩ := good complete
      have reaches : str.length ≤ max enough str.length := Nat.le_max_right _ _
      obtain ⟨result', outcome', -, -, longer⟩ := (@continues_expandString settings _ _ reaches).1 complete
      have one : result' = result := by
        rw [outcome] at outcome'
        exact (Prod.mk.inj (Option.some.inj outcome')).1.symm
      rw [expandStr_eq reaches] at alike
      refine .inr ⟨?_, (Option.some.inj alike).trans same⟩
      by_contra many
      have less := longer (.inr (Nat.lt_of_not_le many))
      rw [one, same, List.nil_append] at less
      exact absurd less (Nat.lt_irrefl _)
    · exact .inl complete
  · intro holds
    refine ⟨str.length, fun rounds enough => ?_⟩
    obtain ⟨succeeds, fails⟩ := @continues_expandString settings _ _ enough
    by_cases complete : Complete settings str
    · rcases holds with incomplete | ⟨few, same⟩
      · exact absurd complete incomplete
      · obtain ⟨result, outcome, exact', -, -⟩ := succeeds complete
        have result_eq := exact' (.inr ⟨rfl, few⟩)
        rw [List.nil_append] at result_eq
        refine ⟨result, [], outcome, fun _ => ⟨rfl, result_eq, ?_⟩, fun incomplete => ?_⟩
        · rw [expandStr_eq enough, same, result_eq]
        · exact absurd complete incomplete
    · obtain ⟨error, outcome, nonempty⟩ := fails complete
      exact ⟨[], error, outcome, fun whole => absurd whole complete, fun _ => ⟨nonempty, rfl⟩⟩

/-- Two variables, behind the first of which the second is copied as well. -/
theorem second_variable_is_copied : ¬ ∀ settings str, ExpandsString settings str := by
  intro all
  let settings : DataVariantSettings :=
    { mSettings := [(['a'], ['x'])]
      registered := by simp }
  let variable' : List Char := ['$', '{', 'a', '}']
  have second : cutWord ['$', '{'] variable' = some ([], ['a', '}']) := by rfl
  have closesSecond : cutFirst '}' ['a', '}'] = some (['a'], []) := by rfl
  have first : cutWord ['$', '{'] (variable' ++ variable') = some ([], ['a', '}'] ++ variable') :=
    by rfl
  have closesFirst : cutFirst '}' (['a', '}'] ++ variable') = some (['a'], variable') := by rfl
  have complete : Complete settings (variable' ++ variable') :=
    (complete_of_cut first closesFirst).mpr
      ⟨rfl, (complete_of_cut second closesSecond).mpr ⟨rfl, complete_of_no_cut rfl⟩⟩
  have names : variableNames (variable' ++ variable') = ['a'] :: ['a'] :: variableNames [] := by
    rw [(@variableNames_of_cut settings _ _ _ _ _ first closesFirst).1,
      (@variableNames_of_cut settings _ _ _ _ _ second closesSecond).1]
  obtain ⟨enough, ends⟩ := all settings (variable' ++ variable')
  obtain ⟨result, error, outcome, good, -⟩ :=
    ends (max enough (variable' ++ variable').length) (Nat.le_max_left _ _)
  obtain ⟨result', outcome', -, -, longer⟩ :=
    (@continues_expandString settings _ _ (Nat.le_max_right _ _)).1 complete
  have less := longer (.inr (by rw [names]; simp))
  rw [outcome] at outcome'
  rw [← (Prod.mk.inj (Option.some.inj outcome')).1, (good complete).2.1] at less
  exact absurd less (Nat.lt_irrefl _)

end Expansion

end OpenMplane
