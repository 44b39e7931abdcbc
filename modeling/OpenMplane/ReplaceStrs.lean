import OpenMplane.ListCut
import Mathlib.Data.List.Basic

/-!
# Replacing a part of a text

The model of `replaceStrs`, which searches in the text that it is rewriting, from behind
what it has put in.  What it makes is compared with one pass over the text as it was
given, in which each occurrence is replaced where it is met.
-/

namespace OpenMplane.StringFunc

open ListCut

/-- `find`: where a text occurs first from a position on. -/
def findStr (wanted str : List Char) (pos : Nat) : Option Nat :=
  if pos ≤ str.length then (cutWord wanted (str.drop pos)).map fun cut => pos + cut.1.length
  else none

/-- The loop of `replaceStrs`. -/
def replaceLoop (strToReplace replacement : List Char) :
    Nat → List Char → Option Nat → Option (List Char)
  | _, result, none => some result
  | 0, _, some _ => none
  | rounds + 1, result, some pos =>
      let result := result.take pos ++ (replacement ++ result.drop (pos + strToReplace.length))
      replaceLoop strToReplace replacement rounds result
        (findStr strToReplace result (pos + replacement.length))

/-- `replaceStrs`, with as many rounds of its loop as are given. -/
def replaceStrs (rounds : Nat) (str strToReplace replacement : List Char) :
    Option (List Char) :=
  replaceLoop strToReplace replacement rounds str (findStr strToReplace str 0)

/-- One pass from the left, which replaces each occurrence it meets and goes on behind. -/
def replaced (wanted replacement str : List Char) : List Char :=
  match str with
  | [] => []
  | letter :: rest =>
      if wanted ≠ [] ∧ wanted <+: letter :: rest then
        replacement ++ replaced wanted replacement ((letter :: rest).drop wanted.length)
      else letter :: replaced wanted replacement rest
termination_by str.length
decreasing_by
  · next occurs =>
      have some := List.length_pos_of_ne_nil occurs.1
      rw [List.length_drop, List.length_cons]
      omega
  · exact Nat.lt_succ_self _

variable {str wanted strToReplace replacement result front rest before after : List Char}
  {rounds : Nat}

section Pass

theorem replaced_nil : replaced wanted replacement [] = [] := by
  rw [replaced]

/-- The pass copies what stands before the first occurrence. -/
theorem replaced_of_cutWord (nonempty : wanted ≠ [])
    (cut : cutWord wanted str = some (before, after)) :
    replaced wanted replacement str =
      before ++ (replacement ++ replaced wanted replacement after) := by
  induction str generalizing before with
  | nil =>
      rw [cutWord, if_neg nonempty] at cut
      cases cut
  | cons letter rest ih =>
      rw [cutWord] at cut
      rw [replaced]
      split at cut
      · next occurs =>
          cases cut
          rw [if_pos ⟨nonempty, occurs⟩, List.nil_append]
      · next absent =>
          rw [Option.map_eq_some_iff] at cut
          obtain ⟨⟨start, last⟩, found, same⟩ := cut
          cases same
          rw [if_neg (fun occurs => absent occurs.2), ih found, List.cons_append]

/-- The pass copies a text without an occurrence. -/
theorem replaced_of_none (cut : cutWord wanted str = none) :
    replaced wanted replacement str = str := by
  induction str with
  | nil => exact replaced_nil
  | cons letter rest ih =>
      rw [cutWord] at cut
      split at cut
      · cases cut
      · next absent =>
          rw [Option.map_eq_none_iff] at cut
          rw [replaced, if_neg (fun occurs => absent occurs.2), ih cut]

end Pass

section Loop

theorem findStr_append (front rest : List Char) :
    findStr wanted (front ++ rest) front.length =
      (cutWord wanted rest).map fun cut => front.length + cut.1.length := by
  rw [findStr, if_pos (by simp), List.drop_left]

/-- Behind what has been rewritten the loop goes on as the pass does. -/
theorem replaceLoop_eq (nonempty : wanted ≠ []) (enough : rest.length ≤ rounds) :
    replaceLoop wanted replacement rounds (front ++ rest)
        (findStr wanted (front ++ rest) front.length) =
      some (front ++ replaced wanted replacement rest) := by
  induction rounds generalizing front rest with
  | zero =>
      have none : rest = [] := List.eq_nil_of_length_eq_zero (Nat.le_zero.mp enough)
      rw [none, findStr_append, cutWord, if_neg nonempty, replaced_nil]
      rfl
  | succ rounds ih =>
      rw [findStr_append]
      cases cut : cutWord wanted rest with
      | none =>
          rw [replaced_of_none cut]
          rfl
      | some parts =>
          obtain ⟨before, after⟩ := parts
          obtain ⟨whole, -⟩ := cutWord_eq_some cut
          have some := List.length_pos_of_ne_nil nonempty
          have size := congrArg List.length whole
          rw [List.length_append, List.length_append] at size
          have start : (front ++ rest).take (front.length + before.length) = front ++ before := by
            rw [whole, List.append_assoc, ← List.append_assoc, ← List.length_append,
              List.take_left]
          have last : (front ++ rest).drop (front.length + before.length + wanted.length) =
              after := by
            rw [whole, ← List.append_assoc, ← List.append_assoc, ← List.length_append,
              ← List.length_append, List.drop_left]
          have next : front.length + before.length + replacement.length =
              (front ++ before ++ replacement).length := by
            simp only [List.length_append]
          rw [Option.map_some, replaceLoop]
          dsimp only
          rw [start, last, ← List.append_assoc, next, ih (by omega),
            replaced_of_cutWord nonempty cut]
          simp only [List.append_assoc]

/-- A search for nothing is always successful, so the loop never ends. -/
theorem replaceLoop_of_nil {pos : Nat} (inside : pos ≤ result.length) :
    replaceLoop [] replacement rounds result (findStr [] result pos) = none := by
  have found {list : List Char} : cutWord [] list = some ([], list) := by
    cases list <;> simp [cutWord]
  induction rounds generalizing result pos with
  | zero =>
      rw [findStr, if_pos inside, found]
      rfl
  | succ rounds ih =>
      rw [findStr, if_pos inside, found, Option.map_some, replaceLoop]
      apply ih
      simp only [List.length_append, List.length_take, List.length_drop, List.length_nil]
      omega

end Loop

section Replaces

/-- Where the text to replace is not empty, the loop makes what one pass makes. -/
theorem replaceStrs_eq (nonempty : strToReplace ≠ []) (enough : str.length ≤ rounds) :
    replaceStrs rounds str strToReplace replacement =
      some (replaced strToReplace replacement str) :=
  @replaceLoop_eq strToReplace replacement [] str rounds nonempty enough

/-- `replaceStrs` ends, and makes what one pass makes. -/
def Replaces (str strToReplace replacement : List Char) : Prop :=
  ∃ enough, ∀ rounds ≥ enough,
    replaceStrs rounds str strToReplace replacement =
      some (replaced strToReplace replacement str)

theorem not_replaces_nil (str replacement : List Char) : ¬ Replaces str [] replacement := by
  rintro ⟨enough, ends⟩
  have result := ends enough (Nat.le_refl _)
  rw [replaceStrs, replaceLoop_of_nil (Nat.zero_le _)] at result
  cases result

/-- It does so unless it is to search for nothing. -/
theorem replaces_iff (str strToReplace replacement : List Char) :
    Replaces str strToReplace replacement ↔ strToReplace ≠ [] := by
  constructor
  · rintro replaces rfl
    exact not_replaces_nil str replacement replaces
  · intro nonempty
    exact ⟨str.length, fun rounds enough => replaceStrs_eq nonempty enough⟩

/-- A search for nothing does not end. -/
theorem nothing_is_not_replaced : ¬ ∀ str strToReplace replacement,
    Replaces str strToReplace replacement :=
  fun all => not_replaces_nil ['a'] ['b'] (all ['a'] [] ['b'])

end Replaces

end OpenMplane.StringFunc
