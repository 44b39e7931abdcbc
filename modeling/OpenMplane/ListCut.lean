import Mathlib.Data.List.Basic

/-!
# Cutting a list at a separator

A hand-written scanner looks for the first or the last occurrence of a
character, or for the first occurrence of a fixed word, and goes on with what
stands before and after it.  This file defines the three cuts on lists over an
arbitrary type and proves when each one is found and what it yields.
-/

namespace ListCut

variable {α : Type*} [DecidableEq α]

def cutFirst (separator : α) : List α → Option (List α × List α)
  | [] => none
  | head :: tail =>
      if head = separator then some ([], tail)
      else (cutFirst separator tail).map fun cut => (head :: cut.1, cut.2)

/-- What stands before and after the last occurrence of `separator`. -/
def cutLast (separator : α) (list : List α) : Option (List α × List α) :=
  (cutFirst separator list.reverse).map fun cut => (cut.2.reverse, cut.1.reverse)

/-- What stands before and after the first occurrence of the word `word`. -/
def cutWord (word : List α) : List α → Option (List α × List α)
  | [] => if word = [] then some ([], []) else none
  | head :: tail =>
      if word <+: head :: tail then some ([], (head :: tail).drop word.length)
      else (cutWord word tail).map fun cut => (head :: cut.1, cut.2)

/-- The pieces of a list between the occurrences of `separator`. -/
def pieces (separator : α) : List α → List (List α)
  | [] => [[]]
  | head :: tail =>
      if head = separator then [] :: pieces separator tail
      else match pieces separator tail with
        | [] => [[head]]
        | first :: rest => (head :: first) :: rest

theorem cutFirst_append {separator : α} {before : List α} (after : List α)
    (absent : separator ∉ before) :
    cutFirst separator (before ++ separator :: after) = some (before, after) := by
  induction before with
  | nil => simp [cutFirst]
  | cons head before ih =>
      rw [List.mem_cons, not_or] at absent
      simp [cutFirst, Ne.symm absent.1, ih absent.2]

theorem cutFirst_eq_none {separator : α} {list : List α} :
    cutFirst separator list = none ↔ separator ∉ list := by
  induction list with
  | nil => simp [cutFirst]
  | cons head tail ih =>
      by_cases same : head = separator
      · simp [cutFirst, same]
      · simp [cutFirst, same, ih, Ne.symm same]

theorem cutFirst_eq_some {separator : α} {list before after : List α} :
    cutFirst separator list = some (before, after) ↔
      list = before ++ separator :: after ∧ separator ∉ before := by
  constructor
  · intro found
    induction list generalizing before with
    | nil => simp [cutFirst] at found
    | cons head tail ih =>
        by_cases same : head = separator
        · simp only [cutFirst, same, ↓reduceIte, Option.some.injEq, Prod.mk.injEq] at found
          simp [← found.1, ← found.2, same]
        · simp only [cutFirst, same, ↓reduceIte, Option.map_eq_some_iff, Prod.mk.injEq] at found
          obtain ⟨cut, found, rfl, rfl⟩ := found
          obtain ⟨split, absent⟩ := ih found
          exact ⟨by simp [split], by simp [absent, Ne.symm same]⟩
  · rintro ⟨rfl, absent⟩
    exact cutFirst_append after absent

theorem cutLast_append {separator : α} (before : List α) {after : List α}
    (absent : separator ∉ after) :
    cutLast separator (before ++ separator :: after) = some (before, after) := by
  have reversed : (before ++ separator :: after).reverse =
      after.reverse ++ separator :: before.reverse := by simp
  rw [cutLast, reversed, cutFirst_append _ (by simpa using absent)]
  simp

theorem cutLast_eq_none {separator : α} {list : List α} :
    cutLast separator list = none ↔ separator ∉ list := by
  simp [cutLast, cutFirst_eq_none]

theorem cutLast_eq_some {separator : α} {list before after : List α} :
    cutLast separator list = some (before, after) ↔
      list = before ++ separator :: after ∧ separator ∉ after := by
  constructor
  · intro found
    rw [cutLast, Option.map_eq_some_iff] at found
    obtain ⟨cut, found, same⟩ := found
    obtain ⟨split, absent⟩ := cutFirst_eq_some.mp found
    obtain ⟨rfl, rfl⟩ := Prod.mk.inj same
    rw [List.reverse_eq_iff] at split
    exact ⟨by simpa using split, by simpa using absent⟩
  · rintro ⟨rfl, absent⟩
    exact cutLast_append before absent

omit [DecidableEq α] in
/-- A word without the separator stands on one side of it. -/
theorem infix_of_infix_separator {separator : α} {word before after : List α}
    (absent : separator ∉ word) (found : word <:+: before ++ separator :: after) :
    word <:+: before ∨ word <:+: after := by
  have alone : ∀ {start : List α}, start <+: separator :: after → separator ∉ start →
      start = [] := by
    intro start leads absent
    cases start with
    | nil => rfl
    | cons head start =>
        obtain ⟨rfl, -⟩ := List.cons_prefix_cons.mp leads
        exact absurd List.mem_cons_self absent
  rcases List.infix_append_iff.mp found with left | right | ⟨first, second, rfl, ends, leads⟩
  · exact Or.inl left
  · rcases List.infix_cons_iff.mp right with leads | right
    · rw [alone leads absent]
      exact Or.inl List.nil_infix
    · exact Or.inr right
  · rw [List.mem_append, not_or] at absent
    rw [alone leads absent.2, List.append_nil]
    exact Or.inl ends.isInfix

/-- The word is found where it stands, unless an occurrence overlaps what
stands before it. -/
theorem cutWord_append {word before : List α} (after : List α)
    (earliest : ∀ start rest, before = start ++ rest → rest ≠ [] →
      ¬ word <+: rest ++ word ++ after) :
    cutWord word (before ++ word ++ after) = some (before, after) := by
  induction before with
  | nil =>
      cases word with
      | nil => cases after <;> simp [cutWord]
      | cons first word => simp [cutWord]
  | cons head before ih =>
      have notHere : ¬ word <+: head :: before ++ word ++ after :=
        earliest [] (head :: before) rfl (by simp)
      have found := ih fun start rest split nonempty =>
        earliest (head :: start) rest (by simp [split]) nonempty
      simp only [List.cons_append] at notHere ⊢
      rw [cutWord, if_neg notHere, found, Option.map_some]

/-- A word that was found stands there, and no occurrence of it begins
earlier. -/
theorem cutWord_eq_some {word list before after : List α}
    (found : cutWord word list = some (before, after)) :
    list = before ++ word ++ after ∧ ∀ start rest, before = start ++ rest → rest ≠ [] →
      ¬ word <+: rest ++ word ++ after := by
  induction list generalizing before with
  | nil =>
      by_cases empty : word = []
      · simp only [cutWord, empty, ↓reduceIte, Option.some.injEq, Prod.mk.injEq] at found
        obtain ⟨rfl, rfl⟩ := found
        simp [empty]
      · simp [cutWord, empty] at found
  | cons head tail ih =>
      by_cases here : word <+: head :: tail
      · simp only [cutWord, here, ↓reduceIte, Option.some.injEq, Prod.mk.injEq] at found
        obtain ⟨rfl, rfl⟩ := found
        obtain ⟨rest, whole⟩ := here
        refine ⟨by simp [← whole], ?_⟩
        intro start rest split nonempty
        have both := List.append_eq_nil_iff.mp split.symm
        exact absurd both.2 nonempty
      · simp only [cutWord, here, ↓reduceIte, Option.map_eq_some_iff, Prod.mk.injEq] at found
        obtain ⟨cut, found, rfl, rfl⟩ := found
        obtain ⟨whole, earliest⟩ := ih found
        refine ⟨by simp [whole], ?_⟩
        intro start rest split nonempty
        cases start with
        | nil =>
            have same : rest ++ word ++ cut.2 = head :: tail := by
              rw [← List.nil_append rest, ← split, whole]
              simp
            rwa [same]
        | cons first start =>
            simp only [List.cons_append, List.cons.injEq] at split
            exact earliest start rest split.2 nonempty

theorem pieces_append {separator : α} {before : List α} (after : List α)
    (absent : separator ∉ before) :
    pieces separator (before ++ separator :: after) = before :: pieces separator after := by
  induction before with
  | nil => simp [pieces]
  | cons head before ih =>
      rw [List.mem_cons, not_or] at absent
      simp [pieces, Ne.symm absent.1, ih absent.2]

/-- A text whose lines each end in the separator falls into those lines and
one empty piece behind the last separator. -/
theorem pieces_flatMap {separator : α} (lines : List (List α))
    (absent : ∀ line ∈ lines, separator ∉ line) :
    pieces separator (lines.flatMap fun line => line ++ [separator]) = lines ++ [[]] := by
  induction lines with
  | nil => simp [pieces]
  | cons line lines ih =>
      have head := absent line (by simp)
      have tail := ih fun other member => absent other (by simp [member])
      simp [pieces_append _ head, tail]

end ListCut
