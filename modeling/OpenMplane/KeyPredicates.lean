import OpenMplane.ListCut
import OpenMplane.StdString

/-!
# Key predicates of list entries

`RadioDatastoreSysrepo::getListItems` cuts the key predicates out of the xpath of each list
entry: what stands between a `[` and the next `]`, then it goes on behind that.  A value with
brackets in it is cut as well, so that a key with a `]` does not come out in one piece, and
a part of a key may come out as if it were one.
-/

namespace OpenMplane

open ListCut

/-- What is between the brackets of a text, from the front on. -/
def pairsOf (text : List Char) : List (List Char) :=
  match _ : cutFirst '[' text with
  | none => []
  | some (_, behind) =>
      match _ : cutFirst ']' behind with
      | none => []
      | some (pair, rest) => pair :: pairsOf rest
termination_by text.length
decreasing_by
  have opening := (cutFirst_eq_some.mp ‹cutFirst '[' text = _›).1
  have closing := (cutFirst_eq_some.mp ‹cutFirst ']' behind = _›).1
  rw [opening, closing]
  simp only [List.length_append, List.length_cons]
  omega

/-- The loop of `getListItems` over one xpath, for at most so many rounds; the position is an
`unsigned int`. -/
def keyValuePairs (listInstancePath : List Char) : Nat → Nat → Option (List (List Char))
  | 0, _ => none
  | rounds + 1, pos =>
      if listInstancePath.length < pos then some []
      else
        match cutFirst '[' (listInstancePath.drop pos) with
        | none => some []
        | some (before, behind) =>
            match cutFirst ']' behind with
            | none => some []
            | some (keyValuePair, _) =>
                let keyEndPos := pos + before.length + 1 + keyValuePair.length
                (keyValuePairs listInstancePath rounds (keyEndPos % 2 ^ 32)).map (keyValuePair :: ·)

def bracketStep (inside : Bool) (letter : Char) : Bool :=
  if inside then letter != ']' else letter == '['

/-- Whether the text goes on between brackets. -/
def inBrackets (text : List Char) : Bool := text.foldl bracketStep false

/-- A text has a pair between brackets that are not in other brackets themselves. -/
def Mentions (text pair : List Char) : Prop :=
  ∃ before after, text = before ++ '[' :: (pair ++ ']' :: after) ∧ ']' ∉ pair ∧
    inBrackets before = false

section Pairs

variable {text before behind pair rest : List Char}

theorem pairsOf_of_notMem (absent : '[' ∉ text) : pairsOf text = [] := by
  rw [pairsOf]
  split
  · rfl
  · next opened => exact absurd (opened.symm.trans (cutFirst_eq_none.mpr absent)) nofun

/-- The first pair, and those behind it. -/
theorem pairsOf_append (noOpening : '[' ∉ before) (noClosing : ']' ∉ pair) :
    pairsOf (before ++ '[' :: (pair ++ ']' :: rest)) = pair :: pairsOf rest := by
  have opens := cutFirst_append (pair ++ ']' :: rest) noOpening
  have closes := cutFirst_append rest noClosing
  rw [pairsOf]
  split
  · next none => exact absurd (opens.symm.trans none) nofun
  · next behind opened =>
      obtain rfl : pair ++ ']' :: rest = behind :=
        (Prod.mk.inj (Option.some.inj (opens.symm.trans opened))).2
      split
      · next none => exact absurd (closes.symm.trans none) nofun
      · next closed =>
          obtain ⟨rfl, rfl⟩ := Prod.mk.inj (Option.some.inj (closes.symm.trans closed))
          rfl

/-- A bracket that is not closed gives nothing. -/
theorem pairsOf_of_open (noOpening : '[' ∉ before) (noClosing : ']' ∉ behind) :
    pairsOf (before ++ '[' :: behind) = [] := by
  have opens := cutFirst_append behind noOpening
  rw [pairsOf]
  split
  · rfl
  · next other opened =>
      obtain rfl : behind = other := (Prod.mk.inj (Option.some.inj (opens.symm.trans opened))).2
      split
      · rfl
      · next closed => exact absurd (closed.symm.trans (cutFirst_eq_none.mpr noClosing)) nofun

/-- A text has no bracket, or one that is not closed, or a first pair. -/
theorem brackets_cases (text : List Char) :
    ('[' ∉ text) ∨
      (∃ before behind, text = before ++ '[' :: behind ∧ '[' ∉ before ∧ ']' ∉ behind) ∨
      ∃ before pair rest, text = before ++ '[' :: (pair ++ ']' :: rest) ∧ '[' ∉ before ∧
        ']' ∉ pair := by
  cases opened : cutFirst '[' text with
  | none => exact Or.inl (cutFirst_eq_none.mp opened)
  | some cut =>
      obtain ⟨before, behind⟩ := cut
      obtain ⟨rfl, noOpening⟩ := cutFirst_eq_some.mp opened
      cases closed : cutFirst ']' behind with
      | none => exact Or.inr (Or.inl ⟨before, behind, rfl, noOpening, cutFirst_eq_none.mp closed⟩)
      | some cut =>
          obtain ⟨pair, rest⟩ := cut
          obtain ⟨rfl, noClosing⟩ := cutFirst_eq_some.mp closed
          exact Or.inr (Or.inr ⟨before, pair, rest, rfl, noOpening, noClosing⟩)

/-- What stands before the first bracket makes no difference. -/
theorem pairsOf_skip (noOpening : '[' ∉ before) (text : List Char) :
    pairsOf (before ++ text) = pairsOf text := by
  rcases brackets_cases text with absent | ⟨first, behind, rfl, noFirst, noClosing⟩ |
    ⟨first, pair, rest, rfl, noFirst, noClosing⟩
  · rw [pairsOf_of_notMem absent, pairsOf_of_notMem]
    exact List.not_mem_append noOpening absent
  · rw [pairsOf_of_open noFirst noClosing, ← List.append_assoc,
      pairsOf_of_open (List.not_mem_append noOpening noFirst) noClosing]
  · rw [pairsOf_append noFirst noClosing, ← List.append_assoc,
      pairsOf_append (List.not_mem_append noOpening noFirst) noClosing]

theorem foldl_of_notMem_opening {text : List Char} (absent : '[' ∉ text) :
    text.foldl bracketStep false = false := by
  induction text with
  | nil => rfl
  | cons letter text ih =>
      rw [List.mem_cons, not_or] at absent
      have stays : bracketStep false letter = false := beq_eq_false_iff_ne.mpr (Ne.symm absent.1)
      rw [List.foldl_cons, stays, ih absent.2]

theorem foldl_of_notMem_closing {text : List Char} (absent : ']' ∉ text) :
    text.foldl bracketStep true = true := by
  induction text with
  | nil => rfl
  | cons letter text ih =>
      rw [List.mem_cons, not_or] at absent
      have stays : bracketStep true letter = true := bne_iff_ne.mpr (Ne.symm absent.1)
      rw [List.foldl_cons, stays, ih absent.2]

theorem inBrackets_of_open (noOpening : '[' ∉ before) (noClosing : ']' ∉ behind) :
    inBrackets (before ++ '[' :: behind) = true := by
  change (before ++ '[' :: behind).foldl bracketStep false = true
  rw [List.foldl_append, foldl_of_notMem_opening noOpening, List.foldl_cons]
  exact foldl_of_notMem_closing noClosing

theorem inBrackets_append (noOpening : '[' ∉ before) (noClosing : ']' ∉ pair) :
    inBrackets (before ++ '[' :: (pair ++ ']' :: rest)) = inBrackets rest := by
  change (before ++ '[' :: (pair ++ ']' :: rest)).foldl bracketStep false =
    rest.foldl bracketStep false
  rw [List.foldl_append, foldl_of_notMem_opening noOpening, List.foldl_cons, List.foldl_append]
  rw [show bracketStep false '[' = true from rfl, foldl_of_notMem_closing noClosing]
  rfl

theorem mentions_of_mem_pairsOf {text : List Char} (member : pair ∈ pairsOf text) :
    Mentions text pair := by
  rcases brackets_cases text with absent | ⟨before, behind, rfl, noOpening, noClosing⟩ |
    ⟨before, first, rest, rfl, noOpening, noClosing⟩
  · rw [pairsOf_of_notMem absent] at member
    cases member
  · rw [pairsOf_of_open noOpening noClosing] at member
    cases member
  · rw [pairsOf_append noOpening noClosing] at member
    rcases List.mem_cons.mp member with rfl | later
    · exact ⟨before, rest, rfl, noClosing, foldl_of_notMem_opening noOpening⟩
    · obtain ⟨middle, after, rfl, absent, outside⟩ := mentions_of_mem_pairsOf later
      refine ⟨before ++ '[' :: (first ++ ']' :: middle), after, ?_, absent, ?_⟩
      · simp only [List.append_assoc, List.cons_append]
      · rw [inBrackets_append noOpening noClosing, outside]
termination_by text.length
decreasing_by
  subst_vars
  simp only [List.length_append, List.length_cons]
  omega

theorem mem_pairsOf_of_mentions {before after : List Char} (noClosing : ']' ∉ pair)
    (outside : inBrackets before = false) :
    pair ∈ pairsOf (before ++ '[' :: (pair ++ ']' :: after)) := by
  rcases brackets_cases before with absent | ⟨first, behind, rfl, noOpening, noEnd⟩ |
    ⟨first, other, rest, rfl, noOpening, noEnd⟩
  · rw [pairsOf_append absent noClosing]
    exact List.mem_cons_self
  · rw [inBrackets_of_open noOpening noEnd] at outside
    exact absurd outside Bool.noConfusion
  · rw [inBrackets_append noOpening noEnd] at outside
    have later : pair ∈ pairsOf (rest ++ '[' :: (pair ++ ']' :: after)) :=
      mem_pairsOf_of_mentions noClosing outside
    have shape : first ++ '[' :: (other ++ ']' :: rest) ++ '[' :: (pair ++ ']' :: after) =
        first ++ '[' :: (other ++ ']' :: (rest ++ '[' :: (pair ++ ']' :: after))) := by
      simp only [List.append_assoc, List.cons_append]
    rw [shape, pairsOf_append noOpening noEnd]
    exact List.mem_cons_of_mem other later
termination_by before.length
decreasing_by
  subst_vars
  simp only [List.length_append, List.length_cons]
  omega

theorem mem_pairsOf_iff {text : List Char} : pair ∈ pairsOf text ↔ Mentions text pair := by
  constructor
  · exact mentions_of_mem_pairsOf
  · rintro ⟨before, after, rfl, noClosing, outside⟩
    exact mem_pairsOf_of_mentions noClosing outside

/-- The loop ends with the pairs of the text behind the position. -/
theorem keyValuePairs_eq {path : List Char} (short : path.length < 2 ^ 32) {rounds pos : Nat}
    (enough : path.length < pos + rounds) (inside : pos ≤ path.length) :
    keyValuePairs path rounds pos = some (pairsOf (path.drop pos)) := by
  induction rounds generalizing pos with
  | zero => omega
  | succ rounds ih =>
      rw [keyValuePairs, if_neg (Nat.not_lt.mpr inside)]
      generalize rest : path.drop pos = text
      rcases brackets_cases text with absent | ⟨before, behind, rfl, noOpening, noClosing⟩ |
        ⟨before, pair, behind, rfl, noOpening, noClosing⟩
      · rw [cutFirst_eq_none.mpr absent, pairsOf_of_notMem absent]
      · rw [cutFirst_append behind noOpening, pairsOf_of_open noOpening noClosing]
        dsimp only
        rw [cutFirst_eq_none.mpr noClosing]
      · rw [cutFirst_append _ noOpening]
        dsimp only
        rw [cutFirst_append behind noClosing]
        dsimp only
        have length := congrArg List.length rest
        simp only [List.length_drop, List.length_append, List.length_cons] at length
        have small : (pos + before.length + 1 + pair.length) % 2 ^ 32 =
            pos + before.length + 1 + pair.length := Nat.mod_eq_of_lt (by omega)
        have behindHere : path.drop (pos + before.length + 1 + pair.length) = ']' :: behind := by
          have position : pos + before.length + 1 + pair.length =
              pos + (before ++ '[' :: pair).length := by
            simp only [List.length_append, List.length_cons]
            omega
          have shape : before ++ '[' :: (pair ++ ']' :: behind) =
              (before ++ '[' :: pair) ++ ']' :: behind := by
            simp only [List.append_assoc, List.cons_append]
          rw [position, ← List.drop_drop, rest, shape, List.drop_left]
        rw [small, ih (by omega) (by omega), behindHere, pairsOf_append noOpening noClosing]
        have skipped := @pairsOf_skip [']'] (by decide) behind
        rw [List.singleton_append] at skipped
        rw [skipped]
        rfl

end Pairs

end OpenMplane
