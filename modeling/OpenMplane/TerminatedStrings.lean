import Mathlib.Algebra.Ring.Nat
import Mathlib.Data.List.Basic

/-!
# Rows of terminated strings

A row of strings is laid out as each string followed by a mark, with one more
mark at the end.  The reader takes a string up to the next mark, or up to the
end of the data when no mark is left, and stops at the first empty string.  A
row of nonempty strings without the mark is read back from its layout, also
when the closing mark, or that mark and the one of the last string, were cut
off; and no data gives a row that is more than one longer than itself.
-/

namespace TerminatedStrings

variable {α : Type} [DecidableEq α] (mark : α)

/-- One string and what is left of the data behind its mark. -/
def readString : List α → List α × List α
  | [] => ([], [])
  | letter :: rest =>
      if letter = mark then ([], rest)
      else (letter :: (readString rest).1, (readString rest).2)

variable {mark}

theorem readString_append {text : List α} (unmarked : mark ∉ text) (rest : List α) :
    readString mark (text ++ mark :: rest) = (text, rest) := by
  induction text with
  | nil => simp [readString]
  | cons letter text ih =>
      have other : letter ≠ mark := fun same => unmarked (same ▸ List.mem_cons_self)
      have tail : mark ∉ text := fun member => unmarked (List.mem_cons_of_mem _ member)
      simp [readString, other, ih tail]

theorem readString_end {text : List α} (unmarked : mark ∉ text) :
    readString mark text = (text, []) := by
  induction text with
  | nil => rfl
  | cons letter text ih =>
      have other : letter ≠ mark := fun same => unmarked (same ▸ List.mem_cons_self)
      have tail : mark ∉ text := fun member => unmarked (List.mem_cons_of_mem _ member)
      simp [readString, other, ih tail]

theorem notMem_readString (data : List α) : mark ∉ (readString mark data).1 := by
  induction data with
  | nil => simp [readString]
  | cons letter data ih =>
      by_cases same : letter = mark
      · simp [readString, same]
      · simp [readString, same, ih, Ne.symm same]

/-- The string that was read and its mark come out of the data; at the end of
the data the mark may be missing. -/
theorem length_readString_le (data : List α) :
    (readString mark data).1.length + (readString mark data).2.length ≤ data.length := by
  induction data with
  | nil => simp [readString]
  | cons letter data ih =>
      by_cases same : letter = mark
      · simp [readString, same]
      · simp only [readString, same, if_false, List.length_cons]
        omega

theorem length_lt_of_rest {data : List α} (left : (readString mark data).2 ≠ []) :
    (readString mark data).1.length + (readString mark data).2.length < data.length := by
  induction data with
  | nil => simp [readString] at left
  | cons letter data ih =>
      by_cases same : letter = mark
      · simp [readString, same]
      · simp only [readString, same, if_false, List.length_cons] at left ⊢
        have shorter := ih left
        omega

variable (mark)

/-- The reading loop with a bound on its turns. -/
def readUpTo : Nat → List α → List (List α)
  | 0, _ => []
  | turns + 1, data =>
      if (readString mark data).1 = [] then []
      else (readString mark data).1 :: readUpTo turns (readString mark data).2

/-- The strings up to the first empty one. -/
def readStrings (data : List α) : List (List α) :=
  readUpTo mark data.length data

variable {mark}

theorem readUpTo_eq {turns : Nat} {data : List α} (enough : data.length ≤ turns) :
    readUpTo mark turns data = readStrings mark data := by
  have agree : ∀ first second (data : List α), data.length ≤ first → data.length ≤ second →
      readUpTo mark first data = readUpTo mark second data := by
    intro first
    induction first with
    | zero =>
        intro second data short _
        have none : data = [] := List.length_eq_zero_iff.mp (by omega)
        cases second <;> simp [readUpTo, none, readString]
    | succ first ih =>
        intro second data firstEnough secondEnough
        cases second with
        | zero =>
            have none : data = [] := List.length_eq_zero_iff.mp (by omega)
            simp [readUpTo, none, readString]
        | succ second =>
            simp only [readUpTo]
            split
            · rfl
            next nonempty =>
              -- a nonempty string takes at least one letter off the data
              have shorter := @length_readString_le _ _ mark data
              have positive := List.length_pos_iff.mpr nonempty
              rw [ih second _ (by omega) (by omega)]
  exact agree turns data.length data enough (Nat.le_refl _)

theorem readStrings_step (data : List α) :
    readStrings mark data =
      if (readString mark data).1 = [] then []
      else (readString mark data).1 :: readStrings mark (readString mark data).2 := by
  cases data with
  | nil => simp [readStrings, readUpTo, readString]
  | cons letter data =>
      rw [readStrings, List.length_cons, readUpTo]
      split
      · rfl
      next nonempty =>
        have shorter := @length_readString_le _ _ mark (letter :: data)
        have positive := List.length_pos_iff.mpr nonempty
        rw [List.length_cons] at shorter
        rw [readUpTo_eq (by omega)]

theorem readStrings_nil : readStrings mark [] = [] := rfl

/-- Proofs about all data follow the turns of the loop. -/
theorem readStrings_induction {motive : List α → Prop}
    (stop : ∀ data, (readString mark data).1 = [] → motive data)
    (turn : ∀ data, (readString mark data).1 ≠ [] → motive (readString mark data).2 → motive data)
    (data : List α) : motive data := by
  induction size : data.length using Nat.strongRecOn generalizing data with
  | ind length ih =>
      by_cases empty : (readString mark data).1 = []
      · exact stop data empty
      · have shorter := @length_readString_le _ _ mark data
        have positive := List.length_pos_iff.mpr empty
        exact turn data empty (ih _ (by omega) _ rfl)

theorem mem_readStrings {data text : List α} (member : text ∈ readStrings mark data) :
    text ≠ [] ∧ mark ∉ text := by
  induction data using @readStrings_induction _ _ mark with
  | stop data empty => simp [readStrings_step data, empty] at member
  | turn data nonempty ih =>
      rw [readStrings_step data, if_neg nonempty] at member
      rcases List.mem_cons.mp member with rfl | later
      · exact ⟨nonempty, notMem_readString data⟩
      · exact ih later

/-- The letters of a row with one mark behind each string. -/
def weight (row : List (List α)) : Nat :=
  (row.map (fun text => text.length + 1)).sum

omit [DecidableEq α] in
@[simp] theorem weight_nil : weight ([] : List (List α)) = 0 := rfl

omit [DecidableEq α] in
@[simp] theorem weight_cons (text : List α) (row : List (List α)) :
    weight (text :: row) = text.length + 1 + weight row := by
  simp [weight]

omit [DecidableEq α] in
theorem weight_perm {first second : List (List α)} (same : first.Perm second) :
    weight first = weight second :=
  (same.map _).sum_nat

theorem weight_readStrings_le (data : List α) :
    weight (readStrings mark data) ≤ data.length + 1 := by
  induction data using @readStrings_induction _ _ mark with
  | stop data empty => simp [readStrings_step data, empty]
  | turn data nonempty ih =>
      rw [readStrings_step data, if_neg nonempty, weight_cons]
      by_cases last : (readString mark data).2 = []
      · have shorter := @length_readString_le _ _ mark data
        rw [last, readStrings_nil, weight_nil]
        omega
      · have shorter := length_lt_of_rest last
        omega

/-- A row without repetition weighs no more than a row that has its strings. -/
theorem weight_le_of_subset {first second : List (List α)} (distinct : first.Nodup)
    (subset : first ⊆ second) : weight first ≤ weight second := by
  induction first generalizing second with
  | nil => simp
  | cons text first ih =>
      obtain ⟨fresh, rest⟩ := List.nodup_cons.mp distinct
      have member : text ∈ second := subset List.mem_cons_self
      have others : first ⊆ second.erase text := by
        intro other among
        have different : other ≠ text := fun same => fresh (same ▸ among)
        exact (List.mem_erase_of_ne different).mpr (subset (List.mem_cons_of_mem _ among))
      have split := weight_perm (List.perm_cons_erase member)
      have below := ih rest others
      rw [weight_cons] at split ⊢
      omega

variable (mark) in
/-- Each string with its mark. -/
def layout (row : List (List α)) : List α :=
  row.flatMap (fun text => text ++ [mark])

omit [DecidableEq α] in
@[simp] theorem layout_nil : layout mark ([] : List (List α)) = [] := rfl

omit [DecidableEq α] in
@[simp] theorem layout_cons (text : List α) (row : List (List α)) :
    layout mark (text :: row) = text ++ mark :: layout mark row := by
  simp [layout]

omit [DecidableEq α] in
@[simp] theorem length_layout (row : List (List α)) :
    (layout mark row).length = weight row := by
  induction row with
  | nil => rfl
  | cons text row ih =>
      rw [layout_cons, weight_cons, List.length_append, List.length_cons, ih]
      omega

/-- The strings that a row may hold: the reader stops at an empty one, and
takes a mark for its end. -/
def Readable (mark : α) (row : List (List α)) : Prop :=
  ∀ text ∈ row, text ≠ [] ∧ mark ∉ text

omit [DecidableEq α] in
theorem readable_cons {text : List α} {row : List (List α)} :
    Readable mark (text :: row) ↔ (text ≠ [] ∧ mark ∉ text) ∧ Readable mark row := by
  simp [Readable]

theorem readStrings_cons {text : List α} (nonempty : text ≠ []) (unmarked : mark ∉ text)
    (rest : List α) : readStrings mark (text ++ mark :: rest) = text :: readStrings mark rest := by
  rw [readStrings_step, readString_append unmarked, if_neg nonempty]

/-- A row in front of data that starts with an empty string is read back. -/
theorem readStrings_layout_append {row : List (List α)} (readable : Readable mark row)
    {rest : List α} (stops : readStrings mark rest = []) :
    readStrings mark (layout mark row ++ rest) = row := by
  induction row with
  | nil => exact stops
  | cons text row ih =>
      obtain ⟨⟨nonempty, unmarked⟩, later⟩ := readable_cons.mp readable
      rw [layout_cons, List.append_assoc, List.cons_append, readStrings_cons nonempty unmarked,
        ih later]

/-- The last string is read back without its mark. -/
theorem readStrings_dropLast {row : List (List α)} (readable : Readable mark row) :
    readStrings mark (layout mark row).dropLast = row := by
  induction row with
  | nil => rfl
  | cons text row ih =>
      obtain ⟨⟨nonempty, unmarked⟩, later⟩ := readable_cons.mp readable
      cases row with
      | nil =>
          have alone : (layout mark [text]).dropLast = text := by simp
          rw [alone, readStrings_step, readString_end unmarked, if_neg nonempty, readStrings_nil]
      | cons next row =>
          have behind : (layout mark (text :: next :: row)).dropLast =
              text ++ mark :: (layout mark (next :: row)).dropLast := by
            rw [layout_cons text, List.dropLast_append_of_ne_nil (List.cons_ne_nil _ _),
              List.dropLast_cons_of_ne_nil (by simp)]
          rw [behind, readStrings_cons nonempty unmarked, ih later]

/-- A row that weighs at most one more than the room is read back from what
fits of its layout and the closing mark, whatever fills the rest. -/
theorem readStrings_take {row : List (List α)} (readable : Readable mark row) {room : Nat}
    (fits : weight row ≤ room + 1) (fill : List α) (filled : fill.length ≤ room - (weight row + 1)) :
    readStrings mark ((layout mark row ++ [mark]).take room ++ fill) = row := by
  have total : (layout mark row ++ [mark]).length = weight row + 1 := by simp
  by_cases whole : weight row + 1 ≤ room
  · rw [List.take_of_length_le (by omega), List.append_assoc]
    apply readStrings_layout_append readable
    rw [readStrings_step]
    simp [readString]
  have noFill : fill = [] := List.length_eq_zero_iff.mp (by omega)
  rw [noFill, List.append_nil]
  by_cases exact' : room = weight row
  · have cut : (layout mark row ++ [mark]).take room = layout mark row := by
      rw [List.take_append_of_le_length (by simp [exact']),
        List.take_of_length_le (by simp [exact'])]
    have back := readStrings_layout_append readable (@readStrings_nil _ _ mark)
    rwa [cut, ← List.append_nil (layout mark row)]
  · have shortened : (layout mark row ++ [mark]).take room = (layout mark row).dropLast := by
      rw [List.take_append_of_le_length (by simp; omega), List.dropLast_eq_take, length_layout]
      congr 1
      omega
    rw [shortened, readStrings_dropLast readable]

end TerminatedStrings
