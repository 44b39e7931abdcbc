import Mathlib.Data.List.Basic

/-!
# Rows of banks with a mark

In a row of banks the first marked one counts, or the first of all when none is marked.
Settling the row leaves the mark on this bank alone.  A row that was settled is left as it
is, so that it is settled in the same way whenever it is looked at again.
-/

namespace BankChoice

/-- Something that carries a mark. -/
structure Marking (α : Type*) where
  marked : α → Bool
  mark : Bool → α → α
  marked_mark : ∀ flag bank, marked (mark flag bank) = flag
  mark_marked : ∀ bank, mark (marked bank) bank = bank

variable {α : Type*} (marking : Marking α)

/-- The place of the bank that counts. -/
def chosen (banks : List α) : Nat :=
  (banks.findIdx? marking.marked).getD 0

/-- The marks are taken away behind the first. -/
def clearBehind : Bool → List α → List α
  | _, [] => []
  | found, bank :: banks =>
      (if found then marking.mark false bank else bank) ::
        clearBehind (found || marking.marked bank) banks

def settle (banks : List α) : List α :=
  match banks.findIdx? marking.marked with
  | some _ => clearBehind marking false banks
  | none => banks.modify 0 (marking.mark true)

/-- The bank at the place is the only marked one. -/
structure Settled (banks : List α) (place : Nat) : Prop where
  inside : place < banks.length
  marked_iff : ∀ other bank, banks[other]? = some bank →
    (marking.marked bank = true ↔ other = place)

variable {marking} {banks : List α} {place other : Nat} {bank : α}

@[simp]
theorem length_clearBehind (found : Bool) (banks : List α) :
    (clearBehind marking found banks).length = banks.length := by
  induction banks generalizing found with
  | nil => rfl
  | cons bank banks ih => simp [clearBehind, ih]

theorem length_settle (banks : List α) : (settle marking banks).length = banks.length := by
  unfold settle
  cases banks.findIdx? marking.marked with
  | none => exact List.length_modify ..
  | some place => exact length_clearBehind false banks

theorem clearBehind_true (banks : List α) :
    clearBehind marking true banks = banks.map (marking.mark false) := by
  induction banks with
  | nil => rfl
  | cons bank banks ih => rw [clearBehind, Bool.true_or, ih, if_pos rfl, List.map_cons]

theorem mark_of_marked {flag : Bool} (same : marking.marked bank = flag) :
    marking.mark flag bank = bank := by
  rw [← same, marking.mark_marked]

theorem clearBehind_of_unmarked (unmarked : ∀ bank ∈ banks, marking.marked bank = false) :
    clearBehind marking false banks = banks := by
  induction banks with
  | nil => rfl
  | cons bank banks ih =>
      rw [clearBehind, unmarked bank List.mem_cons_self, if_neg (by decide), Bool.or_false,
        ih fun other member => unmarked other (List.mem_cons_of_mem bank member)]

theorem getElem?_clearBehind_false (first : banks.findIdx? marking.marked = some place)
    (other : Nat) : (clearBehind marking false banks)[other]? =
      banks[other]?.map (marking.mark (decide (other = place))) := by
  induction banks generalizing place other with
  | nil => simp at first
  | cons bank banks ih =>
      rw [clearBehind, Bool.false_or, if_neg (by decide)]
      rw [List.findIdx?_cons] at first
      by_cases isMarked : marking.marked bank = true
      · rw [if_pos isMarked] at first
        cases first
        rw [isMarked, clearBehind_true]
        cases other with
        | zero => simp [mark_of_marked isMarked]
        | succ other => simp
      · rw [if_neg isMarked, Option.map_eq_some_iff] at first
        obtain ⟨before, found, rfl⟩ := first
        rw [Bool.not_eq_true] at isMarked
        rw [isMarked]
        cases other with
        | zero => simp [mark_of_marked isMarked]
        | succ other => simp [ih found]

/-- Settling puts the mark where it counts and takes away all others. -/
theorem getElem?_settle (banks : List α) (other : Nat) : (settle marking banks)[other]? =
    banks[other]?.map (marking.mark (decide (other = chosen marking banks))) := by
  unfold settle chosen
  cases found : banks.findIdx? marking.marked with
  | some place => exact getElem?_clearBehind_false found other
  | none =>
      have unmarked := List.findIdx?_eq_none_iff.mp found
      rw [Option.getD_none]
      dsimp only
      rw [List.getElem?_modify]
      cases other with
      | zero => rfl
      | succ other =>
          cases here : banks[other + 1]? with
          | none => rfl
          | some bank =>
              have isUnmarked := unmarked bank (List.mem_of_getElem? here)
              simp [mark_of_marked isUnmarked]

theorem chosen_lt (nonempty : banks ≠ []) : chosen marking banks < banks.length := by
  unfold chosen
  cases found : banks.findIdx? marking.marked with
  | none => exact List.length_pos_of_ne_nil nonempty
  | some place =>
      obtain ⟨inside, -⟩ := List.findIdx?_eq_some_iff_getElem.mp found
      exact inside

theorem settled_settle (nonempty : banks ≠ []) :
    Settled marking (settle marking banks) (chosen marking banks) := by
  refine ⟨Nat.lt_of_lt_of_eq (chosen_lt nonempty) (length_settle banks).symm,
    fun other bank here => ?_⟩
  rw [getElem?_settle, Option.map_eq_some_iff] at here
  obtain ⟨before, -, rfl⟩ := here
  rw [marking.marked_mark, decide_eq_true_eq]

theorem settled_set (inside : place < banks.length) (isMarked : marking.marked bank = true)
    (unmarked : ∀ other found, banks[other]? = some found → other ≠ place →
      marking.marked found = false) :
    Settled marking (banks.set place bank) place := by
  refine ⟨by rw [List.length_set]; exact inside, fun other found here => ?_⟩
  by_cases same : other = place
  · subst same
    rw [List.getElem?_set_self inside] at here
    cases here
    exact ⟨fun _ => rfl, fun _ => isMarked⟩
  · rw [List.getElem?_set_ne (Ne.symm same)] at here
    refine ⟨fun isFound => ?_, fun impossible => absurd impossible same⟩
    rw [unmarked other found here same] at isFound
    cases isFound

theorem unmarked_set (isUnmarked : marking.marked bank = false) {found : α}
    (here : (banks.set place bank)[other]? = some found)
    (unmarked : other ≠ place → banks[other]? = some found → marking.marked found = false) :
    marking.marked found = false := by
  by_cases same : other = place
  · rw [List.getElem?_set, if_pos same.symm] at here
    split at here
    · cases here
      exact isUnmarked
    · cases here
  · rw [List.getElem?_set_ne (Ne.symm same)] at here
    exact unmarked same here

theorem chosen_of_unmarked (unmarked : ∀ bank ∈ banks, marking.marked bank = false) :
    chosen marking banks = 0 := by
  rw [chosen, List.findIdx?_eq_none_iff.mpr unmarked, Option.getD_none]

namespace Settled

theorem findIdx?_eq (settled : Settled marking banks place) :
    banks.findIdx? marking.marked = some place := by
  rw [List.findIdx?_eq_some_iff_getElem]
  refine ⟨settled.inside, ?_, fun other before isMarked => ?_⟩
  · exact (settled.marked_iff place _ (List.getElem?_eq_getElem settled.inside)).mpr rfl
  · have within := Nat.lt_trans before settled.inside
    have same := (settled.marked_iff other _ (List.getElem?_eq_getElem within)).mp isMarked
    omega

theorem chosen_eq (settled : Settled marking banks place) : chosen marking banks = place := by
  rw [chosen, settled.findIdx?_eq, Option.getD_some]

theorem settle_eq (settled : Settled marking banks place) : settle marking banks = banks := by
  refine List.ext_getElem? fun other => ?_
  rw [getElem?_settle, settled.chosen_eq]
  cases here : banks[other]? with
  | none => rfl
  | some bank =>
      have isMarked := settled.marked_iff other bank here
      refine congrArg some (mark_of_marked ?_)
      rw [Bool.eq_iff_iff, isMarked, decide_eq_true_eq]

end Settled

end BankChoice
