import Mathlib.Data.List.Infix

/-!
# The longest prefix among sorted keys

A table that is sorted by the lexicographic order of its keys can be asked for
the longest key that a text begins with.  No length needs to be compared: a
prefix comes before every longer prefix of the same text, so that the search
from the back of the table meets the longest one first.
-/

namespace LongestPrefix

variable {α β : Type*} [LT α] [Std.Irrefl (α := α) (· < ·)]

/-- Of two prefixes of a text the one that comes later is the longer one. -/
theorem length_le_of_lt {text first second : List α} (before : first < second)
    (isFirst : first <+: text) (isSecond : second <+: text) : first.length ≤ second.length := by
  by_contra longer
  have nested : second <+: first :=
    List.prefix_of_prefix_length_le isSecond isFirst (by omega)
  have ordered : second ≤ first := nested.le
  exact ordered before

/-- What a search from the back of a sorted table finds is a prefix, and no key
that is a prefix is longer. -/
theorem longest_of_find {entries : List (List α × β)}
    (sorted : entries.Pairwise fun first second => first.1 < second.1) {text : List α}
    {isPrefix : List α × β → Bool} (tests : ∀ entry, isPrefix entry = true ↔ entry.1 <+: text)
    {found : List α × β} (search : entries.reverse.find? isPrefix = some found) :
    found ∈ entries ∧ found.1 <+: text ∧
      ∀ entry ∈ entries, entry.1 <+: text → entry.1.length ≤ found.1.length := by
  obtain ⟨meets, later, earlier, split, passed⟩ := List.find?_eq_some_iff_append.mp search
  have member : found ∈ entries.reverse := by
    rw [split]
    simp
  refine ⟨List.mem_reverse.mp member, (tests found).mp meets, ?_⟩
  intro entry inTable isEntry
  have reversed := List.pairwise_reverse.mpr sorted
  rw [split] at reversed
  have place : entry ∈ later ++ found :: earlier := by
    rw [← split]
    exact List.mem_reverse.mpr inTable
  rcases List.mem_append.mp place with behind | others
  · have refused := passed entry behind
    rw [(tests entry).mpr isEntry] at refused
    cases refused
  · rcases List.mem_cons.mp others with rfl | before
    · exact Nat.le_refl _
    · have smaller := List.rel_of_pairwise_cons (List.pairwise_append.mp reversed).2.1 before
      exact length_le_of_lt smaller isEntry ((tests found).mp meets)

end LongestPrefix
