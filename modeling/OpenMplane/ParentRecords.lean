import OpenMplane.Forest

/-!
# Trees kept as records of insertions

A store that puts each new node behind the children of another node can be kept
as the list of its insertions: a record holds the number of the parent and what
the new node is, and the node's own number is the place of its record.  This
file gives the records of a forest that is inserted from front to back, parents
before children, and shows that reading the children of every number gives the
forest back.
-/

namespace Forest

variable {α : Type*}

/-- The nodes with their numbers, in the order of insertion. -/
def number (start : Nat) : Forest α → Forest (Nat × α)
  | nil => nil
  | node label children siblings =>
      node (start, label) (children.number (start + 1))
        (siblings.number (start + 1 + children.count))

def roots : Forest α → List α
  | nil => []
  | node label _ siblings => label :: siblings.roots

/-- The insertions below a parent, the first of which gets the number `start`. -/
def records (parent start : Nat) : Forest α → List (Nat × α)
  | nil => []
  | node label children siblings =>
      (parent, label) :: (children.records start (start + 1) ++
        siblings.records parent (start + 1 + children.count))

end Forest

namespace ParentRecords

open Forest

variable {α : Type*}

/-- The children of a number, among records numbered from `start`. -/
def childrenFrom (start : Nat) : List (Nat × α) → Nat → List (Nat × α)
  | [], _ => []
  | (parent, content) :: records, number =>
      if parent = number then (start, content) :: childrenFrom (start + 1) records number
      else childrenFrom (start + 1) records number

/-- Below the parent, and below each node of the forest, stand exactly the
children that the forest has there. -/
def Shows (children : Nat → List (Nat × α)) (parent : Nat) (forest : Forest (Nat × α)) : Prop :=
  children parent = forest.roots ∧
    forest.All fun label below => children label.1 = below.roots

theorem childrenFrom_append (start : Nat) (first second : List (Nat × α)) (number : Nat) :
    childrenFrom start (first ++ second) number =
      childrenFrom start first number ++
        childrenFrom (start + first.length) second number := by
  induction first generalizing start with
  | nil => simp [childrenFrom]
  | cons record first ih =>
      have length : start + (record :: first).length = start + 1 + first.length := by
        simp only [List.length_cons]
        omega
      rw [length, List.cons_append]
      by_cases own : record.1 = number
      · simp only [childrenFrom, own, if_true, ih, List.cons_append]
      · simp only [childrenFrom, own, if_false, ih]

theorem length_records (parent start : Nat) (forest : Forest α) :
    (forest.records parent start).length = forest.count := by
  induction forest generalizing parent start with
  | nil => rfl
  | node label children siblings ihChildren ihSiblings =>
      simp only [records, List.length_cons, List.length_append, ihChildren, ihSiblings, count]

theorem records_append (parent start : Nat) (first second : Forest α) :
    (first.append second).records parent start =
      first.records parent start ++ second.records parent (start + first.count) := by
  induction first generalizing start with
  | nil => rfl
  | node label children siblings _ ihSiblings =>
      have behind : start + 1 + children.count + siblings.count =
          start + (node label children siblings).count := by
        rw [count]
        omega
      rw [append, records, records, ihSiblings, behind, List.cons_append, List.append_assoc]

/-- The records of a forest and those behind it, which are of another parent before it, tell
the forest. -/
theorem records_append_inj {parent start : Nat} (before : parent < start)
    {first second : Forest α} {rest other : List (Nat × α)}
    (restOther : ∀ record ∈ rest.head?, record.1 < parent)
    (otherOther : ∀ record ∈ other.head?, record.1 < parent)
    (same : first.records parent start ++ rest = second.records parent start ++ other) :
    first = second ∧ rest = other := by
  induction first generalizing parent start second rest other with
  | nil =>
      cases second with
      | nil => exact ⟨rfl, same⟩
      | node label children siblings =>
          obtain rfl : rest = (parent, label) :: _ := same
          exact absurd (restOther _ rfl) (Nat.lt_irrefl parent)
  | node label children siblings ihChildren ihSiblings =>
      cases second with
      | nil =>
          obtain rfl : _ = other := same
          exact absurd (otherOther _ rfl) (Nat.lt_irrefl parent)
      | node otherLabel otherChildren otherSiblings =>
          rw [records, records, List.cons_append, List.cons_append, List.append_assoc,
            List.append_assoc] at same
          obtain ⟨own, behind⟩ := List.cons.inj same
          obtain rfl : label = otherLabel := (Prod.mk.inj own).2
          have lower : ∀ (forest : Forest α) (number : Nat) {tail : List (Nat × α)},
              (∀ record ∈ tail.head?, record.1 < parent) →
              ∀ record ∈ (forest.records parent number ++ tail).head?, record.1 < start := by
            intro forest number tail less record member
            cases forest with
            | nil => exact Nat.lt_trans (less record member) before
            | node label children siblings =>
                obtain rfl : (parent, label) = record := Option.some.inj member
                exact before
          obtain ⟨rfl, later⟩ := ihChildren (Nat.lt_succ_self start) (lower _ _ restOther)
            (lower _ _ otherOther) behind
          have after : parent < start + 1 + children.count := by omega
          obtain ⟨rfl, tails⟩ := ihSiblings after restOther otherOther later
          exact ⟨rfl, tails⟩

theorem records_inj {parent start : Nat} (before : parent < start) {first second : Forest α}
    (same : first.records parent start = second.records parent start) : first = second := by
  have appended : first.records parent start ++ [] = second.records parent start ++ [] := by
    rw [same]
  have nothing : ∀ record ∈ ([] : List (Nat × α)).head?, record.1 < parent := by
    intro record member
    cases member
  exact (records_append_inj before nothing nothing appended).1

theorem childrenFrom_records_of_other {parent number : Nat} (other : number ≠ parent)
    (first start : Nat) (forest : Forest α)
    (outside : number < start ∨ start + forest.count ≤ number) :
    childrenFrom first (forest.records parent start) number = [] := by
  induction forest generalizing first parent start with
  | nil => rfl
  | node label children siblings ihChildren ihSiblings =>
      rw [count] at outside
      have notStart : number ≠ start := by omega
      have below := ihChildren notStart (first + 1) (start + 1) (by omega)
      have behind := ihSiblings other (first + 1 + (children.records start (start + 1)).length)
        (start + 1 + children.count) (by omega)
      rw [records, childrenFrom, if_neg (Ne.symm other), childrenFrom_append, below, behind]
      rfl

theorem childrenFrom_records {parent start : Nat} (before : parent < start)
    (forest : Forest α) :
    childrenFrom start (forest.records parent start) parent = (forest.number start).roots := by
  induction forest generalizing start with
  | nil => rfl
  | node label children siblings _ ihSiblings =>
      have below : childrenFrom (start + 1) (children.records start (start + 1)) parent = [] :=
        childrenFrom_records_of_other (by omega) _ _ _ (.inl (by omega))
      have later : parent < start + 1 + children.count := by omega
      have behind := ihSiblings later
      rw [records, childrenFrom, if_pos rfl, childrenFrom_append, below, length_records, behind]
      rfl

theorem all_number {parent start : Nat} (before : parent < start) (forest : Forest α) :
    (forest.number start).All fun label below =>
      start ≤ label.1 ∧ label.1 < start + forest.count ∧
        childrenFrom start (forest.records parent start) label.1 = below.roots := by
  induction forest generalizing parent start with
  | nil => trivial
  | node label children siblings ihChildren ihSiblings =>
      have own := childrenFrom_records (Nat.lt_succ_self start) children
      have inside := ihChildren (Nat.lt_succ_self start)
      have after : parent < start + 1 + children.count := by omega
      have behind := ihSiblings after
      have split : ∀ number, number ≠ parent →
          childrenFrom start ((node label children siblings).records parent start) number =
            childrenFrom (start + 1) (children.records start (start + 1)) number ++
              childrenFrom (start + 1 + children.count)
                (siblings.records parent (start + 1 + children.count)) number := by
        intro number other
        rw [records, childrenFrom, if_neg (Ne.symm other), childrenFrom_append, length_records]
      refine ⟨⟨Nat.le_refl _, by rw [count]; omega, ?_⟩, ?_, ?_⟩
      · have later : childrenFrom (start + 1 + children.count)
            (siblings.records parent (start + 1 + children.count)) start = [] :=
          childrenFrom_records_of_other (by omega) _ _ _ (.inl (by omega))
        rw [split start (by omega), own, later, List.append_nil]
      · refine All.mono ?_ inside
        rintro ⟨number, content⟩ below ⟨least, most, shown⟩
        have later : childrenFrom (start + 1 + children.count)
            (siblings.records parent (start + 1 + children.count)) number = [] :=
          childrenFrom_records_of_other (by omega) _ _ _ (.inl most)
        refine ⟨by omega, by rw [count]; omega, ?_⟩
        rw [split number (by omega), shown, later, List.append_nil]
      · refine All.mono ?_ behind
        rintro ⟨number, content⟩ below ⟨least, most, shown⟩
        have earlier : childrenFrom (start + 1) (children.records start (start + 1)) number = [] :=
          childrenFrom_records_of_other (by omega) _ _ _ (.inr least)
        refine ⟨by omega, by rw [count]; omega, ?_⟩
        rw [split number (by omega), earlier, shown, List.nil_append]

theorem shows_records {parent start : Nat} (before : parent < start) (forest : Forest α) :
    Shows (childrenFrom start (forest.records parent start)) parent (forest.number start) :=
  ⟨childrenFrom_records before forest, All.mono (fun _ _ found => found.2.2)
    (all_number before forest)⟩

end ParentRecords
