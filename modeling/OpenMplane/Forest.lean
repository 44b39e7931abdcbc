import Mathlib.Data.List.Basic

/-!
# Ordered forests

A document library hands a parsed document out as an ordered forest: an element
leads to its first child and to its next sibling.  The reader of a format then
asks whether the forest fits the grammar of the format, and it splices: it keeps
a node, drops it with everything below, or puts the children in its place.  The
results say how splicing meets the grammar, a condition on every node, the keys
of siblings and the number of nodes.
-/

/-- Nothing, or a node with its children and the siblings behind it. -/
inductive Forest (α : Type*)
  | nil
  | node (label : α) (children siblings : Forest α)
  deriving DecidableEq, Repr

namespace Forest

variable {α κ σ : Type*}

def append : Forest α → Forest α → Forest α
  | nil, after => after
  | node label children siblings, after =>
      node label children (siblings.append after)

def count : Forest α → Nat
  | nil => 0
  | node _ children siblings => children.count + siblings.count + 1

/-- What a reader does with a node. -/
inductive Splice
  | keep
  | unwrap
  | drop
  deriving DecidableEq, Repr

def splice (choose : α → Splice) : Forest α → Forest α
  | nil => nil
  | node label children siblings =>
      match choose label with
      | .keep => node label (children.splice choose) (siblings.splice choose)
      | .unwrap => (children.splice choose).append (siblings.splice choose)
      | .drop => siblings.splice choose

/-- The forest fits a grammar: in each state the rule gives the state of the
children of a node, or refuses the node. -/
def Fits (rule : σ → α → Option σ) : σ → Forest α → Prop
  | _, nil => True
  | state, node label children siblings =>
      (∃ inner, rule state label = some inner ∧ children.Fits rule inner) ∧
        siblings.Fits rule state

def All (holds : α → Forest α → Prop) : Forest α → Prop
  | nil => True
  | node label children siblings =>
      holds label children ∧ children.All holds ∧ siblings.All holds

def any (meets : α → Bool) : Forest α → Bool
  | nil => false
  | node label children siblings =>
      meets label || children.any meets || siblings.any meets

/-- Some node among the first and its siblings meets the condition. -/
def anySibling (meets : α → Bool) : Forest α → Bool
  | nil => false
  | node label _ siblings => meets label || siblings.anySibling meets

def siblingKeys (key : α → κ) : Forest α → List κ
  | nil => []
  | node label _ siblings => key label :: siblings.siblingKeys key

/-- No two siblings have the same key, the exempted nodes apart. -/
def Distinct (key : α → κ) (exempt : α → Prop) : Forest α → Prop
  | nil => True
  | node label children siblings =>
      (exempt label ∨ key label ∉ siblings.siblingKeys key) ∧
        children.Distinct key exempt ∧ siblings.Distinct key exempt

instance decidableFits (rule : σ → α → Option σ) :
    ∀ (state : σ) (forest : Forest α), Decidable (forest.Fits rule state)
  | _, nil => isTrue trivial
  | state, node label children siblings =>
      match allowed : rule state label with
      | none => isFalse fun fits => by
          obtain ⟨⟨inner, allows, -⟩, -⟩ := fits
          rw [allowed] at allows
          cases allows
      | some inner =>
          have := decidableFits rule inner children
          have := decidableFits rule state siblings
          decidable_of_iff (children.Fits rule inner ∧ siblings.Fits rule state)
            (by simp [Fits, allowed])

instance decidableAll (holds : α → Forest α → Prop)
    [∀ label children, Decidable (holds label children)] :
    ∀ forest : Forest α, Decidable (forest.All holds)
  | nil => isTrue trivial
  | node label children siblings =>
      have := decidableAll holds children
      have := decidableAll holds siblings
      inferInstanceAs
        (Decidable (holds label children ∧ children.All holds ∧ siblings.All holds))

instance decidableDistinct [DecidableEq κ] (key : α → κ) (exempt : α → Prop)
    [DecidablePred exempt] : ∀ forest : Forest α, Decidable (forest.Distinct key exempt)
  | nil => isTrue trivial
  | node label children siblings =>
      have := decidableDistinct key exempt children
      have := decidableDistinct key exempt siblings
      inferInstanceAs (Decidable ((exempt label ∨ key label ∉ siblings.siblingKeys key) ∧
        children.Distinct key exempt ∧ siblings.Distinct key exempt))

@[simp] theorem nil_append (after : Forest α) : nil.append after = after := rfl

@[simp] theorem append_nil (forest : Forest α) : forest.append nil = forest := by
  induction forest with
  | nil => rfl
  | node label children siblings _ ih => rw [append, ih]

@[simp] theorem count_append (first second : Forest α) :
    (first.append second).count = first.count + second.count := by
  induction first with
  | nil => simp [count]
  | node label children siblings _ ih =>
      simp only [append, count, ih]
      omega

theorem eq_nil_of_count_eq_zero {forest : Forest α} (empty : forest.count = 0) :
    forest = nil := by
  cases forest with
  | nil => rfl
  | node label children siblings => simp [count] at empty

theorem fits_append {rule : σ → α → Option σ} {state : σ} {first second : Forest α} :
    (first.append second).Fits rule state ↔
      first.Fits rule state ∧ second.Fits rule state := by
  induction first with
  | nil => simp [Fits]
  | node label children siblings _ ih => simp [append, Fits, ih, and_assoc]

/-- Splicing carries one grammar into another when the kept nodes are allowed
there as well and the children of an unwrapped node fit where it stood. -/
theorem Fits.splice {rule target : σ → α → Option σ} {choose : α → Splice}
    (kept : ∀ state label inner, rule state label = some inner →
      choose label = .keep → target state label = some inner)
    (unwrapped : ∀ state label inner, rule state label = some inner →
      choose label = .unwrap → inner = state)
    {forest : Forest α} {state : σ} (fits : forest.Fits rule state) :
    (forest.splice choose).Fits target state := by
  induction forest generalizing state with
  | nil => trivial
  | node label children siblings ihChildren ihSiblings =>
      obtain ⟨⟨inner, allowed, below⟩, behind⟩ := fits
      cases choice : choose label with
      | keep =>
          simp only [Forest.splice, choice]
          have stays := kept state label inner allowed choice
          exact ⟨⟨inner, stays, ihChildren below⟩, ihSiblings behind⟩
      | unwrap =>
          simp only [Forest.splice, choice]
          have same := unwrapped state label inner allowed choice
          subst same
          exact fits_append.mpr ⟨ihChildren below, ihSiblings behind⟩
      | drop =>
          simp only [Forest.splice, choice]
          exact ihSiblings behind

theorem All.mono {holds weaker : α → Forest α → Prop}
    (implies : ∀ label children, holds label children → weaker label children)
    {forest : Forest α} (all : forest.All holds) : forest.All weaker := by
  induction forest with
  | nil => trivial
  | node label children siblings ihChildren ihSiblings =>
      exact ⟨implies label children all.1, ihChildren all.2.1, ihSiblings all.2.2⟩

theorem Distinct.of_append {key : α → κ} {exempt : α → Prop} {first second : Forest α}
    (distinct : (first.append second).Distinct key exempt) :
    second.Distinct key exempt := by
  induction first with
  | nil => exact distinct
  | node label children siblings _ ih => exact ih distinct.2.2

theorem mem_siblingKeys_append {key : α → κ} {value : κ} {first second : Forest α} :
    value ∈ (first.append second).siblingKeys key ↔
      value ∈ first.siblingKeys key ∨ value ∈ second.siblingKeys key := by
  induction first with
  | nil => simp [siblingKeys]
  | node label children siblings _ ih => simp [append, siblingKeys, ih, or_assoc]

section Narrower

variable {narrow wide : α → Splice}
  (narrower : ∀ label, narrow label = wide label ∨ narrow label = .drop)

include narrower

/-- Who drops more is left with no more nodes. -/
theorem count_splice_le (forest : Forest α) :
    (forest.splice narrow).count ≤ (forest.splice wide).count := by
  induction forest with
  | nil => exact Nat.le_refl _
  | node label children siblings ihChildren ihSiblings =>
      rcases narrower label with same | drops
      · cases choice : wide label <;>
          simp only [splice, same, choice, count, count_append] <;> omega
      · cases choice : wide label <;>
          simp only [splice, drops, choice, count, count_append] <;> omega

/-- Who drops more and is left with as many nodes is left with the same. -/
theorem splice_eq_of_count_eq {forest : Forest α}
    (same : (forest.splice narrow).count = (forest.splice wide).count) :
    forest.splice narrow = forest.splice wide := by
  induction forest with
  | nil => rfl
  | node label children siblings ihChildren ihSiblings =>
      have below := count_splice_le narrower children
      have behind := count_splice_le narrower siblings
      rcases narrower label with agree | drops
      · cases choice : wide label with
        | keep =>
            simp only [splice, agree, choice, count] at same ⊢
            rw [ihChildren (by omega), ihSiblings (by omega)]
        | unwrap =>
            simp only [splice, agree, choice, count_append] at same ⊢
            rw [ihChildren (by omega), ihSiblings (by omega)]
        | drop =>
            simp only [splice, agree, choice] at same ⊢
            exact ihSiblings same
      · cases choice : wide label with
        | keep =>
            simp only [splice, drops, choice, count] at same
            omega
        | unwrap =>
            simp only [splice, drops, choice, count_append] at same ⊢
            have empty : children.splice wide = nil :=
              eq_nil_of_count_eq_zero (by omega)
            rw [empty, nil_append]
            exact ihSiblings (by omega)
        | drop =>
            simp only [splice, drops, choice] at same ⊢
            exact ihSiblings same

end Narrower

end Forest
