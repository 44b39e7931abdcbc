import Mathlib.Order.Defs.Unbundled
import Mathlib.Data.List.Basic

/-!
# Programs over a state that may stop with an exception

`EStateM ε σ` is a program that reads and writes a state and either returns or
throws; the writes it made before it threw stay.  A program moves within a
relation when the relation holds between the state it starts in and the state
it ends in, on either exit.  Over a preorder this is closed under sequencing,
branches and loops, which is how frame facts are carried through a program
without unfolding it.
-/

namespace StatePrograms

variable {ε σ α β ι : Type}

/-- The state a program ends in, whether it returns or throws. -/
def finalState : EStateM.Result ε σ α → σ
  | .ok _ state => state
  | .error _ state => state

@[simp] theorem finalState_ok (value : α) (state : σ) :
    finalState (.ok value state : EStateM.Result ε σ α) = state := rfl

@[simp] theorem finalState_error (exception : ε) (state : σ) :
    finalState (.error exception state : EStateM.Result ε σ α) = state := rfl

@[simp] theorem pure_apply (value : α) (state : σ) :
    (pure value : EStateM ε σ α) state = .ok value state := rfl

@[simp] theorem throw_apply (exception : ε) (state : σ) :
    (throw exception : EStateM ε σ α) state = .error exception state := rfl

@[simp] theorem get_apply (state : σ) :
    (get : EStateM ε σ σ) state = .ok state state := rfl

@[simp] theorem set_apply (value state : σ) :
    (set value : EStateM ε σ PUnit) state = .ok PUnit.unit value := rfl

@[simp] theorem modify_apply (update : σ → σ) (state : σ) :
    (modify update : EStateM ε σ PUnit) state = .ok PUnit.unit (update state) := rfl

theorem bind_apply (first : EStateM ε σ α) (next : α → EStateM ε σ β) (state : σ) :
    (first >>= next) state =
      match first state with
      | .ok value middle => next value middle
      | .error exception middle => .error exception middle := rfl

theorem map_apply (convert : α → β) (program : EStateM ε σ α) (state : σ) :
    (convert <$> program) state =
      match program state with
      | .ok value after => .ok (convert value) after
      | .error exception after => .error exception after := rfl

theorem bind_ok {first : EStateM ε σ α} {next : α → EStateM ε σ β}
    {state middle : σ} {value : α} (returned : first state = .ok value middle) :
    (first >>= next) state = next value middle := by
  rw [bind_apply, returned]

theorem bind_error {first : EStateM ε σ α} {next : α → EStateM ε σ β}
    {state middle : σ} {exception : ε} (thrown : first state = .error exception middle) :
    (first >>= next) state = .error exception middle := by
  rw [bind_apply, thrown]

/-- What a sequence that returned went through. -/
theorem bind_eq_ok {first : EStateM ε σ α} {next : α → EStateM ε σ β}
    {state last : σ} {value : β} :
    (first >>= next) state = .ok value last ↔
      ∃ result middle, first state = .ok result middle ∧
        next result middle = .ok value last := by
  rw [bind_apply]
  cases first state with
  | ok result middle => simp
  | error exception middle => simp

/-- A member of the state: reading what was written, writing what was read and
writing twice behave as for a field of a record. -/
structure Member (σ τ : Type) where
  get : σ → τ
  put : σ → τ → σ
  get_put : ∀ state part, get (put state part) = part
  put_get : ∀ state, put state (get state) = state
  put_put : ∀ state first second, put (put state first) second = put state second

attribute [simp] Member.get_put Member.put_get Member.put_put

variable {τ : Type}

def Member.comp {υ : Type} (outer : Member σ τ) (inner : Member τ υ) : Member σ υ where
  get state := inner.get (outer.get state)
  put state part := outer.put state (inner.put (outer.get state) part)
  get_put := by simp
  put_get := by simp
  put_put := by simp

def focus (member : Member σ τ) (program : EStateM ε τ α) : EStateM ε σ α := fun state =>
  match program (member.get state) with
  | .ok value part => .ok value (member.put state part)
  | .error exception part => .error exception (member.put state part)

theorem focus_ok (member : Member σ τ) {program : EStateM ε τ α} {state : σ} {value : α}
    {part : τ} (returned : program (member.get state) = .ok value part) :
    focus member program state = .ok value (member.put state part) := by
  rw [focus, returned]

theorem focus_error (member : Member σ τ) {program : EStateM ε τ α} {state : σ}
    {exception : ε} {part : τ} (thrown : program (member.get state) = .error exception part) :
    focus member program state = .error exception (member.put state part) := by
  rw [focus, thrown]

theorem finalState_focus (member : Member σ τ) (program : EStateM ε τ α) (state : σ) :
    finalState (focus member program state) =
      member.put state (finalState (program (member.get state))) := by
  rw [focus]
  cases program (member.get state) with
  | ok value part => rfl
  | error exception part => rfl

/-- A program whose exceptions are caught and dropped; its writes stay. -/
def swallow (program : EStateM ε σ Unit) : EStateM ε σ Unit := fun state =>
  .ok () (finalState (program state))

@[simp] theorem swallow_apply (program : EStateM ε σ Unit) (state : σ) :
    swallow program state = .ok () (finalState (program state)) := rfl

section Exits

def Returns (program : EStateM ε σ α) : Prop :=
  ∀ state, ∃ value after, program state = .ok value after

def Throws (program : EStateM ε σ α) : Prop :=
  ∀ state, ∃ exception after, program state = .error exception after

theorem Returns.pure (value : α) : Returns (pure value : EStateM ε σ α) :=
  fun state => ⟨value, state, rfl⟩

theorem Returns.modify (update : σ → σ) : Returns (modify update : EStateM ε σ PUnit) :=
  fun state => ⟨PUnit.unit, update state, rfl⟩

theorem Returns.bind {first : EStateM ε σ α} {next : α → EStateM ε σ β}
    (head : Returns first) (tail : ∀ value, Returns (next value)) : Returns (first >>= next) := by
  intro state
  obtain ⟨value, middle, returned⟩ := head state
  rw [bind_ok returned]
  exact tail value middle

theorem Returns.ite {condition : Prop} [Decidable condition] {yes no : EStateM ε σ α}
    (whenTrue : condition → Returns yes) (whenFalse : ¬ condition → Returns no) :
    Returns (if condition then yes else no) := by
  split
  · exact whenTrue ‹_›
  · exact whenFalse ‹_›

theorem Returns.get : Returns (get : EStateM ε σ σ) :=
  fun state => ⟨state, state, rfl⟩

theorem Returns.forM {steps : List ι} {program : ι → EStateM ε σ PUnit}
    (each : ∀ step, Returns (program step)) : Returns (forM steps program) := by
  induction steps with
  | nil => exact Returns.pure _
  | cons step steps ih =>
      rw [List.forM_cons]
      exact (each step).bind fun _ => ih

theorem Returns.focus (member : Member σ τ) {program : EStateM ε τ α}
    (returns : Returns program) : Returns (focus member program) := by
  intro state
  obtain ⟨value, after, run⟩ := returns (member.get state)
  exact ⟨value, _, focus_ok member run⟩

theorem Throws.bind_left {first : EStateM ε σ α} (throws : Throws first)
    (next : α → EStateM ε σ β) : Throws (first >>= next) := by
  intro state
  obtain ⟨exception, after, thrown⟩ := throws state
  exact ⟨exception, after, bind_error thrown⟩

/-- A sequence whose second half always throws does so whether or not it gets
there. -/
theorem Throws.bind_right (first : EStateM ε σ α) {next : α → EStateM ε σ β}
    (throws : ∀ value, Throws (next value)) : Throws (first >>= next) := by
  intro state
  cases run : first state with
  | ok value middle =>
      rw [bind_ok run]
      exact throws value middle
  | error exception middle => exact ⟨exception, middle, bind_error run⟩

end Exits

/-- The relation holds between the first and the last state of every run. -/
def Within (relation : σ → σ → Prop) (program : EStateM ε σ α) : Prop :=
  ∀ state, relation state (finalState (program state))

section Rules

variable {relation : σ → σ → Prop} [IsPreorder σ relation]

theorem Within.pure (value : α) : Within (ε := ε) relation (pure value) :=
  fun state => refl state

theorem Within.throw (exception : ε) :
    Within relation (throw exception : EStateM ε σ α) :=
  fun state => refl state

theorem Within.get : Within (ε := ε) relation get :=
  fun state => refl state

omit [IsPreorder σ relation] in
theorem Within.modify {update : σ → σ} (moves : ∀ state, relation state (update state)) :
    Within (ε := ε) relation (modify update) :=
  moves

theorem Within.bind {first : EStateM ε σ α} {next : α → EStateM ε σ β}
    (head : Within relation first) (tail : ∀ value, Within relation (next value)) :
    Within relation (first >>= next) := by
  intro state
  have moved := head state
  rw [bind_apply]
  cases run : first state with
  | ok value middle =>
      rw [run] at moved
      exact IsTrans.trans _ _ _ moved (tail value middle)
  | error exception middle =>
      rw [run] at moved
      exact moved

omit [IsPreorder σ relation] in
theorem Within.ite {condition : Prop} [Decidable condition]
    {yes no : EStateM ε σ α} (whenTrue : condition → Within relation yes)
    (whenFalse : ¬ condition → Within relation no) :
    Within relation (if condition then yes else no) := by
  split
  · exact whenTrue ‹_›
  · exact whenFalse ‹_›

theorem Within.forM {steps : List ι} {program : ι → EStateM ε σ PUnit}
    (each : ∀ step ∈ steps, Within relation (program step)) :
    Within relation (forM steps program) := by
  induction steps with
  | nil => exact Within.pure _
  | cons step steps ih =>
      rw [List.forM_cons]
      refine Within.bind (each step (by simp)) fun _ => ih ?_
      exact fun other member => each other (by simp [member])

theorem Within.foldlM {steps : List ι} {program : β → ι → EStateM ε σ β}
    (each : ∀ value, ∀ step ∈ steps, Within relation (program value step)) (value : β) :
    Within relation (steps.foldlM program value) := by
  induction steps generalizing value with
  | nil => exact Within.pure _
  | cons step steps ih =>
      rw [List.foldlM_cons]
      refine Within.bind (each value step (by simp)) fun next => ih ?_ next
      exact fun value other member => each value other (by simp [member])

omit [IsPreorder σ relation] in
theorem Within.focus {member : Member σ τ} {program : EStateM ε τ α}
    (moves : ∀ state part, relation state (member.put state part)) :
    Within relation (focus member program) := by
  intro state
  rw [finalState_focus]
  exact moves state _

omit [IsPreorder σ relation] in
theorem Within.swallow {program : EStateM ε σ Unit} (within : Within relation program) :
    Within relation (swallow program) :=
  within

omit [IsPreorder σ relation] in
theorem Within.mono {wider : σ → σ → Prop} {program : EStateM ε σ α}
    (within : Within relation program)
    (weaken : ∀ before after, relation before after → wider before after) :
    Within wider program :=
  fun state => weaken _ _ (within state)

end Rules

/-- The preorder of the states with the same view. -/
abbrev Same {β : Type} (view : σ → β) (before after : σ) : Prop :=
  view after = view before

instance {β : Type} (view : σ → β) : IsPreorder σ (Same view) where
  refl _ := rfl
  trans _ _ _ first second := second.trans first

/-- The preorder of the states between which a property is kept. -/
abbrev Keeps (property : σ → Prop) (before after : σ) : Prop :=
  property before → property after

instance (property : σ → Prop) : IsPreorder σ (Keeps property) where
  refl _ := id
  trans _ _ _ first second := second ∘ first

end StatePrograms
