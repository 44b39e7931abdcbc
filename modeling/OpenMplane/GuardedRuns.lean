import Mathlib.Data.List.Basic

/-!
# Runs whose steps meet a guard

A deterministic system takes a list of inputs from a start state.  A guard is
a condition on an input and the state it arrives in.  An invariant that each
guarded step preserves holds in every state of a run whose steps all meet the
guard.
-/

namespace GuardedRuns

variable {σ ι : Type*} (guard : σ → ι → Prop) (step : σ → ι → σ)

/-- Every input of the list meets the guard in the state it arrives in. -/
def Guarded : σ → List ι → Prop
  | _, [] => True
  | state, input :: inputs => guard state input ∧ Guarded (step state input) inputs

instance decidableGuarded [∀ state input, Decidable (guard state input)] :
    ∀ state inputs, Decidable (Guarded guard step state inputs)
  | _, [] => isTrue trivial
  | state, input :: inputs =>
      have := decidableGuarded (step state input) inputs
      inferInstanceAs (Decidable (guard state input ∧ Guarded guard step _ inputs))

variable {guard step}

theorem Guarded.of_append {state : σ} {first second : List ι}
    (guarded : Guarded guard step state (first ++ second)) :
    Guarded guard step state first := by
  induction first generalizing state with
  | nil => trivial
  | cons input first ih => exact ⟨guarded.1, ih guarded.2⟩

theorem Guarded.rest_of_append {state : σ} {first second : List ι}
    (guarded : Guarded guard step state (first ++ second)) :
    Guarded guard step (first.foldl step state) second := by
  induction first generalizing state with
  | nil => exact guarded
  | cons input first ih => exact ih guarded.2

theorem Guarded.append {state : σ} {first second : List ι}
    (guarded : Guarded guard step state first)
    (rest : Guarded guard step (first.foldl step state) second) :
    Guarded guard step state (first ++ second) := by
  induction first generalizing state with
  | nil => exact rest
  | cons input first ih => exact ⟨guarded.1, ih guarded.2 rest⟩

theorem Guarded.mono {weaker : σ → ι → Prop}
    (weakens : ∀ state input, guard state input → weaker state input) {state : σ} {inputs : List ι}
    (guarded : Guarded guard step state inputs) : Guarded weaker step state inputs := by
  induction inputs generalizing state with
  | nil => trivial
  | cons input inputs ih => exact ⟨weakens state input guarded.1, ih guarded.2⟩

theorem Guarded.of_forall {inputs : List ι}
    (meets : ∀ input ∈ inputs, ∀ state, guard state input) (state : σ) :
    Guarded guard step state inputs := by
  induction inputs generalizing state with
  | nil => trivial
  | cons input inputs ih =>
      exact ⟨meets input (by simp) state,
        ih (fun other member => meets other (by simp [member])) (step state input)⟩

theorem guarded_iff_forall_split {state : σ} {inputs : List ι} :
    Guarded guard step state inputs ↔
      ∀ earlier input later, inputs = earlier ++ input :: later →
        guard (earlier.foldl step state) input := by
  constructor
  · rintro guarded earlier input later rfl
    exact guarded.rest_of_append.1
  · intro holds
    induction inputs generalizing state with
    | nil => trivial
    | cons input inputs ih =>
        refine ⟨holds [] input inputs rfl, ih ?_⟩
        rintro earlier other later rfl
        exact holds (input :: earlier) other later rfl

/-- Two guards that agree under an invariant guard the same runs. -/
theorem guarded_iff_of_invariant {other : σ → ι → Prop} {invariant : σ → Prop}
    (same : ∀ state input, invariant state → (guard state input ↔ other state input))
    (preserved : ∀ state input, invariant state → guard state input →
      invariant (step state input))
    {state : σ} (starts : invariant state) (inputs : List ι) :
    Guarded guard step state inputs ↔ Guarded other step state inputs := by
  induction inputs generalizing state with
  | nil => exact Iff.rfl
  | cons input inputs ih =>
      exact (and_congr_right fun guarded => ih (preserved state input starts guarded)).trans
        (and_congr_left' (same state input starts))

/-- The run lemma: what every guarded step preserves holds at the end of a
guarded run. -/
theorem Guarded.invariant {invariant : σ → Prop}
    (preserved : ∀ state input, invariant state → guard state input →
      invariant (step state input))
    {state : σ} {inputs : List ι} (starts : invariant state)
    (guarded : Guarded guard step state inputs) :
    invariant (inputs.foldl step state) := by
  induction inputs generalizing state with
  | nil => exact starts
  | cons input inputs ih =>
      exact ih (preserved state input starts guarded.1) guarded.2

/-- The same at every state the run passes through. -/
theorem Guarded.invariant_of_prefix {invariant : σ → Prop}
    (preserved : ∀ state input, invariant state → guard state input →
      invariant (step state input))
    {state : σ} {inputs reached : List ι} (starts : invariant state)
    (guarded : Guarded guard step state inputs) (prior : reached <+: inputs) :
    invariant (reached.foldl step state) := by
  obtain ⟨later, rfl⟩ := prior
  exact guarded.of_append.invariant preserved starts

/-- A guard on the state that the step leads to holds all along a run exactly
when every state of the run is good. -/
theorem guarded_next_iff {good : σ → Prop} {state : σ} {inputs : List ι} (starts : good state) :
    Guarded (fun state input => good (step state input)) step state inputs ↔
      ∀ reached, reached <+: inputs → good (reached.foldl step state) := by
  induction inputs generalizing state with
  | nil =>
      refine ⟨?_, fun _ => trivial⟩
      rintro - reached prior
      rw [List.prefix_nil.mp prior]
      exact starts
  | cons input inputs ih =>
      constructor
      · rintro ⟨next, rest⟩ reached prior
        rcases List.prefix_cons_iff.mp prior with rfl | ⟨tail, rfl, tailPrior⟩
        · exact starts
        · exact (ih next).mp rest tail tailPrior
      · intro holds
        have next := holds [input] (List.prefix_iff_eq_append.mpr rfl)
        refine ⟨next, (ih next).mpr ?_⟩
        intro reached prior
        exact holds (input :: reached) (List.cons_prefix_cons.mpr ⟨rfl, prior⟩)

/-- A place that each guarded step overwrites or leaves alone holds what was
last written to it. -/
theorem Guarded.look_foldl {ρ : Type*} (look : σ → ρ) (writes : ι → Option ρ)
    (look_step : ∀ state input, guard state input →
      look (step state input) = (writes input).getD (look state))
    {state : σ} {inputs : List ι} (guarded : Guarded guard step state inputs) :
    look (inputs.foldl step state) =
      ((inputs.filterMap writes).getLast?).getD (look state) := by
  induction inputs generalizing state with
  | nil => rfl
  | cons input inputs ih =>
      rw [List.foldl_cons, ih guarded.2, look_step state input guarded.1]
      cases written : writes input with
      | none => rw [List.filterMap_cons_none written, Option.getD_none]
      | some value =>
          rw [List.filterMap_cons_some written, List.getLast?_cons]
          cases (inputs.filterMap writes).getLast? <;> rfl

section Observations

variable {ω : Type*} (step) (emit : σ → ι → List ω) (observe : σ → ι → Option ω)

/-- What the steps of a run give out, one after the other. -/
def emitted : σ → List ι → List ω
  | _, [] => []
  | state, input :: inputs => emit state input ++ emitted (step state input) inputs

/-- What is observed of a run, step after step. -/
def observations (state : σ) (inputs : List ι) : List ω :=
  emitted step (fun state input => (observe state input).toList) state inputs

variable {step emit observe}

theorem emitted_append {state : σ} {first second : List ι} :
    emitted step emit state (first ++ second) =
      emitted step emit state first ++ emitted step emit (first.foldl step state) second := by
  induction first generalizing state with
  | nil => rfl
  | cons input first ih => simp [emitted, ih]

theorem observations_cons {state : σ} {input : ι} {inputs : List ι} :
    observations step observe state (input :: inputs) =
      (observe state input).toList ++ observations step observe (step state input) inputs :=
  rfl

theorem emitted_map {κ : Type*} (convert : ω → κ) {state : σ} {inputs : List ι} :
    emitted step (fun state input => (emit state input).map convert) state inputs =
      (emitted step emit state inputs).map convert := by
  induction inputs generalizing state with
  | nil => rfl
  | cons input inputs ih => simp [emitted, ih]

theorem emitted_filter (keep : ω → Bool) {state : σ} {inputs : List ι} :
    emitted step (fun state input => (emit state input).filter keep) state inputs =
      (emitted step emit state inputs).filter keep := by
  induction inputs generalizing state with
  | nil => rfl
  | cons input inputs ih => simp [emitted, ih]

theorem emitted_flatMap {κ : Type*} (expand : ω → List κ) {state : σ} {inputs : List ι} :
    emitted step (fun state input => (emit state input).flatMap expand) state inputs =
      (emitted step emit state inputs).flatMap expand := by
  induction inputs generalizing state with
  | nil => rfl
  | cons input inputs ih => simp [emitted, ih]

theorem exists_of_mem_emitted {state : σ} {inputs : List ι} {item : ω}
    (member : item ∈ emitted step emit state inputs) :
    ∃ earlier input later, inputs = earlier ++ input :: later ∧
      item ∈ emit (earlier.foldl step state) input := by
  induction inputs generalizing state with
  | nil => simp [emitted] at member
  | cons input inputs ih =>
      rcases List.mem_append.mp member with here | later
      · exact ⟨[], input, inputs, rfl, here⟩
      · obtain ⟨earlier, other, rest, rfl, emits⟩ := ih later
        exact ⟨input :: earlier, other, rest, rfl, emits⟩

/-- What comes in is what goes out and what is still there, in this order. -/
theorem Guarded.conserved (stock : σ → List ω) (inflow outflow : σ → ι → List ω)
    {invariant : σ → Prop}
    (preserved : ∀ state input, invariant state → guard state input →
      invariant (step state input))
    (balance : ∀ state input, invariant state → guard state input →
      stock state ++ inflow state input = outflow state input ++ stock (step state input))
    {state : σ} {inputs : List ι} (starts : invariant state)
    (guarded : Guarded guard step state inputs) :
    stock state ++ emitted step inflow state inputs =
      emitted step outflow state inputs ++ stock (inputs.foldl step state) := by
  induction inputs generalizing state with
  | nil => simp [emitted]
  | cons input inputs ih =>
      have later := ih (preserved state input starts guarded.1) guarded.2
      calc stock state ++ emitted step inflow state (input :: inputs)
          = (stock state ++ inflow state input) ++
              emitted step inflow (step state input) inputs := by simp [emitted]
        _ = outflow state input ++ (stock (step state input) ++
              emitted step inflow (step state input) inputs) := by
            rw [balance state input starts guarded.1, List.append_assoc]
        _ = emitted step outflow state (input :: inputs) ++
              stock ((input :: inputs).foldl step state) := by
            rw [later]
            simp [emitted]

variable {τ κ : Type*} {otherGuard : τ → κ → Prop} {otherStep : τ → κ → τ}

/-- A run whose steps each do what one step of another system does, or nothing
that system sees, is a run of the other system. -/
theorem Guarded.simulates (abstract : σ → τ) {label : σ → ι → Option κ} {invariant : σ → Prop}
    (preserved : ∀ state input, invariant state → guard state input →
      invariant (step state input))
    (silent : ∀ state input, invariant state → guard state input → label state input = none →
      abstract (step state input) = abstract state)
    (matched : ∀ state input other, invariant state → guard state input →
      label state input = some other → otherGuard (abstract state) other ∧
        abstract (step state input) = otherStep (abstract state) other)
    {state : σ} {inputs : List ι} (starts : invariant state)
    (guarded : Guarded guard step state inputs) :
    Guarded otherGuard otherStep (abstract state) (observations step label state inputs) ∧
      abstract (inputs.foldl step state) =
        (observations step label state inputs).foldl otherStep (abstract state) := by
  induction inputs generalizing state with
  | nil => exact ⟨trivial, rfl⟩
  | cons input inputs ih =>
      have later := ih (preserved state input starts guarded.1) guarded.2
      cases labelled : label state input with
      | none =>
          rw [silent state input starts guarded.1 labelled] at later
          simpa [observations_cons, labelled] using later
      | some other =>
          obtain ⟨allowed, same⟩ := matched state input other starts guarded.1 labelled
          rw [same] at later
          have seen : observations step label state (input :: inputs) =
              other :: observations step label (step state input) inputs := by
            simp [observations_cons, labelled]
          rw [seen]
          exact ⟨⟨allowed, later.1⟩, later.2⟩

end Observations

end GuardedRuns
