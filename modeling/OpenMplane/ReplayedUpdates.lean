import Mathlib.Data.List.Basic

/-!
# Replaying a list of updates

A store that receives the same list of updates twice ends where one pass ends
when each update overwrites what an earlier pass of itself did, whatever came
in between.  For updates that overwrite it is enough to look at two updates at
a time.
-/

namespace ReplayedUpdates

variable {σ ι : Type*}

/-- Of two occurrences of one update, next to each other or around one other
update, only the later one matters. -/
structure Overwriting (update : σ → ι → σ) : Prop where
  idempotent : ∀ state input, update (update state input) input = update state input
  lastWins : ∀ state first second,
    update (update (update state first) second) first =
      update (update state second) first

variable {update : σ → ι → σ}

/-- The pairwise law reaches over any list of updates in between. -/
theorem Overwriting.over_list (overwriting : Overwriting update)
    (state : σ) (input : ι) (between : List ι) :
    update (between.foldl update (update state input)) input =
      update (between.foldl update state) input := by
  induction between generalizing state with
  | nil => exact overwriting.idempotent state input
  | cons other between ih =>
      simp only [List.foldl_cons]
      calc
        update (between.foldl update (update (update state input) other)) input =
            update (between.foldl update
              (update (update (update state input) other) input)) input := (ih _).symm
        _ = update (between.foldl update (update (update state other) input)) input := by
          rw [overwriting.lastWins]
        _ = update (between.foldl update (update state other)) input := ih _

/-- A list that is replayed after other updates makes its first pass
unnecessary. -/
theorem Overwriting.replay_over (overwriting : Overwriting update)
    (inputs between : List ι) (state : σ) :
    inputs.foldl update (between.foldl update (inputs.foldl update state)) =
      inputs.foldl update (between.foldl update state) := by
  induction inputs generalizing state between with
  | nil => rfl
  | cons input inputs ih =>
      simp only [List.foldl_cons]
      have absorbed := overwriting.over_list state input (inputs ++ between)
      simp only [List.foldl_append] at absorbed
      rw [absorbed]
      simpa [List.foldl_append] using ih (between ++ [input]) state

/-- Replaying a list of overwriting updates changes nothing. -/
theorem Overwriting.replay (overwriting : Overwriting update)
    (inputs : List ι) (state : σ) :
    inputs.foldl update (inputs.foldl update state) = inputs.foldl update state :=
  overwriting.replay_over inputs [] state

section Keyed

variable {κ ρ : Type*} [DecidableEq κ]

/-- An update that changes a store at one key or not at all, as a function of
what the key holds. -/
structure Keyed (update : σ → ι → σ) (look : σ → κ → ρ) (key : ι → Option κ)
    (write : ι → ρ → ρ) : Prop where
  ext : ∀ first second, (∀ place, look first place = look second place) → first = second
  look_update : ∀ state input place,
    look (update state input) place =
      if key input = some place then write input (look state place) else look state place

theorem Keyed.overwriting {look : σ → κ → ρ} {key : ι → Option κ} {write : ι → ρ → ρ}
    (keyed : Keyed update look key write)
    (idempotent : ∀ input held, write input (write input held) = write input held)
    (lastWins : ∀ first second, key first = key second → ∀ held,
      write first (write second (write first held)) = write first (write second held)) :
    Overwriting update where
  idempotent state input := by
    apply keyed.ext
    intro place
    simp only [keyed.look_update]
    split
    · exact idempotent input _
    · rfl
  lastWins state first second := by
    apply keyed.ext
    intro place
    simp only [keyed.look_update]
    by_cases firstHere : key first = some place
    · by_cases secondHere : key second = some place
      · simp only [firstHere, secondHere, ↓reduceIte]
        exact lastWins first second (firstHere.trans secondHere.symm) _
      · simp only [firstHere, secondHere, ↓reduceIte]
        exact idempotent first _
    · simp only [firstHere, ↓reduceIte]

end Keyed

section Settled

variable {κ ρ : Type*} {target : κ → ρ} {settles : ι → κ → Prop}

/-- Updates that settle their own keys at a target, and move no key that is
settled, settle all their keys together. -/
theorem foldl_settles (look : σ → κ → ρ) {inputs : List ι}
    (step : ∀ input ∈ inputs, ∀ state key, look state key = target key ∨ settles input key →
      look (update state input) key = target key)
    {state : σ} {key : κ}
    (settled : look state key = target key ∨ ∃ input ∈ inputs, settles input key) :
    look (inputs.foldl update state) key = target key := by
  induction inputs generalizing state with
  | nil => simpa using settled
  | cons input inputs ih =>
      rw [List.foldl_cons]
      refine ih (fun other member => step other (by simp [member])) ?_
      rcases settled with before | ⟨other, member, settlesKey⟩
      · exact Or.inl (step input (by simp) state key (Or.inl before))
      · rcases List.mem_cons.mp member with rfl | later
        · exact Or.inl (step other (by simp) state key (Or.inr settlesKey))
        · exact Or.inr ⟨other, later, settlesKey⟩

end Settled

end ReplayedUpdates
