import Mathlib.Data.List.Induction

/-!
# The last write wins

A view of a state that every input either overwrites or leaves alone holds,
after a run, the last value that was written to it, or what it held before when
nothing was written.  The inputs that write to other views do not matter.
-/

namespace LastWriteWins

variable {σ ι β : Type*}

/-- The last value that a row of inputs writes. -/
def lastWrite (writes : ι → Option β) (inputs : List ι) : Option β :=
  (inputs.filterMap writes).getLast?

theorem lastWrite_append_singleton (writes : ι → Option β) (inputs : List ι) (input : ι) :
    lastWrite writes (inputs ++ [input]) = (writes input).or (lastWrite writes inputs) := by
  unfold lastWrite
  rw [List.filterMap_append]
  cases written : writes input with
  | none => simp [written]
  | some value => simp [written]

theorem exists_of_lastWrite {writes : ι → Option β} {inputs : List ι} {value : β}
    (last : lastWrite writes inputs = some value) :
    ∃ input ∈ inputs, writes input = some value :=
  List.mem_filterMap.mp (List.mem_of_getLast? last)

theorem lastWrite_eq_none_iff {writes : ι → Option β} {inputs : List ι} :
    lastWrite writes inputs = none ↔ ∀ input ∈ inputs, writes input = none := by
  simp [lastWrite]

theorem lastWrite_map {γ : Type*} (convert : β → γ) (writes : ι → Option β) (inputs : List ι) :
    lastWrite (fun input => (writes input).map convert) inputs =
      (lastWrite writes inputs).map convert := by
  rw [lastWrite, lastWrite, ← List.getLast?_map, List.map_filterMap]

theorem view_foldl (update : σ → ι → σ) (view : σ → β) (writes : ι → Option β)
    (inputs : List ι) (state : σ)
    (step : ∀ input ∈ inputs, ∀ state, view (update state input) = (writes input).getD (view state)) :
    view (inputs.foldl update state) = (lastWrite writes inputs).getD (view state) := by
  induction inputs using List.reverseRecOn with
  | nil => rfl
  | append_singleton inputs input ih =>
      have before := ih fun other member => step other (by simp [member])
      rw [List.foldl_append, List.foldl_cons, List.foldl_nil, step input (by simp), before,
        lastWrite_append_singleton]
      cases writes input with
      | none => rfl
      | some value => rfl

end LastWriteWins
