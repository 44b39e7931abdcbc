import OpenMplane.StatePrograms
import Mathlib.Data.List.Basic

/-!
# Programs that record their operations

A program makes operations one after the other, and its state records how each
of them ended.  Which of them succeed is given by their numbers.  `Performs`
says that a program makes the operations of a list unless one of them fails,
that it only throws when one fails or when it is not ready for its data, and
that the records tell the failures.  The rules follow the program.
-/

namespace OperationRecords

open StatePrograms

variable {ε σ τ α β ι ω ρ : Type}

section Successes

variable (succeeds : Nat → ω → Prop)

/-- The operations, numbered from the given number on, all succeed. -/
def AllSucceed : Nat → List ω → Prop
  | _, [] => True
  | number, operation :: operations =>
      succeeds number operation ∧ AllSucceed (number + 1) operations

variable {succeeds}

theorem allSucceed_append {number : Nat} {first second : List ω} :
    AllSucceed succeeds number (first ++ second) ↔
      AllSucceed succeeds number first ∧ AllSucceed succeeds (number + first.length) second := by
  induction first generalizing number with
  | nil => simp [AllSucceed]
  | cons operation first ih =>
      have shift : number + 1 + first.length = number + (operation :: first).length := by
        rw [List.length_cons]
        omega
      rw [List.cons_append, AllSucceed, AllSucceed, ih, shift, and_assoc]

end Successes

section Rules

variable (log : σ → List ρ) (good : ρ → Prop) (succeeds : Nat → ω → Prop)

/-- The records that a program adds tell whether it was ready and its operations
succeeded. -/
def Told (ready : Prop) (operations : List ω) (before after : List ρ) : Prop :=
  ∃ records, after = before ++ records ∧
    ((∀ record ∈ records, good record) → records.length = operations.length) ∧
    ((∀ record ∈ records, good record) ↔
      ready ∧ AllSucceed succeeds before.length operations)

/-- The program makes the operations unless one of them fails or it is not ready. -/
def Performs (pre post : σ → Prop) (ready : Prop) (operations : List ω) (returned : α → Prop)
    (program : EStateM ε σ α) : Prop :=
  ∀ before, pre before →
    match program before with
    | .ok value after => post after ∧ returned value ∧
        Told good succeeds ready operations (log before) (log after)
    | .error _ _ => ¬ (ready ∧ AllSucceed succeeds (log before).length operations)

variable {log good succeeds} {pre middle post : σ → Prop} {ready readyThen : Prop}
  {operations operationsThen : List ω} {returned : α → Prop} {returnedThen : β → Prop}

theorem told_nothing (entries : List ρ) :
    Told good succeeds True ([] : List ω) entries entries :=
  ⟨[], by simp [AllSucceed]⟩

theorem Told.append {before middle after : List ρ}
    (first : Told good succeeds ready operations before middle)
    (second : Told good succeeds readyThen operationsThen middle after) :
    Told good succeeds (ready ∧ readyThen) (operations ++ operationsThen) before after := by
  obtain ⟨records, rfl, sameLength, tells⟩ := first
  obtain ⟨recordsThen, rfl, sameLengthThen, tellsThen⟩ := second
  have all : (∀ record ∈ records ++ recordsThen, good record) ↔
      (∀ record ∈ records, good record) ∧ ∀ record ∈ recordsThen, good record :=
    List.forall_mem_append
  refine ⟨records ++ recordsThen, List.append_assoc _ _ _, ?_, ?_⟩
  · intro allGood
    obtain ⟨goodFirst, goodThen⟩ := all.mp allGood
    rw [List.length_append, List.length_append, sameLength goodFirst, sameLengthThen goodThen]
  · rw [all, allSucceed_append]
    constructor
    · rintro ⟨goodFirst, goodThen⟩
      obtain ⟨isReady, succeed⟩ := tells.mp goodFirst
      obtain ⟨isReadyThen, succeedThen⟩ := tellsThen.mp goodThen
      rw [List.length_append, sameLength goodFirst] at succeedThen
      exact ⟨⟨isReady, isReadyThen⟩, succeed, succeedThen⟩
    · rintro ⟨⟨isReady, isReadyThen⟩, succeed, succeedThen⟩
      have goodFirst := tells.mpr ⟨isReady, succeed⟩
      refine ⟨goodFirst, tellsThen.mpr ⟨isReadyThen, ?_⟩⟩
      rwa [List.length_append, sameLength goodFirst]

theorem Performs.pure {value : α} (returns : returned value) :
    Performs (ε := ε) log good succeeds pre pre True [] returned (pure value) :=
  fun before holds => ⟨holds, returns, told_nothing (log before)⟩

/-- A program that makes no operation and always returns. -/
theorem Performs.silent {program : EStateM ε σ α}
    (returns : ∀ before, pre before → ∃ value after, program before = .ok value after ∧
      post after ∧ returned value ∧ log after = log before) :
    Performs log good succeeds pre post True [] returned program := by
  intro before holds
  obtain ⟨value, after, run, reached, result, same⟩ := returns before holds
  rw [run]
  dsimp only
  rw [same]
  exact ⟨reached, result, told_nothing (log before)⟩

theorem Performs.modify {update : σ → σ} (moves : ∀ before, pre before → post (update before))
    (same : ∀ before, log (update before) = log before) :
    Performs (ε := ε) log good succeeds pre post True [] (fun _ => True) (modify update) :=
  Performs.silent fun before holds =>
    ⟨PUnit.unit, update before, rfl, moves before holds, trivial, same before⟩

/-- A program that returns only when it is ready, and makes no operation. -/
theorem Performs.unrecorded {program : EStateM ε σ α}
    (exits : ∀ before, pre before →
      match program before with
      | .ok value after => ready ∧ post after ∧ returned value ∧ log after = log before
      | .error _ _ => ¬ ready) :
    Performs log good succeeds pre post ready [] returned program := by
  intro before holds
  have exit := exits before holds
  cases run : program before with
  | ok value after =>
      rw [run] at exit
      obtain ⟨isReady, reached, result, same⟩ := exit
      refine ⟨reached, result, [], by rw [same, List.append_nil], fun _ => rfl, ?_⟩
      simp [AllSucceed, isReady]
  | error exception after =>
      rw [run] at exit
      exact fun both => exit both.1

theorem Performs.bind {first : EStateM ε σ α} {next : α → EStateM ε σ β}
    (head : Performs log good succeeds pre middle ready operations returned first)
    (tail : ∀ value, returned value → Performs log good succeeds middle post readyThen
      operationsThen returnedThen (next value)) :
    Performs log good succeeds pre post (ready ∧ readyThen) (operations ++ operationsThen)
      returnedThen (first >>= next) := by
  intro before holds
  have headRun := head before holds
  rw [bind_apply]
  cases run : first before with
  | error exception after =>
      rw [run] at headRun
      rintro ⟨⟨isReady, -⟩, succeed⟩
      exact headRun ⟨isReady, (allSucceed_append.mp succeed).1⟩
  | ok value between =>
      rw [run] at headRun
      obtain ⟨reached, result, told⟩ := headRun
      have tailRun := tail value result between reached
      dsimp only
      cases runThen : next value between with
      | ok last after =>
          rw [runThen] at tailRun
          obtain ⟨reachedThen, resultThen, toldThen⟩ := tailRun
          exact ⟨reachedThen, resultThen, told.append toldThen⟩
      | error exception after =>
          rw [runThen] at tailRun
          rintro ⟨⟨isReady, isReadyThen⟩, succeed⟩
          obtain ⟨succeedFirst, succeedThen⟩ := allSucceed_append.mp succeed
          obtain ⟨records, extended, sameLength, tells⟩ := told
          refine tailRun ⟨isReadyThen, ?_⟩
          rwa [extended, List.length_append, sameLength (tells.mpr ⟨isReady, succeedFirst⟩)]

theorem Performs.congr {program : EStateM ε σ α} {otherReady : Prop} {otherOperations : List ω}
    (performs : Performs log good succeeds pre post ready operations returned program)
    (sameReady : ready ↔ otherReady) (sameOperations : operations = otherOperations) :
    Performs log good succeeds pre post otherReady otherOperations returned program := by
  rw [← propext sameReady, ← sameOperations]
  exact performs

/-- A loop over a list whose body keeps an invariant. -/
theorem Performs.forM {readyFor : ι → Prop} {operationsOf : ι → List ω} {steps : List ι}
    {program : ι → EStateM ε σ PUnit}
    (each : ∀ step ∈ steps, Performs log good succeeds pre pre (readyFor step)
      (operationsOf step) (fun _ => True) (program step)) :
    Performs log good succeeds pre pre (∀ step ∈ steps, readyFor step)
      (steps.flatMap operationsOf) (fun _ => True) (forM steps program) := by
  induction steps with
  | nil =>
      have nothing : Performs (ε := ε) log good succeeds pre pre True ([] : List ω)
          (fun _ : PUnit => True) (Pure.pure PUnit.unit) := Performs.pure trivial
      exact nothing.congr (by simp) rfl
  | cons step steps ih =>
      rw [List.forM_cons]
      have here := each step (by simp)
      have later := ih fun other member => each other (by simp [member])
      exact (here.bind fun _ _ => later).congr (by simp) List.flatMap_cons.symm

/-- A program on a member of the state, beside which something is kept. -/
theorem Performs.focus {logOf : τ → List ρ} {preOf postOf : τ → Prop} (frame : σ → Prop)
    (member : Member σ τ) {program : EStateM ε τ α}
    (performs : Performs logOf good succeeds preOf postOf ready operations returned program)
    (framed : ∀ state part, frame state → frame (member.put state part)) :
    Performs (fun state => logOf (member.get state)) good succeeds
      (fun state => preOf (member.get state) ∧ frame state)
      (fun state => postOf (member.get state) ∧ frame state) ready operations returned
      (focus member program) := by
  rintro before ⟨holds, keeps⟩
  have part := performs (member.get before) holds
  rw [StatePrograms.focus]
  cases run : program (member.get before) with
  | ok value after =>
      rw [run] at part
      dsimp only
      rw [member.get_put]
      exact ⟨⟨part.1, framed before after keeps⟩, part.2.1, part.2.2⟩
  | error exception after =>
      rw [run] at part
      exact part

theorem Performs.weaken {program : EStateM ε σ α} {otherPre otherPost : σ → Prop}
    {otherReturned : α → Prop}
    (performs : Performs log good succeeds pre post ready operations returned program)
    (before : ∀ state, otherPre state → pre state) (after : ∀ state, post state → otherPost state)
    (result : ∀ value, returned value → otherReturned value) :
    Performs log good succeeds otherPre otherPost ready operations otherReturned program := by
  intro state holds
  have run := performs state (before state holds)
  cases exit : program state with
  | ok value last =>
      rw [exit] at run
      exact ⟨after last run.1, result value run.2.1, run.2.2⟩
  | error exception last =>
      rw [exit] at run
      exact run

end Rules

end OperationRecords
