import OpenMplane.SystemTaskHistory

/-!
# Each step of a run of commands

A step that meets the condition keeps the invariant: one lemma for each step at
which the caller or the task does more than go on.
-/

namespace OpenMplane

open Conditional GuardedRuns

namespace CommandSystem

variable {Client : Type} {system : CommandSystem Client} {step : Step Client}

theorem Kept.kill (kept : Kept system) (meets : Meets system .kill) :
    Kept (next system .kill) := by
  have phase := phase_next kept.phase meets
  obtain ⟨⟨call, inside, place⟩, apart⟩ := meets
  obtain ⟨-, positive, runs⟩ := kept.child.known apart
  have pending : (next system .kill).handover.Pending ↔ system.handover.Pending := by
    simp [Handover.Pending, handover, next, callerStep, inside, place]
  have stored : (next system .kill).handover.Stored → system.handover.Stored := by
    simp [Handover.Stored, handover, next, callerStep, inside, place]
  have order := kept.order.congr pending
  simp only [next, callerStep, inside] at phase pending stored order ⊢
  refine ⟨phase, ?_, order, kept.child,
    ⟨kept.status.value, fun here => kept.status.stored (stored here)⟩, kept.returns, ?_⟩
  · intro other same
    rw [← Option.some.inj same]
    simpa using kept.number call inside
  · intro kill member
    rcases List.mem_append.mp member with old | new
    · exact kept.kills kill old
    · rw [List.mem_singleton.mp new]
      exact ⟨positive, runs⟩

theorem Kept.endWait {result : Bool} (kept : Kept system)
    (meets : Meets system (.endWait result)) : Kept (next system (.endWait result)) := by
  have phase := phase_next kept.phase meets
  obtain ⟨⟨⟨call, inside, place⟩, flag⟩, apart⟩ := meets
  have waits := timeUp_place call place
  have ticks : call.timeUp.place ≠ .signalling ∧ call.timeUp.place ≠ .ending := by
    constructor <;> intro here <;> simp [here, RunCmdAt.Waits] at waits
  have pending : (next system (.endWait result)).handover.Pending ↔
      system.handover.Pending := by
    cases result <;> simp [Handover.Pending, handover, next, callerStep, inside, place, ticks]
  have stored : (next system (.endWait result)).handover.Stored → system.handover.Stored := by
    cases result with
    | true => exact fun _ => Or.inr (Or.inl flag)
    | false =>
        have unset : system.task.mCondEnd = false := apart
        simp [Handover.Stored, handover, next, callerStep, inside, place, ticks, unset,
          FlagOp.next]
  have order := kept.order.congr pending
  simp only [next, callerStep, inside] at phase pending stored order ⊢
  refine ⟨phase, ?_, order, kept.child,
    ⟨kept.status.value, fun here => kept.status.stored (stored here)⟩, kept.returns, kept.kills⟩
  intro other same
  have number := kept.number call inside
  cases result with
  | true =>
      rw [← Option.some.inj same]
      exact number
  | false =>
      rw [← Option.some.inj same]
      simpa using number

theorem Kept.signalStart (kept : Kept system) (meets : Meets system .signalStart) :
    Kept (next system .signalStart) := by
  have phase := phase_next kept.phase meets
  obtain ⟨⟨call, inside, place⟩, -⟩ := meets
  have pending : system.handover.Pending := Or.inl (by simp [handover, inside, place])
  have still : (next system .signalStart).handover.Pending :=
    Or.inr (Or.inl (by simp [handover, next, callerStep, inside, FlagOp.next]))
  have unstored := fun stored => (phase.not_pending_of_stored stored).1 still
  have order := kept.order.congr (iff_of_true still pending)
  simp only [next, callerStep, inside] at phase unstored order ⊢
  refine ⟨phase, ?_, order, kept.child,
    ⟨kept.status.value, fun stored => absurd stored unstored⟩, kept.returns, kept.kills⟩
  intro other same
  rw [← Option.some.inj same]
  exact kept.number call inside

/-- The task's wait is heard, or times out with nothing to hear. -/
theorem Kept.startWait {result : Bool} (kept : Kept system)
    (meets : Meets system (.startWait result)) : Kept (next system (.startWait result)) := by
  have phase := phase_next kept.phase meets
  obtain ⟨⟨stage, flag⟩, apart⟩ := meets
  have rests : ¬ system.stage.HasForked := by simp [stage, TaskStage.HasForked]
  cases result with
  | true =>
      have pending : system.handover.Pending := Or.inr (Or.inl flag)
      have still : (next system (.startWait true)).handover.Pending := Or.inr (Or.inr rfl)
      refine ⟨phase, kept.number, kept.order.congr (iff_of_true still pending),
        kept.child.move rests id _ _, ⟨by simp [next], fun stored => ?_⟩, kept.returns, kept.kills⟩
      exact absurd still (phase.not_pending_of_stored stored).1
  | false =>
      have unset : system.task.mCondStart = false := apart
      have same : next system (.startWait false) = system := by
        obtain ⟨task, _, _, _, _, _, _, _, _, _⟩ := system
        obtain ⟨_, _, _, _, _, _⟩ := task
        simp_all [next, FlagOp.next]
      rwa [same]

theorem Kept.assign (kept : Kept system) (meets : Meets system .assign) :
    Kept (next system .assign) := by
  have phase := phase_next kept.phase meets
  have stage : system.stage = .assigning := meets.1
  have forked : system.stage.HasForked := by simp [stage, TaskStage.HasForked]
  by_cases failed : system.value = -1
  · simp only [next, failed, if_true] at phase ⊢
    exact kept.exit none forked (by simp) rfl phase
  · have child := (kept.child.assigning stage).resolve_left failed
    have count := kept.child.forked forked
    simp only [next, failed, if_false] at phase ⊢
    refine ⟨phase, kept.number, kept.order.congr ?_,
      ⟨fun _ => count, fun rests => absurd trivial rests, by simp, fun _ => child, by simp,
        kept.child.exited⟩,
      ⟨by simp, fun stored => ?_⟩, kept.returns, kept.kills⟩
    · simp [Handover.Pending, handover, stage]
    · exact absurd trivial (phase.not_pending_of_stored stored).2.1

theorem Kept.waitpid {exit : Option ChildExit} (kept : Kept system)
    (meets : Meets system (.waitpid exit)) : Kept (next system (.waitpid exit)) := by
  have phase := phase_next kept.phase meets
  obtain ⟨⟨stage, reapable⟩, -⟩ := meets
  obtain ⟨⟨execution, last, child⟩, positive, -⟩ := kept.child.known (Or.inr stage)
  have awaited := kept.child.awaited stage
  refine kept.exit exit (by simp [stage, TaskStage.HasForked]) ?_ rfl phase
  rintro ended rfl
  obtain ⟨-, own | group | any⟩ := reapable
  · exact ⟨execution, last, by rw [child, ← awaited, own]⟩
  · omega
  · omega

theorem kept_next (kept : Kept system) (meets : Meets system step) : Kept (next system step) := by
  have phase := phase_next kept.phase meets
  cases step with
  | call client cmd expectedRuntimeSecs timeoutSecs =>
      obtain ⟨free, apart⟩ := meets
      by_cases empty : cmd.isEmpty = true
      · simp only [next, callStep, empty, if_true] at phase ⊢
        refine ⟨phase, kept.number, kept.order, kept.child, kept.status, fun ret member => ?_,
          kept.kills⟩
        rcases List.mem_append.mp member with old | new
        · exact kept.returns ret old
        · rw [List.mem_singleton.mp new]
          exact String.isEmpty_iff.mp empty
      · have idle : system.task.mExecuting = false := by
          have notClearing := apart (by simpa using empty)
          exact kept.phase.idle_of_none (by simp [handover, show system.caller = none from free])
            notClearing
        exact kept.call free idle empty phase
  | signalStart => exact kept.signalStart meets
  | endWait result => exact kept.endWait meets
  | kill => exact kept.kill meets
  | finish =>
      obtain ⟨⟨call, inside, place⟩, -⟩ := meets
      simp only [next, inside] at phase ⊢
      exact kept.finish inside place phase
  | startWait result => exact kept.startWait meets
  | fork child => exact kept.fork meets.1.1 meets.1.2 phase
  | assign => exact kept.assign meets
  | callWaitpid =>
      have stage : system.stage = .calling := meets.1
      have forked : system.stage.HasForked := by simp [stage, TaskStage.HasForked]
      refine ⟨phase, kept.number, kept.order.congr ?_,
        ⟨fun _ => kept.child.forked forked, fun rests => absurd trivial rests, by simp [next],
          fun _ => kept.child.known (Or.inl stage), fun _ => rfl, kept.child.exited⟩,
        ⟨by simp [next], fun stored => ?_⟩, kept.returns, kept.kills⟩
      · simp [Handover.Pending, handover, next, stage]
      · exact absurd trivial (phase.not_pending_of_stored stored).2.1
  | waitpid exit => exact kept.waitpid meets
  | store =>
      have stage : system.stage = .storing := meets.1
      refine ⟨phase, kept.number, kept.order.congr ?_,
        kept.child.move (by simp [stage, TaskStage.HasForked]) id _ _,
        ⟨by simp [next], fun _ => kept.status.value stage⟩, kept.returns, kept.kills⟩
      simp [Handover.Pending, handover, next, stage]
  | signalEnd =>
      have stage : system.stage = .signalling := meets.1
      refine ⟨phase, kept.number, kept.order.congr ?_,
        kept.child.move (by simp [stage, TaskStage.HasForked]) id _ _,
        ⟨by simp [next], fun _ => kept.status.stored (Or.inl stage)⟩, kept.returns, kept.kills⟩
      simp [Handover.Pending, handover, next, stage]
  | clear =>
      have stage : system.stage = .clearing := meets.1
      refine ⟨phase, kept.number, kept.order.congr ?_,
        kept.child.move (by simp [stage, TaskStage.HasForked]) id _ _,
        ⟨by simp [next], fun stored => kept.status.stored ?_⟩, kept.returns, kept.kills⟩
      · simp [Handover.Pending, handover, next, stage]
      · exact Or.inr (stored.resolve_left (by simp [handover, next]))

end CommandSystem

end OpenMplane
