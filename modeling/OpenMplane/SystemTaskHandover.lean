import OpenMplane.SystemTask

/-!
# How a command is handed to the task and back

Caller and task share two flags and the executing flag.  While no signal is lost
and no call is made before the task has cleared the executing flag, the two are
always in one of the phases below, and each step goes from a phase to a phase.
-/

namespace OpenMplane

open Conditional

/-- In the wait for the end, or between two such waits. -/
def RunCmdAt.Waits : RunCmdAt → Prop
  | waiting | killing => True
  | signalling | ending => False

/-- Between the start signal and the end signal. -/
def TaskStage.Busy : TaskStage → Prop
  | forking | assigning | calling | inWaitpid | storing | signalling => True
  | waiting | clearing => False

/-- What the handing over of a command depends on. -/
structure Handover where
  caller : Option RunCmdAt
  stage : TaskStage
  mExecuting : Bool
  mCondStart : Bool
  mCondEnd : Bool
  deriving DecidableEq, Repr

namespace Handover

inductive Phase : Handover → Prop
  | free : Phase ⟨none, .waiting, false, false, false⟩
  | freeSoon : Phase ⟨none, .clearing, true, false, false⟩
  | accepted : Phase ⟨some .signalling, .waiting, true, false, false⟩
  | started {place : RunCmdAt} (waits : place.Waits) :
      Phase ⟨some place, .waiting, true, true, false⟩
  | executing {place : RunCmdAt} {stage : TaskStage} (waits : place.Waits) (busy : stage.Busy) :
      Phase ⟨some place, stage, true, false, false⟩
  | ended {place : RunCmdAt} (waits : place.Waits) :
      Phase ⟨some place, .clearing, true, false, true⟩
  | endedIdle {place : RunCmdAt} (waits : place.Waits) :
      Phase ⟨some place, .waiting, false, false, true⟩
  | returning : Phase ⟨some .ending, .clearing, true, false, false⟩
  | returningIdle : Phase ⟨some .ending, .waiting, false, false, false⟩

/-- A step that loses no signal and accepts no call early. -/
inductive Next : Handover → Handover → Prop
  | accept {stage mCondStart mCondEnd} :
      Next ⟨none, stage, false, mCondStart, mCondEnd⟩
        ⟨some .signalling, stage, true, mCondStart, mCondEnd⟩
  | signalStart {stage mExecuting mCondStart mCondEnd} :
      Next ⟨some .signalling, stage, mExecuting, mCondStart, mCondEnd⟩
        ⟨some .waiting, stage, mExecuting, true, mCondEnd⟩
  | timeUp {stage mExecuting mCondStart} {place : RunCmdAt} (waits : place.Waits) :
      Next ⟨some .waiting, stage, mExecuting, mCondStart, false⟩
        ⟨some place, stage, mExecuting, mCondStart, false⟩
  | hearEnd {stage mExecuting mCondStart} :
      Next ⟨some .waiting, stage, mExecuting, mCondStart, true⟩
        ⟨some .ending, stage, mExecuting, mCondStart, false⟩
  | kill {stage mExecuting mCondStart mCondEnd} :
      Next ⟨some .killing, stage, mExecuting, mCondStart, mCondEnd⟩
        ⟨some .waiting, stage, mExecuting, mCondStart, mCondEnd⟩
  | finish {stage mExecuting mCondStart mCondEnd} :
      Next ⟨some .ending, stage, mExecuting, mCondStart, mCondEnd⟩
        ⟨none, stage, mExecuting, mCondStart, mCondEnd⟩
  | hearStart {caller mExecuting mCondEnd} :
      Next ⟨caller, .waiting, mExecuting, true, mCondEnd⟩
        ⟨caller, .forking, mExecuting, false, mCondEnd⟩
  | goOn {caller stage other mExecuting mCondStart mCondEnd} (busy : stage.Busy)
      (still : other.Busy) :
      Next ⟨caller, stage, mExecuting, mCondStart, mCondEnd⟩
        ⟨caller, other, mExecuting, mCondStart, mCondEnd⟩
  | signalEnd {caller mExecuting mCondStart mCondEnd} :
      Next ⟨caller, .signalling, mExecuting, mCondStart, mCondEnd⟩
        ⟨caller, .clearing, mExecuting, mCondStart, true⟩
  | clear {caller mExecuting mCondStart mCondEnd} :
      Next ⟨caller, .clearing, mExecuting, mCondStart, mCondEnd⟩
        ⟨caller, .waiting, false, mCondStart, mCondEnd⟩

variable {handover after : Handover}

theorem Phase.next (phase : Phase handover) (next : Next handover after) : Phase after := by
  cases next with
  | accept =>
      cases phase with
      | free => exact .accepted
  | signalStart =>
      cases phase with
      | accepted => exact .started trivial
      | started waits | executing waits | ended waits | endedIdle waits => exact waits.elim
  | timeUp waits =>
      cases phase with
      | started => exact .started waits
      | executing _ busy => exact .executing waits busy
  | hearEnd =>
      cases phase with
      | ended => exact .returning
      | endedIdle => exact .returningIdle
  | kill =>
      cases phase with
      | started => exact .started trivial
      | executing _ busy => exact .executing trivial busy
      | ended => exact .ended trivial
      | endedIdle => exact .endedIdle trivial
  | finish =>
      cases phase with
      | returning => exact .freeSoon
      | returningIdle => exact .free
      | started waits | executing waits | ended waits | endedIdle waits => exact waits.elim
  | hearStart =>
      cases phase with
      | started waits => exact .executing waits trivial
  | goOn busy still =>
      cases phase with
      | executing waits => exact .executing waits still
      | free | freeSoon | accepted | started | ended | endedIdle | returning | returningIdle =>
          exact busy.elim
  | signalEnd =>
      cases phase with
      | executing waits => exact .ended waits
  | clear =>
      cases phase with
      | freeSoon => exact .free
      | ended waits => exact .endedIdle waits
      | returning => exact .returningIdle
      | executing _ busy => exact busy.elim

/-- Accepted and not yet executed. -/
def Pending (handover : Handover) : Prop :=
  handover.caller = some .signalling ∨ handover.mCondStart = true ∨ handover.stage = .forking

end Handover

namespace CommandSystem

variable {Client : Type} {system : CommandSystem Client} {step : Step Client}

def handover (system : CommandSystem Client) : Handover :=
  ⟨system.caller.map (·.place), system.stage, system.task.mExecuting, system.task.mCondStart,
    system.task.mCondEnd⟩

/-- No signal is lost, no command is passed before the last one's flag is cleared,
and the timeout expires only while the child it is to kill is known and not reaped. -/
def Apart (system : CommandSystem Client) : Step Client → Prop
  | .startWait false => system.task.mCondStart = false
  | .endWait false => system.task.mCondEnd = false
  | .call _ cmd _ _ => cmd ≠ "" → system.stage ≠ .clearing
  | .kill => system.stage = .calling ∨ system.stage = .inWaitpid
  | _ => True

instance decidableApart (system : CommandSystem Client) : ∀ step, Decidable (Apart system step)
  | .startWait false => inferInstanceAs (Decidable (system.task.mCondStart = false))
  | .endWait false => inferInstanceAs (Decidable (system.task.mCondEnd = false))
  | .call _ cmd _ _ => inferInstanceAs (Decidable (cmd ≠ "" → system.stage ≠ .clearing))
  | .kill => inferInstanceAs (Decidable (_ ∨ system.stage = .inWaitpid))
  | .startWait true | .endWait true | .signalStart | .finish | .fork _ | .assign | .callWaitpid
  | .waitpid _ | .store | .signalEnd | .clear => isTrue trivial

def Meets (system : CommandSystem Client) (step : Step Client) : Prop :=
  Enabled system step ∧ Apart system step

theorem timeUp_place (call : RunCmd) (waits : call.place = .waiting) : call.timeUp.place.Waits := by
  unfold RunCmd.timeUp RunCmd.report
  split_ifs <;> simp [waits, RunCmdAt.Waits]

@[simp]
theorem timeUp_number (call : RunCmd) : call.timeUp.number = call.number := by
  unfold RunCmd.timeUp RunCmd.report
  split_ifs <;> rfl

@[simp]
theorem report_number (call : RunCmd) : call.report.number = call.number := by
  unfold RunCmd.report
  split_ifs <;> rfl

/-- A step that meets the condition hands over, or changes nothing the other side sees. -/
theorem handover_next (meets : Meets system step) :
    Handover.Next system.handover (next system step).handover ∨
      (next system step).handover = system.handover := by
  obtain ⟨enabled, apart⟩ := meets
  cases step with
  | call client cmd expectedRuntimeSecs timeoutSecs =>
      have free : system.caller = none := enabled
      by_cases empty : cmd.isEmpty = true
      · exact Or.inr (by simp [next, callStep, empty, handover])
      · cases executing : system.task.mExecuting with
        | true => exact Or.inr (by simp [next, callStep, empty, executing, handover])
        | false =>
            left
            simp only [next, callStep, empty, executing, handover, free]
            exact .accept
  | signalStart =>
      obtain ⟨call, inside, place⟩ := enabled
      left
      simp only [next, callerStep, inside, handover, Option.map_some, place]
      exact .signalStart
  | endWait result =>
      obtain ⟨⟨call, inside, place⟩, flag⟩ := enabled
      left
      simp only [next, callerStep, inside, handover, Option.map_some, place]
      cases result with
      | true =>
          rw [show system.task.mCondEnd = true from flag]
          exact .hearEnd
      | false =>
          rw [show system.task.mCondEnd = false from apart]
          exact .timeUp (timeUp_place call place)
  | kill =>
      obtain ⟨call, inside, place⟩ := enabled
      left
      simp only [next, callerStep, inside, handover, Option.map_some, place]
      exact .kill
  | finish =>
      obtain ⟨call, inside, place⟩ := enabled
      left
      simp only [next, callerStep, inside, handover, Option.map_some, Option.map_none, place]
      exact .finish
  | startWait result =>
      obtain ⟨stage, flag⟩ := enabled
      cases result with
      | true =>
          left
          simp only [next, handover, stage, show system.task.mCondStart = true from flag]
          exact .hearStart
      | false =>
          right
          simp [next, handover, stage, show system.task.mCondStart = false from apart, FlagOp.next]
  | fork child =>
      left
      simp only [next, handover, show system.stage = .forking from enabled.1]
      exact .goOn trivial trivial
  | assign =>
      left
      simp only [next, handover, show system.stage = .assigning from enabled]
      refine .goOn trivial ?_
      split_ifs <;> trivial
  | callWaitpid =>
      left
      simp only [next, handover, show system.stage = .calling from enabled]
      exact .goOn trivial trivial
  | waitpid exit =>
      left
      simp only [next, handover, show system.stage = .inWaitpid from enabled.1]
      exact .goOn trivial trivial
  | store =>
      left
      simp only [next, handover, show system.stage = .storing from enabled]
      exact .goOn trivial trivial
  | signalEnd =>
      left
      simp only [next, handover, show system.stage = .signalling from enabled]
      exact .signalEnd
  | clear =>
      left
      simp only [next, handover, show system.stage = .clearing from enabled]
      exact .clear

theorem phase_next (phase : system.handover.Phase) (meets : Meets system step) :
    (next system step).handover.Phase := by
  rcases handover_next meets with moves | same
  · exact phase.next moves
  · rwa [same]

theorem phase_initial : (initial : CommandSystem Client).handover.Phase :=
  .free

end CommandSystem

end OpenMplane
