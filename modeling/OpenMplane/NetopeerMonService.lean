import Mathlib.Data.Nat.Init
import OpenMplane.GuardedRuns
import Mathlib.Algebra.Group.Nat.Defs
import Mathlib.Algebra.Ring.Int.Defs

/-!
# The monitor of the netopeer process

The model of `NetopeerMonService`, which starts and stops a process and looks at it once a
second.  The process may die between two calls and behind the last look of a tick; a start
may find that it has ended within a second, or launch nothing and throw.  The count of
failures is unsigned and of 32 bits.
-/

namespace OpenMplane

open GuardedRuns

inductive ServiceStatus
  | STOPPED
  | RUNNING
  | FAILED
  deriving DecidableEq

inductive EnableDisable
  | ENABLE
  | DISABLE
  deriving DecidableEq

/-- The states of `ReturnType::State` that the calls return. -/
inductive MonitorReturn
  | RT_OK
  | RT_ERROR
  deriving DecidableEq

/-- What a start of the process comes to: it runs a second later, it has ended by then, or
it was not launched and an exception is thrown. -/
inductive Spawned
  | runs
  | ends
  | throws
  deriving DecidableEq

/-- The service; of the process, whether it runs. -/
structure NetopeerMonService where
  mServiceState : ServiceStatus
  mMonitorServiceState : EnableDisable
  mAutoRestartProcess : EnableDisable
  mFailedCount : Nat
  mReportOnlyOnce : Bool
  mNetopeerProcess : Bool
  deriving DecidableEq

/-- The calls of the service, with what the process does in them. -/
inductive MonitorCall
  | startService (spawned : Spawned)
  | restartService (exits : Bool) (spawned : Spawned)
  | stopService (exits : Bool)
  | setMonitorServiceState (state : EnableDisable)
  | setAutoRestart (state : EnableDisable)
  | clrAppFailedCount
  | service (spawned : Spawned) (dies : Bool)
  | death
  deriving DecidableEq

namespace NetopeerMonService

def construct : NetopeerMonService where
  mServiceState := .STOPPED
  mMonitorServiceState := .ENABLE
  mAutoRestartProcess := .DISABLE
  mFailedCount := 0
  mReportOnlyOnce := false
  mNetopeerProcess := false

/-- What a call returns, if it does not throw, and the service after it. -/
abbrev Returned := Option MonitorReturn × NetopeerMonService

/-- `spawnNetopeerServer`; a process that ran before ends with the object of its own. -/
def spawnNetopeerServer (service : NetopeerMonService) : Spawned → Returned
  | .runs => (some .RT_OK, { service with mNetopeerProcess := true })
  | .ends => (some .RT_ERROR, { service with mNetopeerProcess := false })
  | .throws => (none, service)

/-- The state that a start leaves. -/
def startProcess (service : NetopeerMonService) (spawned : Spawned) : Returned :=
  match service.spawnNetopeerServer spawned with
  | (some .RT_OK, service) => (some .RT_OK, { service with mServiceState := .RUNNING })
  | (some .RT_ERROR, service) => (some .RT_ERROR, { service with mServiceState := .FAILED })
  | (none, service) => (none, service)

def startService (service : NetopeerMonService) (spawned : Spawned) : Returned :=
  if service.mServiceState = .RUNNING then (some .RT_OK, service)
  else service.startProcess spawned

def stopService (service : NetopeerMonService) (exits : Bool) : MonitorReturn × NetopeerMonService :=
  if service.mServiceState = .STOPPED then (.RT_OK, service)
  else if exits then
    (.RT_OK, { service with mNetopeerProcess := false, mServiceState := .STOPPED })
  else (.RT_ERROR, { service with mServiceState := .FAILED })

def restartService (service : NetopeerMonService) (exits : Bool) (spawned : Spawned) : Returned :=
  match service.stopService exits with
  | (.RT_OK, service) => service.startService spawned
  | (.RT_ERROR, service) => (some .RT_ERROR, service)

/-- `service`, the work of a tick. -/
def service (service : NetopeerMonService) (spawned : Spawned) : NetopeerMonService :=
  if service.mMonitorServiceState = .ENABLE then
    if service.mNetopeerProcess then { service with mServiceState := .RUNNING }
    else if service.mAutoRestartProcess = .ENABLE then
      ({ service with
          mFailedCount := (service.mFailedCount + 1) % 2 ^ 32 }.startProcess spawned).2
    else service
  else { service with mReportOnlyOnce := true, mServiceState := .FAILED }

def call (service : NetopeerMonService) : MonitorCall → NetopeerMonService
  | .startService spawned => (service.startService spawned).2
  | .restartService exits spawned => (service.restartService exits spawned).2
  | .stopService exits => (service.stopService exits).2
  | .setMonitorServiceState state => { service with mMonitorServiceState := state }
  | .setAutoRestart state => { service with mAutoRestartProcess := state }
  | .clrAppFailedCount => { service with mFailedCount := 0 }
  | .service spawned dies =>
      let service := service.service spawned
      { service with mNetopeerProcess := service.mNetopeerProcess && !dies }
  | .death => { service with mNetopeerProcess := false }

/-- A tick finds the process dead and has to start it again. -/
def Restarts (service : NetopeerMonService) : Prop :=
  service.mMonitorServiceState = .ENABLE ∧ service.mNetopeerProcess = false ∧
    service.mAutoRestartProcess = .ENABLE

instance (service : NetopeerMonService) : Decidable service.Restarts :=
  inferInstanceAs (Decidable (_ ∧ _))

/-- The process does not run while the state is that of a service that was stopped. -/
def Settled (monitor : NetopeerMonService) : Prop :=
  monitor.mServiceState = .STOPPED → monitor.mNetopeerProcess = false

def launches (service : NetopeerMonService) : MonitorCall → Bool
  | .startService spawned => service.mServiceState ≠ .RUNNING && spawned ≠ .throws
  | .restartService exits spawned =>
      (service.stopService exits).1 = .RT_OK && spawned ≠ .throws
  | .service spawned _ => service.Restarts && spawned ≠ .throws
  | _ => false

/-- A call stops the process as it is meant to. -/
def stops (service : NetopeerMonService) : MonitorCall → Bool
  | .stopService exits => (service.stopService exits).1 = .RT_OK
  | .restartService exits _ => (service.stopService exits).1 = .RT_OK
  | _ => false

end NetopeerMonService

/-- A call of `startService` or `restartService`. -/
def MonitorCall.starts : MonitorCall → Bool
  | startService _ => true
  | restartService _ _ => true
  | _ => false

/-- The service with what has happened: whether a process was started and not stopped since,
whether a stop was the last command, and how many ticks since the count was cleared have
found a started process dead that they had to start again. -/
structure Monitored where
  service : NetopeerMonService
  started : Bool
  stopped : Bool
  found : Nat

namespace Monitored

def initial : Monitored := ⟨.construct, false, false, 0⟩

/-- The ticks that have found a started process dead. -/
def foundBy (monitored : Monitored) : MonitorCall → Nat
  | .clrAppFailedCount => 0
  | .service _ _ =>
      if monitored.started ∧ monitored.service.Restarts then monitored.found + 1
      else monitored.found
  | _ => monitored.found

def step (monitored : Monitored) (call : MonitorCall) : Monitored where
  service := monitored.service.call call
  started := monitored.service.launches call ||
    (monitored.started && !monitored.service.stops call)
  stopped := !call.starts && (monitored.stopped || monitored.service.stops call)
  found := monitored.foundBy call

/-- What is expected of a call. -/
structure Good (monitored : Monitored) (call : MonitorCall) : Prop where
  running : ∀ spawned dies, call = .service spawned dies →
    monitored.service.mMonitorServiceState = .ENABLE →
      ((monitored.step call).service.mServiceState = .RUNNING ↔
        (monitored.step call).service.mNetopeerProcess = true)
  stopped : monitored.stopped = true → call.starts = false →
    monitored.service.launches call = false ∧
      (monitored.step call).service.mServiceState = .STOPPED
  disabled : ∀ spawned dies, call = .service spawned dies →
    monitored.service.mMonitorServiceState = .DISABLE →
      monitored.service.mNetopeerProcess = true → monitored.service.mServiceState = .RUNNING →
        (monitored.step call).service.mServiceState = .RUNNING
  count : (monitored.step call).service.mFailedCount = (monitored.step call).found

/-- The ticks that go as they should.  With monitoring disabled the process has not been
stopped, nor does it run with that state.  With monitoring enabled a process that runs does not
die behind the look; one that does not run is not thought to, or is started again after it
was started before, and then either runs on, or ends, or cannot be launched while it is not
thought to run. -/
def Meets (monitored : Monitored) : MonitorCall → Prop
  | .service spawned dies =>
      if monitored.service.mMonitorServiceState = .ENABLE then
        if monitored.service.mNetopeerProcess then dies = false
        else if monitored.service.mAutoRestartProcess = .ENABLE then
          monitored.started = true ∧ monitored.found + 1 < 2 ^ 32 ∧
            match spawned with
            | .runs => dies = false
            | .ends => True
            | .throws => monitored.service.mServiceState ≠ .RUNNING
        else monitored.service.mServiceState ≠ .RUNNING
      else monitored.stopped = false ∧
        ¬(monitored.service.mNetopeerProcess = true ∧ monitored.service.mServiceState = .RUNNING)
  | _ => True

/-- What holds in every state of a run. -/
structure Invariant (monitored : Monitored) : Prop where
  count : monitored.service.mFailedCount = monitored.found ∧ monitored.found < 2 ^ 32
  stopped : monitored.stopped = true →
    monitored.service.mServiceState = .STOPPED ∧ monitored.started = false
  process : monitored.service.Settled

end Monitored

namespace NetopeerMonService

variable {monitor : NetopeerMonService} {spawned : Spawned}

/-- A start that launches the process, or throws and changes nothing. -/
theorem startProcess_snd : (monitor.startProcess spawned).2 = match spawned with
    | .runs => { monitor with mNetopeerProcess := true, mServiceState := .RUNNING }
    | .ends => { monitor with mNetopeerProcess := false, mServiceState := .FAILED }
    | .throws => monitor := by
  cases spawned <;> rfl

theorem service_running (enabled : monitor.mMonitorServiceState = .ENABLE)
    (process : monitor.mNetopeerProcess = true) :
    monitor.service spawned = { monitor with mServiceState := .RUNNING } := by
  rw [service, if_pos enabled, if_pos process]

theorem service_dead (enabled : monitor.mMonitorServiceState = .ENABLE)
    (process : monitor.mNetopeerProcess = false) (manual : monitor.mAutoRestartProcess ≠ .ENABLE) :
    monitor.service spawned = monitor := by
  rw [service, if_pos enabled, process, if_neg manual]
  rfl

theorem service_restarts (restarts : monitor.Restarts) : monitor.service spawned =
    ({ monitor with
        mFailedCount := (monitor.mFailedCount + 1) % 2 ^ 32 }.startProcess spawned).2 := by
  obtain ⟨enabled, process, automatic⟩ := restarts
  rw [service, if_pos enabled, process, if_pos automatic]
  rfl

theorem service_disabled (disabled : monitor.mMonitorServiceState ≠ .ENABLE) :
    monitor.service spawned =
      { monitor with mReportOnlyOnce := true, mServiceState := .FAILED } := by
  rw [service, if_neg disabled]

/-- Only a tick counts a failure, and only the clearing call ends the count. -/
theorem mFailedCount_startProcess :
    (monitor.startProcess spawned).2.mFailedCount = monitor.mFailedCount := by
  cases spawned <;> rfl

theorem mFailedCount_startService :
    (monitor.startService spawned).2.mFailedCount = monitor.mFailedCount := by
  rw [startService]
  split
  · rfl
  · exact mFailedCount_startProcess

theorem mFailedCount_stopService (exits : Bool) :
    (monitor.stopService exits).2.mFailedCount = monitor.mFailedCount := by
  rw [stopService]
  split
  · rfl
  · split <;> rfl

theorem restartService_snd (exits : Bool) : (monitor.restartService exits spawned).2 =
    if (monitor.stopService exits).1 = .RT_OK then
      ((monitor.stopService exits).2.startService spawned).2
    else (monitor.stopService exits).2 := by
  rw [restartService]
  cases stop : monitor.stopService exits with
  | mk returned after => cases returned <;> rfl

theorem mFailedCount_restartService (exits : Bool) :
    (monitor.restartService exits spawned).2.mFailedCount = monitor.mFailedCount := by
  rw [restartService_snd]
  split
  · rw [mFailedCount_startService, mFailedCount_stopService]
  · exact mFailedCount_stopService exits

theorem settled_startProcess (settled : monitor.Settled) :
    (monitor.startProcess spawned).2.Settled := by
  rw [startProcess_snd]
  cases spawned with
  | runs => exact nofun
  | ends => exact nofun
  | throws => exact settled

theorem settled_startService (settled : monitor.Settled) :
    (monitor.startService spawned).2.Settled := by
  rw [startService]
  split
  · exact settled
  · exact settled_startProcess settled

theorem settled_stopService (settled : monitor.Settled) (exits : Bool) :
    (monitor.stopService exits).2.Settled := by
  rw [stopService]
  split
  · exact settled
  · split
    · exact fun _ => rfl
    · exact nofun

theorem settled_service (settled : monitor.Settled) : (monitor.service spawned).Settled := by
  rw [service]
  split
  · split
    · exact nofun
    · split
      · exact settled_startProcess settled
      · exact settled
  · exact nofun

theorem settled_call (settled : monitor.Settled) (call : MonitorCall) :
    (monitor.call call).Settled := by
  cases call with
  | startService spawned => exact settled_startService settled
  | restartService exits spawned =>
      have stopped := settled_stopService settled exits
      change (monitor.restartService exits spawned).2.Settled
      rw [restartService_snd]
      split
      · exact settled_startService stopped
      · exact stopped
  | stopService exits => exact settled_stopService settled exits
  | setMonitorServiceState state => exact settled
  | setAutoRestart state => exact settled
  | clrAppFailedCount => exact settled
  | service spawned dies =>
      intro state
      have dead := @settled_service monitor spawned settled state
      change ((monitor.service spawned).mNetopeerProcess && !dies) = false
      rw [dead]
      rfl
  | death => exact fun _ => rfl

/-- A stop that succeeds leaves the state that says so. -/
theorem stopped_of_stopService {exits : Bool} (returned : (monitor.stopService exits).1 = .RT_OK) :
    (monitor.stopService exits).2.mServiceState = .STOPPED := by
  rw [stopService] at returned ⊢
  split at returned
  · next stopped =>
      rw [if_pos stopped]
      exact stopped
  · next other =>
      rw [if_neg other]
      split at returned
      · next exits => rw [if_pos exits]
      · cases returned

end NetopeerMonService

namespace Monitored

open NetopeerMonService

variable {monitored : Monitored} {call : MonitorCall}

theorem count_call (invariant : monitored.Invariant) :
    (monitored.service.call call).mFailedCount = match call with
      | .clrAppFailedCount => 0
      | .service _ _ =>
          if monitored.service.Restarts then (monitored.found + 1) % 2 ^ 32 else monitored.found
      | _ => monitored.found := by
  have count := invariant.count.1
  cases call with
  | startService spawned => exact mFailedCount_startService.trans count
  | restartService exits spawned => exact (mFailedCount_restartService exits).trans count
  | stopService exits => exact (mFailedCount_stopService exits).trans count
  | setMonitorServiceState state => exact count
  | setAutoRestart state => exact count
  | clrAppFailedCount => rfl
  | service spawned dies =>
      change (monitored.service.service spawned).mFailedCount = _
      dsimp only
      split
      · next restarts =>
          rw [service_restarts restarts, mFailedCount_startProcess, ← count]
      · next quiet =>
          rw [← count]
          rw [Restarts] at quiet
          rw [NetopeerMonService.service]
          split
          · next enabled =>
              split
              · rfl
              · next dead =>
                  rw [if_neg fun automatic => quiet ⟨enabled, Bool.eq_false_iff.mpr dead, automatic⟩]
          · rfl
  | death => exact count

/-- What is expected of the count comes down to the ticks that start a process again. -/
theorem count_iff (invariant : monitored.Invariant) :
    (monitored.step call).service.mFailedCount = (monitored.step call).found ↔
      ∀ spawned dies, call = .service spawned dies → monitored.service.Restarts →
        monitored.started = true ∧ monitored.found + 1 < 2 ^ 32 := by
  have small := invariant.count.2
  have count := @count_call monitored call invariant
  rw [show (monitored.step call).service = monitored.service.call call from rfl, count]
  change _ = monitored.foundBy call ↔ _
  cases call with
  | service spawned dies =>
      dsimp only [foundBy]
      by_cases restarts : monitored.service.Restarts
      · rw [if_pos restarts]
        by_cases started : monitored.started = true
        · rw [if_pos ⟨started, restarts⟩]
          refine ⟨fun same _ _ _ _ => ⟨started, by omega⟩, fun holds => ?_⟩
          exact Nat.mod_eq_of_lt (holds spawned dies rfl restarts).2
        · rw [if_neg fun both => started both.1]
          refine ⟨fun same => by omega, fun holds => ?_⟩
          exact absurd (holds spawned dies rfl restarts).1 started
      · rw [if_neg restarts, if_neg fun both => restarts both.2]
        exact ⟨fun _ _ _ _ again => absurd again restarts, fun _ => rfl⟩
  | _ => exact ⟨fun _ => nofun, fun _ => rfl⟩

/-- A stopped service stays so under all calls but starts and ticks. -/
theorem stopped_call (invariant : monitored.Invariant) (stopped : monitored.stopped = true)
    (starts : call.starts = false) (other : ∀ spawned dies, call ≠ .service spawned dies) :
    monitored.service.launches call = false ∧
      (monitored.service.call call).mServiceState = .STOPPED := by
  have state := (invariant.stopped stopped).1
  cases call with
  | startService spawned => cases starts
  | restartService exits spawned => cases starts
  | stopService exits =>
      refine ⟨rfl, ?_⟩
      change (monitored.service.stopService exits).2.mServiceState = _
      rw [stopService, if_pos state]
      exact state
  | setMonitorServiceState state' => exact ⟨rfl, state⟩
  | setAutoRestart state' => exact ⟨rfl, state⟩
  | clrAppFailedCount => exact ⟨rfl, state⟩
  | service spawned dies => exact absurd rfl (other spawned dies)
  | death => exact ⟨rfl, state⟩

theorem good_of_other (invariant : monitored.Invariant)
    (other : ∀ spawned dies, call ≠ .service spawned dies) : monitored.Good call where
  running spawned dies same := absurd same (other spawned dies)
  stopped stopped starts := stopped_call invariant stopped starts other
  disabled spawned dies same := absurd same (other spawned dies)
  count := (count_iff invariant).mpr fun spawned dies same => absurd same (other spawned dies)

section Ticks

variable {spawned : Spawned} {dies : Bool}

theorem step_service : (monitored.step (.service spawned dies)).service =
    { monitored.service.service spawned with
      mNetopeerProcess := (monitored.service.service spawned).mNetopeerProcess && !dies } := rfl

theorem good_running_iff (invariant : monitored.Invariant)
    (enabled : monitored.service.mMonitorServiceState = .ENABLE)
    (process : monitored.service.mNetopeerProcess = true) :
    monitored.Good (.service spawned dies) ↔ dies = false := by
  have tick := @service_running monitored.service spawned enabled process
  have restarts : ¬monitored.service.Restarts := fun restarts => by
    rw [restarts.2.1] at process
    cases process
  constructor
  · intro good
    have running := good.running spawned dies rfl enabled
    rw [step_service, tick] at running
    simpa [process] using running
  · rintro rfl
    refine ⟨fun _ _ same _ => ?_, fun stopped _ => ?_, fun _ _ _ disabled => ?_, ?_⟩
    · cases same
      rw [step_service, tick]
      simp [process]
    · rw [invariant.process (invariant.stopped stopped).1] at process
      cases process
    · rw [enabled] at disabled
      cases disabled
    · exact (count_iff invariant).mpr fun _ _ _ again => absurd again restarts

/-- A tick that starts the process again. -/
theorem good_restarts_iff (invariant : monitored.Invariant)
    (restarts : monitored.service.Restarts) : monitored.Good (.service spawned dies) ↔
      monitored.started = true ∧ monitored.found + 1 < 2 ^ 32 ∧
        match spawned with
        | .runs => dies = false
        | .ends => True
        | .throws => monitored.service.mServiceState ≠ .RUNNING := by
  have enabled := restarts.1
  have dead := restarts.2.1
  have tick := @service_restarts monitored.service spawned restarts
  rw [startProcess_snd] at tick
  constructor
  · intro good
    obtain ⟨started, small⟩ := (count_iff invariant).mp good.count spawned dies rfl restarts
    have running := good.running spawned dies rfl enabled
    rw [step_service, tick] at running
    refine ⟨started, small, ?_⟩
    cases spawned with
    | runs => simpa using running
    | ends => trivial
    | throws => simpa [dead] using running
  · rintro ⟨started, small, outcome⟩
    refine ⟨fun _ _ same _ => ?_, fun stopped _ => ?_, fun _ _ _ disabled => ?_, ?_⟩
    · cases same
      rw [step_service, tick]
      cases spawned with
      | runs => simp [show dies = false from outcome]
      | ends => simp
      | throws => simpa [dead] using outcome
    · rw [(invariant.stopped stopped).2] at started
      cases started
    · rw [enabled] at disabled
      cases disabled
    · exact (count_iff invariant).mpr fun _ _ _ _ => ⟨started, small⟩

/-- A tick that leaves a dead process to the user. -/
theorem good_dead_iff (invariant : monitored.Invariant)
    (enabled : monitored.service.mMonitorServiceState = .ENABLE)
    (dead : monitored.service.mNetopeerProcess = false)
    (manual : monitored.service.mAutoRestartProcess ≠ .ENABLE) :
    monitored.Good (.service spawned dies) ↔ monitored.service.mServiceState ≠ .RUNNING := by
  have tick := @service_dead monitored.service spawned enabled dead manual
  constructor
  · intro good
    have running := good.running spawned dies rfl enabled
    rw [step_service, tick] at running
    simpa [dead] using running
  · intro other
    refine ⟨fun _ _ same _ => ?_, fun stopped _ => ⟨?_, ?_⟩, fun _ _ _ disabled => ?_, ?_⟩
    · cases same
      rw [step_service, tick]
      simpa [dead] using other
    · rw [launches, decide_eq_false fun restarts => manual restarts.2.2]
      rfl
    · rw [step_service, tick]
      exact (invariant.stopped stopped).1
    · rw [enabled] at disabled
      cases disabled
    · exact (count_iff invariant).mpr fun _ _ _ restarts => absurd restarts.2.2 manual

theorem good_disabled_iff (invariant : monitored.Invariant)
    (disabled : monitored.service.mMonitorServiceState ≠ .ENABLE) :
    monitored.Good (.service spawned dies) ↔ monitored.stopped = false ∧
      ¬(monitored.service.mNetopeerProcess = true ∧
        monitored.service.mServiceState = .RUNNING) := by
  have tick := @service_disabled monitored.service spawned disabled
  have state : monitored.service.mMonitorServiceState = .DISABLE := by
    cases state : monitored.service.mMonitorServiceState with
    | ENABLE => exact absurd state disabled
    | DISABLE => rfl
  constructor
  · intro good
    refine ⟨Bool.eq_false_iff.mpr fun stopped => ?_, fun running => ?_⟩
    · have failed := (good.stopped stopped rfl).2
      rw [step_service, tick] at failed
      cases failed
    · have failed := good.disabled spawned dies rfl state running.1 running.2
      rw [step_service, tick] at failed
      cases failed
  · rintro ⟨commanded, quiet⟩
    refine ⟨fun _ _ _ enabled => absurd enabled disabled, fun stopped _ => ?_,
      fun _ _ _ _ process running => absurd ⟨process, running⟩ quiet, ?_⟩
    · rw [commanded] at stopped
      cases stopped
    · exact (count_iff invariant).mpr fun _ _ _ restarts => absurd restarts.1 disabled

/-- A tick goes as it should exactly when it meets the condition. -/
theorem good_service_iff (invariant : monitored.Invariant) :
    monitored.Good (.service spawned dies) ↔ monitored.Meets (.service spawned dies) := by
  unfold Meets
  dsimp only
  by_cases enabled : monitored.service.mMonitorServiceState = .ENABLE
  · rw [if_pos enabled]
    by_cases process : monitored.service.mNetopeerProcess = true
    · rw [if_pos process]
      exact good_running_iff invariant enabled process
    · rw [if_neg process]
      have dead : monitored.service.mNetopeerProcess = false := Bool.eq_false_iff.mpr process
      by_cases automatic : monitored.service.mAutoRestartProcess = .ENABLE
      · rw [if_pos automatic]
        exact good_restarts_iff invariant ⟨enabled, dead, automatic⟩
      · rw [if_neg automatic]
        exact good_dead_iff invariant enabled dead automatic
  · rw [if_neg enabled]
    exact good_disabled_iff invariant enabled

end Ticks

theorem good_iff (invariant : monitored.Invariant) :
    monitored.Good call ↔ monitored.Meets call := by
  cases call with
  | service spawned dies => exact good_service_iff invariant
  | _ => exact ⟨fun _ => trivial, fun _ => good_of_other invariant nofun⟩

/-- A call that goes as it should keeps the invariant. -/
theorem step_invariant (invariant : monitored.Invariant) (good : monitored.Good call) :
    (monitored.step call).Invariant := by
  refine ⟨⟨good.count, ?_⟩, fun stopped => ?_, settled_call invariant.process call⟩
  · have small := invariant.count.2
    have counts := (count_iff invariant).mp good.count
    change monitored.foundBy call < _
    unfold foundBy
    split
    · exact Nat.two_pow_pos 32
    · next spawned dies =>
        split
        · next both => exact (counts spawned dies rfl both.2).2
        · exact small
    · exact small
  · obtain ⟨starts, before⟩ := Bool.and_eq_true_iff.mp stopped
    have noStart : call.starts = false := by simpa using starts
    rcases Bool.or_eq_true_iff.mp before with wasStopped | stops
    · obtain ⟨launches, state⟩ := good.stopped wasStopped noStart
      refine ⟨state, ?_⟩
      rw [step, launches, (invariant.stopped wasStopped).2]
      rfl
    · cases call with
      | stopService exits =>
          refine ⟨stopped_of_stopService (of_decide_eq_true stops), ?_⟩
          change (false || (monitored.started && !monitored.service.stops (.stopService exits))) = _
          rw [stops]
          simp
      | startService spawned => cases noStart
      | restartService exits spawned => cases noStart
      | _ => cases stops

theorem initial_invariant : initial.Invariant :=
  ⟨⟨rfl, Nat.two_pow_pos 32⟩, nofun, fun _ => rfl⟩

end Monitored

open Monitored in
/-- The monitor works as it should in a run exactly when its ticks meet the conditions under
which it does. -/
theorem monitors_iff (calls : List MonitorCall) :
    Guarded Good step initial calls ↔ Guarded Meets step initial calls := by
  refine guarded_iff_of_invariant (fun _ _ invariant => ?_) (fun _ _ => step_invariant)
    initial_invariant calls
  exact good_iff invariant

open Monitored in
/-- A process that was stopped is started again by the next tick. -/
theorem stopped_process_is_restarted :
    ¬ ∀ calls, Guarded Good step initial calls := by
  intro always
  have good := (always [.setAutoRestart .ENABLE, .startService .runs, .stopService true,
    .service .runs false]).2.2.2.1
  exact absurd (good.stopped rfl rfl).2 (by decide)

end OpenMplane
