import OpenMplane.ServiceControls

/-!
# Each step of a service

A step that meets the condition keeps the invariant, and does to the controls what its
event says.
-/

namespace OpenMplane

open GuardedRuns Conditional

namespace Service

variable {Thread : Type}

section Loop

variable {mState : ServiceState} {mControl : CtlState} {serviceError : Int}
  {loop after : ServiceLoopAt}

theorem LoopKeeps.goOn (keeps : LoopKeeps mState mControl serviceError loop)
    (alive : mState ≠ .ServiceShutdown) (before : loop.looked = false)
    (still : after.looked = false)
    (works : after ≠ .failing ∧ after ≠ .returning ∧ after ≠ .ended) :
    LoopKeeps mState mControl serviceError after where
  works := ⟨keeps.works.1, works.1⟩
  created here := by simp [here, ServiceLoopAt.looked] at still
  inReset here := by rcases here with here | here <;> simp [here, ServiceLoopAt.looked] at still
  reset here := by
    rcases here with ⟨-, isReset⟩ | here
    · exact keeps.reset (Or.inl ⟨before, isReset⟩)
    · simp [here, ServiceLoopAt.looked] at still
  shutdown shutdown := absurd shutdown alive
  ended here := by rcases here with here | here <;> simp [here] at works
  running isRunning := by
    rcases keeps.running isRunning with here | here | here | here
    · exact Or.inl here
    all_goals simp [here, ServiceLoopAt.looked] at before

theorem LoopKeeps.carryOut (keeps : LoopKeeps mState mControl serviceError loop)
    {newState : ServiceState} (newControl : CtlState)
    (running : newState.mode = .running → newState = .ServiceRunning) :
    LoopKeeps newState newControl serviceError .clearing where
  works := ⟨keeps.works.1, by simp⟩
  created := by simp
  inReset := by simp
  reset := by simp [ServiceLoopAt.looked]
  shutdown _ := Or.inl rfl
  ended := by simp
  running isRunning := Or.inl (running isRunning)

theorem LoopKeeps.alive (keeps : LoopKeeps mState mControl serviceError loop)
    (going : loop ≠ .clearing ∧ loop ≠ .testing ∧ loop ≠ .returning ∧ loop ≠ .ended) :
    mState ≠ .ServiceShutdown := by
  intro shutdown
  rcases keeps.shutdown shutdown with here | ⟨here | here | here, -⟩ <;> simp [here] at going

end Loop

variable {service : Service Thread} {after : ServiceLoopAt}

theorem slot_of_looked (looked : service.loop.looked = true) : service.slot = none := by
  simp [slot, looked]

theorem announced_of_looked (looked : service.loop.looked = true) : Announced service :=
  fun pending => absurd (slot_of_looked looked) pending

theorem Announced.goOn (announced : Announced service) (before : service.loop.looked = false)
    (notLooking : service.loop ≠ .looking) (still : after.looked = false) :
    Announced { service with loop := after } := by
  intro pending
  have here : service.slot ≠ none := by
    simpa [slot, before, still] using pending
  rcases announced here with set | signals | looks
  · exact Or.inl set
  · exact Or.inr (Or.inl signals)
  · exact absurd looks notLooking

theorem Kept.goOn (kept : Kept service) (after : ServiceLoopAt) (going : service.loop ≠ .clearing ∧
      service.loop ≠ .testing ∧ service.loop ≠ .returning ∧ service.loop ≠ .ended)
    (before : service.loop.looked = false) (notLooking : service.loop ≠ .looking)
    (still : after.looked = false)
    (works : after ≠ .failing ∧ after ≠ .returning ∧ after ≠ .ended) :
    Kept { service with loop := after } where
  clients := kept.clients.goOn fun ended => absurd ended going.2.2.2
  loop := kept.loop.goOn (kept.loop.alive going) before still works
  announced := kept.announced.goOn before notLooking still

/-- The loop has a control it has looked at, or looks at it now. -/
theorem Kept.carryOut (kept : Kept service) (going : service.loop ≠ .ended)
    {newState : ServiceState} (running : newState.mode = .running → newState = .ServiceRunning) :
    Kept { service with mState := newState, loop := .clearing } where
  clients := kept.clients.goOn fun ended => absurd ended going
  loop := kept.loop.carryOut service.mControl running
  announced := announced_of_looked rfl

theorem Kept.afterLook (kept : Kept service) (looks : service.loop = .looking) :
    Kept service.look := by
  have going : service.loop ≠ .ended := by simp [looks]
  have alive := kept.loop.alive (by simp [looks])
  have running : service.mState.mode = .running → service.mState = .ServiceRunning := by
    intro isRunning
    have known := kept.loop.running isRunning
    simpa [looks] using known
  have applying : ∀ control, service.mControl = control → control ≠ .Noop → control ≠ .Start →
      Kept { service with loop := .applying control } := by
    intro control isControl _ _
    refine ⟨kept.clients.goOn fun ended => absurd ended going,
      ⟨⟨kept.loop.works.1, by simp⟩, by simp, by simp, ?_, fun shutdown => absurd shutdown alive,
        by simp, fun isRunning => Or.inl (running isRunning)⟩, announced_of_looked rfl⟩
    rintro (⟨looked, -⟩ | here)
    · simp [ServiceLoopAt.looked] at looked
    · refine kept.loop.reset (Or.inl ⟨by simp [looks, ServiceLoopAt.looked], ?_⟩)
      rw [isControl]
      exact ServiceLoopAt.applying.inj here
  unfold Service.look
  split
  · exact kept.carryOut going running
  · exact kept.carryOut going running
  · rename_i notNoop notStart
    exact applying _ rfl notNoop notStart

theorem Kept.afterApply (kept : Kept service) {control : CtlState}
    (applies : service.loop = .applying control) : Kept (service.apply control) := by
  have going : service.loop ≠ .ended := by simp [applies]
  cases control with
  | Noop | Start =>
      refine kept.carryOut going fun isRunning => ?_
      have known := kept.loop.running isRunning
      simpa [applies] using known
  | Suspend | Resume | Shutdown => exact kept.carryOut going (by simp [ServiceState.mode])
  | Reset =>
      simp only [Service.apply]
      exact ⟨kept.clients.goOn fun ended => absurd ended going,
        ⟨⟨kept.loop.works.1, by simp⟩, by simp, fun _ => rfl, by simp [ServiceLoopAt.looked],
          by simp, by simp, by simp⟩, announced_of_looked rfl⟩

theorem Kept.afterProceed (kept : Kept service) (enabled : Enabled service .proceed) :
    Kept service.loopStep := by
  unfold loopStep
  split <;> rename_i here
  · -- entering
    exact ⟨kept.clients.goOn (by simp [here]),
      ⟨⟨kept.loop.works.1, by simp⟩, by simp, by simp, by simp [ServiceLoopAt.looked], by simp,
        by simp, by simp⟩, announced_of_looked rfl⟩
  · -- starting
    have alive := kept.loop.alive (by simp [here])
    have known := kept.loop.running
    exact ⟨kept.clients.goOn (by simp [here]),
      ⟨⟨kept.loop.works.1, by simp⟩, by simp, by simp, by simp,
        fun shutdown => absurd shutdown alive, by simp, by simpa [here] using known⟩,
      by simp [Announced, slot]⟩
  · -- testing
    have known := kept.loop.running
    have unlooked : service.loop.looked = false := by simp [here, ServiceLoopAt.looked]
    split_ifs with shutdown
    · have none : service.mControl = .Noop := by
        simpa [here] using kept.loop.shutdown shutdown
      exact ⟨kept.clients.goOn (by simp [here]),
        ⟨⟨kept.loop.works.1, by simp⟩, by simp, by simp, by simp [none],
          fun _ => Or.inr ⟨Or.inr (Or.inl rfl), none⟩, fun _ => shutdown,
          by simpa [here] using known⟩,
        kept.announced.goOn unlooked (by simp [here]) rfl⟩
    · exact ⟨kept.clients.goOn (by simp [here]), kept.loop.goOn shutdown unlooked rfl (by simp),
        kept.announced.goOn unlooked (by simp [here]) rfl⟩
  · -- checkingControl
    rw [if_pos kept.loop.works.1]
    split_ifs
    · exact kept.goOn .checkingState (by simp [here]) (by simp [here, ServiceLoopAt.looked])
        (by simp [here]) rfl (by simp)
    · exact kept.goOn .waiting (by simp [here]) (by simp [here, ServiceLoopAt.looked])
        (by simp [here]) rfl (by simp)
  · -- checkingState
    rw [if_pos kept.loop.works.1]
    split_ifs
    · exact kept.goOn .serving (by simp [here]) (by simp [here, ServiceLoopAt.looked])
        (by simp [here]) rfl (by simp)
    · exact kept.goOn .waiting (by simp [here]) (by simp [here, ServiceLoopAt.looked])
        (by simp [here]) rfl (by simp)
  · -- failing
    exact absurd here kept.loop.works.2
  · -- looking
    exact kept.afterLook here
  · -- applying
    exact kept.afterApply here
  · -- inReset
    have reset := kept.loop.inReset (Or.inl here)
    exact ⟨kept.clients.goOn (by simp [here]),
      ⟨⟨kept.loop.works.1, by simp⟩, by simp, fun _ => reset, by simp [ServiceLoopAt.looked],
        by simp [reset], by simp, by simp⟩, announced_of_looked rfl⟩
  · -- running
    exact kept.carryOut (by simp [here]) (by simp)
  · -- clearing
    have known := kept.loop.running
    exact ⟨kept.clients.goOn (by simp [here]),
      ⟨⟨kept.loop.works.1, by simp⟩, by simp, by simp, by simp,
        fun _ => Or.inr ⟨Or.inl rfl, rfl⟩, by simp, by simpa [here] using known⟩,
      by simp [Announced, slot]⟩
  · -- returning
    have known := kept.loop.running
    have shutdown := kept.loop.ended (Or.inl here)
    have none : service.mControl = .Noop := by
      simpa [here] using kept.loop.shutdown shutdown
    exact ⟨⟨kept.clients.locks, fun _ _ => rfl, fun _ => rfl, kept.clients.sets⟩,
      ⟨⟨kept.loop.works.1, by simp⟩, by simp, by simp, by simp [none],
        fun _ => Or.inr ⟨Or.inr (Or.inr rfl), none⟩, fun _ => shutdown,
        by simpa [here] using known⟩,
      by simp [Announced, slot, none]⟩
  all_goals simp [Enabled, here] at enabled

theorem Kept.afterWait {result : Bool} (kept : Kept service)
    (waits : service.loop = .waiting) (free : service.lock = none)
    (hears : result = false → service.mNotify = true → service.mControl = .Noop) :
    Kept { service with
      mNotify := false, loop := if result then .looking else .testing } := by
  have unlooked : service.loop.looked = false := by simp [waits, ServiceLoopAt.looked]
  have alive := kept.loop.alive (by simp [waits])
  cases result with
  | true =>
      exact ⟨kept.clients.goOn (by simp [waits]), kept.loop.goOn alive unlooked rfl (by simp),
        fun _ => Or.inr (Or.inr rfl)⟩
  | false =>
      refine ⟨kept.clients.goOn (by simp [waits]), kept.loop.goOn alive unlooked rfl (by simp),
        fun pending => ?_⟩
      have here : service.slot ≠ none := by
        simpa [slot, waits, ServiceLoopAt.looked] using pending
      rcases kept.announced here with set | ⟨thread, control, signals⟩ | looks
      · simp [slot, hears rfl set] at here
      · have holds := (kept.clients.locks thread).mp (by simp [signals, ServiceClientAt.Holds])
        simp [free] at holds
      · simp [waits] at looks

variable [DecidableEq Thread] {step : Step Thread}

theorem kept_next (kept : Kept service) (meets : Meets service step) :
    Kept (next service step) := by
  cases step with
  | call thread call => exact kept.afterCall meets.1
  | stop thread => exact kept.afterStop meets.1
  | lock thread =>
      obtain ⟨⟨⟨call, locking⟩, free⟩, -⟩ := meets
      exact kept.afterLock locking free
  | check thread =>
      obtain ⟨⟨required, control, checking⟩, -⟩ := meets
      exact kept.afterCheck checking
  | write thread => exact kept.afterWrite meets
  | signal thread =>
      obtain ⟨⟨control, signalling⟩, -⟩ := meets
      exact kept.afterSignal signalling
  | proceed => exact kept.afterProceed meets.1
  | serve serviceError =>
      obtain ⟨serves, works, -⟩ := meets
      have isServing : service.loop = .serving := serves
      have zero : serviceError = service.serviceError := works.trans kept.loop.works.1.symm
      rw [next, zero, if_pos kept.loop.works.1]
      exact kept.goOn .waiting (by simp [isServing]) (by simp [isServing, ServiceLoopAt.looked])
        (by simp [isServing]) rfl (by simp)
  | wait result =>
      obtain ⟨⟨waits, free, -⟩, -, apart⟩ := meets
      refine kept.afterWait waits free ?_
      rintro rfl
      exact apart

/-- A step without an event leaves the controls as they are. -/
theorem controls_silent (kept : Kept service) (meets : Meets service step)
    (silent : observe service step = none) : (next service step).controls = service.controls := by
  cases step with
  | call thread call => rfl
  | stop thread =>
      have stopping : service.client thread = .stopping := meets.1
      have shutdown := kept.loop.ended (Or.inr (kept.clients.stopping thread stopping))
      simp [next, clientStep, stopping, controls, slot, mode, move, shutdown]
  | lock thread =>
      obtain ⟨⟨⟨call, locking⟩, -⟩, -⟩ := meets
      simp [next, clientStep, locking, controls, slot, mode, move]
  | check thread =>
      obtain ⟨⟨required, control, checking⟩, -⟩ := meets
      simp only [next, clientStep, checking]
      split_ifs <;> rfl
  | write thread =>
      obtain ⟨⟨control, writing⟩, -⟩ := meets
      simp [observe, writing] at silent
  | signal thread =>
      obtain ⟨⟨control, signalling⟩, -⟩ := meets
      simp [next, clientStep, signalling, controls, slot, mode, move]
  | serve serviceError =>
      have serves : service.loop = .serving := meets.1
      have works : serviceError = 0 := meets.2.1
      simp [next, works, controls, slot, mode, serves, ServiceLoopAt.looked, ServiceLoopAt.owes]
  | wait result =>
      have waits : service.loop = .waiting := meets.1.1
      cases result <;> simp [next, controls, slot, mode, waits, ServiceLoopAt.looked, ServiceLoopAt.owes]
  | proceed =>
      have enabled : Enabled service .proceed := meets.1
      have works := kept.loop.works.1
      simp only [next]
      unfold loopStep
      split <;> rename_i here
      · have created := kept.loop.created here
        simp [controls, slot, mode, here, created, ServiceLoopAt.looked, ServiceLoopAt.owes, ServiceState.mode]
      · simp [controls, slot, mode, here, ServiceLoopAt.looked, ServiceLoopAt.owes]
      · split_ifs <;> simp [controls, slot, mode, here, ServiceLoopAt.looked, ServiceLoopAt.owes]
      · rw [if_pos works]
        split_ifs <;> simp [controls, slot, mode, here, ServiceLoopAt.looked, ServiceLoopAt.owes]
      · rw [if_pos works]
        split_ifs <;> simp [controls, slot, mode, here, ServiceLoopAt.looked, ServiceLoopAt.owes]
      · exact absurd here kept.loop.works.2
      · simp [observe, here] at silent
      · rename_i control
        have reset := kept.loop.reset
        cases control <;>
          simp_all [apply, controls, slot, mode, ServiceLoopAt.looked, ServiceLoopAt.owes, ServiceState.mode,
            ServiceControls.modeAfter]
      · simp [observe, here] at silent
      · have reset := kept.loop.inReset (Or.inr here)
        simp [controls, slot, mode, here, reset, ServiceLoopAt.looked, ServiceLoopAt.owes, ServiceState.mode]
      · simp [controls, slot, mode, here, ServiceLoopAt.looked, ServiceLoopAt.owes]
      · simp [controls, slot, mode, here, ServiceLoopAt.looked, ServiceLoopAt.owes]
      all_goals simp [Enabled, here] at enabled

theorem controls_matched (kept : Kept service) (meets : Meets service step) {event : Event}
    (seen : observe service step = some event) :
    service.controls.Allowed event ∧
      (next service step).controls = service.controls.next event := by
  cases step with
  | call | stop | lock | check | signal | serve | wait => simp [observe] at seen
  | write thread =>
      obtain ⟨⟨control, writing⟩, -, apart⟩ := meets
      simp only [Apart, writing] at apart
      obtain ⟨unlooked, -, -, keepsShutdown⟩ := apart
      have notNoop := kept.clients.sets thread control (by simp [writing, ServiceClientAt.sets])
      simp only [observe, writing, Option.some.injEq] at seen
      subst seen
      constructor
      · intro pending
        refine keepsShutdown ?_
        have := show service.slot = some .Shutdown from pending
        unfold slot at this
        split_ifs at this
        exact Option.some.inj this
      · simp [next, clientStep, writing, move, controls, ServiceControls.next, slot, mode, unlooked,
          notNoop]
  | proceed =>
      cases here : service.loop with
      | entering | starting | testing | checkingControl | serving | failing | waiting | applying
      | running | clearing | returning | ended => simp [observe, here] at seen
      | inReset =>
          simp only [observe, here, Option.some.injEq] at seen
          subst seen
          constructor
          · simp [ServiceControls.Allowed, controls, here, ServiceLoopAt.owes]
          · simp [next, loopStep, here, controls, ServiceControls.next, slot, mode,
              ServiceLoopAt.looked, ServiceLoopAt.owes]
      | checkingState =>
          simp only [observe, here] at seen
          split_ifs at seen with runs
          obtain rfl := Option.some.inj seen
          constructor
          · simp [ServiceControls.Allowed, controls, mode, here, runs, ServiceState.mode,
              ServiceLoopAt.owes]
          · simp [next, loopStep, here, runs, controls, ServiceControls.next, slot, mode,
              ServiceLoopAt.looked, ServiceLoopAt.owes]
      | looking =>
          simp only [observe, here, Option.some.injEq] at seen
          subst seen
          constructor
          · by_cases none : service.mControl = .Noop
            · simp [ServiceControls.Allowed, controls, slot, none, here, ServiceLoopAt.owes]
            · simp [ServiceControls.Allowed, controls, slot, none, here, ServiceLoopAt.looked, ServiceLoopAt.owes]
          · cases control : service.mControl <;>
              simp [next, loopStep, look, here, control, controls, ServiceControls.next, slot, mode,
                ServiceLoopAt.looked, ServiceLoopAt.owes, ServiceControls.modeAfter]

end Service

end OpenMplane
