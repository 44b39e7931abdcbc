import OpenMplane.ServiceSteps

/-!
# Every accepted control is carried out

A run of a service whose steps meet the condition is a run of its controls.  From
every state with a pending control the loop comes to look at it and carries it out,
and from every other state it goes on with the mode it is in.  Without the condition a control is cleared before the loop has looked at it, a shutdown is
replaced, a suspended service runs, and a control waits for a signal that is lost.
-/

namespace OpenMplane

open GuardedRuns Conditional

namespace Service

variable {Thread : Type} [DecidableEq Thread] {service : Service Thread} {step : Step Thread}

/-- Steps of the loop, and signals of calls that have set their control. -/
def Step.Finishes : Step Thread → Prop
  | .signal _ | .proceed | .serve 0 | .wait _ => True
  | _ => False

/-- What is seen of the loop when it carries out a control. -/
def carried : CtlState → List Event
  | .Reset => [.looked .Reset, .reset, .serviced]
  | .Resume => [.looked .Resume, .serviced]
  | control => [.looked control]

/-- The loop has carried out a control. -/
def Carried (service : Service Thread) : CtlState → Prop
  | .Reset | .Resume => service.mState = .ServiceRunning
  | .Suspend => service.mState = .ServiceSuspended
  | .Shutdown => service.loop = .ended
  | .Noop | .Start => True

/-- The loop can come to carry out the control that is pending, `service` being called
at most before. -/
def CarriesOut (service : Service Thread) (control : CtlState) : Prop :=
  ∃ later events, (∀ step ∈ later, step.Finishes) ∧ Guarded Meets next service later ∧
    observations next observe service later = events ++ carried control ∧
    (∀ event ∈ events, event = .serviced) ∧ Carried (later.foldl next service) control

/-- The loop can come to call `service`, and calls `doReset` before if it has to. -/
def ServesOn (service : Service Thread) : Prop :=
  ∃ later events, (∀ step ∈ later, step.Finishes) ∧ Guarded Meets next service later ∧
    observations next observe service later = events ++ [.serviced] ∧
    ∀ event ∈ events, event = .looked .Noop ∨ event = .reset

/-- The loop can come to its end, and nothing is called before. -/
def Ends (service : Service Thread) : Prop :=
  ∃ later, (∀ step ∈ later, step.Finishes) ∧ Guarded Meets next service later ∧
    observations next observe service later = [] ∧ (later.foldl next service).loop = .ended

theorem CarriesOut.cons {control : CtlState} (step : Step Thread) (finishes : step.Finishes)
    (meets : Meets service step)
    (quiet : ∀ event, observe service step = some event → event = .serviced)
    (carries : CarriesOut (next service step) control) : CarriesOut service control := by
  obtain ⟨later, events, allFinish, goesOn, seen, onlyService, done⟩ := carries
  refine ⟨step :: later, (observe service step).toList ++ events, ?_, ⟨meets, goesOn⟩, ?_, ?_, done⟩
  · intro other member
    rcases List.mem_cons.mp member with rfl | after
    · exact finishes
    · exact allFinish other after
  · rw [observations_cons, seen, List.append_assoc]
  · intro event member
    rcases List.mem_append.mp member with now | after
    · exact quiet event (by simpa using now)
    · exact onlyService event after

theorem ServesOn.cons (step : Step Thread) (finishes : step.Finishes) (meets : Meets service step)
    (quiet : ∀ event, observe service step = some event → event = .looked .Noop ∨ event = .reset)
    (serves : ServesOn (next service step)) : ServesOn service := by
  obtain ⟨later, events, allFinish, goesOn, seen, before⟩ := serves
  refine ⟨step :: later, (observe service step).toList ++ events, ?_, ⟨meets, goesOn⟩, ?_, ?_⟩
  · intro other member
    rcases List.mem_cons.mp member with rfl | after
    · exact finishes
    · exact allFinish other after
  · rw [observations_cons, seen, List.append_assoc]
  · intro event member
    rcases List.mem_append.mp member with now | after
    · exact quiet event (by simpa using now)
    · exact before event after

/-- The loop goes by itself from its switch to where the control is carried out. -/
theorem carriesOut_of_looking (looks : service.loop = .looking) :
    CarriesOut service service.mControl := by
  obtain ⟨mState, mControl, mNotify, lock, mRunning, serviceError, loop, client⟩ := service
  obtain rfl : loop = .looking := looks
  have finish : ∀ count, ∀ step ∈ List.replicate count (Step.proceed : Step Thread),
      step.Finishes := by
    intro count step member
    rw [List.eq_of_mem_replicate member]
    trivial
  dsimp only
  cases mControl with
  | Noop =>
      exact ⟨List.replicate 1 .proceed, [], finish 1, by simp [List.replicate, Guarded, Meets,
        Enabled, Works, Apart], rfl, by simp, trivial⟩
  | Start =>
      exact ⟨List.replicate 1 .proceed, [], finish 1, by simp [List.replicate, Guarded, Meets,
        Enabled, Works, Apart], rfl, by simp, trivial⟩
  | Reset =>
      exact ⟨List.replicate 8 .proceed, [], finish 8, by simp [List.replicate, Guarded, Meets,
        Enabled, Works, Apart, next, loopStep, look, apply], rfl, by simp, rfl⟩
  | Suspend =>
      exact ⟨List.replicate 3 .proceed, [], finish 3, by simp [List.replicate, Guarded, Meets,
        Enabled, Works, Apart, next, loopStep, look, apply], rfl, by simp, rfl⟩
  | Resume =>
      exact ⟨List.replicate 6 .proceed, [], finish 6, by simp [List.replicate, Guarded, Meets,
        Enabled, Works, Apart, next, loopStep, look, apply], rfl, by simp, rfl⟩
  | Shutdown =>
      exact ⟨List.replicate 5 .proceed, [], finish 5, by simp [List.replicate, Guarded, Meets,
        Enabled, Works, Apart, next, loopStep, look, apply], rfl, by simp, rfl⟩

theorem carriesOut_of_waiting (waits : service.loop = .waiting) (free : service.lock = none)
    (set : service.mNotify = true) : CarriesOut service service.mControl := by
  have looks : (next service (.wait true)).loop = .looking := rfl
  exact CarriesOut.cons (.wait true) trivial ⟨⟨waits, free, set⟩, trivial, trivial⟩
    (by simp [observe])
    (carriesOut_of_looking looks)

theorem carriesOut_of_signalling {thread : Thread} {control : CtlState}
    (waits : service.loop = .waiting) (signals : service.client thread = .signalling control) :
    CarriesOut service service.mControl := by
  refine CarriesOut.cons (.signal thread) trivial ⟨⟨control, signals⟩, trivial, trivial⟩
    (by simp [observe]) ?_
  have same : service.mControl = (next service (.signal thread)).mControl := by
    simp [next, clientStep, signals, move]
  rw [same]
  refine carriesOut_of_waiting ?_ ?_ ?_
  · simpa [next, clientStep, signals, move] using waits
  · simp [next, clientStep, signals, move]
  · simp [next, clientStep, signals, move, FlagOp.next]

theorem Kept.carriesOut_of_waiting (kept : Kept service) (waits : service.loop = .waiting)
    (pending : service.mControl ≠ .Noop)
    (rests : ∀ thread, (service.client thread).sets = none) :
    CarriesOut service service.mControl := by
  have slot : service.slot ≠ none := by simp [slot, waits, ServiceLoopAt.looked, pending]
  cases locked : service.lock with
  | some thread =>
      have holds := (kept.clients.locks thread).mpr locked
      have noSet := rests thread
      cases here : service.client thread with
      | idle | stopping | locking => simp [here, ServiceClientAt.Holds] at holds
      | checking | writing => simp [here, ServiceClientAt.sets] at noSet
      | signalling control => exact carriesOut_of_signalling waits here
  | none =>
      rcases kept.announced slot with set | ⟨thread, control, signals⟩ | looks
      · exact Service.carriesOut_of_waiting waits locked set
      · exact carriesOut_of_signalling waits signals
      · simp [waits] at looks

theorem Kept.carriesOut_cons (kept : Kept service) (step : Step Thread) (finishes : step.Finishes)
    (meets : Meets service step)
    (quiet : ∀ event, observe service step = some event → event = .serviced)
    (sameControl : (next service step).mControl = service.mControl)
    (carries : Kept (next service step) →
      CarriesOut (next service step) (next service step).mControl) :
    CarriesOut service service.mControl := by
  refine CarriesOut.cons step finishes meets quiet ?_
  rw [← sameControl]
  exact carries (kept_next kept meets)

section Completion

variable (kept : Kept service) (pending : service.mControl ≠ .Noop)
  (rests : ∀ thread, (service.client thread).sets = none)

include kept pending rests

theorem carriesOut_of_serving (serves : service.loop = .serving) :
    CarriesOut service service.mControl :=
  kept.carriesOut_cons (.serve 0) trivial ⟨serves, rfl, trivial⟩ (by simp [observe]) rfl
    fun later => later.carriesOut_of_waiting rfl pending rests

theorem carriesOut_of_checkingState (here : service.loop = .checkingState) :
    CarriesOut service service.mControl := by
  have moves : ∀ state, state = next service .proceed → state.mControl = service.mControl ∧
      state.client = service.client ∧ (state.loop = .serving ∨ state.loop = .waiting) := by
    rintro state rfl
    simp only [next, loopStep, here, kept.loop.works.1, if_true]
    split_ifs <;> simp
  obtain ⟨control, client, goes⟩ := moves _ rfl
  refine kept.carriesOut_cons .proceed trivial ⟨by simp [Enabled, here], trivial, trivial⟩ ?_
    control fun later => ?_
  · simp only [observe, here]
    split_ifs <;> simp
  · rw [← control] at pending
    rw [← client] at rests
    rcases goes with serves | waits
    · exact carriesOut_of_serving later pending rests serves
    · exact later.carriesOut_of_waiting waits pending rests

theorem carriesOut_of_checkingControl (here : service.loop = .checkingControl) :
    CarriesOut service service.mControl := by
  have moves : next service .proceed = { service with loop := .waiting } := by
    simp [next, loopStep, here, pending, kept.loop.works.1]
  refine kept.carriesOut_cons .proceed trivial ⟨by simp [Enabled, here], trivial, trivial⟩
    (by simp [observe, here]) (by rw [moves]) fun later => ?_
  rw [moves] at later ⊢
  exact later.carriesOut_of_waiting rfl pending rests

theorem carriesOut_of_testing (here : service.loop = .testing) :
    CarriesOut service service.mControl := by
  have alive : service.mState ≠ .ServiceShutdown := by
    intro shutdown
    exact pending (by simpa [here] using kept.loop.shutdown shutdown)
  have moves : next service .proceed = { service with loop := .checkingControl } := by
    simp [next, loopStep, here, alive]
  refine kept.carriesOut_cons .proceed trivial ⟨by simp [Enabled, here], trivial, trivial⟩
    (by simp [observe, here]) (by rw [moves]) fun later => ?_
  rw [moves] at later ⊢
  exact carriesOut_of_checkingControl later pending rests rfl

end Completion

theorem Kept.carriesOut (kept : Kept service) {control : CtlState}
    (pending : service.slot = some control)
    (rests : ∀ thread, (service.client thread).sets = none) : CarriesOut service control := by
  unfold slot at pending
  split_ifs at pending with done
  obtain ⟨unlooked, notNoop⟩ := not_or.mp done
  rw [← Option.some.inj pending]
  cases here : service.loop with
  | entering | starting | applying | inReset | running | clearing =>
      simp [here, ServiceLoopAt.looked] at unlooked
  | testing => exact carriesOut_of_testing kept notNoop rests here
  | checkingControl => exact carriesOut_of_checkingControl kept notNoop rests here
  | checkingState => exact carriesOut_of_checkingState kept notNoop rests here
  | serving => exact carriesOut_of_serving kept notNoop rests here
  | waiting => exact kept.carriesOut_of_waiting here notNoop rests
  | looking => exact carriesOut_of_looking here
  | failing => exact absurd here kept.loop.works.2
  | returning | ended =>
      have shutdown := kept.loop.ended (by simp [here])
      exact absurd (by simpa [here] using kept.loop.shutdown shutdown) notNoop

section GoesOn

/-- A loop that is done with its control calls `service`. -/
theorem servesOn_of_clearing (clears : service.loop = .clearing)
    (runs : service.mState = .ServiceRunning) : ServesOn service := by
  obtain ⟨mState, mControl, mNotify, lock, mRunning, serviceError, loop, client⟩ := service
  obtain rfl : loop = .clearing := clears
  obtain rfl : mState = .ServiceRunning := runs
  exact ⟨[.proceed, .proceed, .proceed, .proceed], [], by simp [Step.Finishes], by simp [Guarded,
    Meets, Enabled, Works, Apart, next, loopStep], rfl, by simp⟩

theorem servesOn_of_testing (tests : service.loop = .testing) (none : service.mControl = .Noop)
    (runs : service.mState = .ServiceRunning) : ServesOn service := by
  obtain ⟨mState, mControl, mNotify, lock, mRunning, serviceError, loop, client⟩ := service
  obtain rfl : loop = .testing := tests
  obtain rfl : mState = .ServiceRunning := runs
  obtain rfl : mControl = .Noop := none
  exact ⟨[.proceed, .proceed, .proceed], [], by simp [Step.Finishes], by simp [Guarded,
    Meets, Enabled, Works, Apart, next, loopStep], rfl, by simp⟩

theorem servesOn_of_waiting (waits : service.loop = .waiting) (free : service.lock = none)
    (none : service.mControl = .Noop) (runs : service.mState = .ServiceRunning) :
    ServesOn service :=
  ServesOn.cons (.wait false) trivial ⟨⟨waits, free, trivial⟩, trivial, fun _ => none⟩
    (by simp [observe]) (servesOn_of_testing rfl none runs)

theorem Kept.servesOn_of_waiting (kept : Kept service) (waits : service.loop = .waiting)
    (noop : service.mControl = .Noop) (runs : service.mState = .ServiceRunning)
    (rests : ∀ thread, (service.client thread).sets = none) : ServesOn service := by
  cases locked : service.lock with
  | none => exact Service.servesOn_of_waiting waits locked noop runs
  | some thread =>
      have holds := (kept.clients.locks thread).mpr locked
      have noSet := rests thread
      cases here : service.client thread with
      | idle | stopping | locking => simp [here, ServiceClientAt.Holds] at holds
      | checking | writing => simp [here, ServiceClientAt.sets] at noSet
      | signalling control =>
          refine ServesOn.cons (.signal thread) trivial ⟨⟨control, here⟩, trivial, trivial⟩
            (by simp [observe]) (Service.servesOn_of_waiting ?_ ?_ ?_ ?_)
          · simpa [next, clientStep, here, move] using waits
          · simp [next, clientStep, here, move]
          · simpa [next, clientStep, here, move] using noop
          · simpa [next, clientStep, here, move] using runs

/-- In the running mode `service` is called again when no control is pending. -/
theorem Kept.servesOn (kept : Kept service) (running : service.mode = .running)
    (empty : service.slot = none) (rests : ∀ thread, (service.client thread).sets = none) :
    ServesOn service := by
  have known := kept.loop.running
  have quiet : ∀ place, service.loop = place → place.looked = false → service.mControl = .Noop := by
    rintro place rfl unlooked
    unfold slot at empty
    split_ifs at empty with done
    exact done.resolve_left (by simp [unlooked])
  have step : ∀ place, service.loop = place → place ≠ .serving → place ≠ .waiting →
      place ≠ .ended → Meets service .proceed := by
    rintro place rfl notServing notWaiting notEnded
    exact ⟨⟨notServing, notWaiting, notEnded⟩, trivial, trivial⟩
  cases here : service.loop with
  | entering =>
      refine ServesOn.cons .proceed trivial (step _ here (by simp) (by simp) (by simp))
        (by simp [observe, here]) (ServesOn.cons .proceed trivial ?_ ?_ (servesOn_of_testing ?_ ?_ ?_))
        <;> simp [Meets, Enabled, Works, Apart, next, loopStep, here, observe]
  | starting =>
      have runs : service.mState = .ServiceRunning := by
        have runs : service.mState.mode = .running := by simpa [mode, here] using running
        simpa [here] using known runs
      refine ServesOn.cons .proceed trivial (step _ here (by simp) (by simp) (by simp))
        (by simp [observe, here]) (servesOn_of_testing ?_ ?_ ?_) <;>
          simp [next, loopStep, here, runs]
  | testing =>
      have runs : service.mState.mode = .running := by simpa [mode, here] using running
      exact servesOn_of_testing here (quiet _ here rfl) (by simpa [here] using known runs)
  | checkingControl =>
      have runs : service.mState = .ServiceRunning := by
        have runs : service.mState.mode = .running := by simpa [mode, here] using running
        simpa [here] using known runs
      have none := quiet _ here rfl
      refine ⟨[.proceed, .proceed], [], by simp [Step.Finishes], ?_, ?_, by simp⟩
      · simp [Guarded, Meets, Enabled, Works, Apart, next, loopStep, here, none]
      · simp [observations, emitted, observe, next, loopStep, here, none, runs]
  | checkingState =>
      have runs : service.mState = .ServiceRunning := by
        have runs : service.mState.mode = .running := by simpa [mode, here] using running
        simpa [here] using known runs
      refine ⟨[.proceed], [], by simp [Step.Finishes], ?_, ?_, by simp⟩
      · simp [Guarded, Meets, Enabled, Works, Apart, here]
      · simp [observations, emitted, observe, here, runs]
  | serving =>
      have runs : service.mState = .ServiceRunning := by
        have runs : service.mState.mode = .running := by simpa [mode, here] using running
        simpa [here] using known runs
      have meets : Meets service (.serve 0) := ⟨here, rfl, trivial⟩
      exact ServesOn.cons (.serve 0) trivial meets (by simp [observe])
        ((kept_next kept meets).servesOn_of_waiting rfl (quiet _ here rfl) runs rests)
  | failing => exact absurd here kept.loop.works.2
  | waiting =>
      have runs : service.mState.mode = .running := by simpa [mode, here] using running
      exact kept.servesOn_of_waiting here (quiet _ here rfl) (by simpa [here] using known runs) rests
  | looking =>
      have runs : service.mState.mode = .running := by simpa [mode, here] using running
      have none := quiet _ here rfl
      refine ServesOn.cons .proceed trivial (step _ here (by simp) (by simp) (by simp))
        (by simp [observe, here, none]) (servesOn_of_clearing ?_ ?_)
      · simp [next, loopStep, here, look, none]
      · simpa [next, loopStep, here, look, none] using known runs
  | applying control =>
      have meets := step _ here (by simp) (by simp) (by simp)
      have after : ServiceControls.modeAfter service.mState.mode control = .running := by
        simpa [mode, here] using running
      cases control with
      | Noop | Start =>
          have runs := known after
          refine ServesOn.cons .proceed trivial meets (by simp [observe, here])
            (servesOn_of_clearing ?_ ?_)
          · simp [next, loopStep, here, apply]
          · simpa [next, loopStep, here, apply] using runs
      | Reset =>
          refine ServesOn.cons .proceed trivial meets (by simp [observe, here])
            (ServesOn.cons .proceed trivial ?_ ?_ (ServesOn.cons .proceed trivial ?_ ?_
              (servesOn_of_clearing ?_ ?_))) <;>
            simp [Meets, Enabled, Works, Apart, next, loopStep, here, apply, observe]
      | Suspend | Shutdown => simp [ServiceControls.modeAfter] at after
      | Resume =>
          refine ServesOn.cons .proceed trivial meets (by simp [observe, here])
            (servesOn_of_clearing ?_ ?_) <;> simp [next, loopStep, here, apply]
  | inReset =>
      refine ServesOn.cons .proceed trivial (step _ here (by simp) (by simp) (by simp))
        (by simp [observe, here]) (ServesOn.cons .proceed trivial ?_ ?_ (servesOn_of_clearing ?_ ?_))
        <;> simp [Meets, Enabled, Works, Apart, next, loopStep, here, observe]
  | running =>
      refine ServesOn.cons .proceed trivial (step _ here (by simp) (by simp) (by simp))
        (by simp [observe, here]) (servesOn_of_clearing ?_ ?_) <;> simp [next, loopStep, here]
  | clearing =>
      have runs : service.mState.mode = .running := by simpa [mode, here] using running
      exact servesOn_of_clearing here (by simpa [here] using known runs)
  | returning | ended =>
      have shutdown := kept.loop.ended (by simp [here])
      simp [mode, here, shutdown, ServiceState.mode] at running

theorem Kept.ends (kept : Kept service) (stopped : service.mode = .stopped) : Ends service := by
  have isShutdown : service.loop = .applying .Shutdown ∨ service.mState = .ServiceShutdown := by
    have known : ∀ state : ServiceState, state.mode = .stopped → state = .ServiceShutdown := by
      intro state
      cases state <;> simp [ServiceState.mode]
    cases here : service.loop with
    | applying control =>
        have after : ServiceControls.modeAfter service.mState.mode control = .stopped := by
          simpa [mode, here] using stopped
        cases control with
        | Shutdown => exact Or.inl rfl
        | Noop | Start | Reset => exact Or.inr (known _ after)
        | Suspend | Resume => simp [ServiceControls.modeAfter] at after
    | _ => exact Or.inr (known _ (by simpa [mode, here] using stopped))
  obtain ⟨mState, mControl, mNotify, lock, mRunning, serviceError, loop, client⟩ := service
  rcases isShutdown with applies | shutdown
  · obtain rfl : loop = .applying .Shutdown := applies
    exact ⟨[.proceed, .proceed, .proceed, .proceed], by simp [Step.Finishes], by simp [Guarded,
      Meets, Enabled, Works, Apart, next, loopStep, apply], rfl, rfl⟩
  · obtain rfl : mState = .ServiceShutdown := shutdown
    rcases kept.loop.shutdown rfl with here | ⟨here | here | here, -⟩
    · obtain rfl : loop = .clearing := here
      exact ⟨[.proceed, .proceed, .proceed], by simp [Step.Finishes], by simp [Guarded,
        Meets, Enabled, Works, Apart, next, loopStep], rfl, rfl⟩
    · obtain rfl : loop = .testing := here
      exact ⟨[.proceed, .proceed], by simp [Step.Finishes], by simp [Guarded,
        Meets, Enabled, Works, Apart, next, loopStep], rfl, rfl⟩
    · obtain rfl : loop = .returning := here
      exact ⟨[.proceed], by simp [Step.Finishes], by simp [Guarded,
        Meets, Enabled, Works, Apart], rfl, rfl⟩
    · obtain rfl : loop = .ended := here
      exact ⟨[], by simp, trivial, rfl, rfl⟩

end GoesOn

/-- The control that the thread with the mutex has set and will return. -/
def unreturned (service : Service Thread) : List CtlState :=
  match service.lock.map service.client with
  | some (.signalling control) => if control = .Noop then [] else [control]
  | _ => []

/-- The control that a call sets in a step. -/
def accepted (service : Service Thread) (step : Step Thread) : List CtlState :=
  match observe service step with
  | some (.accepted control) => [control]
  | _ => []

theorem unreturned_move (kept : Kept service) (thread : Thread) (place : ServiceClientAt)
    (free : ¬ (service.client thread).Holds) :
    unreturned (service.move thread place) = unreturned service := by
  cases locked : service.lock with
  | none => simp [unreturned, move, locked]
  | some holder =>
      have different : holder ≠ thread := by
        rintro rfl
        exact free ((kept.clients.locks holder).mpr locked)
      simp [unreturned, move, locked, Function.update_of_ne different]

omit [DecidableEq Thread] in
theorem unreturned_loopStep : unreturned service.loopStep = unreturned service := by
  have look : service.look.lock = service.lock ∧ service.look.client = service.client := by
    unfold look
    split <;> exact ⟨rfl, rfl⟩
  have apply : ∀ control, (service.apply control).lock = service.lock ∧
      (service.apply control).client = service.client := by
    intro control
    cases control <;> exact ⟨rfl, rfl⟩
  have same : service.loopStep.lock = service.lock ∧ service.loopStep.client = service.client := by
    unfold loopStep
    split
    case h_7 => exact look
    case h_8 control _ => exact apply control
    all_goals exact ⟨rfl, rfl⟩
  rw [unreturned, same.1, same.2, unreturned]

theorem returns_balance (kept : Kept service) (meets : Meets service step) :
    unreturned service ++ accepted service step =
      (returned service step).toList ++ unreturned (next service step) := by
  cases step with
  | call thread call =>
      have idle : service.client thread = .idle := meets.1
      have free : ¬ (service.client thread).Holds := by simp [idle, ServiceClientAt.Holds]
      simp [accepted, observe, returned, next, unreturned_move kept thread _ free]
  | stop thread =>
      have stopping : service.client thread = .stopping := meets.1
      have free : ¬ (service.client thread).Holds := by simp [stopping, ServiceClientAt.Holds]
      have same := unreturned_move kept thread .idle free
      simp only [accepted, observe, returned, next, clientStep, stopping]
      rw [List.append_nil]
      exact same.symm
  | lock thread =>
      obtain ⟨⟨⟨call, locking⟩, free⟩, -⟩ := meets
      cases call <;>
        simp [unreturned, accepted, observe, returned, next, clientStep, locking, free, move,
          ServiceCall.request]
  | check thread =>
      obtain ⟨⟨required, control, checking⟩, -⟩ := meets
      have mine := (kept.clients.locks thread).mp (by simp [checking, ServiceClientAt.Holds])
      simp only [accepted, observe, returned, next, clientStep, checking]
      split_ifs <;> simp [unreturned, mine, checking, move]
  | write thread =>
      obtain ⟨⟨control, writing⟩, -⟩ := meets
      have mine := (kept.clients.locks thread).mp (by simp [writing, ServiceClientAt.Holds])
      have notNoop := kept.clients.sets thread control (by simp [writing, ServiceClientAt.sets])
      simp [unreturned, accepted, observe, returned, next, clientStep, writing, mine, move,
        notNoop]
  | signal thread =>
      obtain ⟨⟨control, signalling⟩, -⟩ := meets
      have mine := (kept.clients.locks thread).mp (by simp [signalling, ServiceClientAt.Holds])
      by_cases noop : control = .Noop
      · simp [unreturned, accepted, observe, returned, next, clientStep, signalling, mine, move,
          noop]
      · simp [unreturned, accepted, observe, returned, next, clientStep, signalling, mine, move,
          noop]
  | proceed =>
      have none : accepted service .proceed = [] := by
        unfold accepted observe
        cases service.loop with
        | checkingState => by_cases runs : service.mState = .ServiceRunning <;> simp [runs]
        | _ => rfl
      simp [none, returned, next, unreturned_loopStep]
  | serve serviceError => simp [unreturned, accepted, observe, returned, next]
  | wait result => simp [unreturned, accepted, observe, returned, next]

/-- What the users of a service count on, of the runs in which `service` returns 0. -/
structure ServiceServed (steps : List (Step Thread)) : Prop where
  -- the loop looks at what was accepted last, no shutdown is replaced, `doReset` is called
  -- for each reset that was looked at before the loop looks or serves again, and `service`
  -- is called only in the running mode
  inTurn : Guarded ServiceControls.Allowed ServiceControls.next ServiceControls.initial
    (observations next observe initial steps)
  -- the calls return what they set, in this order
  returns : emitted next accepted initial steps =
    observations next returned initial steps ++ unreturned (steps.foldl next initial)
  -- no control waits for a signal that will not come
  announced : (steps.foldl next initial).loop = .waiting →
    (steps.foldl next initial).mControl ≠ .Noop → (steps.foldl next initial).mNotify = true ∨
      ∃ thread control, (steps.foldl next initial).client thread = .signalling control
  carriedOut : ∀ control, ((observations next observe initial steps).foldl ServiceControls.next
      ServiceControls.initial).slot = some control →
    (∀ thread, ((steps.foldl next initial).client thread).sets = none) →
      CarriesOut (steps.foldl next initial) control
  servesOn : ((observations next observe initial steps).foldl ServiceControls.next
      ServiceControls.initial).mode = .running →
    ((observations next observe initial steps).foldl ServiceControls.next
        ServiceControls.initial).slot = none →
      (∀ thread, ((steps.foldl next initial).client thread).sets = none) →
        ServesOn (steps.foldl next initial)
  ends : ((observations next observe initial steps).foldl ServiceControls.next
    ServiceControls.initial).mode = .stopped → Ends (steps.foldl next initial)

/-- In every run that keeps the condition the accepted controls are carried out. -/
theorem served_of_meets (steps : List (Step Thread)) (run : Guarded Meets next initial steps) :
    ServiceServed steps := by
  have preserved : ∀ (service : Service Thread) step, Kept service → Meets service step →
      Kept (next service step) := fun _ _ => kept_next
  have kept := run.invariant preserved kept_initial
  obtain ⟨inTurn, controls⟩ := run.simulates controls preserved
    (fun _ _ kept meets silent => controls_silent kept meets silent)
    (fun _ _ _ kept meets seen => controls_matched kept meets seen) kept_initial
  have same : (steps.foldl next initial).controls =
      (observations next observe initial steps).foldl ServiceControls.next
        ServiceControls.initial := controls
  refine ⟨inTurn, ?_, ?_, ?_, ?_, ?_⟩
  · have balance := run.conserved unreturned accepted
      (fun service step => (returned service step).toList) preserved
      (fun _ _ kept meets => returns_balance kept meets) kept_initial
    exact balance
  · intro waits pending
    have slot : (steps.foldl next initial).slot ≠ none := by
      simp [slot, waits, ServiceLoopAt.looked, pending]
    rcases kept.announced slot with set | signals | looks
    · exact Or.inl set
    · exact Or.inr signals
    · simp [waits] at looks
  · intro control pending rests
    rw [← same] at pending
    exact kept.carriesOut pending rests
  · intro running empty rests
    rw [← same] at running empty
    exact kept.servesOn running empty rests
  · intro stopped
    rw [← same] at stopped
    exact kept.ends stopped

section Runs

/-- A call, up to where its thread has checked the state. -/
def asks (thread : Bool) (call : ServiceCall) : List (Step Bool) :=
  [.call thread call, .lock thread, .check thread]

def sets (thread : Bool) : List (Step Bool) :=
  [.write thread, .signal thread]

/-- The loop from its first statement into its first wait. -/
def started : List (Step Bool) :=
  [.proceed, .proceed, .proceed, .proceed, .proceed, .serve 0]

/-- The loop from the clearing of a control into the next wait. -/
def served : List (Step Bool) :=
  [.proceed, .proceed, .proceed, .proceed, .serve 0]

/-- A service is suspended and resumed, reset and shut down. -/
def suspendRun : List (Step Bool) :=
  started ++ asks true .suspend ++ sets true ++
    [.wait true, .proceed, .proceed, .proceed, .proceed, .proceed, .proceed] ++
    asks false .resume ++ sets false ++ [.wait true, .proceed, .proceed] ++ served ++
    asks true .reset ++ sets true ++ [.wait true, .proceed, .proceed, .proceed, .proceed] ++
    served ++ asks false .shutdown ++ sets false ++ [.wait true, .proceed, .proceed, .proceed]

theorem served_suspendRun :
    ServiceServed suspendRun ∧
      observations next observe initial suspendRun = [.serviced, .accepted .Suspend,
        .looked .Suspend, .accepted .Resume, .looked .Resume, .serviced, .accepted .Reset,
        .looked .Reset, .reset, .serviced, .accepted .Shutdown, .looked .Shutdown] :=
  ⟨served_of_meets suspendRun (by decide +kernel), by decide +kernel⟩

/-- An event wakes the loop, which looks at no control; a reset is accepted before it
clears the control. -/
def clearedRun : List (Step Bool) :=
  started ++ [.call true .eventNotify, .lock true, .signal true, .wait true, .proceed] ++
    asks false .reset ++ sets false ++ served ++ [.wait true, .proceed]

/-- The reset is never carried out. -/
theorem reset_is_cleared :
    Guarded (fun service step => Enabled service step ∧ Works step) next initial clearedRun ∧
      ¬ ServiceServed clearedRun := by
  refine ⟨by decide +kernel, fun served => ?_⟩
  exact absurd served.inTurn (by decide +kernel)

/-- A shutdown, and a reset before the loop looks. -/
def replacedRun : List (Step Bool) :=
  started ++ asks true .shutdown ++ sets true ++ asks false .reset ++ sets false

theorem shutdown_is_replaced :
    Guarded (fun service step => Enabled service step ∧ Works step) next initial replacedRun ∧
      ¬ ServiceServed replacedRun := by
  refine ⟨by decide +kernel, fun served => ?_⟩
  exact absurd served.inTurn (by decide +kernel)

/-- A reset is checked while the service runs and set when it is suspended. -/
def lateRun : List (Step Bool) :=
  started ++ asks true .suspend ++ sets true ++ [.wait true] ++ asks false .reset ++
    [.proceed, .proceed, .proceed] ++ sets false ++ [.proceed, .proceed] ++
    [.wait true, .proceed, .proceed, .proceed, .proceed] ++ served

theorem suspended_service_runs :
    Guarded (fun service step => Enabled service step ∧ Works step) next initial lateRun ∧
      ¬ ServiceServed lateRun := by
  refine ⟨by decide +kernel, fun served => ?_⟩
  exact absurd served.inTurn (by decide +kernel)

/-- The wait times out although a reset has been signalled. -/
def unheardControlRun : List (Step Bool) :=
  started ++ asks true .reset ++ sets true ++ [.wait false, .proceed, .proceed]

/-- The loop waits with the reset pending and no signal. -/
theorem control_waits :
    Guarded (fun service step => Enabled service step ∧ Works step) next initial
        unheardControlRun ∧
      ¬ ServiceServed unheardControlRun := by
  refine ⟨by decide +kernel, fun served => ?_⟩
  rcases served.announced (by decide +kernel) (by decide +kernel) with set | ⟨thread, signals⟩
  · exact absurd set (by decide +kernel)
  · cases thread <;> exact absurd signals (by decide +kernel)

end Runs

end Service

end OpenMplane
