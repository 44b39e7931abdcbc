import Mathlib.Order.Monotone.Basic
import OpenMplane.GuardedRuns
import Mathlib.Data.Int.ConditionallyCompleteOrder
import Mathlib.Order.ConditionallyCompleteLattice.Basic

/-!
# A timer that is polled

The model of `TimeoutTimer`, whose time is over when `isTimedOut` is asked and sees it.
The clock is a sequence of readings that never goes back; a callback may itself ask the
timer, so that a call is given a bound on its depth and returns nothing below it.  Beside
the timer stands what it is for: a start, a deadline, and a callback for the first look
behind it.
-/

namespace OpenMplane

open GuardedRuns

/-- A function that is called when the time is over, and how often it calls `isTimedOut`. -/
structure TimerCallback where
  name : Nat
  polls : Nat
  deriving DecidableEq

structure TimeoutTimer where
  mDuration : Int
  mCallback : Option TimerCallback
  mTimedOut : Bool
  mEndTime : Int
  mRunning : Bool
  deriving DecidableEq

/-- A timer with the readings of the clock that are over and the callbacks that were
called. -/
structure Clocked where
  timer : TimeoutTimer
  tick : Nat
  called : List Nat
  deriving DecidableEq

/-- The calls that a user of the timer makes. -/
inductive TimerCall
  | setTimedCallback (func : Option TimerCallback)
  | startTimer (timerTime : Option Int)
  | stopTimer
  | isTimedOut
  deriving DecidableEq

namespace TimeoutTimer

/-- A new timer. -/
def construct : TimeoutTimer := ⟨0, none, false, 0, false⟩

/-- A function that polls the timer a number of times. -/
def repeatPoll (poll : Clocked → Option (Bool × Clocked)) : Nat → Clocked → Option Clocked
  | 0, state => some state
  | polls + 1, state => (poll state).bind fun answer => repeatPoll poll polls answer.2

variable (clock : Nat → Int)

def isTimedOut : Nat → Clocked → Option (Bool × Clocked)
  | 0, _ => none
  | depth + 1, ⟨timer, tick, called⟩ =>
      if !timer.mRunning then some (false, ⟨timer, tick + 1, called⟩)
      else if timer.mTimedOut then some (true, ⟨timer, tick + 1, called⟩)
      else if clock tick < timer.mEndTime then some (false, ⟨timer, tick + 1, called⟩)
      else
        let isOver : Option Clocked := match timer.mCallback with
          | none => some ⟨timer, tick + 1, called⟩
          | some func => repeatPoll (isTimedOut depth) func.polls
              ⟨timer, tick + 1, called ++ [func.name]⟩
        isOver.map fun state => (true, { state with timer.mTimedOut := true })

/-- `startTimer`, with a time or with the one that was set before. -/
def startTimer (depth : Nat) (state : Clocked) (timerTime : Option Int) : Option Clocked :=
  let mDuration := timerTime.getD state.timer.mDuration
  let mEndTime := clock state.tick + mDuration
  let started := { state.timer with mRunning := true, mDuration, mEndTime }
  (isTimedOut clock depth ⟨started, state.tick + 1, state.called⟩).map Prod.snd

/-- What a call does: its answer, if it has one, and the timer after it. -/
def call (depth : Nat) (state : Clocked) : TimerCall → Option (Option Bool × Clocked)
  | .setTimedCallback func =>
      some (none, { state with timer.mCallback := func, tick := state.tick + 1 })
  | .startTimer timerTime => (startTimer clock depth state timerTime).map fun after => (none, after)
  | .stopTimer => some (none, { state with timer.mRunning := false, tick := state.tick + 1 })
  | .isTimedOut =>
      (isTimedOut clock depth state).map fun answer => (some answer.1, answer.2)

end TimeoutTimer

namespace TimeoutTimer

/-- The callback that is set does not ask the timer. -/
def Quiet (timer : TimeoutTimer) : Prop := ∀ func ∈ timer.mCallback, func.polls = 0

instance (timer : TimeoutTimer) : Decidable timer.Quiet :=
  inferInstanceAs (Decidable (∀ func ∈ timer.mCallback, _))

end TimeoutTimer

/-- What a timer is for: whether it runs, when its time is over, and whether that has been
seen since it was started. -/
structure Expiry where
  runs : Bool
  duration : Int
  deadline : Int
  func : Option TimerCallback
  seen : Bool
  deriving DecidableEq

namespace Expiry

def initial : Expiry := ⟨false, 0, 0, none, false⟩

/-- The time is over at a reading of the clock. -/
def Over (expiry : Expiry) (now : Int) : Prop := expiry.runs = true ∧ expiry.deadline ≤ now

instance (expiry : Expiry) (now : Int) : Decidable (expiry.Over now) :=
  inferInstanceAs (Decidable (_ ∧ _))

/-- A look at the clock. -/
def look (expiry : Expiry) (now : Int) : Expiry :=
  if expiry.Over now then { expiry with seen := true } else expiry

/-- The callback that a look at the clock calls: the one that is set, at the first look
behind the deadline. -/
def calls (expiry : Expiry) (now : Int) : List Nat :=
  if expiry.Over now ∧ expiry.seen = false then expiry.func.toList.map TimerCallback.name else []

/-- A start at a reading of the clock. -/
def start (expiry : Expiry) (now : Int) (timerTime : Option Int) : Expiry where
  runs := true
  duration := timerTime.getD expiry.duration
  deadline := now + timerTime.getD expiry.duration
  func := expiry.func
  seen := false

variable (clock : Nat → Int) (tick : Nat)

/-- The state after a call that comes at a reading of the clock; a start looks at the
next one. -/
def call (expiry : Expiry) : TimerCall → Expiry
  | .setTimedCallback func => { expiry with func }
  | .startTimer timerTime => (expiry.start (clock tick) timerTime).look (clock (tick + 1))
  | .stopTimer => { expiry with runs := false }
  | .isTimedOut => expiry.look (clock tick)

def answer (expiry : Expiry) : TimerCall → Option Bool
  | .isTimedOut => some (decide (expiry.Over (clock tick)))
  | _ => none

/-- The callbacks of a call. -/
def called (expiry : Expiry) : TimerCall → List Nat
  | .startTimer timerTime => (expiry.start (clock tick) timerTime).calls (clock (tick + 1))
  | .isTimedOut => expiry.calls (clock tick)
  | _ => []

end Expiry

/-- A timer beside what it is for. -/
structure Timed where
  state : Clocked
  expiry : Expiry

namespace Timed

def initial : Timed := ⟨⟨.construct, 0, []⟩, .initial⟩

variable (clock : Nat → Int)

/-- A call that returns does so at depth 1, and one that does not ends the run. -/
def step (timed : Timed) (call : TimerCall) : Timed :=
  match TimeoutTimer.call clock 1 timed.state call with
  | none => timed
  | some (_, state) => ⟨state, timed.expiry.call clock timed.state.tick call⟩

/-- A call ends, with the answer and the callbacks that it should have. -/
def Good (timed : Timed) (call : TimerCall) : Prop :=
  ∃ depth answer state, TimeoutTimer.call clock depth timed.state call = some (answer, state) ∧
    answer = timed.expiry.answer clock timed.state.tick call ∧
    state.called = timed.state.called ++ timed.expiry.called clock timed.state.tick call

/-- The calls that go as they should.  A timer that was once seen to be over is not asked
after another start, unless that is over too and no callback is set; and a callback that is
due does not ask the timer. -/
def Meets (timed : Timed) : TimerCall → Prop
  | .isTimedOut =>
      timed.state.timer.mRunning = true →
        if timed.state.timer.mTimedOut then
          timed.expiry.seen = true ∨
            (timed.state.timer.mEndTime ≤ clock timed.state.tick ∧
              timed.state.timer.mCallback = none)
        else timed.state.timer.mEndTime ≤ clock timed.state.tick → timed.state.timer.Quiet
  | .startTimer timerTime =>
      clock timed.state.tick + timerTime.getD timed.state.timer.mDuration ≤
          clock (timed.state.tick + 1) →
        if timed.state.timer.mTimedOut then timed.state.timer.mCallback = none
        else timed.state.timer.Quiet
  | _ => True

instance (timer : TimeoutTimer) : Decidable timer.Quiet :=
  inferInstanceAs (Decidable (∀ func ∈ timer.mCallback, _))

instance (timed : Timed) (call : TimerCall) : Decidable (timed.Meets clock call) := by
  cases call <;> unfold Meets <;> infer_instance

/-- The timer agrees with what it is for, but for the flag that a start leaves behind. -/
structure Invariant (timed : Timed) : Prop where
  runs : timed.state.timer.mRunning = timed.expiry.runs
  duration : timed.state.timer.mDuration = timed.expiry.duration
  deadline : timed.state.timer.mEndTime = timed.expiry.deadline
  func : timed.state.timer.mCallback = timed.expiry.func
  seen : timed.expiry.seen = true →
    timed.state.timer.mTimedOut = true ∧ timed.expiry.deadline ≤ clock timed.state.tick

end Timed

namespace TimeoutTimer

variable {clock : Nat → Int} {timer : TimeoutTimer} {tick : Nat} {called : List Nat}

/-- What `isTimedOut` answers. -/
def known (timer : TimeoutTimer) (now : Int) : Bool :=
  timer.mRunning && (timer.mTimedOut || decide (timer.mEndTime ≤ now))

/-- The callback that `isTimedOut` calls. -/
def calls (timer : TimeoutTimer) (now : Int) : List Nat :=
  if timer.known now = true ∧ timer.mTimedOut = false then
    timer.mCallback.toList.map TimerCallback.name
  else []

/-- A callback is due. -/
structure Due (timer : TimeoutTimer) (now : Int) : Prop where
  running : timer.mRunning = true
  fresh : timer.mTimedOut = false
  reached : timer.mEndTime ≤ now

theorem isTimedOut_due (due : timer.Due (clock tick)) (depth : Nat) :
    isTimedOut clock (depth + 1) ⟨timer, tick, called⟩ =
      Option.map (fun state => (true, { state with timer.mTimedOut := true }))
        (match timer.mCallback with
          | none => some ⟨timer, tick + 1, called⟩
          | some func => repeatPoll (isTimedOut clock depth) func.polls
              ⟨timer, tick + 1, called ++ [func.name]⟩) := by
  rw [isTimedOut, due.running, due.fresh]
  exact if_neg (Int.not_lt.mpr due.reached)

/-- The timer is asked, and no callback that is due asks it again. -/
theorem isTimedOut_eq (quiet : timer.Due (clock tick) → timer.Quiet) (depth : Nat) :
    isTimedOut clock (depth + 1) ⟨timer, tick, called⟩ =
      some (timer.known (clock tick),
        ⟨{ timer with mTimedOut := timer.mTimedOut || timer.known (clock tick) }, tick + 1,
          called ++ timer.calls (clock tick)⟩) := by
  obtain ⟨duration, callback, timedOut, endTime, running⟩ := timer
  cases running with
  | false => simp [isTimedOut, known, calls]
  | true =>
      cases timedOut with
      | true => simp [isTimedOut, known, calls]
      | false =>
          by_cases reached : endTime ≤ clock tick
          · have due : Due ⟨duration, callback, false, endTime, true⟩ (clock tick) :=
              ⟨rfl, rfl, reached⟩
            rw [isTimedOut_due due]
            cases callback with
            | none => simp [known, calls, reached]
            | some func =>
                have silent : func.polls = 0 := quiet due func rfl
                simp [known, calls, reached, silent, repeatPoll]
          · simp [isTimedOut, known, calls, reached, Int.not_le.mp reached]

/-- A callback that asks the timer is called again by its own question, at any depth. -/
theorem isTimedOut_reentrant (monotone : Monotone clock) (due : timer.Due (clock tick))
    (asks : ¬timer.Quiet) (depth : Nat) : isTimedOut clock depth ⟨timer, tick, called⟩ = none := by
  induction depth generalizing tick called with
  | zero => rfl
  | succ depth ih =>
      rw [isTimedOut_due due]
      cases callback : timer.mCallback with
      | none => exact absurd (fun func member => by rw [callback] at member; cases member) asks
      | some func =>
          have polls : func.polls ≠ 0 := by
            intro silent
            refine asks fun other member => ?_
            rw [callback] at member
            rw [← Option.some.inj member]
            exact silent
          obtain ⟨more, same⟩ := Nat.exists_eq_succ_of_ne_zero polls
          have later : timer.Due (clock (tick + 1)) :=
            ⟨due.running, due.fresh, due.reached.trans (monotone (Nat.le_succ tick))⟩
          have endless := @ih (tick + 1) (called ++ [func.name]) later
          dsimp only
          rw [same, repeatPoll, endless]
          rfl

/-- A call that returns at some depth makes its callbacks quiet. -/
theorem quiet_of_isTimedOut (monotone : Monotone clock) {depth : Nat} {answer : Bool × Clocked}
    (returns : isTimedOut clock depth ⟨timer, tick, called⟩ = some answer)
    (due : timer.Due (clock tick)) : timer.Quiet := by
  by_cases quiet : timer.Quiet
  · exact quiet
  · rw [isTimedOut_reentrant monotone due quiet] at returns
    cases returns

theorem isTimedOut_of_some (monotone : Monotone clock) {depth : Nat} {answer : Bool × Clocked}
    (returns : isTimedOut clock depth ⟨timer, tick, called⟩ = some answer) :
    answer = (timer.known (clock tick),
      ⟨{ timer with mTimedOut := timer.mTimedOut || timer.known (clock tick) }, tick + 1,
        called ++ timer.calls (clock tick)⟩) := by
  cases depth with
  | zero => cases returns
  | succ depth =>
      rw [isTimedOut_eq (quiet_of_isTimedOut monotone returns)] at returns
      exact (Option.some.inj returns).symm

end TimeoutTimer

section Agreement

variable {timer : TimeoutTimer} {expiry : Expiry} {now : Int}

theorem Expiry.calls_of_over (isOver : expiry.Over now) (fresh : expiry.seen = false) :
    expiry.calls now = expiry.func.toList.map TimerCallback.name := if_pos ⟨isOver, fresh⟩

theorem Expiry.look_over (isOver : expiry.Over now) :
    expiry.look now = { expiry with seen := true } := if_pos isOver

theorem Expiry.look_not_over (early : ¬expiry.Over now) : expiry.look now = expiry := if_neg early

theorem known_of_over (runs : timer.mRunning = expiry.runs)
    (deadline : timer.mEndTime = expiry.deadline) (isOver : expiry.Over now) :
    timer.known now = true := by
  have reached : timer.mEndTime ≤ now := deadline.symm ▸ isOver.2
  rw [TimeoutTimer.known, runs, isOver.1, decide_eq_true reached, Bool.or_true]
  rfl

/-- The timer knows that it is over when it is, unless it was seen to be over before. -/
theorem known_iff (runs : timer.mRunning = expiry.runs) (deadline : timer.mEndTime = expiry.deadline)
    (isOver : timer.mRunning = true → timer.mTimedOut = true → expiry.deadline ≤ now) :
    timer.known now = decide (expiry.Over now) := by
  refine Bool.eq_iff_iff.mpr ?_
  rw [decide_eq_true_iff]
  refine ⟨fun known => ?_, known_of_over runs deadline⟩
  rw [TimeoutTimer.known, Bool.and_eq_true, Bool.or_eq_true, decide_eq_true_iff] at known
  refine ⟨runs ▸ known.1, ?_⟩
  rcases known.2 with timedOut | reached
  · exact isOver known.1 timedOut
  · exact deadline ▸ reached

/-- The timer calls the callback that it should, unless it was seen to be over before. -/
theorem calls_eq (runs : timer.mRunning = expiry.runs) (deadline : timer.mEndTime = expiry.deadline)
    (func : timer.mCallback = expiry.func) (seen : expiry.seen = true → timer.mTimedOut = true)
    (known : expiry.Over now → timer.mTimedOut = true →
      expiry.seen = true ∨ timer.mCallback = none) : timer.calls now = expiry.calls now := by
  cases callback : timer.mCallback with
  | none =>
      rw [callback] at func
      simp [TimeoutTimer.calls, Expiry.calls, callback, ← func]
  | some callback' =>
      have same : (timer.known now = true ∧ timer.mTimedOut = false) ↔
          (expiry.Over now ∧ expiry.seen = false) := by
        constructor
        · rintro ⟨isKnown, fresh⟩
          rw [TimeoutTimer.known, fresh, Bool.false_or, Bool.and_eq_true, decide_eq_true_iff,
            runs, deadline] at isKnown
          refine ⟨isKnown, Bool.eq_false_iff.mpr fun isSeen => ?_⟩
          rw [seen isSeen] at fresh
          cases fresh
        · rintro ⟨isOver, fresh⟩
          refine ⟨known_of_over runs deadline isOver, Bool.eq_false_iff.mpr fun timedOut => ?_⟩
          rcases known isOver timedOut with isSeen | none
          · rw [isSeen] at fresh
            cases fresh
          · rw [none] at callback
            cases callback
      rw [TimeoutTimer.calls, Expiry.calls, func]
      exact if_congr same rfl rfl

end Agreement

namespace Timed

open TimeoutTimer

variable {clock : Nat → Int} {timed : Timed} {call : TimerCall}

/-- The timer when it has just been started. -/
def started (clock : Nat → Int) (timed : Timed) (timerTime : Option Int) : TimeoutTimer :=
  { timed.state.timer with
    mRunning := true
    mDuration := timerTime.getD timed.state.timer.mDuration
    mEndTime := clock timed.state.tick + timerTime.getD timed.state.timer.mDuration }

theorem deadline_start (invariant : timed.Invariant clock) (timerTime : Option Int) :
    (timed.started clock timerTime).mEndTime =
      (timed.expiry.start (clock timed.state.tick) timerTime).deadline := by
  rw [started, invariant.duration]
  rfl

theorem call_startTimer (depth : Nat) (timerTime : Option Int) :
    TimeoutTimer.call clock depth timed.state (.startTimer timerTime) =
      (isTimedOut clock depth
        ⟨timed.started clock timerTime, timed.state.tick + 1, timed.state.called⟩).map
        fun answer => (none, answer.2) :=
  Option.map_map _ _ _

theorem call_isTimedOut (depth : Nat) : TimeoutTimer.call clock depth timed.state .isTimedOut =
    (isTimedOut clock depth timed.state).map fun answer => (some answer.1, answer.2) := rfl

/-- The callback of a start that goes as it should. -/
theorem calls_started (invariant : timed.Invariant clock) {timerTime : Option Int}
    (meets : timed.Meets clock (.startTimer timerTime)) :
    (timed.started clock timerTime).calls (clock (timed.state.tick + 1)) =
      (timed.expiry.start (clock timed.state.tick) timerTime).calls
        (clock (timed.state.tick + 1)) := by
  have deadline := deadline_start invariant timerTime
  refine calls_eq rfl deadline invariant.func nofun fun isOver timedOut => Or.inr ?_
  have silent := meets (deadline.trans_le isOver.2)
  rw [if_pos (show timed.state.timer.mTimedOut = true from timedOut)] at silent
  exact silent

theorem quiet_started {timerTime : Option Int} (meets : timed.Meets clock (.startTimer timerTime))
    (due : (timed.started clock timerTime).Due (clock (timed.state.tick + 1))) :
    (timed.started clock timerTime).Quiet := by
  have fresh : ¬timed.state.timer.mTimedOut = true := Bool.eq_false_iff.mp due.fresh
  have quiet := meets due.reached
  rw [if_neg fresh] at quiet
  exact quiet

theorem quiet_of_meets (meets : timed.Meets clock .isTimedOut)
    (due : timed.state.timer.Due (clock timed.state.tick)) : timed.state.timer.Quiet := by
  have fresh : ¬timed.state.timer.mTimedOut = true := Bool.eq_false_iff.mp due.fresh
  have quiet := meets due.running
  rw [if_neg fresh] at quiet
  exact quiet due.reached

theorem startTimer_of_meets {timerTime : Option Int}
    (meets : timed.Meets clock (.startTimer timerTime)) :
    TimeoutTimer.call clock 1 timed.state (.startTimer timerTime) = some (none,
      ⟨{ timed.started clock timerTime with
          mTimedOut := (timed.started clock timerTime).mTimedOut ||
            (timed.started clock timerTime).known (clock (timed.state.tick + 1)) },
        timed.state.tick + 1 + 1,
        timed.state.called ++
          (timed.started clock timerTime).calls (clock (timed.state.tick + 1))⟩) := by
  rw [call_startTimer, isTimedOut_eq (quiet_started meets)]
  rfl

theorem isTimedOut_of_meets (meets : timed.Meets clock .isTimedOut) :
    TimeoutTimer.call clock 1 timed.state .isTimedOut =
      some (some (timed.state.timer.known (clock timed.state.tick)),
        ⟨{ timed.state.timer with
            mTimedOut := timed.state.timer.mTimedOut ||
              timed.state.timer.known (clock timed.state.tick) }, timed.state.tick + 1,
          timed.state.called ++ timed.state.timer.calls (clock timed.state.tick)⟩) := by
  have asked := @isTimedOut_eq clock _ timed.state.tick timed.state.called (quiet_of_meets meets) 0
  rw [call_isTimedOut]
  exact congrArg (Option.map fun answer => (some answer.1, answer.2)) asked

/-- What is known of a timer that is asked as it should be and was seen to be over. -/
theorem over_of_meets (invariant : timed.Invariant clock) (meets : timed.Meets clock .isTimedOut)
    (running : timed.state.timer.mRunning = true) (timedOut : timed.state.timer.mTimedOut = true) :
    timed.expiry.deadline ≤ clock timed.state.tick ∧
      (timed.expiry.seen = true ∨ timed.state.timer.mCallback = none) := by
  have known := meets running
  rw [if_pos timedOut] at known
  rcases known with seen | ⟨reached, none⟩
  · exact ⟨(invariant.seen seen).2, Or.inl seen⟩
  · exact ⟨invariant.deadline ▸ reached, Or.inr none⟩

theorem known_of_meets (invariant : timed.Invariant clock) (meets : timed.Meets clock .isTimedOut) :
    timed.state.timer.known (clock timed.state.tick) =
      decide (timed.expiry.Over (clock timed.state.tick)) :=
  known_iff invariant.runs invariant.deadline fun running timedOut =>
    (over_of_meets invariant meets running timedOut).1

theorem calls_of_meets (invariant : timed.Invariant clock) (meets : timed.Meets clock .isTimedOut) :
    timed.state.timer.calls (clock timed.state.tick) =
      timed.expiry.calls (clock timed.state.tick) :=
  calls_eq invariant.runs invariant.deadline invariant.func (fun seen => (invariant.seen seen).1)
    fun isOver timedOut => (over_of_meets invariant meets (invariant.runs ▸ isOver.1) timedOut).2

theorem good_of_meets (invariant : timed.Invariant clock) (meets : timed.Meets clock call) :
    timed.Good clock call := by
  cases call with
  | setTimedCallback func => exact ⟨1, none, _, rfl, rfl, (List.append_nil _).symm⟩
  | startTimer timerTime =>
      refine ⟨1, none, _, startTimer_of_meets meets, rfl, ?_⟩
      rw [Expiry.called, ← calls_started invariant meets]
  | stopTimer => exact ⟨1, none, _, rfl, rfl, (List.append_nil _).symm⟩
  | isTimedOut =>
      refine ⟨1, _, _, isTimedOut_of_meets meets, ?_, ?_⟩
      · rw [Expiry.answer, known_of_meets invariant meets]
      · rw [Expiry.called, ← calls_of_meets invariant meets]

theorem callback_of_calls {timer : TimeoutTimer} {expiry : Expiry} {now : Int}
    (timedOut : timer.mTimedOut = true) (isOver : expiry.Over now) (fresh : expiry.seen = false)
    (func : timer.mCallback = expiry.func) (same : timer.calls now = expiry.calls now) :
    timer.mCallback = none := by
  have nothing : timer.calls now = [] := if_neg (by simp [timedOut])
  rw [nothing, Expiry.calls_of_over isOver fresh, ← func] at same
  cases callback : timer.mCallback with
  | none => rfl
  | some _ => rw [callback] at same; cases same

theorem meets_of_good (monotone : Monotone clock) (invariant : timed.Invariant clock)
    (good : timed.Good clock call) : timed.Meets clock call := by
  obtain ⟨depth, answer, state, returns, answers, called⟩ := good
  cases call with
  | setTimedCallback func => trivial
  | startTimer timerTime =>
      intro reached
      rw [call_startTimer, Option.map_eq_some_iff] at returns
      obtain ⟨asked, returned, same⟩ := returns
      have quiet := quiet_of_isTimedOut monotone returned
      rw [isTimedOut_of_some monotone returned] at same
      obtain ⟨-, rfl⟩ := Prod.mk.inj same
      have calls := List.append_cancel_left called
      split
      · next timedOut =>
          have isOver : (timed.expiry.start (clock timed.state.tick) timerTime).Over
              (clock (timed.state.tick + 1)) :=
            ⟨rfl, deadline_start invariant timerTime ▸ reached⟩
          exact @callback_of_calls (timed.started clock timerTime) _ _ timedOut isOver rfl
            invariant.func calls
      · next fresh => exact quiet ⟨rfl, Bool.eq_false_iff.mpr fresh, reached⟩
  | stopTimer => trivial
  | isTimedOut =>
      intro running
      rw [call_isTimedOut, Option.map_eq_some_iff] at returns
      obtain ⟨asked, returned, same⟩ := returns
      have quiet := quiet_of_isTimedOut monotone returned
      rw [isTimedOut_of_some monotone returned] at same
      obtain ⟨rfl, rfl⟩ := Prod.mk.inj same
      have calls := List.append_cancel_left called
      split
      · next timedOut =>
          have known : timed.state.timer.known (clock timed.state.tick) = true := by
            rw [known, running, timedOut]
            rfl
          have isOver : timed.expiry.Over (clock timed.state.tick) := by
            rw [known] at answers
            exact of_decide_eq_true (Option.some.inj answers).symm
          cases seen : timed.expiry.seen with
          | true => exact Or.inl rfl
          | false =>
              exact Or.inr ⟨invariant.deadline.symm ▸ isOver.2,
                callback_of_calls timedOut isOver seen invariant.func calls⟩
      · next fresh => exact fun reached => quiet ⟨running, Bool.eq_false_iff.mpr fresh, reached⟩

theorem step_of_call {answer : Option Bool} {state : Clocked}
    (returns : TimeoutTimer.call clock 1 timed.state call = some (answer, state)) :
    timed.step clock call = ⟨state, timed.expiry.call clock timed.state.tick call⟩ := by
  rw [step, returns]

/-- A look at the clock keeps the flag of the timer ahead of what has been seen. -/
theorem seen_look {timer : TimeoutTimer} {expiry : Expiry} {now later : Int}
    (runs : timer.mRunning = expiry.runs) (deadline : timer.mEndTime = expiry.deadline)
    (before : expiry.seen = true → timer.mTimedOut = true ∧ expiry.deadline ≤ later)
    (elapsed : now ≤ later) (seen : (expiry.look now).seen = true) :
    (timer.mTimedOut || timer.known now) = true ∧ (expiry.look now).deadline ≤ later := by
  by_cases isOver : expiry.Over now
  · rw [Expiry.look_over isOver, known_of_over runs deadline isOver, Bool.or_true]
    exact ⟨rfl, isOver.2.trans elapsed⟩
  · rw [Expiry.look_not_over isOver] at seen ⊢
    rw [(before seen).1]
    exact ⟨rfl, (before seen).2⟩

theorem look_eq (expiry : Expiry) (now : Int) : (expiry.look now).runs = expiry.runs ∧
    (expiry.look now).duration = expiry.duration ∧
      (expiry.look now).deadline = expiry.deadline ∧ (expiry.look now).func = expiry.func := by
  rw [Expiry.look]
  split
  · exact ⟨rfl, rfl, rfl, rfl⟩
  · exact ⟨rfl, rfl, rfl, rfl⟩

/-- A call that goes as it should keeps the timer in agreement. -/
theorem step_invariant (monotone : Monotone clock) (invariant : timed.Invariant clock)
    (meets : timed.Meets clock call) : (timed.step clock call).Invariant clock := by
  have elapsed : clock timed.state.tick ≤ clock (timed.state.tick + 1) :=
    monotone (Nat.le_succ _)
  cases call with
  | setTimedCallback func =>
      rw [@step_of_call clock timed _ none _ rfl]
      exact ⟨invariant.runs, invariant.duration, invariant.deadline, rfl, fun seen =>
        ⟨(invariant.seen seen).1, (invariant.seen seen).2.trans elapsed⟩⟩
  | startTimer timerTime =>
      rw [step_of_call (startTimer_of_meets meets)]
      have deadline := deadline_start invariant timerTime
      obtain ⟨runs', duration', deadline', func'⟩ := look_eq
        (timed.expiry.start (clock timed.state.tick) timerTime) (clock (timed.state.tick + 1))
      refine ⟨runs'.symm, ?_, deadline.trans deadline'.symm, invariant.func.trans func'.symm, ?_⟩
      · refine Eq.trans ?_ duration'.symm
        exact congrArg timerTime.getD invariant.duration
      · exact seen_look rfl deadline nofun (monotone (Nat.le_succ _))
  | stopTimer =>
      rw [@step_of_call clock timed _ none _ rfl]
      exact ⟨rfl, invariant.duration, invariant.deadline, invariant.func, fun seen =>
        ⟨(invariant.seen seen).1, (invariant.seen seen).2.trans elapsed⟩⟩
  | isTimedOut =>
      rw [step_of_call (isTimedOut_of_meets meets)]
      obtain ⟨runs', duration', deadline', func'⟩ := look_eq timed.expiry (clock timed.state.tick)
      refine ⟨invariant.runs.trans runs'.symm, invariant.duration.trans duration'.symm,
        invariant.deadline.trans deadline'.symm, invariant.func.trans func'.symm, ?_⟩
      exact seen_look invariant.runs invariant.deadline (fun seen =>
        ⟨(invariant.seen seen).1, (invariant.seen seen).2.trans elapsed⟩) elapsed

theorem initial_invariant (clock : Nat → Int) : initial.Invariant clock :=
  ⟨rfl, rfl, rfl, rfl, nofun⟩

end Timed

open Timed in
/-- The calls of a new timer go as they should exactly when no timer that was seen to be over
is asked after another start, and no callback that is due asks the timer. -/
theorem expires_as_set_iff (clock : Nat → Int) (monotone : Monotone clock)
    (calls : List TimerCall) :
    Guarded (Good clock) (step clock) initial calls ↔
      Guarded (Meets clock) (step clock) initial calls := by
  refine (guarded_iff_of_invariant (fun _ _ invariant => ?_) (fun _ _ => step_invariant monotone)
    (initial_invariant clock) calls).symm
  exact ⟨good_of_meets invariant, meets_of_good monotone invariant⟩

namespace Timed

/-- A timer with a callback is asked until it is over, stopped, and started again without
the callback. -/
def askedUntilOver : List TimerCall :=
  [.setTimedCallback (some ⟨7, 0⟩), .startTimer (some 4), .isTimedOut, .isTimedOut, .isTimedOut,
    .isTimedOut, .stopTimer, .setTimedCallback none, .startTimer (some 0), .isTimedOut]

theorem expires_as_set_iff_askedUntilOver : Monotone (fun reading : Nat => (reading : Int)) ∧
    Guarded (Good fun reading => reading) (step fun reading => reading) initial askedUntilOver ∧
      (askedUntilOver.foldl (step fun reading => reading) initial).state.called = [7] := by
  have monotone : Monotone (fun reading : Nat => (reading : Int)) :=
    fun _ _ order => Int.ofNat_le.mpr order
  exact ⟨monotone, (expires_as_set_iff _ monotone _).mpr (by decide +kernel), by decide +kernel⟩

end Timed

open Timed in
/-- A timer that was over is over again as soon as it is restarted. -/
theorem restarted_timer_is_over : ¬ ∀ (clock : Nat → Int), Monotone clock →
    ∀ calls, Guarded (Good clock) (step clock) initial calls := by
  intro always
  have monotone : Monotone (fun reading : Nat => (reading : Int)) :=
    fun _ _ order => Int.ofNat_le.mpr order
  obtain ⟨depth, answer, state, returns, answers, -⟩ :=
    (always _ monotone [.startTimer (some 0), .startTimer (some 100), .isTimedOut]).2.2.1
  cases depth with
  | zero => cases returns
  | succ depth =>
      have isOver := congrArg (Option.map Prod.fst) returns
      rw [answers] at isOver
      cases isOver

end OpenMplane
