import OpenMplane.ChangeReports
import OpenMplane.UplaneCarrierRuns

/-!
# Notifications of carrier states

The hardware calls back whenever the state of a carrier may have changed, and
the carriers themselves are added at any time in between.  This file shows that
the notifications of one carrier and direction are the changes of its stored
state, in order, and that no other carrier has a part in them.
-/

namespace OpenMplane

open ChangeReports StatePrograms

namespace OranUplaneConfHandler

section Inputs

/-- What the handler receives here: a callback of the hardware, or a carrier to
add. -/
inductive CarrierInput
  | stateCallback (direction : Direction) (name : String) (carrierState : CarrierState)
  | updateCarrier (direction : Direction) (name : String)

namespace CarrierInput

def place : CarrierInput → Direction × String
  | .stateCallback direction name _ | .updateCarrier direction name => (direction, name)

/-- The text of the state that a callback tells of a carrier. -/
def told (place : Direction × String) : CarrierInput → Option String
  | .stateCallback direction name carrierState =>
      if (direction, name) = place then some (stateText carrierState) else none
  | .updateCarrier .. => none

def step (state : UplaneState) : CarrierInput → UplaneState
  | .stateCallback direction name carrierState =>
      finalState (OranUplaneConfHandler.stateCallback direction name carrierState state)
  | .updateCarrier direction name => finalState (addCarrier direction name state)

end CarrierInput

/-- The stored state of a carrier; a carrier starts as DISABLED. -/
def storedState (place : Direction × String) (state : UplaneState) : String :=
  (state.handler.mCarrierState.look place).getD "DISABLED"

/-- The state that a notification of a carrier tells. -/
def notifiedState (place : Direction × String) (effect : Effect) : Option String :=
  match effect with
  | .notification _ [_, ⟨_, .string newState⟩] =>
      if effect = stateNotification place.1 place.2 newState then some newState else none
  | _ => none

/-- The states that the notifications of a carrier tell, in order. -/
def sentStates (place : Direction × String) (state : UplaneState) : List String :=
  state.trace.filterMap (notifiedState place)

end Inputs

section Step

theorem stateNotification_injective {direction other : Direction} {name otherName text
    otherText : String}
    (same : stateNotification direction name text = stateNotification other otherName otherText) :
    (direction, name) = (other, otherName) := by
  unfold stateNotification at same
  simp only [Effect.notification.injEq, List.cons.injEq, YangParam.mk.injEq,
    YangData.string.injEq] at same
  obtain ⟨path, ⟨-, rfl⟩, -⟩ := same
  cases direction <;> cases other
  · rfl
  · exact absurd path (by decide)
  · exact absurd path (by decide)
  · rfl

theorem notifiedState_stateNotification (place : Direction × String) (direction : Direction)
    (name text : String) :
    notifiedState place (stateNotification direction name text) =
      if (direction, name) = place then some text else none := by
  by_cases here : (direction, name) = place
  · subst here
    simp [notifiedState, stateNotification]
  · have apart : stateNotification direction name text ≠
        stateNotification place.1 place.2 text := fun same =>
      here (stateNotification_injective same)
    rw [if_neg here]
    exact if_neg apart

theorem look_addCarrier (direction : Direction) (name : String) (state : UplaneState)
    (place : Direction × String) :
    (Route.apply state (.carrier direction name)).handler.mCarrierState.look place =
      (state.handler.mCarrierState.look place).or
        (if (direction, name) = place then some "DISABLED" else none) :=
  Route.look_apply state _ place

theorem storedState_addCarrier (direction : Direction) (name : String) (state : UplaneState)
    (place : Direction × String) :
    storedState place (Route.apply state (.carrier direction name)) = storedState place state := by
  rw [storedState, storedState, look_addCarrier]
  cases state.handler.mCarrierState.look place with
  | some current => rfl
  | none => split <;> rfl

/-- What a callback does: the new state is stored, and notified if it differs. -/
theorem stateCallback_apply (direction : Direction) (name : String)
    (carrierState : CarrierState) (state : UplaneState) :
    ∃ after, stateCallback direction name carrierState state = .ok () after ∧
      (∀ place, after.handler.mCarrierState.look place =
        if (direction, name) = place then some (stateText carrierState)
        else state.handler.mCarrierState.look place) ∧
      after.trace = state.trace ++
        if stateText carrierState = storedState (direction, name) state then []
        else [stateNotification direction name (stateText carrierState)] := by
  have current : ((Route.apply state (.carrier direction name)).handler.mCarrierState.look
      (direction, name)).getD "" = storedState (direction, name) state := by
    rw [look_addCarrier, if_pos rfl, storedState]
    cases state.handler.mCarrierState.look (direction, name) <;> rfl
  have trace : (withCarrierState (Route.apply state (.carrier direction name)) direction name
      (stateText carrierState)).trace = state.trace :=
    Route.apply_trace state (.carrier direction name)
  have written : ∀ place, (withCarrierState (Route.apply state (.carrier direction name))
      direction name (stateText carrierState)).handler.mCarrierState.look place =
        if (direction, name) = place then some (stateText carrierState)
        else state.handler.mCarrierState.look place := by
    intro place
    have inserted := TxRx.look_insert
      (Route.apply state (.carrier direction name)).handler.mCarrierState direction name
      (stateText carrierState) place
    refine inserted.trans ?_
    by_cases here : (direction, name) = place
    · rw [if_pos here, if_pos here]
    · rw [if_neg here, if_neg here, look_addCarrier, if_neg here, Option.or_none]
  rw [stateCallback_run, current, carrierChangeNotification]
  by_cases same : stateText carrierState = storedState (direction, name) state
  · rw [if_pos same, if_pos same]
    exact ⟨_, rfl, written, by rw [trace, List.append_nil]⟩
  · rw [if_neg same, if_neg same]
    exact ⟨_, rfl, written, by simp [trace]⟩

/-- An input changes the state of its own carrier only, and the effects it adds
are notifications of that carrier. -/
theorem step_effects (state : UplaneState) (input : CarrierInput) :
    ∃ effects, (CarrierInput.step state input).trace = state.trace ++ effects ∧
      ∀ effect ∈ effects, ∃ text, effect = stateNotification input.place.1 input.place.2 text := by
  cases input with
  | stateCallback direction name carrierState =>
      obtain ⟨after, run, -, trace⟩ := stateCallback_apply direction name carrierState state
      refine ⟨_, by rw [CarrierInput.step, run, finalState_ok, trace], fun effect member => ?_⟩
      split at member
      · simp at member
      · exact ⟨_, List.mem_singleton.mp member⟩
  | updateCarrier direction name =>
      refine ⟨[], ?_, by simp⟩
      rw [CarrierInput.step, addCarrier_apply, finalState_ok, Route.apply_trace, List.append_nil]

/-- A callback stores the state it tells, and nothing else is stored. -/
theorem step_stores (place : Direction × String) (state : UplaneState) (input : CarrierInput) :
    storedState place (input.step state) =
      (input.told place).getD (storedState place state) := by
  cases input with
  | stateCallback direction name carrierState =>
      obtain ⟨after, run, stored, -⟩ := stateCallback_apply direction name carrierState state
      rw [CarrierInput.step, run, finalState_ok, storedState, stored, CarrierInput.told]
      split <;> rfl
  | updateCarrier direction name =>
      rw [CarrierInput.step, addCarrier_apply, finalState_ok, storedState_addCarrier]
      rfl

/-- What an input sends for a carrier is the state it leaves, if that is new. -/
theorem step_reports (place : Direction × String) (state : UplaneState) (input : CarrierInput) :
    Reports (storedState place) (sentStates place) state (CarrierInput.step state input) := by
  unfold Reports
  cases input with
  | stateCallback direction name carrierState =>
      obtain ⟨after, run, -, trace⟩ := stateCallback_apply direction name carrierState state
      have held := step_stores place state (.stateCallback direction name carrierState)
      rw [CarrierInput.step, run, finalState_ok] at held ⊢
      rw [sentStates, sentStates, trace, List.filterMap_append, held]
      by_cases here : (direction, name) = place
      · subst here
        by_cases same : stateText carrierState = storedState (direction, name) state
        · simp [CarrierInput.told, same]
        · simp [CarrierInput.told, same, Ne.symm same, notifiedState_stateNotification]
      · have quiet : ∀ text, notifiedState place (stateNotification direction name text) = none :=
          fun text => by rw [notifiedState_stateNotification, if_neg here]
        rw [CarrierInput.told, if_neg here, Option.getD_none, if_neg (not_not.mpr rfl)]
        split
        · rfl
        · rw [List.filterMap_cons_none (quiet _), List.filterMap_nil]
  | updateCarrier direction name =>
      rw [CarrierInput.step, addCarrier_apply, finalState_ok, storedState_addCarrier, sentStates,
        sentStates, Route.apply_trace]
      simp

end Step

section Runs

/-- No carrier has left the state it starts in, and nothing has been sent. -/
def Fresh (state : UplaneState) : Prop :=
  state.trace = [] ∧
    ∀ place current, state.handler.mCarrierState.look place = some current → current = "DISABLED"

theorem fresh_initialised (env : UplaneEnv) (tree : List (LeafContainer StateFunc)) :
    Fresh (initialised env tree) := by
  have links : ∀ txrx endpointLeaf carrierLeaf direction, Within (Keeps Fresh)
      (initialiseLinks env txrx endpointLeaf carrierLeaf
        (OranYangCarrierMgr.updateLink direction)) := by
    intro txrx endpointLeaf carrierLeaf direction
    have update : ∀ name endpoint carrierName, Within (Keeps Fresh)
        (OranYangCarrierMgr.updateLink direction name endpoint carrierName) :=
      fun _ _ _ => Within.focus fun _ _ fresh => fresh
    refine Within.forM fun entry _ => Within.forM fun value _ => ?_
    exact Within.ite (fun _ => update _ _ _) fun _ =>
      Within.ite (fun _ => update _ _ _) fun _ => Within.pure _
  have carriers : ∀ direction, Within (Keeps Fresh)
      (initialiseCarriers env direction.txrx (addCarrier direction)) := by
    intro direction
    refine Within.forM fun entry _ state fresh => ?_
    rw [addCarrier_apply, finalState_ok]
    refine ⟨(Route.apply_trace state _).trans fresh.1, fun place current held => ?_⟩
    rw [look_addCarrier, Option.or_eq_some_iff] at held
    rcases held with before | ⟨-, added⟩
    · exact fresh.2 place current before
    · split at added
      · exact (Option.some.inj added).symm
      · contradiction
  have all : Within (Keeps Fresh) (initialise env) :=
    Within.bind (links _ _ _ .tx) fun _ => Within.bind (links _ _ _ .rx) fun _ =>
      Within.bind (carriers .tx) fun _ => carriers .rx
  refine all (constructedOver tree) ⟨rfl, fun place current held => ?_⟩
  obtain ⟨direction, name⟩ := place
  cases direction <;> simp [constructedOver, TxRx.look, TxRx.get] at held

/-- The notifications of a carrier are the changes of its state. -/
theorem sentStates_are_changes (env : UplaneEnv) (tree : List (LeafContainer StateFunc))
    (inputs : List CarrierInput) (place : Direction × String) :
    let start := initialised env tree
    let final := inputs.foldl CarrierInput.step start
    "DISABLED" :: sentStates place final =
        (history (storedState place) CarrierInput.step start inputs).destutter' (· ≠ ·)
          "DISABLED" ∧
      ("DISABLED" :: sentStates place final).IsChain (· ≠ ·) ∧
      (∀ current, final.handler.mCarrierState.look place = some current →
        ("DISABLED" :: sentStates place final).getLast? = some current) ∧
      ∀ before input,
        storedState place ((before ++ [input]).foldl CarrierInput.step start) =
            (input.told place).getD
              (storedState place (before.foldl CarrierInput.step start)) ∧
        ∃ effects, ((before ++ [input]).foldl CarrierInput.step start).trace =
            (before.foldl CarrierInput.step start).trace ++ effects ∧
          ∀ effect ∈ effects, ∃ text,
            effect = stateNotification input.place.1 input.place.2 text ∧
            (notifiedState place effect ≠ none → place = input.place) := by
  intro start final
  have fresh := fresh_initialised env tree
  have stored : storedState place start = "DISABLED" := by
    rw [storedState]
    cases held : start.handler.mCarrierState.look place with
    | none => rfl
    | some current => exact fresh.2 place current held
  have nothing : sentStates place start = [] := by
    rw [sentStates, fresh.1]
    rfl
  have changes : "DISABLED" :: sentStates place final =
      (history (storedState place) CarrierInput.step start inputs).destutter' (· ≠ ·)
        "DISABLED" := by
    have logged := log_foldl (step_reports place) start inputs
    rw [nothing, List.nil_append, stored] at logged
    rw [logged, ← destutter'_eq_cons_tail]
  refine ⟨changes, changes ▸ List.isChain_destutter' _ _ _, fun current held => ?_, ?_⟩
  · have last := getLast?_history (storedState place) CarrierInput.step start inputs
    rw [changes, getLast?_destutter', ← stored, last, storedState, held]
    rfl
  · intro before input
    refine ⟨by rw [List.foldl_append]; exact step_stores place _ input, ?_⟩
    obtain ⟨effects, trace, own⟩ := step_effects (before.foldl CarrierInput.step start) input
    refine ⟨effects, by rw [List.foldl_append]; exact trace, fun effect member => ?_⟩
    obtain ⟨text, rfl⟩ := own effect member
    refine ⟨text, rfl, fun sent => ?_⟩
    rw [notifiedState_stateNotification] at sent
    by_contra apart
    exact sent (if_neg fun same => apart same.symm)

end Runs

end OranUplaneConfHandler

end OpenMplane
