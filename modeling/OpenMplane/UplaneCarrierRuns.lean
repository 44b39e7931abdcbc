import Mathlib.Data.List.Nodup
import OpenMplane.UplaneCarrierTree

/-!
# Runs of the carrier handler

After its initialisation the handler receives validations, value changes and
callbacks of the hardware in any order.  In every state of a run in which each
of them is orderly, each carrier with a state has exactly one container in the
leaf tree that shows it, and that container reads its state.
-/

namespace OpenMplane

open GuardedRuns StatePrograms

namespace LeafContainer

variable {Func : Type}

/-- The text of a leaf of a container, with its functions called. -/
def leafText (read : Func → String) (leafName : String) : LeafContainer Func → Option String
  | .container _ contents => contents.findSome? fun content =>
      match content with
      | .leaf name value => if name = leafName then some value else none
      | .funcLeaf name func => if name = leafName then some (read func) else none
      | .container _ _ => none
  | _ => none

end LeafContainer

namespace OranUplaneConfHandler

section Mirror

/-- What the `state` function of a carrier returns. -/
def readState (state : UplaneState) (func : StateFunc) : String :=
  ((state.handler.mCarrierState.get func.direction)[func.carrierName]?).getD ""

/-- The container is one of the direction's carriers and shows the name. -/
def shows (state : UplaneState) (direction : Direction) (name : String)
    (container : LeafContainer StateFunc) : Bool :=
  container.name = carrierList direction ∧
    container.leafText (readState state) "name" = some name

/-- Every carrier with a state has exactly one container, which reads that
state, and the state is one of the texts. -/
def Mirrored (state : UplaneState) : Prop :=
  ∀ direction (name current : String),
    (state.handler.mCarrierState.get direction)[name]? = some current →
      (∃ container, state.handler.mCallback.filter (shows state direction name) = [container] ∧
        container.leafText (readState state) "state" = some current) ∧
      current ∈ stateTexts

theorem leafText_name (read : StateFunc → String) (direction : Direction) {name : String}
    (named : name ≠ "") (func : StateFunc) :
    (OranYangCarrierMgr.carrierContainer direction name func).leafText read "name" =
      some name := by
  simp [OranYangCarrierMgr.carrierContainer, LeafContainer.addLeaf, LeafContainer.addLeafFunc,
    LeafContainer.leafText, named]

theorem leafText_state (read : StateFunc → String) (direction : Direction) {name : String}
    (named : name ≠ "") (func : StateFunc) :
    (OranYangCarrierMgr.carrierContainer direction name func).leafText read "state" =
      some (read func) := by
  simp [OranYangCarrierMgr.carrierContainer, LeafContainer.addLeaf, LeafContainer.addLeafFunc,
    LeafContainer.leafText, named]

theorem Tracked.mirrored {state : UplaneState} (tracked : Tracked state) : Mirrored state := by
  obtain ⟨names, inStep⟩ := tracked
  intro direction name current held
  refine ⟨?_, inStep.proper direction name current held⟩
  have member : name ∈ names direction := by
    rw [inStep.known, Std.ExtTreeMap.mem_iff_isSome_getElem?]
    exact Option.isSome_iff_exists.mpr ⟨current, held⟩
  have named : ∀ entry ∈ names direction, entry ≠ "" := fun entry inside empty =>
    inStep.named direction (empty ▸ inside)
  have listed : state.handler.mCallback.filter (fun container =>
      container.name = carrierList direction) = (names direction).map fun entry =>
        OranYangCarrierMgr.carrierContainer direction entry ⟨direction, entry⟩ :=
    inStep.listed direction
  have only : (names direction).filter (fun entry => entry = name) = [name] := by
    rw [List.filter_eq, List.count_eq_one_of_mem (inStep.nodup direction) member]
    rfl
  have shown : state.handler.mCallback.filter (shows state direction name) =
      [OranYangCarrierMgr.carrierContainer direction name ⟨direction, name⟩] := by
    have split : shows state direction name = fun container =>
        decide (container.leafText (readState state) "name" = some name) &&
          decide (container.name = carrierList direction) := by
      funext container
      simp [shows, Bool.and_comm]
    have sameNames : (names direction).filter ((fun container : LeafContainer StateFunc =>
          decide (container.leafText (readState state) "name" = some name)) ∘
        fun entry => OranYangCarrierMgr.carrierContainer direction entry ⟨direction, entry⟩) =
        (names direction).filter fun entry => entry = name := by
      refine List.filter_congr fun entry inside => ?_
      simp only [Function.comp_apply, leafText_name _ direction (named entry inside),
        Option.some.injEq]
    rw [split, ← List.filter_filter, listed, List.filter_map, sameNames, only]
    rfl
  refine ⟨_, shown, ?_⟩
  rw [leafText_state _ direction (named name member), readState, held]
  rfl

end Mirror

/-- What the handler receives once it is initialised.  The hardware and the
datastore may answer differently each time. -/
inductive UplaneInput
  | validate (env : UplaneEnv) (params deletedParams : List YangParam)
  | valueChange (env : UplaneEnv) (xpath : String) (oldValue : Option YangParam)
      (newValue : YangParam)
  | carrierState (direction : Direction) (name : String) (newState : CarrierState)

namespace UplaneInput

/-- The state after an input, whether its processing returns or throws. -/
def step (state : UplaneState) : UplaneInput → UplaneState
  | .validate env params deletedParams =>
      finalState (OranUplaneConfHandler.validate env params deletedParams state)
  | .valueChange env xpath oldValue newValue =>
      finalState (OranUplaneConfHandler.valueChange env xpath oldValue newValue state)
  | .carrierState direction name newState =>
      finalState (stateCallback direction name newState state)

/-- The input creates no carrier without a name, and switches off no carrier
that the handler does not know. -/
def Orderly (state : UplaneState) : UplaneInput → Prop
  | .validate _ params _ => params.any activates = true →
      ∀ param ∈ gotThrough params, (Route.of param).Named
  | .valueChange _ _ _ newValue => (Route.of newValue).Orderly state
  | .carrierState _ name _ => name ≠ ""

instance (state : UplaneState) (input : UplaneInput) : Decidable (input.Orderly state) := by
  cases input <;> unfold Orderly <;> infer_instance

theorem tracked_step {state : UplaneState} {input : UplaneInput} (tracked : Tracked state)
    (orderly : input.Orderly state) : Tracked (step state input) := by
  cases input with
  | validate env params deletedParams =>
      exact tracked_validate env params deletedParams tracked orderly
  | valueChange env xpath oldValue newValue =>
      exact tracked_valueChange env xpath oldValue newValue tracked orderly
  | carrierState direction name newState =>
      exact tracked_stateCallback direction newState tracked orderly

end UplaneInput

section Runs

/-- The objects as they are constructed, over a leaf tree. -/
def constructedOver (tree : List (LeafContainer StateFunc)) : UplaneState :=
  { UplaneState.constructed with handler := ⟨tree, ⟨∅, ∅⟩⟩ }

/-- The handler after `initialise`. -/
def initialised (env : UplaneEnv) (tree : List (LeafContainer StateFunc)) : UplaneState :=
  finalState (initialise env (constructedOver tree))

theorem tracked_constructedOver {tree : List (LeafContainer StateFunc)}
    (free : ∀ container ∈ tree, ∀ direction, container.name ≠ carrierList direction) :
    Tracked (constructedOver tree) := by
  refine ⟨fun _ => [], ?_, ?_, fun _ => List.nodup_nil, ?_, fun _ => List.not_mem_nil, ?_⟩
  · intro direction
    cases direction <;> rfl
  · intro direction
    refine List.filter_eq_nil_iff.mpr fun container member => ?_
    simpa using free container member direction
  · intro direction name
    cases direction <;> simp [constructedOver, UplaneState.carriers, TxRx.get]
  · intro direction name current held
    cases direction <;> simp [constructedOver, UplaneState.carriers, TxRx.get] at held

/-- The carriers and the leaf tree mirror each other in every state of a run
whose inputs are all orderly. -/
theorem mirrored_of_guarded (env : UplaneEnv) (tree : List (LeafContainer StateFunc))
    (inputs reached : List UplaneInput)
    (free : ∀ container ∈ tree, ∀ direction, container.name ≠ carrierList direction)
    (named : ∀ direction, "" ∉ initialCarriers env direction)
    (orderly : Guarded (fun state input => input.Orderly state) UplaneInput.step
      (initialised env tree) inputs)
    (prior : reached <+: inputs) :
    Mirrored (reached.foldl UplaneInput.step (initialised env tree)) := by
  have starts : Tracked (initialised env tree) :=
    tracked_initialise env named _ (tracked_constructedOver free)
  have tracked := orderly.invariant_of_prefix
    (fun _ _ tracked orderly => UplaneInput.tracked_step tracked orderly) starts prior
  exact tracked.mirrored

/-- A carrier is created, becomes ready and is switched off. -/
def switchOff : List UplaneInput :=
  [.valueChange agreeable "" none (textLeaf "/rx-array-carriers[name='cc0']/name" "cc0"),
    .carrierState .rx "cc0" .READY,
    .valueChange agreeable "" none (textLeaf "/rx-array-carriers[name='cc0']/active" "INACTIVE")]

theorem mirrored_switchOff :
    Mirrored (switchOff.foldl UplaneInput.step (initialised agreeable [])) := by
  refine mirrored_of_guarded agreeable [] switchOff switchOff (by simp) ?_ ?_
    (List.prefix_refl _)
  · intro direction
    cases direction <;> decide +kernel
  · exact ⟨by decide +kernel, by decide +kernel, by decide +kernel, trivial⟩

/-- Switching off a carrier that the handler does not know gives it a state
that is none of the texts, and no container. -/
theorem unknown_carrier_not_mirrored :
    ¬ Mirrored (UplaneInput.step (initialised agreeable []) (.valueChange agreeable "" none
      (textLeaf "/rx-array-carriers[name='cc0']/active" "INACTIVE"))) := by
  intro mirrored
  have proper := (mirrored .rx "cc0" "" (by decide +kernel)).2
  exact absurd proper (by decide)

end Runs

end OranUplaneConfHandler

end OpenMplane
