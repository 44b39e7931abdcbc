import OpenMplane.GuardedRuns
import OpenMplane.UplaneTwice

/-!
# Carriers and the leaf tree

The handler keeps a state for every carrier, and the carrier manager adds a
container for it to the leaf tree, once, when the carrier is new.  This file
follows both through validations, value changes and the callbacks of the
hardware.  They stay in step as long as no carrier has an empty name and no
`active` leaf switches off a carrier that the handler does not know.
-/

namespace OpenMplane

open GuardedRuns StatePrograms

/-- What the tree of carriers depends on. -/
def UplaneState.carriers (state : UplaneState) : OranUplaneConfHandler × TxRx (List String) :=
  (state.handler, state.carrierMgr.mCarriers)

namespace OranUplaneConfHandler

section Frames

variable (env : UplaneEnv)

theorem within_emit (effect : Effect) : Within (Same UplaneState.carriers) (emit effect) :=
  fun _ => rfl

theorem within_callHal (call : HalCall) :
    Within (Same UplaneState.carriers) (callHal env call) :=
  fun _ => rfl

/-- An update of a record of the carrier manager that is handed to the hardware. -/
theorem within_recordUpdate {ρ τ : Type} {member : Member UplaneState τ}
    (keeps : ∀ state part, (member.put state part).carriers = state.carriers)
    (program : EStateM StdException τ ρ) (call : ρ → HalCall) :
    Within (Same UplaneState.carriers) (do
      let record ← focus member program
      let _ ← callHal env (call record)) :=
  Within.bind (Within.focus keeps) fun record =>
    Within.bind (within_callHal env (call record)) fun _ => Within.pure _

theorem within_handleEaxc (endpointName leaf value : String) (direction : Direction) :
    Within (Same UplaneState.carriers) (handleEaxc env endpointName leaf value direction) := by
  unfold handleEaxc
  split
  · exact Within.pure _
  · exact within_recordUpdate env (fun _ _ => rfl) _ _
  · exact within_recordUpdate env (fun _ _ => rfl) _ _

theorem within_handleDynCompConfig (endpointName id leaf value : String)
    (direction : Direction) :
    Within (Same UplaneState.carriers)
      (handleDynCompConfig env endpointName id leaf value direction) := by
  unfold handleDynCompConfig
  split
  · exact Within.pure _
  · exact within_recordUpdate env (fun _ _ => rfl) _ _
  · exact within_recordUpdate env (fun _ _ => rfl) _ _

theorem within_handleCompression (endpointName leaf value : String) (direction : Direction) :
    Within (Same UplaneState.carriers)
      (handleCompression env endpointName leaf value direction) := by
  unfold handleCompression
  split
  · exact Within.pure _
  · exact within_recordUpdate env (fun _ _ => rfl) _ _
  · exact within_recordUpdate env (fun _ _ => rfl) _ _

theorem within_processEndpoint (direction : Direction) (param : YangParam) (held : ListIndex)
    (leaf value xpath : String) :
    Within (Same UplaneState.carriers)
      (processEndpoint env direction param held leaf value xpath) := by
  unfold processEndpoint
  refine Within.ite (fun _ => ?_) fun _ => Within.ite (fun _ => ?_) fun _ => ?_
  · exact Within.bind (within_emit _) fun _ =>
      Within.bind (within_handleEaxc env _ _ _ _) fun _ => Within.pure _
  · exact Within.bind (within_emit _) fun _ =>
      Within.bind (within_handleDynCompConfig env _ _ _ _ _) fun _ => Within.pure _
  · exact Within.bind (within_emit _) fun _ =>
      Within.bind (within_handleCompression env _ _ _ _) fun _ => Within.pure _

/-- Outside the lists of endpoints the subscription path is not looked at. -/
theorem processValue_of_other {param : YangParam}
    (notRx : (listIndex param.name).listName ≠ "low-level-rx-endpoints")
    (notTx : (listIndex param.name).listName ≠ "low-level-tx-endpoints")
    (leaf value xpath : String) :
    processValue env param leaf value xpath = processValue env param leaf value "" := by
  unfold processValue
  simp only [notRx, ↓reduceIte, pure_bind, notTx]

theorem within_processValue_of_rxEndpoint {param : YangParam}
    (listed : (listIndex param.name).listName = "low-level-rx-endpoints")
    (leaf value xpath : String) :
    Within (Same UplaneState.carriers) (processValue env param leaf value xpath) := by
  unfold processValue
  simp only [listed, String.reduceEq, ↓reduceIte]
  refine Within.bind (within_processEndpoint env _ _ _ _ _ _) fun held => ?_
  refine Within.ite (fun _ => ?_) fun _ => ?_
  · exact Within.bind (within_processEndpoint env _ _ _ _ _ _) fun _ => Within.pure _
  · exact Within.bind (Within.pure _) fun _ => Within.pure _

theorem within_processValue_of_txEndpoint {param : YangParam}
    (listed : (listIndex param.name).listName = "low-level-tx-endpoints")
    (leaf value xpath : String) :
    Within (Same UplaneState.carriers) (processValue env param leaf value xpath) := by
  unfold processValue
  simp only [listed, String.reduceEq, ↓reduceIte, pure_bind]
  exact Within.bind (within_processEndpoint env _ _ _ _ _ _) fun _ => Within.pure _

theorem finalState_processLeaf_conf (param : YangParam) (state : UplaneState) :
    (finalState (processLeaf env param state)).conf =
      (Route.apply state (Route.of param)).conf := by
  by_cases throws : (Route.of param).Throws
  · obtain ⟨_, _, _, _, _, -, run⟩ := processLeaf_of_throws env throws state
    rw [run, finalState_error, UplaneState.withTrace_conf]
  · obtain ⟨_, _, -, run⟩ := processLeaf_of_not_throws env throws state
    rw [run, finalState_ok, UplaneState.withTrace_conf]

theorem carriers_of_conf {first second : UplaneState} (same : first.conf = second.conf) :
    first.carriers = second.carriers := by
  have handler := congrArg Prod.fst same
  have carrierMgr := congrArg Prod.snd same
  simp only [UplaneState.conf] at handler carrierMgr
  rw [UplaneState.carriers, UplaneState.carriers, handler, carrierMgr]

/-- A value change moves the carriers as the route of its leaf says, whatever
the subscription path. -/
theorem valueChange_carriers (xpath : String) (old : Option YangParam) (param : YangParam)
    (state : UplaneState) :
    (finalState (valueChange env xpath old param state)).carriers =
      (Route.apply state (Route.of param)).carriers := by
  have dropped : (finalState (valueChange env xpath old param state)) =
      finalState (processValue env param (leafName param.name) (YangParamUtils.toString param)
        xpath state) := by
    unfold valueChange
    rw [bind_apply]
    cases processValue env param (leafName param.name) (YangParamUtils.toString param) xpath
      state <;> rfl
  have endpointKeeps : ∀ direction name leaf value,
      Route.of param = .endpoint direction name leaf value →
      (Route.apply state (Route.of param)).carriers = state.carriers := by
    intro direction name leaf value route
    rw [route, UplaneState.carriers, Route.apply_other_states rfl (by simp),
      (Route.apply_const state _).1]
    rfl
  rw [dropped]
  by_cases rx : (listIndex param.name).listName = "low-level-rx-endpoints"
  · have route : Route.of param = .endpoint .rx (listIndex param.name).value
        (leafName param.name) (YangParamUtils.toString param) := by
      simp [Route.of, rx]
    rw [endpointKeeps _ _ _ _ route]
    exact within_processValue_of_rxEndpoint env rx _ _ _ state
  · by_cases tx : (listIndex param.name).listName = "low-level-tx-endpoints"
    · have route : Route.of param = .endpoint .tx (listIndex param.name).value
          (leafName param.name) (YangParamUtils.toString param) := by
        simp [Route.of, tx]
      rw [endpointKeeps _ _ _ _ route]
      exact within_processValue_of_txEndpoint env tx _ _ _ state
    · rw [processValue_of_other env rx tx]
      exact carriers_of_conf (finalState_processLeaf_conf env param state)

end Frames

section Tree

/-- The name of the containers of the carriers. -/
def carrierList (direction : Direction) : String :=
  direction.txrx ++ "-array-carriers"

/-- The texts of a carrier state. -/
def stateTexts : List String := ["DISABLED", "BUSY", "READY"]

theorem stateText_mem (carrierState : CarrierState) : stateText carrierState ∈ stateTexts := by
  cases carrierState <;> decide

/-- The containers of carriers are those of the names, which are the carriers
that have a state; every state is one of the texts. -/
structure InStep (names : Direction → List String)
    (carriers : OranUplaneConfHandler × TxRx (List String)) : Prop where
  unmanaged : ∀ direction, carriers.2.get direction = []
  listed : ∀ direction,
    carriers.1.mCallback.filter (fun container => container.name = carrierList direction) =
      (names direction).map fun name =>
        OranYangCarrierMgr.carrierContainer direction name ⟨direction, name⟩
  nodup : ∀ direction, (names direction).Nodup
  known : ∀ direction name,
    name ∈ names direction ↔ name ∈ carriers.1.mCarrierState.get direction
  named : ∀ direction, "" ∉ names direction
  proper : ∀ direction (name current : String),
    (carriers.1.mCarrierState.get direction)[name]? = some current → current ∈ stateTexts

/-- The tree and the states of the carriers are in step. -/
def Tracked (state : UplaneState) : Prop :=
  ∃ names, InStep names state.carriers

theorem Tracked.of_carriers {state other : UplaneState} (tracked : Tracked state)
    (same : other.carriers = state.carriers) : Tracked other := by
  rw [Tracked, same]
  exact tracked

theorem name_carrierContainer (direction : Direction) (name : String) (func : StateFunc) :
    (OranYangCarrierMgr.carrierContainer direction name func).name = carrierList direction :=
  rfl

theorem carrierList_injective : Function.Injective carrierList := by
  intro first second
  cases first <;> cases second <;> simp [carrierList, Direction.txrx]

/-- A new carrier gets its container and its state. -/
theorem Tracked.carrier {state : UplaneState} (tracked : Tracked state) (direction : Direction)
    {name : String} (named : name ≠ "") :
    Tracked (Route.apply state (.carrier direction name)) := by
  obtain ⟨names, inStep⟩ := tracked
  by_cases known : name ∈ state.handler.mCarrierState.get direction
  · have same : Route.apply state (.carrier direction name) = state := if_pos known
    rw [same]
    exact ⟨names, inStep⟩
  · have unmanaged : name ∉ state.carrierMgr.mCarriers.get direction := by
      rw [show state.carrierMgr.mCarriers.get direction = [] from inStep.unmanaged direction]
      exact List.not_mem_nil
    have states := Route.apply_carrier_states state direction name
    have tree := Route.apply_carrier_tree state direction name
    rw [if_neg known] at states
    rw [if_neg (not_or.mpr ⟨known, unmanaged⟩)] at tree
    refine ⟨fun other => if direction = other then names other ++ [name] else names other,
      ?_, ?_, ?_, ?_, ?_, ?_⟩
    · intro other
      simpa only [UplaneState.carriers, (Route.apply_const state _).1] using
        inStep.unmanaged other
    · intro other
      have listed := inStep.listed other
      simp only [UplaneState.carriers, tree, List.filter_append] at listed ⊢
      rw [listed]
      by_cases same : direction = other
      · subst same
        simp [name_carrierContainer]
      · have apart : carrierList direction ≠ carrierList other := fun equal =>
          same (carrierList_injective equal)
        simp [name_carrierContainer, same, apart]
    · intro other
      split
      · next same =>
          subst same
          have fresh : ∀ entry ∈ names direction, entry ≠ name := fun entry member equal =>
            known (equal ▸ (inStep.known direction entry).mp member)
          simpa [List.nodup_append] using ⟨inStep.nodup direction, fresh⟩
      · exact inStep.nodup other
    · intro other key
      have before := inStep.known other key
      simp only [UplaneState.carriers, states, TxRx.mem_insert] at before ⊢
      by_cases same : direction = other
      · simp [same, before, eq_comm, or_comm]
      · simp [same, before]
    · intro other
      split
      · simpa using ⟨inStep.named other, named⟩
      · exact inStep.named other
    · intro other key current held
      change TxRx.look _ (other, key) = some current at held
      rw [UplaneState.carriers, states, TxRx.look_insert] at held
      split at held
      · rw [← Option.some.inj held]
        decide
      · exact inStep.proper _ _ _ held

/-- A known carrier may change between the texts. -/
theorem Tracked.setState {state : UplaneState} (tracked : Tracked state) {direction : Direction}
    {name text : String} (known : name ∈ state.handler.mCarrierState.get direction)
    (proper : text ∈ stateTexts) :
    let states := UplaneState.mCarrierState.comp (TxRx.one direction)
    Tracked (states.put state ((states.get state).insert name text)) := by
  obtain ⟨names, inStep⟩ := tracked
  refine ⟨names, inStep.unmanaged, inStep.listed, inStep.nodup, ?_, inStep.named, ?_⟩
  · intro other key
    rw [inStep.known other key]
    change _ ↔ key ∈ TxRx.get (state.handler.mCarrierState.set direction
      ((state.handler.mCarrierState.get direction).insert name text)) other
    rw [TxRx.mem_insert]
    constructor
    · exact Or.inr
    · rintro (⟨rfl, rfl⟩ | member)
      · exact known
      · exact member
  · intro other key current held
    change TxRx.look (state.handler.mCarrierState.set direction
      ((state.handler.mCarrierState.get direction).insert name text)) (other, key) =
        some current at held
    rw [TxRx.look_insert] at held
    split at held
    · rw [← Option.some.inj held]
      exact proper
    · exact inStep.proper _ _ _ held

end Tree

end OranUplaneConfHandler

namespace Route

/-- A route that creates no carrier without a name. -/
def Named : Route → Prop
  | .carrier _ name => name ≠ ""
  | _ => True

instance : ∀ route : Route, Decidable route.Named
  | .carrier _ name => inferInstanceAs (Decidable (name ≠ ""))
  | .refused | .link .. | .active .. | .endpoint .. | .idle => isTrue trivial

/-- A route that also switches off known carriers only. -/
def Orderly (state : UplaneState) : Route → Prop
  | .carrier _ name => name ≠ ""
  | .active direction name value =>
      value = "INACTIVE" → name ∈ state.handler.mCarrierState.get direction
  | _ => True

instance (state : UplaneState) : ∀ route : Route, Decidable (route.Orderly state)
  | .carrier _ name => inferInstanceAs (Decidable (name ≠ ""))
  | .active direction name value =>
      inferInstanceAs (Decidable (value = "INACTIVE" →
        name ∈ state.handler.mCarrierState.get direction))
  | .refused | .link .. | .endpoint .. | .idle => isTrue trivial

end Route

namespace OranUplaneConfHandler

section Steps

theorem Tracked.apply {state : UplaneState} (tracked : Tracked state) {route : Route}
    (orderly : route.Orderly state) : Tracked (Route.apply state route) := by
  cases route with
  | carrier direction name => exact tracked.carrier direction orderly
  | active direction name value =>
      have same : Route.apply state (.active direction name value) = state := by
        rw [Route.apply]
        exact if_neg fun both => both.2 (orderly both.1)
      rw [same]
      exact tracked
  | refused | link | endpoint | idle =>
      refine tracked.of_carriers ?_
      rw [UplaneState.carriers, Route.apply_other_states rfl (by simp),
        (Route.apply_const state _).1]
      rfl

theorem Tracked.applied {params : List YangParam}
    (named : ∀ param ∈ params, (Route.of param).Named) {state : UplaneState}
    (tracked : Tracked state) : Tracked (applied state params) := by
  induction params generalizing state with
  | nil => exact tracked
  | cons param params ih =>
      have rest : ∀ state, Tracked state → Tracked (OranUplaneConfHandler.applied state params) :=
        fun state => ih fun other member => named other (by simp [member])
      simp only [OranUplaneConfHandler.applied, List.foldl_cons] at rest ⊢
      by_cases active : isActive param = true
      · simpa only [active, ↓reduceIte] using rest state tracked
      · simp only [active, Bool.false_eq_true, ↓reduceIte]
        refine rest _ (tracked.apply ?_)
        have namedHere := named param (by simp)
        cases route : Route.of param with
        | carrier direction name =>
            rw [route] at namedHere
            exact namedHere
        | active direction name value =>
            exact absurd (Route.isActive_of_route route).1 active
        | refused | link | endpoint | idle => trivial

/-- The leaves that the first loop of validation gets through. -/
def gotThrough (params : List YangParam) : List YangParam :=
  params.takeWhile fun param => Accepted param

theorem tracked_validate (env : UplaneEnv) (params deletedParams : List YangParam)
    {state : UplaneState} (tracked : Tracked state)
    (named : params.any activates = true →
      ∀ param ∈ gotThrough params, (Route.of param).Named) :
    Tracked (finalState (validate env params deletedParams state)) := by
  by_cases active : params.any activates = true
  · rcases accepted_or_split params with all | ⟨earlier, param, later, rfl, accepted, inactive,
      refuses⟩
    · obtain ⟨rc, first, second, run, -⟩ :=
        validate_of_accepted env active all deletedParams state
      have through : gotThrough params = params :=
        List.takeWhile_eq_self_iff.mpr fun param member => decide_eq_true (all param member)
      rw [run, finalState_ok]
      rw [through] at named
      exact (tracked.applied (named active)).of_carriers rfl
    · obtain ⟨effects, -, final⟩ := finalState_validate_of_refuses env later active accepted
        inactive refuses deletedParams state
      rw [final]
      refine (tracked.applied ?_).of_carriers rfl
      intro other member
      rcases List.mem_append.mp member with before | last
      · refine named active other ?_
        rw [gotThrough, List.takeWhile_append_of_pos fun entry inside =>
          decide_eq_true (accepted entry inside)]
        exact List.mem_append_left _ before
      · obtain rfl := List.mem_singleton.mp last
        cases route : Route.of other with
        | carrier direction name =>
            rw [route] at refuses
            exact refuses.elim
        | refused | link | active | endpoint | idle => trivial
  · rw [validate_of_inactive env (eq_false_of_ne_true active), finalState_ok]
    exact tracked

theorem tracked_valueChange (env : UplaneEnv) (xpath : String) (old : Option YangParam)
    (param : YangParam) {state : UplaneState} (tracked : Tracked state)
    (orderly : (Route.of param).Orderly state) :
    Tracked (finalState (valueChange env xpath old param state)) :=
  (tracked.apply orderly).of_carriers (valueChange_carriers env xpath old param state)

def stateCallback : Direction → String → CarrierState → UplaneM Unit
  | .rx => rxCarrierStateCallback
  | .tx => txCarrierStateCallback

theorem stateCallback_eq (direction : Direction) :
    stateCallback direction = carrierStateCallback direction (addCarrier direction) := by
  cases direction <;> rfl

theorem within_carrierChangeNotification (direction : Direction)
    (name currentState newState : String) :
    Within (Same UplaneState.carriers)
      (carrierChangeNotification direction name currentState newState) :=
  Within.ite (fun _ => Within.pure _) fun _ => within_emit _

/-- The state of a carrier once it is set. -/
def withCarrierState (state : UplaneState) (direction : Direction) (name newState : String) :
    UplaneState :=
  (UplaneState.mCarrierState.comp (TxRx.one direction)).put state
    ((state.handler.mCarrierState.get direction).insert name newState)

/-- A callback adds the carrier, stores its new state and notifies. -/
theorem stateCallback_run (direction : Direction) (name : String) (carrierState : CarrierState)
    (state : UplaneState) :
    stateCallback direction name carrierState state =
      carrierChangeNotification direction name
        (((Route.apply state (.carrier direction name)).handler.mCarrierState.look
          (direction, name)).getD "") (stateText carrierState)
        (withCarrierState (Route.apply state (.carrier direction name)) direction name
          (stateText carrierState)) := by
  have known : name ∈ (Route.apply state (.carrier direction name)).handler.mCarrierState.get
      direction := Route.mem_apply.mpr (Or.inr (by simp [Route.creates]))
  have kept : Route.apply (Route.apply state (.carrier direction name))
      (.active direction name "INACTIVE") = Route.apply state (.carrier direction name) :=
    if_neg fun both => both.2 known
  rw [stateCallback_eq, carrierStateCallback, bind_ok (addCarrier_apply direction name state),
    bind_ok (carrierStateAt_apply direction name _), kept, bind_ok (focus_modify_apply _ _ _)]
  rfl

theorem tracked_stateCallback (direction : Direction) {name : String}
    (carrierState : CarrierState) {state : UplaneState} (tracked : Tracked state)
    (named : name ≠ "") :
    Tracked (finalState (stateCallback direction name carrierState state)) := by
  have added := tracked.carrier direction named
  have known : name ∈ (Route.apply state (.carrier direction name)).handler.mCarrierState.get
      direction := Route.mem_apply.mpr (Or.inr (by simp [Route.creates]))
  have written := added.setState known (stateText_mem carrierState)
  rw [stateCallback_run]
  exact written.of_carriers (within_carrierChangeNotification direction name _ _ _)

/-- The loop of `initialise` over the links of a direction. -/
theorem within_initialiseLinks (env : UplaneEnv) (txrx endpointLeaf carrierLeaf : String)
    (direction : Direction) :
    Within (Same UplaneState.carriers) (initialiseLinks env txrx endpointLeaf carrierLeaf
      (OranYangCarrierMgr.updateLink direction)) := by
  have update : ∀ name endpoint carrierName, Within (Same UplaneState.carriers)
      (OranYangCarrierMgr.updateLink direction name endpoint carrierName) :=
    fun _ _ _ => Within.focus fun _ _ => rfl
  refine Within.forM fun entry _ => Within.forM fun value _ => ?_
  exact Within.ite (fun _ => update _ _ _) fun _ =>
    Within.ite (fun _ => update _ _ _) fun _ => Within.pure _

/-- The carriers that the datastore has for a direction when the handler is
initialised. -/
def initialCarriers (env : UplaneEnv) (direction : Direction) : StdMap (StdMap String) :=
  SysrepoUtils.getKeyValues (RadioDatastoreSysrepo.getItems env.session) (callbackPath ++ "/" ++ direction.txrx ++
    "-array-carriers//.")

theorem within_initialiseCarriers (env : UplaneEnv) (direction : Direction)
    (named : "" ∉ initialCarriers env direction) :
    Within (Keeps Tracked) (initialiseCarriers env direction.txrx (addCarrier direction)) := by
  refine Within.forM fun entry member state tracked => ?_
  have listed := Std.ExtTreeMap.mem_toList_iff_getElem?_eq_some.mp member
  have nonempty : entry.1 ≠ "" := by
    intro empty
    rw [empty] at listed
    exact named (Std.ExtTreeMap.mem_iff_isSome_getElem?.mpr (by
      rw [initialCarriers, listed]
      rfl))
  rw [addCarrier_apply, finalState_ok]
  exact tracked.carrier direction nonempty

theorem tracked_initialise (env : UplaneEnv) (named : ∀ direction,
    "" ∉ initialCarriers env direction) : Within (Keeps Tracked) (initialise env) := by
  have links : ∀ txrx endpointLeaf carrierLeaf direction, Within (Keeps Tracked)
      (initialiseLinks env txrx endpointLeaf carrierLeaf
        (OranYangCarrierMgr.updateLink direction)) := fun txrx endpointLeaf carrierLeaf direction =>
    (within_initialiseLinks env txrx endpointLeaf carrierLeaf direction).mono
      fun _ _ same tracked => tracked.of_carriers same
  exact Within.bind (links _ _ _ .tx) fun _ => Within.bind (links _ _ _ .rx) fun _ =>
    Within.bind (within_initialiseCarriers env .tx (named .tx)) fun _ =>
      within_initialiseCarriers env .rx (named .rx)

end Steps

end OranUplaneConfHandler

end OpenMplane
