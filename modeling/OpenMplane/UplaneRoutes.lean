import OpenMplane.OranUplaneConfHandler

/-!
# Where a changed leaf goes

Without a subscription path every leaf of an endpoint is handed to the eaxc
function, whatever container it stands in.  A leaf then has one of a few
routes, which its xpath, its leaf name and its value decide.  This file reads
`processValue` as such a route, says which leaves it refuses, and frames what
each route can touch.
-/

namespace OpenMplane

open StatePrograms

/-- A field of `e_axcid_t`. -/
inductive EaxcField
  | oDuPort
  | bandSector
  | ccid
  | ruPort
  | eaxcId
  deriving DecidableEq

namespace EaxcField

/-- The field that `handleEaxc` writes for a leaf. -/
def ofLeaf (leaf : String) : Option EaxcField :=
  if leaf = "o-du-port-bitmask" then some .oDuPort
  else if leaf = "band-sector-bitmask" then some .bandSector
  else if leaf = "ccid-bitmask" then some .ccid
  else if leaf = "ru-port-bitmask" then some .ruPort
  else if leaf = "eaxc-id" then some .eaxcId
  else none

def store : EaxcField → EAxcid → Int → EAxcid
  | .oDuPort, eaxc, value => { eaxc with o_du_port_bitmask := castUInt16 value }
  | .bandSector, eaxc, value => { eaxc with band_sector_bitmask := castUInt16 value }
  | .ccid, eaxc, value => { eaxc with ccid_bitmask := castUInt16 value }
  | .ruPort, eaxc, value => { eaxc with ru_port_bitmask := castUInt16 value }
  | .eaxcId, eaxc, value => { eaxc with eaxc_id := castUInt16 value }

end EaxcField

/-- What `processValue` does with a leaf when the subscription has no path. -/
inductive Route
  | refused
  | link (direction : Direction) (name endpoint carrierName : String)
  | carrier (direction : Direction) (name : String)
  | active (direction : Direction) (name value : String)
  | endpoint (direction : Direction) (name leaf value : String)
  | idle
  deriving DecidableEq

namespace Route

def ofLink (direction : Direction) (endpointLeaf carrierLeaf index leaf value : String) :
    Route :=
  let endpoint := if leaf = endpointLeaf then value else ""
  let carrierName := if leaf = carrierLeaf then value else ""
  if endpoint = "" ∧ carrierName = "" then .refused
  else .link direction index endpoint carrierName

def ofCarrier (direction : Direction) (index leaf value : String) : Route :=
  if leaf = "name" then .carrier direction value
  else if leaf = "active" then .active direction index value
  else .idle

/-- The route of a parameter. -/
def of (param : YangParam) : Route :=
  let held := listIndex param.name
  let leaf := leafName param.name
  let value := YangParamUtils.toString param
  if held.listName = "low-level-rx-links" then
    ofLink .rx "low-level-rx-endpoint" "rx-array-carrier" held.value leaf value
  else if held.listName = "low-level-tx-links" then
    ofLink .tx "low-level-tx-endpoint" "tx-array-carrier" held.value leaf value
  else if held.listName = "rx-array-carriers" then ofCarrier .rx held.value leaf value
  else if held.listName = "tx-array-carriers" then ofCarrier .tx held.value leaf value
  else if held.listName = "low-level-rx-endpoints" then .endpoint .rx held.value leaf value
  else if held.listName = "low-level-tx-endpoints" then .endpoint .tx held.value leaf value
  else .idle

theorem ofLink_cases (direction : Direction) (endpointLeaf carrierLeaf index leaf value : String) :
    ofLink direction endpointLeaf carrierLeaf index leaf value = .refused ∨
      ∃ endpointName carrierName, ofLink direction endpointLeaf carrierLeaf index leaf value =
        .link direction index endpointName carrierName := by
  unfold ofLink
  dsimp only
  generalize (if leaf = endpointLeaf then value else "") = endpointName
  generalize (if leaf = carrierLeaf then value else "") = carrierName
  split
  · exact Or.inl rfl
  · exact Or.inr ⟨_, _, rfl⟩

theorem ofCarrier_cases (direction : Direction) (index leaf value : String) :
    leaf = "name" ∧ ofCarrier direction index leaf value = .carrier direction value ∨
      leaf = "active" ∧ ofCarrier direction index leaf value = .active direction index value ∨
      ofCarrier direction index leaf value = .idle := by
  unfold ofCarrier
  split_ifs with name active
  · exact Or.inl ⟨name, rfl⟩
  · exact Or.inr (Or.inl ⟨active, rfl⟩)
  · exact Or.inr (Or.inr rfl)

/-- Which list a leaf stands in decides its route. -/
theorem of_cases (param : YangParam) :
    (∃ direction endpointLeaf carrierLeaf, Route.of param = ofLink direction endpointLeaf
        carrierLeaf (listIndex param.name).value (leafName param.name)
        (YangParamUtils.toString param)) ∨
      (∃ direction, Route.of param = ofCarrier direction (listIndex param.name).value
        (leafName param.name) (YangParamUtils.toString param)) ∨
      (∃ direction, Route.of param = .endpoint direction (listIndex param.name).value
        (leafName param.name) (YangParamUtils.toString param)) ∨
      Route.of param = .idle := by
  unfold Route.of
  dsimp only
  split_ifs
  · exact Or.inl ⟨_, _, _, rfl⟩
  · exact Or.inl ⟨_, _, _, rfl⟩
  · exact Or.inr (Or.inl ⟨_, rfl⟩)
  · exact Or.inr (Or.inl ⟨_, rfl⟩)
  · exact Or.inr (Or.inr (Or.inl ⟨_, rfl⟩))
  · exact Or.inr (Or.inr (Or.inl ⟨_, rfl⟩))
  · exact Or.inr (Or.inr (Or.inr rfl))

theorem of_eq_active {param : YangParam} {direction : Direction} {name value : String}
    (active : Route.of param = .active direction name value) :
    leafName param.name = "active" ∧ name = (listIndex param.name).value ∧
      value = YangParamUtils.toString param := by
  rcases of_cases param with ⟨d, a, b, route⟩ | ⟨d, route⟩ | ⟨d, route⟩ | route
  · rcases ofLink_cases d a b (listIndex param.name).value (leafName param.name)
      (YangParamUtils.toString param) with refused | ⟨_, _, link⟩
    · rw [active, refused] at route
      contradiction
    · rw [active, link] at route
      contradiction
  · rcases ofCarrier_cases d (listIndex param.name).value (leafName param.name)
      (YangParamUtils.toString param) with ⟨-, other⟩ | ⟨leaf, same⟩ | other
    · rw [active, other] at route
      contradiction
    · rw [active, same, Route.active.injEq] at route
      exact ⟨leaf, route.2⟩
    · rw [active, other] at route
      contradiction
  · rw [active] at route
    contradiction
  · rw [active] at route
    contradiction

theorem of_eq_endpoint {param : YangParam} {direction : Direction} {name leaf value : String}
    (endpoint : Route.of param = .endpoint direction name leaf value) :
    name = (listIndex param.name).value ∧ leaf = leafName param.name ∧
      value = YangParamUtils.toString param := by
  rcases of_cases param with ⟨d, a, b, route⟩ | ⟨d, route⟩ | ⟨d, route⟩ | route
  · rcases ofLink_cases d a b (listIndex param.name).value (leafName param.name)
      (YangParamUtils.toString param) with refused | ⟨_, _, link⟩
    · rw [endpoint, refused] at route
      contradiction
    · rw [endpoint, link] at route
      contradiction
  · rcases ofCarrier_cases d (listIndex param.name).value (leafName param.name)
      (YangParamUtils.toString param) with ⟨-, other⟩ | ⟨-, other⟩ | other
    all_goals
      rw [endpoint, other] at route
      contradiction
  · rw [endpoint, Route.endpoint.injEq] at route
    exact route.2
  · rw [endpoint] at route
    contradiction

end Route

namespace OranUplaneConfHandler

variable (env : UplaneEnv)

/-- The carrier function of a direction. -/
def addCarrier (direction : Direction) : String → UplaneM Unit :=
  updateCarrier direction (OranYangCarrierMgr.updateCarrier direction)

/-- The write of one eaxc field, handed to the hardware. -/
def updateEaxcField (direction : Direction) (name : String) (field : EaxcField)
    (value : String) : UplaneM Unit := do
  let eaxc ← focus (UplaneState.mEndpointEaxcs.comp (TxRx.one direction)) <|
    updateRecord name EAxcid.zero (storeNonempty value field.store)
  let _ ← callHal env (.updateEaxc direction name eaxc)

theorem storeNonempty_empty {ρ : Type} (store : ρ → Int → ρ) :
    storeNonempty "" store = pure () := if_pos rfl

theorem handleEaxc_eq (name leaf value : String) (direction : Direction) :
    handleEaxc env name leaf value direction =
      match EaxcField.ofLeaf leaf with
      | none => pure ()
      | some field => updateEaxcField env direction name field value := by
  unfold handleEaxc eaxcArguments EaxcField.ofLeaf
  cases direction <;> split_ifs <;>
    simp only [OranYangCarrierMgr.updateRxEndpointEaxc, OranYangCarrierMgr.updateTxEndpointEaxc,
      OranYangCarrierMgr.updateEndpointEaxc, EAxcid.update, storeNonempty_empty, pure_bind,
      bind_pure_unit, updateEaxcField] <;> rfl

def perform (param : YangParam) : Route → UplaneM SrError
  | .refused => return .invalArg
  | .link direction name endpoint carrierName => do
      OranYangCarrierMgr.updateLink direction name endpoint carrierName
      return .ok
  | .carrier direction name => do
      addCarrier direction name
      return .ok
  | .active direction name value => do
      if value = "INACTIVE" then
        let current ← carrierStateAt direction name
        if current = "DISABLED" then return .ok
      activate env direction name "active" value .VALUE_APPLY
  | .endpoint direction name leaf value => do
      emit (.handed param.name (.handleEaxc name leaf value direction))
      handleEaxc env name leaf value direction
      return .ok
  | .idle => return .ok

theorem processLink_eq (direction : Direction) (param : YangParam)
    (endpointLeaf carrierLeaf index leaf value : String) :
    processLink endpointLeaf carrierLeaf (OranYangCarrierMgr.updateLink direction) index leaf
      value =
      perform env param (Route.ofLink direction endpointLeaf carrierLeaf index leaf value) := by
  unfold processLink Route.ofLink
  dsimp only
  generalize (if leaf = endpointLeaf then value else "") = endpoint
  generalize (if leaf = carrierLeaf then value else "") = carrierName
  by_cases both : endpoint = "" ∧ carrierName = ""
  · rw [if_pos both, if_pos both]
    rfl
  · rw [if_neg both, if_neg both]
    rfl

theorem processCarrier_eq (direction : Direction) (param : YangParam) (leaf value : String)
    (listed : (listIndex param.name).listName = direction.txrx ++ "-array-carriers") :
    processCarrier env direction (addCarrier direction) param (listIndex param.name).value leaf
      value =
      perform env param (Route.ofCarrier direction (listIndex param.name).value leaf value) := by
  have activated : ∀ phase, handleActivate env param leaf value phase =
      activate env direction (listIndex param.name).value leaf value phase := by
    intro phase
    unfold handleActivate
    cases direction with
    | rx => rw [if_pos (by simpa [Direction.txrx] using listed)]
    | tx =>
        have notRx : (listIndex param.name).listName ≠ "rx-array-carriers" := by
          rw [listed]
          decide
        rw [if_neg notRx, if_pos (by simpa [Direction.txrx] using listed)]
  unfold processCarrier Route.ofCarrier
  by_cases name : leaf = "name"
  · simp [name, perform]
  · by_cases active : leaf = "active"
    · subst active
      simp only [name, ↓reduceIte, perform, activated, ne_eq, not_true_eq_false]
    · simp [name, active, perform]

/-- With a subscription path outside of `compression`, a leaf takes its route. -/
theorem processValue_eq_perform (param : YangParam) {xpath : String}
    (outside : inCompression xpath = false) :
    processValue env param (leafName param.name) (YangParamUtils.toString param) xpath =
      perform env param (Route.of param) := by
  unfold processValue Route.of
  dsimp only
  split
  · exact processLink_eq env .rx param ..
  split
  · exact processLink_eq env .tx param ..
  split
  · next listed => exact processCarrier_eq env .rx param _ _ listed
  split
  · next listed => exact processCarrier_eq env .tx param _ _ listed
  split
  · next listed =>
      have notTx : (listIndex param.name).listName ≠ "low-level-tx-endpoints" := by
        rw [listed]
        decide
      simp [processEndpoint, outside, perform, notTx]
  · split
    · next listed => simp [processEndpoint, outside, perform, listed]
    · next listed => simp [perform, listed]

end OranUplaneConfHandler

section Records

variable {ρ : Type}

/-- The record after a text was stored, or was empty, or could not be
converted. -/
def storedRecord (text : String) (store : ρ → Int → ρ) (record : ρ) : ρ :=
  if text = "" then record
  else match stoi text with
    | .ok value => store record value
    | .error _ => record

/-- A text that a field takes: empty or a number. -/
def Readable (text : String) : Prop :=
  text = "" ∨ ∃ value, stoi text = .ok value

instance (text : String) : Decidable (Readable text) :=
  if empty : text = "" then isTrue (Or.inl empty)
  else match read : stoi text with
    | .ok value => isTrue (Or.inr ⟨value, read⟩)
    | .error exception => isFalse (by
        rintro (same | ⟨value, other⟩)
        · exact empty same
        · rw [read] at other
          contradiction)

theorem storeNonempty_of_readable {text : String} (store : ρ → Int → ρ) (record : ρ)
    (readable : Readable text) :
    storeNonempty text store record = .ok () (storedRecord text store record) := by
  by_cases empty : text = ""
  · simp [storeNonempty, storedRecord, empty]
  · obtain ⟨value, read⟩ := readable.resolve_left empty
    simp [storeNonempty, storeField, storedRecord, empty, read, stoiM, bind_apply]

theorem storeNonempty_of_not_readable {text : String} (store : ρ → Int → ρ) (record : ρ)
    (unreadable : ¬ Readable text) :
    ∃ exception, storeNonempty text store record =
      .error exception (storedRecord text store record) := by
  have nonempty : text ≠ "" := fun empty => unreadable (Or.inl empty)
  cases read : stoi text with
  | ok value => exact absurd (Or.inr ⟨value, read⟩) unreadable
  | error exception =>
      refine ⟨exception, ?_⟩
      simp [storeNonempty, storeField, storedRecord, nonempty, read, stoiM, bind_apply]

end Records

namespace UplaneState

/-- Everything but the trace. -/
def conf (state : UplaneState) : OranUplaneConfHandler × OranYangCarrierMgr :=
  (state.handler, state.carrierMgr)

def withTrace (state : UplaneState) (effects : List Effect) : UplaneState :=
  { state with trace := state.trace ++ effects }

@[simp] theorem withTrace_conf (state : UplaneState) (effects : List Effect) :
    (state.withTrace effects).conf = state.conf := rfl

theorem withTrace_withTrace (state : UplaneState) (first second : List Effect) :
    (state.withTrace first).withTrace second = state.withTrace (first ++ second) := by
  simp [withTrace]

@[simp] theorem withTrace_trace (state : UplaneState) (effects : List Effect) :
    (state.withTrace effects).trace = state.trace ++ effects := rfl

end UplaneState

namespace Route

/-- The configuration after a route. -/
def apply (state : UplaneState) : Route → UplaneState
  | .link direction name endpointName carrierName =>
      let links := UplaneState.mLinks.comp (TxRx.one direction)
      links.put state
        (OranYangCarrierMgr.linkMap (links.get state) name endpointName carrierName)
  | .carrier direction name =>
      let states := UplaneState.mCarrierState.comp (TxRx.one direction)
      if name ∈ states.get state then state
      else
        let state := states.put state ((states.get state).insert name "DISABLED")
        if name ∈ state.carrierMgr.mCarriers.get direction then state
        else UplaneState.mCallback.put state (UplaneState.mCallback.get state ++
          [OranYangCarrierMgr.carrierContainer direction name ⟨direction, name⟩])
  | .active direction name value =>
      let states := UplaneState.mCarrierState.comp (TxRx.one direction)
      if value = "INACTIVE" ∧ name ∉ states.get state then
        states.put state ((states.get state).insert name "")
      else state
  | .endpoint direction name leaf value =>
      let eaxcs := UplaneState.mEndpointEaxcs.comp (TxRx.one direction)
      match EaxcField.ofLeaf leaf with
      | none => state
      | some field => eaxcs.put state ((eaxcs.get state).insert name
          (storedRecord value field.store ((eaxcs.get state).getD name EAxcid.zero)))
  | .refused | .idle => state

/-- Whether `processValue` refuses a leaf of the route, by its result or by an
exception. -/
def Refuses : Route → Prop
  | .refused => True
  | .endpoint _ _ leaf value => EaxcField.ofLeaf leaf ≠ none ∧ ¬ Readable value
  | _ => False

instance : ∀ route : Route, Decidable route.Refuses
  | .refused => isTrue trivial
  | .endpoint _ _ leaf value =>
      inferInstanceAs (Decidable (EaxcField.ofLeaf leaf ≠ none ∧ ¬ Readable value))
  | .link .. | .carrier .. | .active .. | .idle => isFalse id

end Route

namespace OranUplaneConfHandler

variable (env : UplaneEnv) (param : YangParam)

theorem emit_apply (effect : Effect) (state : UplaneState) :
    emit effect state = .ok () (state.withTrace [effect]) := rfl

theorem callHal_apply (call : HalCall) (state : UplaneState) :
    callHal env call state =
      .ok (env.hal state.trace call)
        (state.withTrace [.hal call (env.hal state.trace call)]) := rfl

theorem perform_link (direction : Direction) (name endpoint carrierName : String)
    (state : UplaneState) :
    perform env param (.link direction name endpoint carrierName) state =
      .ok .ok (Route.apply state (.link direction name endpoint carrierName)) := rfl

theorem focus_modify_apply {τ : Type} (member : Member UplaneState τ) (update : τ → τ)
    (state : UplaneState) :
    (focus member (modify update) : UplaneM PUnit) state =
      .ok PUnit.unit (member.put state (update (member.get state))) := rfl

theorem addCarrier_apply (direction : Direction) (name : String) (state : UplaneState) :
    addCarrier direction name state = .ok () (Route.apply state (.carrier direction name)) := by
  unfold addCarrier updateCarrier Route.apply
  by_cases known : name ∈ (UplaneState.mCarrierState.comp (TxRx.one direction)).get state
  · have here : name ∈ state.handler.mCarrierState.get direction := known
    simp only [bind_apply, get_apply, if_pos here, if_pos known, pure_apply]
  · have here : name ∉ state.handler.mCarrierState.get direction := known
    simp only [bind_apply, get_apply, if_neg here, if_neg known, focus_modify_apply,
      OranYangCarrierMgr.updateCarrier]
    split
    · rfl
    · rfl

theorem perform_carrier (direction : Direction) (name : String) (state : UplaneState) :
    perform env param (.carrier direction name) state =
      .ok .ok (Route.apply state (.carrier direction name)) := by
  rw [perform, bind_ok (addCarrier_apply direction name state), pure_apply]

theorem updateRecord_of_ok {ρ : Type} (key : String) (created : ρ) (map : StdMap ρ)
    {record : ρ} {program : EStateM StdException ρ Unit}
    (returned : program (map.getD key created) = .ok () record) :
    updateRecord key created program map = .ok record (map.insert key record) := by
  rw [updateRecord, returned]

theorem updateRecord_of_error {ρ : Type} (key : String) (created : ρ) (map : StdMap ρ)
    {record : ρ} {exception : StdException} {program : EStateM StdException ρ Unit}
    (thrown : program (map.getD key created) = .error exception record) :
    updateRecord key created program map = .error exception (map.insert key record) := by
  rw [updateRecord, thrown]

/-- The record that an eaxc leaf leaves behind and hands to the hardware. -/
def eaxcRecord (state : UplaneState) (direction : Direction) (name : String)
    (field : EaxcField) (value : String) : EAxcid :=
  storedRecord value field.store
    (((UplaneState.mEndpointEaxcs.comp (TxRx.one direction)).get state).getD name EAxcid.zero)

theorem updateEaxcField_of_readable (direction : Direction) (name : String)
    (field : EaxcField) {value : String} (readable : Readable value) (state : UplaneState) :
    let eaxcs := UplaneState.mEndpointEaxcs.comp (TxRx.one direction)
    let record := eaxcRecord state direction name field value
    ∃ result, updateEaxcField env direction name field value state =
      .ok () ((eaxcs.put state ((eaxcs.get state).insert name record)).withTrace
        [.hal (.updateEaxc direction name record) result]) := by
  have stored := updateRecord_of_ok name EAxcid.zero
    ((UplaneState.mEndpointEaxcs.comp (TxRx.one direction)).get state)
    (storeNonempty_of_readable field.store _ readable)
  dsimp only
  refine ⟨env.hal state.trace (.updateEaxc direction name
    (eaxcRecord state direction name field value)), ?_⟩
  rw [updateEaxcField, bind_ok (focus_ok _ stored)]
  rfl

theorem updateEaxcField_of_not_readable (direction : Direction) (name : String)
    (field : EaxcField) {value : String} (unreadable : ¬ Readable value)
    (state : UplaneState) :
    let eaxcs := UplaneState.mEndpointEaxcs.comp (TxRx.one direction)
    let record := eaxcRecord state direction name field value
    ∃ exception, updateEaxcField env direction name field value state =
      .error exception (eaxcs.put state ((eaxcs.get state).insert name record)) := by
  obtain ⟨exception, thrown⟩ := storeNonempty_of_not_readable field.store
    (((UplaneState.mEndpointEaxcs.comp (TxRx.one direction)).get state).getD name EAxcid.zero)
    unreadable
  refine ⟨exception, ?_⟩
  rw [updateEaxcField, bind_error (focus_error _ (updateRecord_of_error name EAxcid.zero _ thrown))]
  rfl

/-- The effects of an endpoint leaf: it is handed to the eaxc function, which
may update the hardware. -/
inductive EndpointEffects (param : YangParam) (direction : Direction)
    (name leaf value : String) : List Effect → Prop
  | handed : EndpointEffects param direction name leaf value
      [.handed param.name (.handleEaxc name leaf value direction)]
  | updated (eaxc : EAxcid) (result : Int) : EndpointEffects param direction name leaf value
      [.handed param.name (.handleEaxc name leaf value direction),
        .hal (.updateEaxc direction name eaxc) result]

/-- An endpoint leaf that is no eaxc leaf, or whose value is readable. -/
theorem perform_endpoint_of_accepted {direction : Direction} {name leaf value : String}
    (accepted : ¬ (Route.endpoint direction name leaf value).Refuses) (state : UplaneState) :
    ∃ effects, EndpointEffects param direction name leaf value effects ∧
      perform env param (.endpoint direction name leaf value) state = .ok .ok
        ((Route.apply state (.endpoint direction name leaf value)).withTrace effects) := by
  rw [perform, bind_ok (emit_apply _ state), handleEaxc_eq]
  cases written : EaxcField.ofLeaf leaf with
  | none =>
      refine ⟨_, .handed, ?_⟩
      simp [Route.apply, written, bind_apply]
  | some field =>
      have readable : Readable value := by
        by_contra unreadable
        exact accepted ⟨by simp [written], unreadable⟩
      obtain ⟨result, updated⟩ := updateEaxcField_of_readable env direction name field
        readable (state.withTrace [.handed param.name (.handleEaxc name leaf value direction)])
      refine ⟨_, .updated (eaxcRecord state direction name field value) result, ?_⟩
      dsimp only at updated ⊢
      rw [bind_ok updated, pure_apply]
      have joined := UplaneState.withTrace_withTrace
        (Route.apply state (.endpoint direction name leaf value))
        [.handed param.name (.handleEaxc name leaf value direction)]
        [.hal (.updateEaxc direction name (eaxcRecord state direction name field value)) result]
      simp only [Route.apply, written, List.cons_append, List.nil_append] at joined ⊢
      rw [← joined]
      rfl

/-- An eaxc leaf whose value cannot be converted. -/
theorem perform_endpoint_of_refuses {direction : Direction} {name leaf value : String}
    (refuses : (Route.endpoint direction name leaf value).Refuses) (state : UplaneState) :
    ∃ exception, perform env param (.endpoint direction name leaf value) state =
      .error exception ((Route.apply state (.endpoint direction name leaf value)).withTrace
        [.handed param.name (.handleEaxc name leaf value direction)]) := by
  rw [perform, bind_ok (emit_apply _ state), handleEaxc_eq]
  cases written : EaxcField.ofLeaf leaf with
  | none => exact absurd written refuses.1
  | some field =>
      obtain ⟨exception, thrown⟩ := updateEaxcField_of_not_readable env direction name
        field refuses.2
        (state.withTrace [.handed param.name (.handleEaxc name leaf value direction)])
      refine ⟨exception, ?_⟩
      dsimp only at thrown ⊢
      rw [bind_error thrown]
      simp only [Route.apply, written]
      rfl

/-- An `active` leaf, when the carrier need not be left alone: one hardware
call with the datastore's values. -/
theorem activate_apply (direction : Direction) (name value : String) (phase : ValuePhase)
    (state : UplaneState) :
    let call := stateChange env direction name value phase
    let result := env.hal state.trace call
    activate env direction name "active" value phase state =
      .ok (if result ≠ 0 then .invalArg else .ok)
        (state.withTrace [.hal call result]) := by
  dsimp only
  unfold activate
  rw [if_neg (by simp), bind_ok (callHal_apply env _ state)]
  split_ifs <;> rfl

theorem carrierStateAt_apply (direction : Direction) (name : String) (state : UplaneState) :
    carrierStateAt direction name state =
      .ok (((state.handler.mCarrierState.get direction)[name]?).getD "")
        (Route.apply state (.active direction name "INACTIVE")) := by
  unfold carrierStateAt Route.apply
  rw [bind_ok (get_apply state)]
  cases found : (state.handler.mCarrierState.get direction)[name]? with
  | some current =>
      have known : name ∈ (UplaneState.mCarrierState.comp (TxRx.one direction)).get state :=
        Std.ExtTreeMap.mem_iff_isSome_getElem?.mpr (by
          rw [show (UplaneState.mCarrierState.comp (TxRx.one direction)).get state =
            state.handler.mCarrierState.get direction from rfl, found]
          rfl)
      simp [known]
  | none =>
      have unknown : name ∉ (UplaneState.mCarrierState.comp (TxRx.one direction)).get state := by
        intro known
        have isSome := Std.ExtTreeMap.mem_iff_isSome_getElem?.mp known
        rw [show (UplaneState.mCarrierState.comp (TxRx.one direction)).get state =
          state.handler.mCarrierState.get direction from rfl, found] at isSome
        contradiction
      simp only [unknown, not_false_eq_true, and_self, ↓reduceIte]
      rfl

/-- An `active` leaf with another value than INACTIVE makes one hardware call. -/
theorem perform_active_of_ne (direction : Direction) (name : String) {value : String}
    (activeValue : value ≠ "INACTIVE") (state : UplaneState) :
    let call := stateChange env direction name value .VALUE_APPLY
    let result := env.hal state.trace call
    perform env param (.active direction name value) state =
      .ok (if result ≠ 0 then .invalArg else .ok) (state.withTrace [.hal call result]) := by
  dsimp only
  rw [perform, if_neg activeValue]
  exact activate_apply env direction name value .VALUE_APPLY state

/-- An `active` leaf changes the configuration as its route says, and makes at
most one hardware call. -/
theorem perform_active (direction : Direction) (name value : String) (state : UplaneState) :
    ∃ rc effects,
      perform env param (.active direction name value) state = .ok rc
        ((Route.apply state (.active direction name value)).withTrace effects) ∧
      (effects = [] ∨ ∃ result,
        effects = [.hal (stateChange env direction name value .VALUE_APPLY) result]) := by
  by_cases inactive : value = "INACTIVE"
  · subst inactive
    by_cases disabled : ((state.handler.mCarrierState.get direction)[name]?).getD "" = "DISABLED"
    · refine ⟨.ok, [], ?_, Or.inl rfl⟩
      simp only [perform, ↓reduceIte]
      rw [bind_ok (carrierStateAt_apply direction name state), if_pos disabled, pure_apply]
      simp [UplaneState.withTrace]
    · have run : perform env param (.active direction name "INACTIVE") state =
          activate env direction name "active" "INACTIVE" .VALUE_APPLY
            (Route.apply state (.active direction name "INACTIVE")) := by
        simp only [perform, ↓reduceIte]
        rw [bind_ok (carrierStateAt_apply direction name state), if_neg disabled]
      rw [run]
      exact ⟨_, _, activate_apply env direction name "INACTIVE" .VALUE_APPLY _, Or.inr ⟨_, rfl⟩⟩
  · have kept : Route.apply state (.active direction name value) = state := by
      simp [Route.apply, inactive]
    rw [kept]
    exact ⟨_, _, perform_active_of_ne env param direction name inactive state, Or.inr ⟨_, rfl⟩⟩

end OranUplaneConfHandler

end OpenMplane
