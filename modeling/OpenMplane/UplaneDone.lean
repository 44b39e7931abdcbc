import OpenMplane.SysrepoReaders
import OpenMplane.UplaneValidate

/-!
# The DONE phase of a transaction

In the DONE phase every leaf goes through `valueChange`, which drops what
`processValue` returns.  A leaf that is refused is passed over; only an eaxc
leaf whose value cannot be converted ends the phase.  The carrier that a leaf
activates is read from the datastore once more, so the values validated and the
values applied agree when the datastore has not changed them.
-/

namespace OpenMplane

open StatePrograms

/-- A leaf whose processing throws. -/
def Route.Throws : Route → Prop
  | .endpoint _ _ leaf value => EaxcField.ofLeaf leaf ≠ none ∧ ¬ Readable value
  | _ => False

instance : ∀ route : Route, Decidable route.Throws
  | .endpoint _ _ leaf value =>
      inferInstanceAs (Decidable (EaxcField.ofLeaf leaf ≠ none ∧ ¬ Readable value))
  | .refused | .link .. | .carrier .. | .active .. | .idle => isFalse id

theorem Route.refuses_of_throws {route : Route} (throws : route.Throws) : route.Refuses := by
  cases route with
  | endpoint direction name leaf value => exact throws
  | refused | link | carrier | active | idle => exact throws.elim

namespace OranUplaneConfHandler

variable (env : UplaneEnv)

/-- The changes of a transaction, each with its old and its new value. -/
abbrev ValueChanges := List (Option YangParam × YangParam)

/-- The DONE phase: each change goes through `valueChange`. -/
def donePhase (changes : ValueChanges) : UplaneM Unit :=
  forM changes fun change => valueChange env "" change.1 change.2

/-- The configuration after all leaves. -/
def appliedAll (state : UplaneState) (params : List YangParam) : UplaneState :=
  params.foldl (fun state param => Route.apply state (Route.of param)) state

theorem appliedAll_withTrace (state : UplaneState) (effects : List Effect)
    (params : List YangParam) :
    appliedAll (state.withTrace effects) params =
      (appliedAll state params).withTrace effects := by
  induction params generalizing state with
  | nil => rfl
  | cons param params ih =>
      simp only [appliedAll, List.foldl_cons, Route.apply_withTrace] at ih ⊢
      rw [ih]

theorem appliedAll_trace (state : UplaneState) (params : List YangParam) :
    (appliedAll state params).trace = state.trace := by
  induction params generalizing state with
  | nil => rfl
  | cons param params ih =>
      simp only [appliedAll, List.foldl_cons] at ih ⊢
      rw [ih, Route.apply_trace]

/-- The effects of one leaf in the DONE phase. -/
inductive LeafEffects (env : UplaneEnv) (param : YangParam) : List Effect → Prop
  | none (quiet : ∀ direction name leaf value,
      Route.of param ≠ .endpoint direction name leaf value)
      (notActivated : ∀ direction name, Route.of param ≠ .active direction name "ACTIVE") :
      LeafEffects env param []
  | active {direction : Direction} {name value : String}
      (route : Route.of param = .active direction name value) (result : Int) :
      LeafEffects env param [.hal (stateChange env direction name value .VALUE_APPLY) result]
  | endpoint {direction : Direction} {name leaf value : String} {effects : List Effect}
      (route : Route.of param = .endpoint direction name leaf value)
      (made : EndpointEffects param direction name leaf value effects) :
      LeafEffects env param effects

/-- A leaf that does not throw takes effect as its route says. -/
theorem processLeaf_of_not_throws {param : YangParam} (returns : ¬ (Route.of param).Throws)
    (state : UplaneState) :
    ∃ rc effects, LeafEffects env param effects ∧
      processLeaf env param state =
        .ok rc ((Route.apply state (Route.of param)).withTrace effects) := by
  have silent : ∀ state : UplaneState, state.withTrace [] = state := by
    simp [UplaneState.withTrace]
  rw [processLeaf_eq]
  cases route : Route.of param with
  | refused => exact ⟨.invalArg, [], .none (by simp [route]) (by simp [route]),
      by rw [silent]; rfl⟩
  | idle => exact ⟨.ok, [], .none (by simp [route]) (by simp [route]), by rw [silent]; rfl⟩
  | link direction name endpointName carrierName =>
      exact ⟨.ok, [], .none (by simp [route]) (by simp [route]), by rw [silent, perform_link]⟩
  | carrier direction name =>
      exact ⟨.ok, [], .none (by simp [route]) (by simp [route]), by rw [silent, perform_carrier]⟩
  | active direction name value =>
      by_cases inactive : value = "INACTIVE"
      · obtain ⟨rc, effects, run, none | ⟨result, one⟩⟩ := perform_active env param direction
          name value state
        · subst none
          refine ⟨rc, [], .none (by simp [route]) ?_, run⟩
          intro otherDirection otherName other
          rw [route, Route.active.injEq] at other
          rw [other.2.2] at inactive
          exact absurd inactive (by decide)
        · subst one
          exact ⟨rc, _, .active route result, run⟩
      · have kept : Route.apply state (.active direction name value) = state := by
          simp [Route.apply, inactive]
        rw [kept]
        exact ⟨_, _, .active route _, perform_active_of_ne env param direction name
          inactive state⟩
  | endpoint direction name leaf value =>
      rw [route] at returns
      obtain ⟨effects, made, run⟩ := perform_endpoint_of_accepted env param returns state
      exact ⟨.ok, effects, .endpoint route made, run⟩

theorem processLeaf_of_throws {param : YangParam} (throws : (Route.of param).Throws)
    (state : UplaneState) :
    ∃ direction name leaf value exception,
      Route.of param = .endpoint direction name leaf value ∧
      processLeaf env param state = .error exception
        ((Route.apply state (Route.of param)).withTrace
          [.handed param.name (.handleEaxc name leaf value direction)]) := by
  rw [processLeaf_eq]
  cases route : Route.of param with
  | endpoint direction name leaf value =>
      rw [route] at throws
      obtain ⟨exception, run⟩ := perform_endpoint_of_refuses env param throws state
      exact ⟨direction, name, leaf, value, exception, rfl, run⟩
  | refused | link | carrier | active | idle =>
      rw [route] at throws
      exact throws.elim

theorem valueChange_of_not_throws {param : YangParam} (returns : ¬ (Route.of param).Throws)
    (old : Option YangParam) (state : UplaneState) :
    ∃ effects, LeafEffects env param effects ∧
      valueChange env "" old param state =
        .ok () ((Route.apply state (Route.of param)).withTrace effects) := by
  obtain ⟨rc, effects, made, run⟩ := processLeaf_of_not_throws env returns state
  exact ⟨effects, made, by rw [valueChange, bind_ok run, pure_apply]⟩

/-- A DONE phase that nothing ends early applies every leaf. -/
theorem donePhase_of_not_throws {changes : ValueChanges}
    (returns : ∀ change ∈ changes, ¬ (Route.of change.2).Throws) (state : UplaneState) :
    ∃ effects,
      donePhase env changes state =
        .ok () ((appliedAll state (changes.map Prod.snd)).withTrace effects) ∧
      (∀ effect ∈ effects, ∃ change ∈ changes, ∃ own, LeafEffects env change.2 own ∧
        effect ∈ own) ∧
      (∀ change ∈ changes, ∃ own, LeafEffects env change.2 own ∧
        ∀ effect ∈ own, effect ∈ effects) := by
  induction changes generalizing state with
  | nil => exact ⟨[], by simp [donePhase, appliedAll, UplaneState.withTrace], by simp, by simp⟩
  | cons change changes ih =>
      obtain ⟨own, made, run⟩ := valueChange_of_not_throws env
        (returns change (by simp)) change.1 state
      obtain ⟨later, runLater, sources, all⟩ :=
        ih (fun other member => returns other (by simp [member]))
          ((Route.apply state (Route.of change.2)).withTrace own)
      refine ⟨own ++ later, ?_, ?_, ?_⟩
      · rw [donePhase] at runLater ⊢
        rw [List.forM_cons, bind_ok run, runLater, appliedAll_withTrace,
          UplaneState.withTrace_withTrace]
        rfl
      · intro effect member
        rcases List.mem_append.mp member with first | rest
        · exact ⟨change, by simp, own, made, first⟩
        · obtain ⟨other, inside, found⟩ := sources effect rest
          exact ⟨other, by simp [inside], found⟩
      · intro other member
        rcases List.mem_cons.mp member with rfl | inside
        · exact ⟨own, made, fun effect first => by simp [first]⟩
        · obtain ⟨theirs, madeTheirs, within⟩ := all other inside
          exact ⟨theirs, madeTheirs, fun effect first => by simp [within effect first]⟩

/-- The value that a change hands to `valueChange`. -/
def changedValue (change : Change) : Option SrVal :=
  match change.oper, change.oldVal, change.newVal with
  | .created, _, some new | .modified, some _, some new | .moved, _, some new => some new
  | _, _, _ => none

theorem changeHook_eq (xpath : String) (change : Change) :
    HandlerCallback.changeHook (hooks env) xpath change =
      match changedValue change with
      | some value => valueChange env xpath none value.toParam
      | none => pure () := by
  obtain ⟨oper, oldVal, newVal⟩ := change
  cases oper <;> rcases oldVal with _ | old <;> rcases newVal with _ | new <;> rfl

/-- A DONE event of the handler is a DONE phase over the values it stores. -/
theorem changeHooks_eq_donePhase (changes : List Change) :
    HandlerCallback.changeHooks (hooks env) "" changes =
      donePhase env ((changes.filterMap changedValue).map fun value =>
        (none, value.toParam)) := by
  unfold HandlerCallback.changeHooks donePhase
  induction changes with
  | nil => rfl
  | cons change changes ih =>
      rw [List.forM_cons, ih, changeHook_eq]
      cases stored : changedValue change with
      | none => simp [stored]
      | some value => simp [stored, List.forM_cons]

/-- The changes of an event that go to `valueChange`. -/
def eventChanges (iter : ChangeIter) : ValueChanges :=
  (iter.changes.filterMap changedValue).map fun value => (none, value.toParam)

/-- The changes that the DONE phase comes to: it ends at the first that throws. -/
def reached : ValueChanges → ValueChanges
  | [] => []
  | change :: changes =>
      if (Route.of change.2).Throws then [change] else change :: reached changes

theorem donePhase_conf (changes : ValueChanges) (state : UplaneState) :
    (finalState (donePhase env changes state)).conf =
      (appliedAll state ((reached changes).map Prod.snd)).conf := by
  induction changes generalizing state with
  | nil => rfl
  | cons change changes ih =>
      by_cases throws : (Route.of change.2).Throws
      · obtain ⟨_, _, _, _, exception, -, run⟩ := processLeaf_of_throws env throws state
        have stops : ∃ effects, valueChange env "" change.1 change.2 state = .error exception
            ((Route.apply state (Route.of change.2)).withTrace effects) :=
          ⟨_, by rw [valueChange, bind_error run]⟩
        obtain ⟨effects, stops⟩ := stops
        rw [donePhase, List.forM_cons, bind_error stops, finalState_error,
          UplaneState.withTrace_conf, reached, if_pos throws]
        rfl
      · obtain ⟨effects, -, run⟩ := valueChange_of_not_throws env throws change.1 state
        rw [donePhase, List.forM_cons, bind_ok run, ← donePhase, ih, appliedAll_withTrace,
          UplaneState.withTrace_conf, reached, if_neg throws]
        rfl

section Triples

/-- The bandwidth, centre and gain that the datastore has for a carrier. -/
def triple (direction : Direction) (name : String) :
    UInt64 × UInt64 × Double :=
  let carrierData := getArrayCarrier env direction.txrx name
  (SysrepoUtils.paramValUInt64 carrierData "channel-bandwidth",
    SysrepoUtils.paramValUInt64 carrierData "center-of-channel-bandwidth",
    SysrepoUtils.paramValDecimal64 carrierData (gainLeaf direction))

theorem stateChange_eq (direction : Direction) (name value : String)
    (phase : ValuePhase) :
    stateChange env direction name value phase =
      .carrierStateChange direction name (triple env direction name).1
        (triple env direction name).2.1 (triple env direction name).2.2 value
        (phase = .VALUE_APPLY) := rfl

/-- Whatever a carrier was asked about with, it is changed with. -/
def TriplesAgree (asked applied : List Effect) : Prop :=
  ∀ direction name chbw center gain value result chbw' center' gain' value' result',
    .hal (.carrierStateChange direction name chbw center gain value false) result ∈ asked →
    .hal (.carrierStateChange direction name chbw' center' gain' value' true) result' ∈ applied →
      (chbw, center, gain) = (chbw', center', gain')

theorem throws_of_accepted {params : List YangParam}
    (accepted : ∀ param ∈ params, Accepted param) :
    ∀ param ∈ params, ¬ (Route.of param).Throws := by
  intro param member throws
  by_cases active : isActive param = true
  · -- a leaf named `active` is no eaxc leaf
    cases route : Route.of param with
    | endpoint direction name leaf value =>
        have leafIs : leaf = "active" := by
          rw [(Route.of_eq_endpoint route).2.1]
          simpa [isActive] using active
        rw [route] at throws
        rw [leafIs] at throws
        exact throws.1 (by decide +kernel)
    | refused | link | carrier | active | idle =>
        rw [route] at throws
        exact throws.elim
  · exact accepted param member (by simpa using active) (Route.refuses_of_throws throws)

/-- The two phases agree on the values of every activated carrier exactly when
they read the same ones. -/
theorem triplesAgree_iff_triple_eq (envBefore envAfter : UplaneEnv) (changes : ValueChanges)
    (deletedParams : List YangParam) (before accepted : UplaneState)
    (validated : validate envBefore (changes.map Prod.snd) deletedParams before =
      .ok .ok accepted) :
    TriplesAgree (newEffects before accepted)
        (newEffects accepted (finalState (donePhase envAfter changes accepted))) ↔
      ∀ change ∈ changes, ∀ direction name,
        Route.of change.2 = .active direction name "ACTIVE" →
          triple envBefore direction name = triple envAfter direction name := by
  by_cases active : (changes.map Prod.snd).any activates = true
  · rcases accepted_or_split (changes.map Prod.snd) with all | ⟨earlier, param, later, split,
      acceptedEarlier, inactive, refuses⟩
    · obtain ⟨rc, first, second, run, eaxc, calls, -, asked⟩ :=
        validate_of_accepted envBefore active all deletedParams before
      rw [validated, EStateM.Result.ok.injEq] at run
      obtain ⟨rfl, rfl⟩ := run
      have returns : ∀ change ∈ changes, ¬ (Route.of change.2).Throws := fun change member =>
        throws_of_accepted all change.2 (List.mem_map.mpr ⟨change, member, rfl⟩)
      obtain ⟨effects, done, sources, made⟩ := donePhase_of_not_throws envAfter returns
        ((applied before (changes.map Prod.snd)).withTrace (first ++ second))
      rw [done, finalState_ok, newEffects_withTrace (applied_trace before _),
        newEffects_withTrace (appliedAll_trace _ _)]
      constructor
      · intro agree change member direction name route
        have inAsked : Effect.hal (stateChange envBefore direction name "ACTIVE" .VALUE_VALIDATE) 0 ∈
            second := by
          rw [asked rfl]
          exact List.mem_map.mpr ⟨_, List.mem_filterMap.mpr ⟨change.2,
            List.mem_map.mpr ⟨change, member, rfl⟩, activeCall_of_route envBefore route⟩, rfl⟩
        obtain ⟨own, madeOwn, within⟩ := made change member
        cases madeOwn with
        | none quiet notActivated => exact absurd route (notActivated direction name)
        | active other result' =>
            rw [route, Route.active.injEq] at other
            obtain ⟨rfl, rfl, rfl⟩ := other
            have inApplied : .hal (.carrierStateChange direction name
                (triple envAfter direction name).1 (triple envAfter direction name).2.1
                (triple envAfter direction name).2.2 "ACTIVE" true) result' ∈ effects :=
              within _ (List.mem_singleton.mpr rfl)
            exact agree direction name _ _ _ _ 0 _ _ _ _ result'
              (List.mem_append_right _ inAsked) inApplied
        | endpoint other madeEndpoint =>
            rw [route] at other
            contradiction
      · intro same direction name chbw center gain value result chbw' center' gain' value'
          result' inAsked inApplied
        rcases List.mem_append.mp inAsked with early | late
        · exact (eaxc _ early).elim
        · obtain ⟨param, inside, call, answer, found, equal⟩ := calls _ late
          obtain ⟨change, member, rfl⟩ := List.mem_map.mp inside
          obtain ⟨askedDirection, askedName, route, rfl⟩ := exists_of_activeCall envBefore found
          obtain ⟨other, memberOther, own, madeOwn, inOwn⟩ := sources _ inApplied
          cases madeOwn with
          | none quiet notActivated => simp at inOwn
          | active otherRoute otherResult =>
              simp only [List.mem_singleton, Effect.hal.injEq, stateChange_eq,
                HalCall.carrierStateChange.injEq] at inOwn equal
              obtain ⟨⟨rfl, rfl, rfl, rfl, rfl, -, -⟩, -⟩ := equal
              obtain ⟨⟨rfl, rfl, rfl, rfl, rfl, -, -⟩, -⟩ := inOwn
              exact same change member _ _ route
          | endpoint otherRoute madeEndpoint => cases madeEndpoint <;> simp at inOwn
    · obtain ⟨effects, -, run⟩ := validate_of_refuses envBefore later
        (split ▸ active) acceptedEarlier inactive refuses deletedParams before
      rw [← split, validated] at run
      rcases run with result | ⟨exception, thrown⟩
      · simp at result
      · simp at thrown
  · have unasked := validate_of_inactive envBefore
      (eq_false_of_ne_true active) deletedParams before
    rw [validated, EStateM.Result.ok.injEq] at unasked
    obtain ⟨-, rfl⟩ := unasked
    constructor
    · intro _ change member direction name route
      refine absurd (List.any_eq_true.mpr ⟨change.2, List.mem_map.mpr ⟨change, member, rfl⟩, ?_⟩)
        active
      obtain ⟨isActive, value⟩ := Route.isActive_of_route route
      simp [activates, isActive, ← value]
    · intro _ direction name chbw center gain value result _ _ _ _ _ inAsked
      simp [newEffects] at inAsked

/-- The leaves of a carrier that are read for the hardware. -/
inductive CarrierLeaf
  | bandwidth
  | center
  | gain
  deriving DecidableEq

namespace CarrierLeaf

def yangName (direction : Direction) : CarrierLeaf → String
  | .bandwidth => "channel-bandwidth"
  | .center => "center-of-channel-bandwidth"
  | .gain => gainLeaf direction

/-- The number that is read from a leaf, 0 where there is none. -/
def number (leaf : CarrierLeaf) (stored : Option SrData) : UInt64 ⊕ Double :=
  let param : YangParam := ⟨"", (stored.getD .unknown).toYang⟩
  match leaf with
  | .gain => .inr param.getDecimal64
  | _ => .inl (YangParamUtils.uint64Of param)

end CarrierLeaf

def carrierPath (direction : Direction) (name leaf : String) : String :=
  listEntryLeaf callbackPath (direction.txrx ++ "-array-carriers") "name" name leaf

def CarrierLeaf.path (direction : Direction) (name : String) (leaf : CarrierLeaf) : String :=
  carrierPath direction name (leaf.yangName direction)

/-- The path that is given to `get_items` for a carrier. -/
def carrierItems (direction : Direction) (name : String) : String :=
  callbackPath ++ "/" ++ direction.txrx ++ "-array-carriers[name='" ++ name ++ "']//."

/-- The leaves that are in the running datastore, by their paths. -/
abbrev RunningData := StdMap SrData

/-- The running datastore once the changes of a transaction are in it. -/
def commit (data : RunningData) (changes deleted : List SrVal) : RunningData :=
  changes.foldl (fun data value => data.insert value.xpath value.data)
    (deleted.foldl (fun data value => data.erase value.xpath) data)

/-- The last value of a path. -/
def written (changes : List SrVal) (path : String) : Option SrData :=
  ((changes.filter fun value => value.xpath = path).getLast?).map SrVal.data

/-- What a transaction makes of a leaf, nothing when it does not touch it. -/
def edit (changes deleted : List SrVal) (path : String) : Option (Option SrData) :=
  ((written changes path).map some).or
    (if deleted.any fun value => value.xpath = path then some none else none)

/-- A session answers about the carriers from the datastore, where the leaves
read for the hardware are leaves of the carrier itself. -/
structure Reads (session : SrSession) (data : RunningData) : Prop where
  sound : ∀ direction name, ∀ value ∈ (session.getItems (carrierItems direction name)).getD [],
    data[value.xpath]? = some value.data ∧ ∀ leaf : CarrierLeaf,
      leafName value.xpath = leaf.yangName direction →
        value.xpath = leaf.path direction name
  complete : ∀ direction name (leaf : CarrierLeaf),
    data[leaf.path direction name]? ≠ none →
      ∃ value ∈ (session.getItems (carrierItems direction name)).getD [],
        value.xpath = leaf.path direction name

theorem leafName_carrierPath (direction : Direction) (name : String) {leaf : String}
    (plain : '/' ∉ leaf.toList) : leafName (carrierPath direction name leaf) = leaf :=
  leafName_listEntry plain

theorem plain_yangName (direction : Direction) (leaf : CarrierLeaf) :
    '/' ∉ (leaf.yangName direction).toList := by
  cases leaf <;> cases direction <;> decide +kernel

section Stored

variable {data : RunningData} {direction : Direction} {name : String}

theorem written_cons (value : SrVal) (changes : List SrVal) (path : String) :
    written (value :: changes) path =
      (written changes path).or (if value.xpath = path then some value.data else none) := by
  unfold written
  by_cases here : value.xpath = path
  · simp only [here, decide_true, List.filter_cons_of_pos, List.getLast?_cons, ↓reduceIte]
    cases (changes.filter fun value => value.xpath = path).getLast? <;> rfl
  · simp [here]

theorem getElem?_commit (data : RunningData) (changes deleted : List SrVal) (path : String) :
    (commit data changes deleted)[path]? = (edit changes deleted path).getD data[path]? := by
  have erased : ∀ data : RunningData,
      (deleted.foldl (fun data value => data.erase value.xpath) data)[path]? =
        if deleted.any fun value => value.xpath = path then none else data[path]? := by
    induction deleted with
    | nil => exact fun data => rfl
    | cons value deleted ih =>
        intro data
        rw [List.foldl_cons, ih, Std.ExtTreeMap.getElem?_erase]
        by_cases here : value.xpath = path <;>
          simp [here, Std.LawfulEqCmp.compare_eq_iff_eq]
  have inserted : ∀ data : RunningData,
      (changes.foldl (fun data value => data.insert value.xpath value.data) data)[path]? =
        (written changes path).or data[path]? := by
    induction changes with
    | nil => exact fun data => rfl
    | cons value changes ih =>
        intro data
        rw [List.foldl_cons, ih, written_cons, Std.ExtTreeMap.getElem?_insert, Option.or_assoc]
        by_cases here : value.xpath = path <;>
          simp [here, Std.LawfulEqCmp.compare_eq_iff_eq]
  rw [commit, inserted, erased, edit]
  cases written changes path with
  | some last => rfl
  | none => split <;> rfl

/-- What is passed over is read as if it were not there. -/
theorem toYang_of_skipped {stored : SrData} (skips : RadioDatastoreSysrepo.skipped stored = true) :
    stored.toYang = .unknown := by
  cases stored <;> first | rfl | cases skips

/-- The reader finds the value of a leaf, or there is none to be read. -/
theorem getArrayCarrier_getElem? (reads : Reads env.session data) (leaf : CarrierLeaf) :
    let stored := data[leaf.path direction name]?
    (getArrayCarrier env direction.txrx name)[leaf.yangName direction]? = none ∧
        (stored.getD .unknown).toYang = .unknown ∨
      ∃ param, (getArrayCarrier env direction.txrx name)[leaf.yangName direction]? = some param ∧
        param.data = (stored.getD .unknown).toYang := by
  dsimp only
  have sound := reads.sound direction name
  have complete := reads.complete direction name leaf
  have asked : getArrayCarrier env direction.txrx name = SysrepoUtils.paramsToMap
      ((((env.session.getItems (carrierItems direction name)).getD []).filter fun value =>
        !RadioDatastoreSysrepo.skipped value.data).map SrVal.toParam) := by
    have items : getArrayCarrier env direction.txrx name =
        SysrepoUtils.getParams (RadioDatastoreSysrepo.getItems env.session)
          (carrierItems direction name) := rfl
    rw [items, SysrepoUtils.getParams, RadioDatastoreSysrepo.getItems]
    cases env.session.getItems (carrierItems direction name) with
    | none => rfl
    | some values => rfl
  rw [asked, SysrepoReaders.paramsToMap_getElem?]
  generalize (env.session.getItems (carrierItems direction name)).getD [] = values at sound complete
  cases found : SysrepoReaders.lastNamed ((values.filter fun value =>
      !RadioDatastoreSysrepo.skipped value.data).map SrVal.toParam) (leaf.yangName direction) with
  | some param =>
      right
      refine ⟨param, rfl, ?_⟩
      obtain ⟨inside, named⟩ := List.mem_filter.mp (List.mem_of_getLast? found)
      obtain ⟨value, kept, rfl⟩ := List.mem_map.mp inside
      obtain ⟨stored, own⟩ := sound value (List.mem_filter.mp kept).1
      rw [← own leaf (of_decide_eq_true named), stored]
      rfl
  | none =>
      left
      refine ⟨rfl, ?_⟩
      cases stored : data[leaf.path direction name]? with
      | none => rfl
      | some kept =>
          obtain ⟨value, member, path⟩ := complete (by rw [stored]; exact Option.some_ne_none _)
          have same := (sound value member).1
          rw [path, stored, Option.some.injEq] at same
          refine toYang_of_skipped (Bool.of_not_eq_false fun counts => ?_)
          have counts : RadioDatastoreSysrepo.skipped kept = false := counts
          have named : value.toParam ∈ ((values.filter fun value =>
              !RadioDatastoreSysrepo.skipped value.data).map SrVal.toParam).filter fun param =>
                leafName param.name = leaf.yangName direction := by
            refine List.mem_filter.mpr ⟨List.mem_map.mpr ⟨value, List.mem_filter.mpr
              ⟨member, ?_⟩, rfl⟩, decide_eq_true ?_⟩
            · rw [← same, counts]
              rfl
            · exact (congrArg leafName path).trans
                (leafName_carrierPath direction name (plain_yangName direction leaf))
          rw [List.getLast?_eq_none_iff.mp found] at named
          cases named

theorem triple_eq (reads : Reads env.session data) (direction : Direction) (name : String) :
    Sum.inl (triple env direction name).1 =
        CarrierLeaf.bandwidth.number data[CarrierLeaf.bandwidth.path direction name]? ∧
      Sum.inl (triple env direction name).2.1 =
          CarrierLeaf.center.number data[CarrierLeaf.center.path direction name]? ∧
        Sum.inr (triple env direction name).2.2 =
          CarrierLeaf.gain.number data[CarrierLeaf.gain.path direction name]? := by
  have readsUInt64 : ∀ leaf : CarrierLeaf, leaf ≠ .gain →
      Sum.inl (SysrepoUtils.paramValUInt64 (getArrayCarrier env direction.txrx name)
        (leaf.yangName direction)) = leaf.number data[leaf.path direction name]? := by
    intro leaf other
    have number : ∀ stored : Option SrData, leaf.number stored =
        .inl (YangParamUtils.uint64Of ⟨"", (stored.getD .unknown).toYang⟩) := by
      intro stored
      cases leaf with
      | gain => exact absurd rfl other
      | bandwidth => rfl
      | center => rfl
    rw [SysrepoUtils.paramValUInt64, number]
    rcases @getArrayCarrier_getElem? env data direction name reads leaf with
      ⟨absent, unknown⟩ | ⟨param, found, same⟩
    · rw [absent, unknown]
      rfl
    · rw [found, ← same]
      rfl
  refine ⟨readsUInt64 .bandwidth (by decide), readsUInt64 .center (by decide), ?_⟩
  have asked : (triple env direction name).2.2 =
      SysrepoUtils.paramValDecimal64 (getArrayCarrier env direction.txrx name)
        (CarrierLeaf.gain.yangName direction) := rfl
  have number : ∀ stored : Option SrData, CarrierLeaf.gain.number stored =
      .inr (YangParam.getDecimal64 ⟨"", (stored.getD .unknown).toYang⟩) := fun _ => rfl
  rw [asked, SysrepoUtils.paramValDecimal64, number]
  rcases @getArrayCarrier_getElem? env data direction name reads .gain with
    ⟨absent, unknown⟩ | ⟨param, found, same⟩
  · rw [absent, unknown]
    rfl
  · rw [found, ← same]
    rfl

end Stored

/-- The two phases agree on the values of every activated carrier exactly when
what the transaction writes to its bandwidth, centre and gain, or leaves of them
behind, is what was there before. -/
theorem triplesAgree_iff (envBefore envAfter : UplaneEnv) (data : RunningData)
    (changes deleted : List SrVal) (before accepted : UplaneState)
    (readsBefore : Reads envBefore.session data)
    (readsAfter : Reads envAfter.session (commit data changes deleted))
    (validated : validate envBefore (changes.map SrVal.toParam) (deleted.map SrVal.toParam) before =
      .ok .ok accepted) :
    TriplesAgree (newEffects before accepted) (newEffects accepted (finalState
        (donePhase envAfter (changes.map fun value => (none, value.toParam)) accepted))) ↔
      ∀ value ∈ changes, ∀ direction name,
        Route.of value.toParam = .active direction name "ACTIVE" → ∀ leaf : CarrierLeaf,
          ∀ new ∈ edit changes deleted (leaf.path direction name),
            leaf.number new =
              leaf.number data[leaf.path direction name]? := by
  have params : (changes.map fun value => ((none : Option YangParam), value.toParam)).map Prod.snd =
      changes.map SrVal.toParam := by
    rw [List.map_map]
    rfl
  rw [triplesAgree_iff_triple_eq envBefore envAfter _ (deleted.map SrVal.toParam) before accepted
    (params ▸ validated)]
  have same : ∀ direction name, triple envBefore direction name = triple envAfter direction name ↔
      ∀ leaf : CarrierLeaf, ∀ new ∈ edit changes deleted
        (leaf.path direction name), leaf.number new =
          leaf.number data[leaf.path direction name]? := by
    intro direction name
    obtain ⟨bandwidth, center, gain⟩ := triple_eq envBefore readsBefore direction name
    obtain ⟨bandwidth', center', gain'⟩ := triple_eq envAfter readsAfter direction name
    have each : ∀ leaf : CarrierLeaf, leaf.number data[leaf.path direction name]? =
        leaf.number (commit data changes deleted)[leaf.path direction name]? ↔
          ∀ new ∈ edit changes deleted (leaf.path direction name),
            leaf.number new = leaf.number data[leaf.path direction name]? := by
      intro leaf
      rw [getElem?_commit]
      cases edit changes deleted (leaf.path direction name) with
      | none => exact ⟨fun _ _ impossible => (by cases impossible), fun _ => rfl⟩
      | some new =>
          exact ⟨fun equal other isNew => Option.some.inj isNew ▸ equal.symm,
            fun equal => (equal new rfl).symm⟩
    constructor
    · intro equal leaf
      refine (each leaf).mp ?_
      cases leaf with
      | bandwidth => rw [← bandwidth, ← bandwidth', equal]
      | center => rw [← center, ← center', equal]
      | gain => rw [← gain, ← gain', equal]
    · intro kept
      have first := (each .bandwidth).mpr (kept .bandwidth)
      have second := (each .center).mpr (kept .center)
      have third := (each .gain).mpr (kept .gain)
      rw [← bandwidth, ← bandwidth'] at first
      rw [← center, ← center'] at second
      rw [← gain, ← gain'] at third
      exact Prod.ext (Sum.inl.inj first) (Prod.ext (Sum.inl.inj second) (Sum.inr.inj third))
  constructor
  · intro equal value member direction name route
    exact (same direction name).mp
      (equal _ (List.mem_map.mpr ⟨value, member, rfl⟩) direction name route)
  · intro kept change member direction name route
    obtain ⟨value, inside, rfl⟩ := List.mem_map.mp member
    exact (same direction name).mpr (kept value inside direction name route)

theorem validate_eq_of_validates {params deletedParams : List YangParam} {state : UplaneState}
    (validates : Validates env params deletedParams state) :
    validate env params deletedParams state =
      .ok .ok (finalState (validate env params deletedParams state)) := by
  obtain ⟨after, run⟩ := validates
  rw [run, finalState_ok]

section Rows

/-- A leaf of a carrier with its value. -/
structure CarrierRow where
  direction : Direction
  name : String
  leaf : String
  data : SrData

def CarrierRow.value (row : CarrierRow) : SrVal :=
  ⟨carrierPath row.direction row.name row.leaf, row.data, ""⟩

/-- Agreeing hardware over a datastore with some leaves of carriers. -/
def rowEnv (rows : List CarrierRow) : UplaneEnv :=
  ⟨fun _ _ => 0, ⟨fun xpath => some
    ((rows.filter fun row => carrierItems row.direction row.name = xpath).map CarrierRow.value)⟩⟩

def rowData (rows : List CarrierRow) : RunningData := commit ∅ (rows.map CarrierRow.value) []

theorem carrierPath_eq_iff {direction other : Direction} {name otherName leaf : String} :
    carrierPath direction name leaf = carrierPath other otherName leaf ↔
      carrierItems direction name = carrierItems other otherName := by
  have path : ∀ direction name, (carrierPath direction name leaf).toList =
      (callbackPath ++ "/" ++ Direction.txrx direction ++ "-array-carriers[name='" ++ name ++
        "']").toList ++ ('/' :: leaf.toList) := by
    intro direction name
    simp [carrierPath, listEntryLeaf]
  have items : ∀ direction name, (carrierItems direction name).toList =
      (callbackPath ++ "/" ++ Direction.txrx direction ++ "-array-carriers[name='" ++ name ++
        "']").toList ++ "//.".toList := by
    intro direction name
    simp [carrierItems]
  rw [← String.toList_inj, ← String.toList_inj, path, path, items, items, List.append_left_inj,
    List.append_left_inj]

theorem exists_of_written {changes : List SrVal} {path : String}
    (isWritten : written changes path ≠ none) : ∃ value ∈ changes, value.xpath = path := by
  unfold written at isWritten
  cases last : (changes.filter fun value => value.xpath = path).getLast? with
  | none =>
      rw [last] at isWritten
      exact absurd rfl isWritten
  | some value =>
      obtain ⟨member, same⟩ := List.mem_filter.mp (List.mem_of_getLast? last)
      exact ⟨value, member, of_decide_eq_true same⟩

theorem exists_of_commit {data : RunningData} {changes : List SrVal} {path : String}
    (stored : (commit data changes [])[path]? ≠ none) :
    (∃ value ∈ changes, value.xpath = path) ∨ data[path]? ≠ none := by
  rw [getElem?_commit, edit] at stored
  cases last : written changes path with
  | none =>
      rw [last] at stored
      exact Or.inr stored
  | some value => exact Or.inl (exists_of_written (last ▸ Option.some_ne_none value))

/-- The rows that are left by a transaction are what a session then answers. -/
theorem reads_rows {before after : List CarrierRow} {changes : List SrVal}
    (plain : ∀ row ∈ after, '/' ∉ row.leaf.toList)
    (sound : ∀ row ∈ after, (commit (rowData before) changes [])[row.value.xpath]? = some row.data)
    (covered : ∀ value ∈ changes ++ before.map CarrierRow.value,
      ∃ row ∈ after, row.value.xpath = value.xpath) :
    Reads (rowEnv after).session (commit (rowData before) changes []) := by
  refine ⟨fun direction name value member => ?_, fun direction name leaf stored => ?_⟩
  · obtain ⟨row, inside, rfl⟩ := List.mem_map.mp member
    obtain ⟨isRow, entry⟩ := List.mem_filter.mp inside
    refine ⟨sound row isRow, fun leaf named => ?_⟩
    have same : row.leaf = leaf.yangName direction :=
      (leafName_carrierPath row.direction row.name (plain row isRow)).symm.trans named
    have path : row.value.xpath = carrierPath row.direction row.name row.leaf := rfl
    rw [path, same]
    exact carrierPath_eq_iff.mpr (of_decide_eq_true entry)
  · have known : ∃ value ∈ changes ++ before.map CarrierRow.value,
        value.xpath = leaf.path direction name := by
      rcases exists_of_commit stored with ⟨value, member, same⟩ | stored
      · exact ⟨value, List.mem_append_left _ member, same⟩
      · rcases exists_of_commit stored with ⟨value, member, same⟩ | impossible
        · exact ⟨value, List.mem_append_right _ member, same⟩
        · exact absurd (by simp) impossible
    obtain ⟨value, member, same⟩ := known
    obtain ⟨row, isRow, path⟩ := covered value member
    have own : carrierPath row.direction row.name row.leaf =
        carrierPath direction name (leaf.yangName direction) := path.trans same
    have named : row.leaf = leaf.yangName direction := by
      rw [← leafName_carrierPath row.direction row.name (plain row isRow), own,
        leafName_carrierPath direction name (plain_yangName direction leaf)]
    rw [named] at own
    exact ⟨row.value, List.mem_map.mpr ⟨row, List.mem_filter.mpr ⟨isRow,
      decide_eq_true (carrierPath_eq_iff.mp own)⟩, rfl⟩, path.trans same⟩

end Rows

/-- Two carriers with their bandwidths. -/
def twoCarriers (first second : UInt64) : List CarrierRow :=
  [⟨.rx, "cc0", "channel-bandwidth", .uint64 first⟩,
    ⟨.rx, "cc0", "center-of-channel-bandwidth", .uint64 5⟩,
    ⟨.rx, "cc1", "channel-bandwidth", .uint64 second⟩]

def activeRow : CarrierRow := ⟨.rx, "cc0", "active", .enum "ACTIVE"⟩

/-- Setting the bandwidth of a carrier and activating the carrier `cc0`. -/
def widenAndActivate (name : String) (bandwidth : UInt64) : List SrVal :=
  [(CarrierRow.mk .rx name "channel-bandwidth" (.uint64 bandwidth)).value, activeRow.value]

theorem reads_twoCarriers :
    Reads (rowEnv (twoCarriers 10 10)).session (rowData (twoCarriers 10 10)) :=
  @reads_rows (twoCarriers 10 10) (twoCarriers 10 10) [] (by decide +kernel) (by decide +kernel)
    (by decide +kernel)

/-- The bandwidth of another carrier is changed. -/
theorem triplesAgree_iff_widenAndActivate :
    TriplesAgree
      (newEffects UplaneState.constructed (finalState (validate (rowEnv (twoCarriers 10 10))
        ((widenAndActivate "cc1" 20).map SrVal.toParam) [] UplaneState.constructed)))
      (newEffects (finalState (validate (rowEnv (twoCarriers 10 10))
          ((widenAndActivate "cc1" 20).map SrVal.toParam) [] UplaneState.constructed))
        (finalState (donePhase (rowEnv (activeRow :: twoCarriers 10 20))
          ((widenAndActivate "cc1" 20).map fun value => (none, value.toParam))
          (finalState (validate (rowEnv (twoCarriers 10 10))
            ((widenAndActivate "cc1" 20).map SrVal.toParam) [] UplaneState.constructed))))) := by
  refine (triplesAgree_iff (rowEnv (twoCarriers 10 10)) (rowEnv (activeRow :: twoCarriers 10 20))
    (rowData (twoCarriers 10 10)) (widenAndActivate "cc1" 20) [] UplaneState.constructed _
    reads_twoCarriers (reads_rows (by decide +kernel) (by decide +kernel) (by decide +kernel))
    (validate_eq_of_validates _ (by decide +kernel))).mpr ?_
  have untouched : ∀ value ∈ widenAndActivate "cc1" 20,
      Route.of value.toParam = .active .rx "cc0" "ACTIVE" ∨
        Route.of value.toParam = .idle := by
    decide +kernel
  intro value member direction name route leaf new isNew
  rcases untouched value member with active | idle
  · rw [active, Route.active.injEq] at route
    obtain ⟨rfl, rfl, -⟩ := route
    have none : edit (widenAndActivate "cc1" 20) [] (leaf.path .rx "cc0") = none := by
      cases leaf <;> decide +kernel
    rw [none] at isNew
    cases isNew
  · rw [idle] at route
    cases route

/-- A carrier that is widened and activated in one transaction is validated
with its old bandwidth and changed with its new one. -/
theorem widened_carrier_disagrees : ¬ ∀ (envBefore envAfter : UplaneEnv) (data : RunningData)
    (changes deleted : List SrVal) (before accepted : UplaneState),
    Reads envBefore.session data → Reads envAfter.session (commit data changes deleted) →
    validate envBefore (changes.map SrVal.toParam) (deleted.map SrVal.toParam) before =
      .ok .ok accepted →
    TriplesAgree (newEffects before accepted) (newEffects accepted (finalState
      (donePhase envAfter (changes.map fun value => (none, value.toParam)) accepted))) := by
  intro always
  have agree := always (rowEnv (twoCarriers 10 10)) (rowEnv (activeRow :: twoCarriers 20 10))
    (rowData (twoCarriers 10 10)) (widenAndActivate "cc0" 20) [] UplaneState.constructed _
    reads_twoCarriers (reads_rows (by decide +kernel) (by decide +kernel) (by decide +kernel))
    (validate_eq_of_validates _ (by decide +kernel))
  have same := agree .rx "cc0" 10 5 Double.zero "ACTIVE" 0 20 5 Double.zero "ACTIVE" 0
    (by decide +kernel) (by decide +kernel)
  exact absurd same (by decide +kernel)

end Triples

end OranUplaneConfHandler

end OpenMplane
