import OpenMplane.UplaneRoutes

/-!
# Validation of a carrier activation

A transaction that activates a carrier is validated in two loops.  The first
applies every other leaf and stops at one that is refused; the second asks the
hardware about each activation and stops at one that is rejected.  So validation
depends on more than the hardware, and a refused transaction stays half applied.
-/

namespace OpenMplane

open StatePrograms

namespace Route

@[simp] theorem apply_withTrace (state : UplaneState) (effects : List Effect) (route : Route) :
    apply (state.withTrace effects) route = (apply state route).withTrace effects := by
  cases route with
  | refused => rfl
  | idle => rfl
  | link direction name endpointName carrierName => rfl
  | carrier direction name =>
      simp only [apply, apply_ite (UplaneState.withTrace · effects)]
      rfl
  | active direction name value =>
      simp only [apply, apply_ite (UplaneState.withTrace · effects)]
      rfl
  | endpoint direction name leaf value =>
      cases written : EaxcField.ofLeaf leaf with
      | none => simp only [apply, written]
      | some field =>
          simp only [apply, written]
          rfl

@[simp] theorem apply_trace (state : UplaneState) (route : Route) :
    (apply state route).trace = state.trace := by
  cases route with
  | refused => rfl
  | idle => rfl
  | link direction name endpointName carrierName => rfl
  | carrier direction name =>
      unfold apply
      dsimp only
      split_ifs <;> rfl
  | active direction name value =>
      unfold apply
      dsimp only
      split_ifs <;> rfl
  | endpoint direction name leaf value =>
      cases written : EaxcField.ofLeaf leaf with
      | none => simp only [apply, written]
      | some field =>
          simp only [apply, written]
          rfl

theorem isActive_of_route {param : YangParam} {direction : Direction} {name value : String}
    (active : Route.of param = .active direction name value) :
    OranUplaneConfHandler.isActive param = true ∧ value = YangParamUtils.toString param := by
  obtain ⟨leaf, -, same⟩ := Route.of_eq_active active
  exact ⟨by simp [OranUplaneConfHandler.isActive, leaf], same⟩

end Route

namespace OranUplaneConfHandler

variable (env : UplaneEnv)

/-- The effects that a leaf other than `active` may have. -/
def EaxcEffect : Effect → Prop
  | .handed _ (.handleEaxc ..) => True
  | .hal (.updateEaxc ..) _ => True
  | _ => False

theorem eaxcEffect_of_endpointEffects {param : YangParam} {direction : Direction}
    {name leaf value : String} {effects : List Effect}
    (made : EndpointEffects param direction name leaf value effects) :
    ∀ effect ∈ effects, EaxcEffect effect := by
  cases made <;> simp [EaxcEffect]

/-- The processing of a leaf without a subscription path. -/
abbrev processLeaf (param : YangParam) : UplaneM SrError :=
  processValue env param (leafName param.name) (YangParamUtils.toString param) ""

theorem processLeaf_eq (param : YangParam) :
    processLeaf env param = perform env param (Route.of param) :=
  processValue_eq_perform env param (by decide +kernel)

/-- A leaf other than `active` that is not refused is applied and gives OK. -/
theorem processLeaf_of_accepted {param : YangParam} (other : isActive param = false)
    (accepted : ¬ (Route.of param).Refuses) (state : UplaneState) :
    ∃ effects, (∀ effect ∈ effects, EaxcEffect effect) ∧
      processLeaf env param state =
        .ok .ok ((Route.apply state (Route.of param)).withTrace effects) := by
  have silent : ∀ state : UplaneState, state.withTrace [] = state := by
    simp [UplaneState.withTrace]
  rw [processLeaf_eq]
  generalize route : Route.of param = taken at accepted ⊢
  cases taken with
  | refused => exact absurd trivial accepted
  | idle => exact ⟨[], by simp, by rw [silent]; rfl⟩
  | link direction name endpointName carrierName =>
      exact ⟨[], by simp, by rw [silent, perform_link]⟩
  | carrier direction name => exact ⟨[], by simp, by rw [silent, perform_carrier]⟩
  | active direction name value =>
      rw [(Route.isActive_of_route route).1] at other
      contradiction
  | endpoint direction name leaf value =>
      obtain ⟨effects, made, run⟩ := perform_endpoint_of_accepted env param
        accepted state
      exact ⟨effects, eaxcEffect_of_endpointEffects made, run⟩

/-- A refused leaf gives an error or throws; what it wrote stays. -/
theorem processLeaf_of_refuses {param : YangParam} (refuses : (Route.of param).Refuses)
    (state : UplaneState) :
    ∃ effects, (∀ effect ∈ effects, EaxcEffect effect) ∧
      let after := (Route.apply state (Route.of param)).withTrace effects
      (processLeaf env param state = .ok .invalArg after ∨
        ∃ exception, processLeaf env param state = .error exception after) := by
  rw [processLeaf_eq]
  generalize Route.of param = taken at refuses ⊢
  cases taken with
  | refused =>
      refine ⟨[], by simp, Or.inl ?_⟩
      simp [perform, Route.apply, UplaneState.withTrace]
  | endpoint direction name leaf value =>
      obtain ⟨exception, run⟩ := perform_endpoint_of_refuses env param
        refuses state
      exact ⟨_, by simp [EaxcEffect], Or.inr ⟨exception, run⟩⟩
  | idle | link | carrier | active => exact refuses.elim

section Loops

/-- One pass of the first loop of `validate`. -/
abbrev applyStep (param : YangParam) : UplaneM SrError :=
  if isActive param then return .ok else processLeaf env param

/-- The configuration after the leaves other than `active`. -/
def applied (state : UplaneState) (params : List YangParam) : UplaneState :=
  params.foldl (fun state param =>
    if isActive param then state else Route.apply state (Route.of param)) state

theorem applied_withTrace (state : UplaneState) (effects : List Effect)
    (params : List YangParam) :
    applied (state.withTrace effects) params = (applied state params).withTrace effects := by
  induction params generalizing state with
  | nil => rfl
  | cons param params ih =>
      simp only [applied, List.foldl_cons] at ih ⊢
      by_cases active : isActive param = true
      · simp only [active, ↓reduceIte, ih]
      · simp only [active, ↓reduceIte, Route.apply_withTrace, ih, Bool.false_eq_true]

/-- A leaf that the first loop does not stop at. -/
def Accepted (param : YangParam) : Prop :=
  isActive param = false → ¬ (Route.of param).Refuses

instance (param : YangParam) : Decidable (Accepted param) :=
  inferInstanceAs (Decidable (_ → _))

/-- The first loop over leaves it does not stop at. -/
theorem untilError_of_accepted {params : List YangParam}
    (accepted : ∀ param ∈ params, Accepted param) (state : UplaneState) :
    ∃ effects, (∀ effect ∈ effects, EaxcEffect effect) ∧
      untilError params (applyStep env) state =
        .ok .ok ((applied state params).withTrace effects) := by
  induction params generalizing state with
  | nil => exact ⟨[], by simp, by simp [untilError, applied, UplaneState.withTrace]⟩
  | cons param params ih =>
      have rest := fun state => ih (fun other member => accepted other (by simp [member])) state
      by_cases active : isActive param = true
      · obtain ⟨effects, eaxc, run⟩ := rest state
        refine ⟨effects, eaxc, ?_⟩
        have step : applyStep env param state = .ok .ok state := by
          simp [applyStep, active]
        rw [untilError, bind_ok step, if_neg (by simp), run]
        simp [applied, active]
      · have inactive : isActive param = false := by simpa using active
        obtain ⟨head, headEaxc, step⟩ := processLeaf_of_accepted env inactive
          (accepted param (by simp) inactive) state
        obtain ⟨effects, eaxc, run⟩ := rest
          ((Route.apply state (Route.of param)).withTrace head)
        refine ⟨head ++ effects, ?_, ?_⟩
        · intro effect member
          rcases List.mem_append.mp member with first | later
          · exact headEaxc effect first
          · exact eaxc effect later
        · rw [← show applyStep env param = processLeaf env param by
            simp [applyStep, inactive]] at step
          rw [untilError, bind_ok step, if_neg (by simp), run, applied_withTrace,
            UplaneState.withTrace_withTrace]
          simp [applied, inactive]

/-- The first loop stops at the first leaf that is refused. -/
theorem untilError_of_refuses {before : List YangParam} (after : List YangParam)
    {param : YangParam}
    (accepted : ∀ earlier ∈ before, Accepted earlier) (inactive : isActive param = false)
    (refuses : (Route.of param).Refuses) (state : UplaneState) :
    ∃ effects, (∀ effect ∈ effects, EaxcEffect effect) ∧
      let stopped := (applied state (before ++ [param])).withTrace effects
      (untilError (before ++ param :: after) (applyStep env) state = .ok .invalArg stopped ∨
        ∃ exception, untilError (before ++ param :: after) (applyStep env) state =
          .error exception stopped) := by
  induction before generalizing state with
  | nil =>
      obtain ⟨effects, eaxc, run⟩ := processLeaf_of_refuses env refuses state
      rw [← show applyStep env param = processLeaf env param by
        simp [applyStep, inactive]] at run
      refine ⟨effects, eaxc, ?_⟩
      simp only [List.nil_append, applied, List.foldl_cons, List.foldl_nil, inactive,
        Bool.false_eq_true, ↓reduceIte, untilError]
      rcases run with result | ⟨exception, thrown⟩
      · exact Or.inl (by rw [bind_ok result, if_pos (by simp), pure_apply])
      · exact Or.inr ⟨exception, by rw [bind_error thrown]⟩
  | cons first before ih =>
      have rest := fun state =>
        ih (fun other member => accepted other (by simp [member])) state
      by_cases active : isActive first = true
      · obtain ⟨effects, eaxc, run⟩ := rest state
        refine ⟨effects, eaxc, ?_⟩
        have step : applyStep env first state = .ok .ok state := by
          simp [applyStep, active]
        have same : applied state (first :: before ++ [param]) =
            applied state (before ++ [param]) := by
          simp [applied, active]
        rw [same]
        simp only [List.cons_append, untilError]
        rwa [bind_ok step, if_neg (by simp)]
      · have inactiveFirst : isActive first = false := by simpa using active
        obtain ⟨head, headEaxc, step⟩ := processLeaf_of_accepted env inactiveFirst
          (accepted first (by simp) inactiveFirst) state
        obtain ⟨effects, eaxc, run⟩ := rest
          ((Route.apply state (Route.of first)).withTrace head)
        refine ⟨head ++ effects, ?_, ?_⟩
        · intro effect member
          rcases List.mem_append.mp member with early | later
          · exact headEaxc effect early
          · exact eaxc effect later
        · rw [← show applyStep env first = processLeaf env first by
            simp [applyStep, inactiveFirst]] at step
          have same : applied (Route.apply state (Route.of first)) (before ++ [param]) =
              applied state (first :: before ++ [param]) := by
            simp [applied, inactiveFirst]
          rw [applied_withTrace, same, UplaneState.withTrace_withTrace] at run
          simp only [List.cons_append, untilError]
          rwa [bind_ok step, if_neg (by simp)]

/-- One pass of the second loop of `validate`. -/
abbrev validateStep (param : YangParam) : UplaneM SrError :=
  if ¬ isActive param then return .ok
  else validateValue env param (leafName param.name) (YangParamUtils.toString param)

/-- The hardware call that asks about a parameter. -/
def activeCall (param : YangParam) : Option HalCall :=
  match Route.of param with
  | .active direction name value =>
      if value = "ACTIVE" then some (stateChange env direction name "ACTIVE" .VALUE_VALIDATE)
      else none
  | _ => none

theorem activeCall_of_route {param : YangParam} {direction : Direction} {name : String}
    (route : Route.of param = .active direction name "ACTIVE") :
    activeCall env param = some (stateChange env direction name "ACTIVE" .VALUE_VALIDATE) := by
  rw [activeCall, route]
  exact if_pos rfl

theorem exists_of_activeCall {param : YangParam} {call : HalCall}
    (asked : activeCall env param = some call) :
    ∃ direction name, Route.of param = .active direction name "ACTIVE" ∧
      call = stateChange env direction name "ACTIVE" .VALUE_VALIDATE := by
  unfold activeCall at asked
  split at asked
  · next direction name value route =>
      split at asked
      · next active =>
          subst active
          exact ⟨direction, name, route, (Option.some.inj asked).symm⟩
      · contradiction
  · contradiction

/-- The carrier that a leaf activates. -/
def activation (param : YangParam) : Option (Direction × String) :=
  match Route.of param with
  | .active direction name value => if value = "ACTIVE" then some (direction, name) else none
  | _ => none

/-- A question about the activation of a carrier, and how it was answered. -/
def question : Effect → Option ((Direction × String) × Int)
  | .hal (.carrierStateChange direction name _ _ _ value false) result =>
      if value = "ACTIVE" then some ((direction, name), result) else none
  | _ => none

/-- The call about a parameter is the question about the carrier that it activates. -/
theorem question_of_activeCall {param : YangParam} {call : HalCall}
    (asked : activeCall env param = some call) (result : Int) :
    ∃ carrier, activation param = some carrier ∧
      question (.hal call result) = some (carrier, result) := by
  obtain ⟨direction, name, route, rfl⟩ := exists_of_activeCall env asked
  refine ⟨(direction, name), ?_, ?_⟩
  · rw [activation, route]
    exact if_pos rfl
  · unfold stateChange question
    exact if_pos rfl

theorem activation_of_unasked {param : YangParam} (unasked : activeCall env param = none) :
    activation param = none := by
  cases activated : activation param with
  | none => rfl
  | some carrier =>
      unfold activation at activated
      split at activated
      · next direction name value route =>
          split at activated
          · next active =>
              subst active
              rw [activeCall_of_route env route] at unasked
              cases unasked
          · cases activated
      · cases activated

/-- Which carrier list an `active` leaf stands in decides its route. -/
theorem handleActivate_eq {param : YangParam} (active : isActive param = true)
    (phase : ValuePhase) :
    handleActivate env param (leafName param.name) (YangParamUtils.toString param) phase =
      match Route.of param with
      | .active direction name value => activate env direction name "active" value phase
      | _ => return .ok := by
  have leaf : leafName param.name = "active" := by simpa [isActive] using active
  have carrier : ∀ d i v, Route.ofCarrier d i "active" v = .active d i v := by
    intro d i v
    simp [Route.ofCarrier]
  unfold handleActivate Route.of
  rw [leaf]
  generalize listIndex param.name = held
  dsimp only
  by_cases rxLink : held.listName = "low-level-rx-links"
  · rcases Route.ofLink_cases .rx "low-level-rx-endpoint" "rx-array-carrier" held.value "active"
      (YangParamUtils.toString param) with route | ⟨_, _, route⟩ <;> simp [rxLink, route]
  by_cases txLink : held.listName = "low-level-tx-links"
  · rcases Route.ofLink_cases .tx "low-level-tx-endpoint" "tx-array-carrier" held.value "active"
      (YangParamUtils.toString param) with route | ⟨_, _, route⟩ <;> simp [txLink, route]
  by_cases rxCarrier : held.listName = "rx-array-carriers"
  · simp [rxCarrier, carrier]
  by_cases txCarrier : held.listName = "tx-array-carriers"
  · simp [txCarrier, carrier]
  simp only [rxLink, txLink, rxCarrier, txCarrier, ↓reduceIte]
  split_ifs <;> rfl

/-- One pass of the second loop: a hardware call for an activation, nothing for
any other leaf. -/
theorem validateStep_apply (param : YangParam) (state : UplaneState) :
    validateStep env param state = match activeCall env param with
      | none => .ok .ok state
      | some call => .ok (if env.hal state.trace call ≠ 0 then .invalArg else .ok)
          (state.withTrace [.hal call (env.hal state.trace call)]) := by
  by_cases active : isActive param = true
  · have leaf : leafName param.name = "active" := by simpa [isActive] using active
    simp only [validateStep, active, not_true_eq_false, ↓reduceIte, validateValue, leaf, ne_eq,
      activeCall]
    have split := handleActivate_eq env active .VALUE_VALIDATE
    rw [leaf] at split
    by_cases value : YangParamUtils.toString param = "ACTIVE"
    · simp only [value, not_true_eq_false, ↓reduceIte] at split ⊢
      rw [split]
      cases route : Route.of param with
      | active direction name other =>
          have same := (Route.isActive_of_route route).2
          rw [value] at same
          subst same
          exact activate_apply env direction name "ACTIVE" .VALUE_VALIDATE state
      | refused | link | carrier | endpoint | idle => rfl
    · simp only [value, not_false_eq_true, ↓reduceIte, pure_apply]
      cases route : Route.of param with
      | active direction name other =>
          have same := (Route.isActive_of_route route).2
          rw [← same] at value
          simp [value]
      | refused | link | carrier | endpoint | idle => rfl
  · have none : activeCall env param = none := by
      cases asked : activeCall env param with
      | none => rfl
      | some call =>
          obtain ⟨direction, name, route, -⟩ := exists_of_activeCall env asked
          exact absurd (Route.isActive_of_route route).1 active
    simp [validateStep, active, none]

/-- The second loop changes nothing but the trace, and gives OK exactly when
every call it made was answered with 0; it has then asked about every
activation, in order. -/
theorem untilError_validateStep (params : List YangParam) (state : UplaneState) :
    ∃ rc effects, untilError params (validateStep env) state = .ok rc (state.withTrace effects) ∧
      (∀ effect ∈ effects, ∃ param ∈ params, ∃ call result,
        activeCall env param = some call ∧ effect = .hal call result) ∧
      (rc = .ok ↔ ∀ call result, .hal call result ∈ effects → result = 0) ∧
      (rc = .ok → effects = (params.filterMap (activeCall env)).map (Effect.hal · 0)) := by
  induction params generalizing state with
  | nil =>
      exact ⟨.ok, [], by simp [untilError, UplaneState.withTrace], by simp, by simp, fun _ => rfl⟩
  | cons param params ih =>
      have step := validateStep_apply env param state
      cases asked : activeCall env param with
      | none =>
          obtain ⟨rc, effects, run, calls, result, all⟩ := ih state
          rw [asked] at step
          refine ⟨rc, effects, ?_, ?_, result, ?_⟩
          · rw [untilError, bind_ok step, if_neg (by simp), run]
          · intro effect member
            obtain ⟨source, inside, found⟩ := calls effect member
            exact ⟨source, by simp [inside], found⟩
          · intro ok
            rw [all ok, List.filterMap_cons_none asked]
      | some call =>
          rw [asked] at step
          by_cases zero : env.hal state.trace call = 0
          · obtain ⟨rc, effects, run, calls, result, all⟩ :=
              ih (state.withTrace [.hal call (env.hal state.trace call)])
            refine ⟨rc, .hal call (env.hal state.trace call) :: effects, ?_, ?_, ?_, ?_⟩
            · rw [untilError, bind_ok step, if_neg (by simp [zero]), run,
                UplaneState.withTrace_withTrace]
              rfl
            · intro effect member
              rcases List.mem_cons.mp member with rfl | later
              · exact ⟨param, by simp, call, _, asked, rfl⟩
              · obtain ⟨source, inside, found⟩ := calls effect later
                exact ⟨source, by simp [inside], found⟩
            · rw [result]
              constructor
              · intro zeros other answer member
                rcases List.mem_cons.mp member with same | later
                · rw [Effect.hal.injEq] at same
                  exact same.2.trans zero
                · exact zeros other answer later
              · exact fun zeros other answer member => zeros other answer (by simp [member])
            · intro ok
              rw [all ok, List.filterMap_cons_some asked, List.map_cons, zero]
          · refine ⟨.invalArg, [.hal call (env.hal state.trace call)], ?_, ?_, ?_, ?_⟩
            · rw [untilError, bind_ok step]
              simp [zero]
            · intro effect member
              exact ⟨param, by simp, call, _, asked, List.mem_singleton.mp member⟩
            · simp only [reduceCtorEq, false_iff, not_forall]
              exact ⟨call, _, by simp, zero⟩
            · intro impossible
              contradiction

end Loops

section Verdict

/-- What a run added to the trace. -/
def newEffects (before after : UplaneState) : List Effect :=
  after.trace.drop before.trace.length

theorem newEffects_withTrace {before after : UplaneState} (same : after.trace = before.trace)
    (effects : List Effect) : newEffects before (after.withTrace effects) = effects := by
  simp [newEffects, same]

theorem applied_trace (state : UplaneState) (params : List YangParam) :
    (applied state params).trace = state.trace := by
  induction params generalizing state with
  | nil => rfl
  | cons param params ih =>
      simp only [applied, List.foldl_cons] at ih ⊢
      rw [ih]
      split <;> simp

theorem validate_of_inactive {params : List YangParam} (inactive : params.any activates = false)
    (deletedParams : List YangParam) (state : UplaneState) :
    validate env params deletedParams state = .ok .ok state := by
  simp [validate, inactive]

theorem validate_of_accepted {params : List YangParam} (active : params.any activates = true)
    (accepted : ∀ param ∈ params, Accepted param) (deletedParams : List YangParam)
    (state : UplaneState) :
    ∃ rc first second,
      validate env params deletedParams state =
        .ok rc ((applied state params).withTrace (first ++ second)) ∧
      (∀ effect ∈ first, EaxcEffect effect) ∧
      (∀ effect ∈ second, ∃ param ∈ params, ∃ call result,
        activeCall env param = some call ∧ effect = .hal call result) ∧
      (rc = .ok ↔ ∀ call result, .hal call result ∈ second → result = 0) ∧
      (rc = .ok → second = (params.filterMap (activeCall env)).map (Effect.hal · 0)) := by
  obtain ⟨first, eaxc, applies⟩ := untilError_of_accepted env accepted state
  obtain ⟨rc, second, asks, rest⟩ := untilError_validateStep env params
    ((applied state params).withTrace first)
  refine ⟨rc, first, second, ?_, eaxc, rest⟩
  unfold validate
  rw [if_neg (by simp [active]), bind_ok applies, if_neg (by simp), asks,
    UplaneState.withTrace_withTrace]

theorem validate_of_refuses {before : List YangParam} (after : List YangParam)
    {param : YangParam}
    (active : (before ++ param :: after).any activates = true)
    (accepted : ∀ earlier ∈ before, Accepted earlier) (inactive : isActive param = false)
    (refuses : (Route.of param).Refuses) (deletedParams : List YangParam)
    (state : UplaneState) :
    ∃ effects, (∀ effect ∈ effects, EaxcEffect effect) ∧
      let stopped := (applied state (before ++ [param])).withTrace effects
      (validate env (before ++ param :: after) deletedParams state = .ok .invalArg stopped ∨
        ∃ exception, validate env (before ++ param :: after) deletedParams state =
          .error exception stopped) := by
  obtain ⟨effects, eaxc, run⟩ := untilError_of_refuses env after accepted
    inactive refuses state
  refine ⟨effects, eaxc, ?_⟩
  unfold validate
  rw [if_neg (by simp only [active]; decide)]
  rcases run with result | ⟨exception, thrown⟩
  · exact Or.inl (by rw [bind_ok result, if_pos (by simp), pure_apply])
  · exact Or.inr ⟨exception, by rw [bind_error thrown]⟩

theorem finalState_validate_of_refuses {before : List YangParam} (after : List YangParam)
    {param : YangParam} (active : (before ++ param :: after).any activates = true)
    (accepted : ∀ earlier ∈ before, Accepted earlier) (inactive : isActive param = false)
    (refuses : (Route.of param).Refuses) (deletedParams : List YangParam)
    (state : UplaneState) :
    ∃ effects, (∀ effect ∈ effects, EaxcEffect effect) ∧
      finalState (validate env (before ++ param :: after) deletedParams state) =
        (applied state (before ++ [param])).withTrace effects := by
  obtain ⟨effects, eaxc, run⟩ := validate_of_refuses env after active accepted inactive refuses
    deletedParams state
  refine ⟨effects, eaxc, ?_⟩
  rcases run with result | ⟨exception, thrown⟩
  · rw [result, finalState_ok]
  · rw [thrown, finalState_error]

/-- Either no leaf is refused, or the list splits at the first that is. -/
theorem accepted_or_split (params : List YangParam) :
    (∀ param ∈ params, Accepted param) ∨
      ∃ before param after, params = before ++ param :: after ∧
        (∀ earlier ∈ before, Accepted earlier) ∧ isActive param = false ∧
        (Route.of param).Refuses := by
  induction params with
  | nil => exact Or.inl (by simp)
  | cons first params ih =>
      by_cases accepts : Accepted first
      · rcases ih with all | ⟨before, param, after, rfl, earlier, rest⟩
        · refine Or.inl ?_
          rintro param (_ | ⟨_, later⟩)
          · exact accepts
          · exact all param later
        · refine Or.inr ⟨first :: before, param, after, rfl, ?_, rest⟩
          rintro param (_ | ⟨_, later⟩)
          · exact accepts
          · exact earlier param later
      · simp only [Accepted, Classical.not_imp, not_not] at accepts
        exact Or.inr ⟨[], first, params, rfl, by simp, accepts⟩

/-- The hardware was asked about a carrier that a leaf activates, and rejected it. -/
def HalRejects (params : List YangParam) (effects : List Effect) : Prop :=
  ∃ answer ∈ effects.filterMap question, answer.2 ≠ 0 ∧ answer.1 ∈ params.filterMap activation

instance (params : List YangParam) (effects : List Effect) : Decidable (HalRejects params effects) :=
  inferInstanceAs (Decidable (∃ answer ∈ effects.filterMap question, _))

/-- The hardware was asked about each carrier that a leaf activates, and agreed. -/
def HalAgrees (params : List YangParam) (effects : List Effect) : Prop :=
  effects.filterMap question = (params.filterMap activation).map (·, 0)

/-- Validation gives OK. -/
def Validates (env : UplaneEnv) (params deletedParams : List YangParam)
    (state : UplaneState) : Prop :=
  ∃ after, validate env params deletedParams state = .ok .ok after

instance (env : UplaneEnv) (params deletedParams : List YangParam) (state : UplaneState) :
    Decidable (Validates env params deletedParams state) :=
  match run : validate env params deletedParams state with
  | .ok .ok after => isTrue ⟨after, run⟩
  | .ok .invalArg _ | .ok .validationFailed _ | .error _ _ =>
      isFalse (by simp [Validates, run])

/-- The verdict is that of the hardware, which was asked about each activation. -/
structure FollowsHardware (env : UplaneEnv) (params deletedParams : List YangParam)
    (state : UplaneState) : Prop where
  verdict : Validates env params deletedParams state ↔
    ¬ HalRejects params (newEffects state (finalState (validate env params deletedParams state)))
  asked : Validates env params deletedParams state →
    HalAgrees params (newEffects state (finalState (validate env params deletedParams state)))

theorem filterMap_question_of_eaxc {effects : List Effect}
    (eaxc : ∀ effect ∈ effects, EaxcEffect effect) : effects.filterMap question = [] := by
  refine List.filterMap_eq_nil_iff.mpr fun effect member => ?_
  have harmless := eaxc effect member
  unfold EaxcEffect at harmless
  split at harmless
  · rfl
  · rfl
  · exact harmless.elim

theorem not_halRejects_of_eaxc (params : List YangParam) {effects : List Effect}
    (eaxc : ∀ effect ∈ effects, EaxcEffect effect) : ¬ HalRejects params effects := by
  rintro ⟨answer, member, -⟩
  rw [filterMap_question_of_eaxc eaxc] at member
  cases member

theorem filterMap_activation (params : List YangParam) :
    ((params.filterMap (activeCall env)).map (Effect.hal · 0)).filterMap question =
      (params.filterMap activation).map (·, 0) := by
  induction params with
  | nil => rfl
  | cons param params ih =>
      cases asked : activeCall env param with
      | none =>
          rw [List.filterMap_cons_none asked,
            List.filterMap_cons_none (activation_of_unasked env asked), ih]
      | some call =>
          obtain ⟨carrier, activated, isQuestion⟩ := question_of_activeCall env asked 0
          rw [List.filterMap_cons_some asked, List.map_cons, List.filterMap_cons_some isQuestion,
            List.filterMap_cons_some activated, ih, List.map_cons]

/-- When the second loop is not answered with 0 throughout, the hardware rejects. -/
theorem halRejects_of_calls {params : List YangParam} {first second : List Effect}
    (calls : ∀ effect ∈ second, ∃ param ∈ params, ∃ call result,
      activeCall env param = some call ∧ effect = .hal call result)
    (refused : ∃ call result, .hal call result ∈ second ∧ result ≠ 0) :
    HalRejects params (first ++ second) := by
  obtain ⟨call, result, member, nonzero⟩ := refused
  obtain ⟨param, inside, other, answer, asked, same⟩ := calls _ member
  rw [Effect.hal.injEq] at same
  obtain ⟨rfl, rfl⟩ := same
  obtain ⟨carrier, activated, isQuestion⟩ := question_of_activeCall env asked result
  exact ⟨(carrier, result), List.mem_filterMap.mpr ⟨_, List.mem_append_right _ member, isQuestion⟩,
    nonzero, List.mem_filterMap.mpr ⟨param, inside, activated⟩⟩

theorem not_halRejects_of_agrees {params : List YangParam} {effects : List Effect}
    (agrees : HalAgrees params effects) : ¬ HalRejects params effects := by
  rintro ⟨answer, member, nonzero, -⟩
  rw [agrees] at member
  obtain ⟨carrier, -, rfl⟩ := List.mem_map.mp member
  exact nonzero rfl

theorem followsHardware_of_accepted {params : List YangParam}
    (active : params.any activates = true) (accepted : ∀ param ∈ params, Accepted param)
    (deletedParams : List YangParam) (state : UplaneState) :
    FollowsHardware env params deletedParams state := by
  obtain ⟨rc, first, second, run, eaxc, calls, result, all⟩ :=
    validate_of_accepted env active accepted deletedParams state
  have effects : newEffects state (finalState (validate env params deletedParams state)) =
      first ++ second := by
    rw [run, finalState_ok, newEffects_withTrace (applied_trace state params)]
  have agrees : rc = .ok → HalAgrees params (first ++ second) := by
    intro ok
    rw [HalAgrees, List.filterMap_append, filterMap_question_of_eaxc eaxc, all ok,
      filterMap_activation]
    rfl
  have validates : Validates env params deletedParams state ↔ rc = .ok := by
    simp [Validates, run]
  rw [← effects] at agrees
  refine ⟨validates.trans ⟨fun ok => not_halRejects_of_agrees (agrees ok), fun silent => ?_⟩,
    fun valid => agrees (validates.mp valid)⟩
  rw [effects] at silent
  by_contra failed
  rw [result] at failed
  push Not at failed
  exact silent (halRejects_of_calls env calls failed)

/-- The verdict of validation is the verdict of the hardware exactly when a
transaction that activates a carrier has no other leaf that is refused. -/
theorem validates_iff_not_halRejects_iff (env : UplaneEnv)
    (params deletedParams : List YangParam) (state : UplaneState) :
    FollowsHardware env params deletedParams state ↔
      (params.any activates = true → ∀ param ∈ params, Accepted param) := by
  by_cases active : params.any activates = true
  · rcases accepted_or_split params with all | ⟨before, param, after, rfl, earlier, inactive,
      refuses⟩
    · exact ⟨fun _ _ => all, fun _ =>
        followsHardware_of_accepted env active all deletedParams state⟩
    · obtain ⟨effects, eaxc, run⟩ := validate_of_refuses env after active earlier inactive
        refuses deletedParams state
      have final : finalState (validate env (before ++ param :: after) deletedParams state) =
          (applied state (before ++ [param])).withTrace effects := by
        rcases run with result | ⟨exception, thrown⟩
        · rw [result, finalState_ok]
        · rw [thrown, finalState_error]
      have fails : ¬ Validates env (before ++ param :: after) deletedParams state := by
        rintro ⟨last, returned⟩
        rcases run with result | ⟨exception, thrown⟩
        · simp [result] at returned
        · simp [thrown] at returned
      have silent : ¬ HalRejects (before ++ param :: after) (newEffects state
          (finalState (validate env (before ++ param :: after) deletedParams state))) := by
        rw [final, newEffects_withTrace (applied_trace state _)]
        exact not_halRejects_of_eaxc _ eaxc
      constructor
      · intro follows
        exact absurd (follows.verdict.mpr silent) fails
      · intro all
        exact absurd refuses (all active param (by simp) inactive)
  · have inactive : params.any activates = false := by simpa using active
    have run := validate_of_inactive env inactive deletedParams state
    have nothing : newEffects state (finalState (validate env params deletedParams state)) =
        [] := by
      rw [run, finalState_ok]
      simp [newEffects]
    have unasked : params.filterMap activation = [] := by
      refine List.filterMap_eq_nil_iff.mpr fun param member => ?_
      refine activation_of_unasked env ?_
      cases asked : activeCall env param with
      | none => rfl
      | some call =>
          obtain ⟨direction, name, route, -⟩ := exists_of_activeCall env asked
          obtain ⟨isActive, value⟩ := Route.isActive_of_route route
          refine absurd (List.any_eq_true.mpr ⟨param, member, ?_⟩) active
          simp [activates, isActive, ← value]
    have agrees : HalAgrees params (newEffects state
        (finalState (validate env params deletedParams state))) := by
      rw [nothing, HalAgrees, unasked]
      rfl
    exact ⟨fun _ impossible => absurd impossible active, fun _ =>
      ⟨⟨fun _ => not_halRejects_of_agrees agrees, fun _ => ⟨state, run⟩⟩, fun _ => agrees⟩⟩

/-- Hardware that agrees to everything, and a datastore that does not answer. -/
def agreeable : UplaneEnv := ⟨fun _ _ => 0, ⟨fun _ => none⟩⟩

/-- A changed text leaf of the module. -/
def textLeaf (path value : String) : YangParam :=
  ⟨callbackPath ++ path, .string value⟩

/-- Creating a link in the transaction that activates a carrier is refused
because of the link's own name, which hardware has nothing to say about. -/
theorem link_name_is_refused :
    ¬ FollowsHardware agreeable
      [textLeaf "/low-level-rx-links[name='link0']/name" "link0",
        textLeaf "/low-level-rx-links[name='link0']/rx-array-carrier" "cc0",
        textLeaf "/rx-array-carriers[name='cc0']/active" "ACTIVE"] []
      UplaneState.constructed :=
  fun follows => absurd follows.verdict (by decide +kernel)

end Verdict

end OranUplaneConfHandler

end OpenMplane
