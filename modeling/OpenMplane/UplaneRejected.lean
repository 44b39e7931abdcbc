import OpenMplane.UplaneValidate

/-!
# What a rejected activation leaves behind

The comment in `validate` says that the values are really applied and that a
rejected transaction does not take them back.  So a rejected transaction leaves
the effect of the leaves it was processed to.  Within that, it leaves the
compression records and the states of known carriers alone, and asks the
hardware for no change of a carrier.
-/

namespace OpenMplane

open StatePrograms

namespace OranUplaneConfHandler

/-- What the leaves other than `active` may do to the configuration: links and
eaxc records apart, they only add carriers. -/
structure Grows (before after : UplaneState) : Prop where
  comps : after.carrierMgr.mEndpointComps = before.carrierMgr.mEndpointComps
  dynComps : after.carrierMgr.mEndpointDynComps = before.carrierMgr.mEndpointDynComps
  known : ∀ direction (name current : String),
    (before.handler.mCarrierState.get direction)[name]? = some current →
      (after.handler.mCarrierState.get direction)[name]? = some current
  added : ∀ direction (name current : String),
    (after.handler.mCarrierState.get direction)[name]? = some current →
      (before.handler.mCarrierState.get direction)[name]? = some current ∨
        current = "DISABLED"
  tree : before.handler.mCallback <+: after.handler.mCallback

theorem Grows.refl (state : UplaneState) : Grows state state :=
  ⟨rfl, rfl, fun _ _ _ held => held, fun _ _ _ held => Or.inl held, List.prefix_refl _⟩

theorem Grows.trans {first second third : UplaneState} (early : Grows first second)
    (late : Grows second third) : Grows first third where
  comps := late.comps.trans early.comps
  dynComps := late.dynComps.trans early.dynComps
  known direction name current held :=
    late.known direction name current (early.known direction name current held)
  added direction name current held := by
    rcases late.added direction name current held with before | disabled
    · exact early.added direction name current before
    · exact Or.inr disabled
  tree := early.tree.trans late.tree

/-- A new carrier is disabled and comes last in the tree. -/
theorem grows_carrier (direction : Direction) (name : String) (state : UplaneState) :
    Grows state (Route.apply state (.carrier direction name)) := by
  by_cases known : name ∈ (UplaneState.mCarrierState.comp (TxRx.one direction)).get state
  · have same : Route.apply state (.carrier direction name) = state := if_pos known
    rw [same]
    exact Grows.refl state
  · have states : (Route.apply state (.carrier direction name)).handler.mCarrierState =
        state.handler.mCarrierState.set direction
          ((state.handler.mCarrierState.get direction).insert name "DISABLED") := by
      simp only [Route.apply, if_neg known]
      split_ifs <;> rfl
    have unknown : (state.handler.mCarrierState.get direction)[name]? = none := by
      exact Std.ExtTreeMap.getElem?_eq_none known
    refine ⟨?_, ?_, ?_, ?_, ?_⟩
    · simp only [Route.apply, if_neg known]
      split_ifs <;> rfl
    · simp only [Route.apply, if_neg known]
      split_ifs <;> rfl
    · intro other key current held
      rw [states, TxRx.get_set]
      split
      · next same =>
          subst same
          rw [Std.ExtTreeMap.getElem?_insert]
          split
          · next equal =>
              rw [Std.LawfulEqCmp.compare_eq_iff_eq] at equal
              subst equal
              rw [unknown] at held
              contradiction
          · exact held
      · exact held
    · intro other key current held
      rw [states, TxRx.get_set] at held
      split at held
      · next same =>
          subst same
          rw [Std.ExtTreeMap.getElem?_insert] at held
          split at held
          · exact Or.inr (Option.some.inj held).symm
          · exact Or.inl held
      · exact Or.inl held
    · simp only [Route.apply, if_neg known]
      split_ifs
      · exact List.prefix_refl _
      · exact List.prefix_append _ _

theorem grows_apply {route : Route} (other : ∀ direction name value,
    route ≠ .active direction name value) (state : UplaneState) :
    Grows state (Route.apply state route) := by
  cases route with
  | refused => exact Grows.refl state
  | idle => exact Grows.refl state
  | link direction name endpointName carrierName =>
      exact ⟨rfl, rfl, fun _ _ _ held => held, fun _ _ _ held => Or.inl held,
        List.prefix_refl _⟩
  | carrier direction name => exact grows_carrier direction name state
  | active direction name value => exact absurd rfl (other direction name value)
  | endpoint direction name leaf value =>
      cases written : EaxcField.ofLeaf leaf with
      | none =>
          simp only [Route.apply, written]
          exact Grows.refl state
      | some field =>
          simp only [Route.apply, written]
          exact ⟨rfl, rfl, fun _ _ _ held => held, fun _ _ _ held => Or.inl held,
            List.prefix_refl _⟩

theorem grows_applied (state : UplaneState) (params : List YangParam) :
    Grows state (applied state params) := by
  induction params generalizing state with
  | nil => exact Grows.refl state
  | cons param params ih =>
      simp only [applied, List.foldl_cons] at ih ⊢
      by_cases active : isActive param = true
      · simpa only [active, ↓reduceIte] using ih state
      · have step : Grows state (Route.apply state (Route.of param)) := by
          apply grows_apply
          intro direction name value route
          exact active (Route.isActive_of_route route).1
        simpa only [active, ↓reduceIte, Bool.false_eq_true] using step.trans (ih _)

/-- An effect of a transaction that is rejected: an eaxc leaf, or a question
about a carrier. -/
def RejectedEffect : Effect → Prop
  | .hal (.carrierStateChange _ _ _ _ _ _ do_apply) _ => do_apply = false
  | effect => EaxcEffect effect

/-- Where a transaction was rejected, after the leaves processed till then: by the hardware,
when none was refused, or at the first leaf that was. -/
inductive RejectedAt (params : List YangParam) (effects : List Effect) : List YangParam → Prop
  | hardware (accepted : ∀ param ∈ params, Accepted param) (rejects : HalRejects params effects) :
      RejectedAt params effects params
  | leaf {earlier later : List YangParam} {param : YangParam}
      (parts : params = earlier ++ param :: later) (accepted : ∀ other ∈ earlier, Accepted other)
      (inactive : isActive param = false) (refuses : (Route.of param).Refuses) :
      RejectedAt params effects (earlier ++ [param])

/-- What a rejected transaction leaves behind. -/
structure HalfApplied (params : List YangParam) (before after : UplaneState) : Prop where
  processed : ∃ done, RejectedAt params (newEffects before after) done ∧
    after.conf = (applied before done).conf
  grows : Grows before after
  effects : ∀ effect ∈ newEffects before after, RejectedEffect effect

theorem rejectedEffect_of_eaxc {effect : Effect} (eaxc : EaxcEffect effect) :
    RejectedEffect effect := by
  unfold RejectedEffect
  split
  · exact eaxc.elim
  · exact eaxc

theorem grows_withTrace {before after : UplaneState} (grows : Grows before after)
    (effects : List Effect) : Grows before (after.withTrace effects) :=
  ⟨grows.comps, grows.dynComps, grows.known, grows.added, grows.tree⟩

/-- A transaction that validation rejects stays applied up to the leaf it was
rejected at, and to its end when the hardware rejected it. -/
theorem halfApplied_of_not_validates (env : UplaneEnv) (params deletedParams : List YangParam)
    (before : UplaneState) (rejected : ¬ Validates env params deletedParams before) :
    HalfApplied params before (finalState (validate env params deletedParams before)) := by
  have active : params.any activates = true := by
    by_contra none
    exact rejected ⟨before, validate_of_inactive env (by simpa using none) deletedParams before⟩
  rcases accepted_or_split params with all | ⟨earlier, param, later, rfl, accepted, inactive,
    refuses⟩
  · have rejects : HalRejects params
        (newEffects before (finalState (validate env params deletedParams before))) := by
      by_contra silent
      exact rejected ((followsHardware_of_accepted env active all deletedParams before).verdict.mpr
        silent)
    obtain ⟨rc, first, second, run, eaxc, calls, -, -⟩ :=
      validate_of_accepted env active all deletedParams before
    rw [run, finalState_ok] at rejects ⊢
    refine ⟨⟨params, .hardware all rejects, by simp⟩,
      grows_withTrace (grows_applied before params) _, ?_⟩
    rw [newEffects_withTrace (applied_trace before params)]
    intro effect member
    rcases List.mem_append.mp member with early | late
    · exact rejectedEffect_of_eaxc (eaxc effect early)
    · obtain ⟨param, -, call, result, asked, rfl⟩ := calls effect late
      obtain ⟨direction, name, -, rfl⟩ := exists_of_activeCall env asked
      exact rfl
  · obtain ⟨effects, eaxc, final⟩ := finalState_validate_of_refuses env later active accepted
      inactive refuses deletedParams before
    rw [final]
    refine ⟨⟨earlier ++ [param], .leaf rfl accepted inactive refuses, by simp⟩,
      grows_withTrace (grows_applied before _) _, ?_⟩
    rw [newEffects_withTrace (applied_trace before _)]
    exact fun effect member => rejectedEffect_of_eaxc (eaxc effect member)

/-- Hardware that agrees to nothing. -/
def disagreeable : UplaneEnv := ⟨fun _ _ => 1, ⟨fun _ => none⟩⟩

/-- The transaction that creates a carrier and activates it. -/
def createAndActivate : List YangParam :=
  [textLeaf "/rx-array-carriers[name='cc0']/name" "cc0",
    textLeaf "/rx-array-carriers[name='cc0']/active" "ACTIVE"]

theorem halfApplied_createAndActivate :
    HalfApplied createAndActivate UplaneState.constructed
      (finalState (validate disagreeable createAndActivate [] UplaneState.constructed)) :=
  halfApplied_of_not_validates disagreeable createAndActivate [] UplaneState.constructed
    (by decide +kernel)

/-- Validation rejects the transaction and keeps its carrier. -/
theorem rejected_carrier_stays :
    ¬ (¬ Validates disagreeable createAndActivate [] UplaneState.constructed →
      (finalState (validate disagreeable createAndActivate []
        UplaneState.constructed)).handler.mCarrierState =
        UplaneState.constructed.handler.mCarrierState) := by
  decide +kernel

end OranUplaneConfHandler

end OpenMplane
