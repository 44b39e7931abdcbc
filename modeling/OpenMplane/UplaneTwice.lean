import OpenMplane.UplaneRejected
import OpenMplane.UplaneReplay

/-!
# An accepted transaction is applied twice

The first pass over an accepted transaction passes over its `active` leaves, the
second does not.  An `active` leaf that finds no carrier of its name inserts one
without a state.  So the two passes and the second pass alone part exactly when
such a leaf stands before the leaf that creates its carrier.
-/

namespace OpenMplane

open ReplayedUpdates StatePrograms

namespace Route

/-- A route that the first loop of validation takes. -/
def passive : Route → Bool
  | .active .. => false
  | _ => true

/-- The routes that write the state of an unknown carrier. -/
def touches (direction : Direction) (name : String) (route : Route) : Bool :=
  route = .carrier direction name ∨ route = .active direction name "INACTIVE"

/-- The state that a route gives an unknown carrier. -/
def creates (place : Direction × String) : Route → Option String
  | .carrier direction name => if (direction, name) = place then some "DISABLED" else none
  | .active direction name value =>
      if value = "INACTIVE" ∧ (direction, name) = place then some "" else none
  | _ => none

/-- Some unknown carrier that the routes create has its state read before. -/
def Premature (state : UplaneState) (routes : List Route) : Prop :=
  ∃ direction name, name ∉ state.handler.mCarrierState.get direction ∧
    .carrier direction name ∈ routes ∧
    routes.find? (touches direction name) = some (.active direction name "INACTIVE")

section Views

variable {τ : Type}

theorem view_foldl_apply {view : UplaneState → τ} {step : τ → Route → τ}
    (view_apply : ∀ state route, view (apply state route) = step (view state) route)
    (routes : List Route) (state : UplaneState) :
    view (routes.foldl apply state) = routes.foldl step (view state) := by
  induction routes generalizing state with
  | nil => rfl
  | cons route routes ih => rw [List.foldl_cons, ih, view_apply, List.foldl_cons]

/-- Updates that leave `active` routes alone need not see them. -/
theorem foldl_passive {step : τ → Route → τ}
    (ignores : ∀ part direction name value, step part (.active direction name value) = part)
    (routes : List Route) (part : τ) :
    (routes.filter passive).foldl step part = routes.foldl step part := by
  induction routes generalizing part with
  | nil => rfl
  | cons route routes ih =>
      cases route with
      | active direction name value =>
          rw [List.filter_cons_of_neg (by simp [passive]), List.foldl_cons, ignores, ih]
      | refused | link | carrier | endpoint | idle =>
          rw [List.filter_cons_of_pos (by simp [passive]), List.foldl_cons, List.foldl_cons, ih]

/-- What overwriting updates make of the passive routes and then of all of
them. -/
theorem view_twice (view : UplaneState → τ) (step : τ → Route → τ)
    (view_apply : ∀ state route, view (apply state route) = step (view state) route)
    (ignores : ∀ part direction name value, step part (.active direction name value) = part)
    (overwriting : Overwriting step) (routes : List Route) (state : UplaneState) :
    view (routes.foldl apply ((routes.filter passive).foldl apply state)) =
      view (routes.foldl apply state) := by
  rw [view_foldl_apply view_apply, view_foldl_apply view_apply, view_foldl_apply view_apply,
    foldl_passive ignores, overwriting.replay]

theorem overwriting_const : Overwriting fun (part : τ) (_ : Route) => part :=
  ⟨fun _ _ => rfl, fun _ _ _ => rfl⟩

end Views

section Carriers

theorem apply_carrier_states (state : UplaneState) (direction : Direction) (name : String) :
    (apply state (.carrier direction name)).handler.mCarrierState =
      if name ∈ state.handler.mCarrierState.get direction then state.handler.mCarrierState
      else state.handler.mCarrierState.set direction
        ((state.handler.mCarrierState.get direction).insert name "DISABLED") := by
  by_cases known : name ∈ (UplaneState.mCarrierState.comp (TxRx.one direction)).get state
  · have here : name ∈ state.handler.mCarrierState.get direction := known
    rw [apply, if_pos known, if_pos here]
  · have here : name ∉ state.handler.mCarrierState.get direction := known
    simp only [apply, if_neg known, if_neg here]
    split_ifs <;> rfl

theorem apply_active_states (state : UplaneState) (direction : Direction)
    (name value : String) :
    (apply state (.active direction name value)).handler.mCarrierState =
      if value = "INACTIVE" ∧ name ∉ state.handler.mCarrierState.get direction then
        state.handler.mCarrierState.set direction
          ((state.handler.mCarrierState.get direction).insert name "")
      else state.handler.mCarrierState :=
  apply_ite (fun state : UplaneState => state.handler.mCarrierState) ..

theorem apply_other_states {route : Route} (passive : route.passive = true)
    (other : ∀ direction name, route ≠ .carrier direction name) (state : UplaneState) :
    (apply state route).handler = state.handler := by
  cases route with
  | refused | link | idle => rfl
  | carrier direction name => exact absurd rfl (other direction name)
  | active direction name value => contradiction
  | endpoint direction name leaf value =>
      cases written : EaxcField.ofLeaf leaf with
      | none => simp only [apply, written]
      | some field =>
          simp only [apply, written]
          rfl

theorem look_insert_free {β : Type} (pair : TxRx (StdMap β)) (direction : Direction)
    (name : String) (value : β) (place : Direction × String) :
    (if name ∈ pair.get direction then pair
      else pair.set direction ((pair.get direction).insert name value)).look place =
      (pair.look place).or (if (direction, name) = place then some value else none) := by
  by_cases here : (direction, name) = place
  · subst here
    by_cases held : name ∈ pair.get direction
    · simp [held, TxRx.look]
    · have free : pair.look (direction, name) = none := Std.ExtTreeMap.getElem?_eq_none held
      simp only [if_neg held, TxRx.look_insert, ↓reduceIte, free, Option.none_or]
  · by_cases held : name ∈ pair.get direction
    · simp [held, here]
    · simp only [if_neg held, TxRx.look_insert, if_neg here, Option.or_none]

theorem look_apply (state : UplaneState) (route : Route) (place : Direction × String) :
    (apply state route).handler.mCarrierState.look place =
      (state.handler.mCarrierState.look place).or (creates place route) := by
  cases route with
  | carrier direction name => rw [apply_carrier_states, look_insert_free, creates]
  | active direction name value =>
      rw [apply_active_states, creates]
      by_cases inactive : value = "INACTIVE"
      · simp only [inactive, true_and, ite_not, look_insert_free]
      · simp [inactive]
  | refused | link | endpoint | idle =>
      rw [apply_other_states rfl (by simp)]
      exact Option.or_none.symm

theorem look_foldl_apply (routes : List Route) (state : UplaneState)
    (place : Direction × String) :
    (routes.foldl apply state).handler.mCarrierState.look place =
      (state.handler.mCarrierState.look place).or (routes.findSome? (creates place)) := by
  induction routes generalizing state with
  | nil => simp
  | cons route routes ih =>
      rw [List.foldl_cons, ih, look_apply, List.findSome?_cons, Option.or_assoc]
      cases creates place route <;> rfl

theorem apply_carrier_tree (state : UplaneState) (direction : Direction) (name : String) :
    (apply state (.carrier direction name)).handler.mCallback =
      if name ∈ state.handler.mCarrierState.get direction ∨
          name ∈ state.carrierMgr.mCarriers.get direction then state.handler.mCallback
      else state.handler.mCallback ++
        [OranYangCarrierMgr.carrierContainer direction name ⟨direction, name⟩] := by
  by_cases known : name ∈ (UplaneState.mCarrierState.comp (TxRx.one direction)).get state
  · have here : name ∈ state.handler.mCarrierState.get direction := known
    rw [apply, if_pos known, if_pos (Or.inl here)]
  · have here : name ∉ state.handler.mCarrierState.get direction := known
    by_cases managed : name ∈ state.carrierMgr.mCarriers.get direction
    · rw [if_pos (Or.inr managed)]
      simp only [apply, if_neg known]
      split_ifs
      · rfl
      · next unmanaged => exact absurd managed unmanaged
    · rw [if_neg (not_or.mpr ⟨here, managed⟩)]
      simp only [apply, if_neg known]
      split_ifs
      · next isManaged => exact absurd isManaged managed
      · rfl

theorem apply_active_tree (state : UplaneState) (direction : Direction) (name value : String) :
    (apply state (.active direction name value)).handler.mCallback =
      state.handler.mCallback := by
  simp only [apply]
  split_ifs <;> rfl

theorem apply_const (state : UplaneState) (route : Route) :
    (apply state route).carrierMgr.mCarriers = state.carrierMgr.mCarriers ∧
      (apply state route).carrierMgr.mEndpointComps = state.carrierMgr.mEndpointComps ∧
      (apply state route).carrierMgr.mEndpointDynComps = state.carrierMgr.mEndpointDynComps := by
  cases route with
  | refused | link | idle => exact ⟨rfl, rfl, rfl⟩
  | carrier direction name =>
      simp only [apply]
      split_ifs <;> exact ⟨rfl, rfl, rfl⟩
  | active direction name value =>
      simp only [apply]
      split_ifs <;> exact ⟨rfl, rfl, rfl⟩
  | endpoint direction name leaf value =>
      cases written : EaxcField.ofLeaf leaf with
      | none => simp [apply, written]
      | some field =>
          simp only [apply, written]
          exact ⟨rfl, rfl, rfl⟩

theorem mem_iff_look {state : UplaneState} {direction : Direction} {name : String} :
    name ∈ state.handler.mCarrierState.get direction ↔
      state.handler.mCarrierState.look (direction, name) ≠ none := by
  rw [Std.ExtTreeMap.mem_iff_isSome_getElem?, Option.isSome_iff_ne_none]
  rfl

theorem mem_apply {state : UplaneState} {route : Route} {direction : Direction}
    {name : String} :
    name ∈ (apply state route).handler.mCarrierState.get direction ↔
      name ∈ state.handler.mCarrierState.get direction ∨
        creates (direction, name) route ≠ none := by
  rw [mem_iff_look, mem_iff_look, look_apply, Ne, Option.or_eq_none_iff, Classical.not_and_iff_not_or_not]

theorem touches_of_creates {direction : Direction} {name : String} {route : Route}
    (created : creates (direction, name) route ≠ none) :
    route = .carrier direction name ∨ route = .active direction name "INACTIVE" := by
  cases route with
  | carrier otherDirection otherName =>
      simp only [creates, ne_eq, ite_eq_right_iff, reduceCtorEq, imp_false, not_not,
        Prod.mk.injEq] at created
      obtain ⟨rfl, rfl⟩ := created
      exact Or.inl rfl
  | active otherDirection otherName value =>
      simp only [creates, ne_eq, ite_eq_right_iff, reduceCtorEq, imp_false, not_not,
        Prod.mk.injEq] at created
      obtain ⟨rfl, rfl, rfl⟩ := created
      exact Or.inr rfl
  | refused | link | endpoint | idle => exact absurd rfl created

theorem creates_of_touches {direction : Direction} {name : String} {route : Route}
    (touching : touches direction name route = true) :
    creates (direction, name) route ≠ none := by
  simp only [touches, Bool.decide_or, Bool.or_eq_true, decide_eq_true_eq] at touching
  rcases touching with rfl | rfl <;> simp [creates]

/-- A premature reading stays one with a route before it that leaves the
carrier unknown. -/
theorem premature_cons {route : Route} {routes : List Route} {state : UplaneState}
    (premature : Premature (apply state route) routes) : Premature state (route :: routes) := by
  obtain ⟨direction, name, unknown, created, first⟩ := premature
  rw [mem_apply, not_or] at unknown
  have untouched : ¬ touches direction name route = true := fun touching =>
    unknown.2 (creates_of_touches touching)
  exact ⟨direction, name, unknown.1, List.mem_cons_of_mem _ created, by
    rw [List.find?_cons_of_neg untouched, first]⟩

/-- The two states have the same tree and know the same of the carriers that
are to come. -/
structure Alike (routes : List Route) (first second : UplaneState) : Prop where
  tree : first.handler.mCallback = second.handler.mCallback
  managed : first.carrierMgr.mCarriers = second.carrierMgr.mCarriers
  known : ∀ direction name, .carrier direction name ∈ routes →
    (name ∈ first.handler.mCarrierState.get direction ↔
      name ∈ second.handler.mCarrierState.get direction)

theorem Alike.both {route : Route} {routes : List Route} {first second : UplaneState}
    (alike : Alike (route :: routes) first second) :
    Alike routes (apply first route) (apply second route) where
  tree := by
    cases route with
    | carrier direction name =>
        simp only [apply_carrier_tree, alike.tree, alike.managed,
          alike.known direction name (by simp)]
    | active direction name value => rw [apply_active_tree, apply_active_tree, alike.tree]
    | refused | link | endpoint | idle =>
        rw [apply_other_states rfl (by simp), apply_other_states rfl (by simp), alike.tree]
  managed := by rw [(apply_const first route).1, (apply_const second route).1, alike.managed]
  known direction name later := by
    rw [mem_apply, mem_apply, alike.known direction name (List.mem_cons_of_mem _ later)]

theorem Alike.second {direction : Direction} {name value : String} {routes : List Route}
    {first second : UplaneState} (alike : Alike (.active direction name value :: routes) first second)
    (ordered : ¬ Premature second (.active direction name value :: routes)) :
    Alike routes first (apply second (.active direction name value)) where
  tree := by rw [apply_active_tree, alike.tree]
  managed := by rw [(apply_const second _).1, alike.managed]
  known otherDirection otherName later := by
    have here := alike.known otherDirection otherName (List.mem_cons_of_mem _ later)
    rw [mem_apply, here]
    constructor
    · exact Or.inl
    · rintro (known | created)
      · exact known
      · by_contra unknown
        -- the carrier is created later and its state is read here
        rcases touches_of_creates created with other | same
        · contradiction
        · exact ordered ⟨otherDirection, otherName, unknown, List.mem_cons_of_mem _ later, by
            rw [same, List.find?_cons_of_pos (by simp [touches])]⟩

/-- Without a premature reading, the passive routes alone build the same tree
as all of them. -/
theorem tree_passive {routes : List Route} {first second : UplaneState}
    (alike : Alike routes first second) (ordered : ¬ Premature second routes) :
    ((routes.filter passive).foldl apply first).handler.mCallback =
      (routes.foldl apply second).handler.mCallback := by
  induction routes generalizing first second with
  | nil => exact alike.tree
  | cons route routes ih =>
      have orderedRest : ¬ Premature (apply second route) routes := fun premature =>
        ordered (premature_cons premature)
      cases route with
      | active direction name value =>
          rw [List.filter_cons_of_neg (by simp [passive]), List.foldl_cons]
          exact ih (alike.second ordered) orderedRest
      | refused | link | carrier | endpoint | idle =>
          rw [List.filter_cons_of_pos rfl, List.foldl_cons, List.foldl_cons]
          exact ih alike.both orderedRest

/-- Routes whose carriers are all known leave the tree as it is. -/
theorem tree_known {routes : List Route} {state : UplaneState}
    (known : ∀ direction name, .carrier direction name ∈ routes →
      name ∈ state.handler.mCarrierState.get direction) :
    (routes.foldl apply state).handler.mCallback = state.handler.mCallback := by
  induction routes generalizing state with
  | nil => rfl
  | cons route routes ih =>
      have knownRest : ∀ direction name, .carrier direction name ∈ routes →
          name ∈ (apply state route).handler.mCarrierState.get direction :=
        fun direction name later =>
          mem_apply.mpr (Or.inl (known direction name (List.mem_cons_of_mem _ later)))
      have rest := ih knownRest
      rw [List.foldl_cons, rest]
      cases route with
      | carrier direction name =>
          rw [apply_carrier_tree, if_pos (Or.inl (known direction name (by simp)))]
      | active direction name value => exact apply_active_tree ..
      | refused | link | endpoint | idle => rw [apply_other_states rfl (by simp)]

theorem known_of_passive {routes : List Route} {direction : Direction} {name : String}
    (created : .carrier direction name ∈ routes) (state : UplaneState) :
    name ∈ ((routes.filter passive).foldl apply state).handler.mCarrierState.get direction := by
  rw [mem_iff_look, look_foldl_apply, Ne, Option.or_eq_none_iff, List.findSome?_eq_none_iff]
  rintro ⟨-, none⟩
  have here := none (.carrier direction name) (by simp [created, passive])
  simp [creates] at here

theorem tree_twice {routes : List Route} {state : UplaneState}
    (ordered : ¬ Premature state routes) :
    (routes.foldl apply ((routes.filter passive).foldl apply state)).handler.mCallback =
      (routes.foldl apply state).handler.mCallback := by
  rw [tree_known fun direction name created => known_of_passive created state]
  exact tree_passive ⟨rfl, rfl, fun _ _ _ => Iff.rfl⟩ ordered

/-- The state that routes give an unknown carrier is the one that the first of
them that touches it gives. -/
theorem findSome_creates (routes : List Route) (direction : Direction) (name : String) :
    routes.findSome? (creates (direction, name)) =
      (routes.find? (touches direction name)).bind (creates (direction, name)) := by
  induction routes with
  | nil => rfl
  | cons route routes ih =>
      by_cases touching : touches direction name route = true
      · have created := Option.ne_none_iff_exists'.mp (creates_of_touches touching)
        obtain ⟨current, created⟩ := created
        rw [List.find?_cons_of_pos touching, List.findSome?_cons, created, Option.bind_some,
          created]
      · have none : creates (direction, name) route = none := by
          by_contra created
          rcases touches_of_creates created with rfl | rfl <;> simp [touches] at touching
        rw [List.find?_cons_of_neg touching, List.findSome?_cons, none, ih]

/-- What the passive routes give an unknown carrier. -/
theorem findSome_passive (routes : List Route) (direction : Direction) (name : String) :
    (routes.filter passive).findSome? (creates (direction, name)) =
      if .carrier direction name ∈ routes then some "DISABLED" else none := by
  rw [findSome_creates]
  cases found : (routes.filter passive).find? (touches direction name) with
  | none =>
      have absent : .carrier direction name ∉ routes := by
        intro created
        have untouched := List.find?_eq_none.mp found (.carrier direction name)
          (by simp [created, passive])
        simp [touches] at untouched
      simp [absent]
  | some route =>
      have member := List.mem_of_find?_eq_some found
      rw [List.mem_filter] at member
      rcases touches_of_creates (creates_of_touches (List.find?_some found)) with rfl | rfl
      · simp [member.1, creates]
      · simp [passive] at member

theorem states_twice {routes : List Route} {state : UplaneState}
    (ordered : ¬ Premature state routes) :
    (routes.foldl apply ((routes.filter passive).foldl apply state)).handler.mCarrierState =
      (routes.foldl apply state).handler.mCarrierState := by
  apply TxRx.ext_look
  rintro ⟨direction, name⟩
  rw [look_foldl_apply, look_foldl_apply, look_foldl_apply, findSome_passive, findSome_creates]
  cases held : state.handler.mCarrierState.look (direction, name) with
  | some current => rfl
  | none =>
      by_cases created : .carrier direction name ∈ routes
      · cases found : routes.find? (touches direction name) with
        | none =>
            have untouched := List.find?_eq_none.mp found _ created
            simp [touches] at untouched
        | some route =>
            rcases touches_of_creates (creates_of_touches (List.find?_some found)) with rfl | rfl
            · simp [created, creates]
            · exact absurd ⟨direction, name, fun known => mem_iff_look.mp known held, created,
                found⟩ ordered
      · simp [created]

/-- A carrier whose state is read before it is created has no state after the
second pass alone. -/
theorem states_twice_of_premature {routes : List Route} {state : UplaneState}
    (premature : Premature state routes) :
    (routes.foldl apply ((routes.filter passive).foldl apply state)).handler.mCarrierState ≠
      (routes.foldl apply state).handler.mCarrierState := by
  obtain ⟨direction, name, unknown, created, first⟩ := premature
  intro same
  have held : state.handler.mCarrierState.look (direction, name) = none := by
    simpa [mem_iff_look] using unknown
  have looked := congrFun (congrArg TxRx.look same) (direction, name)
  rw [look_foldl_apply, look_foldl_apply, look_foldl_apply, findSome_passive, findSome_creates,
    held, first, if_pos created] at looked
  simp [creates] at looked

end Carriers

/-- The passive routes and then all routes end where all routes end exactly when
no reading is premature. -/
theorem conf_twice_iff (routes : List Route) (state : UplaneState) :
    (routes.foldl apply ((routes.filter passive).foldl apply state)).conf =
        (routes.foldl apply state).conf ↔ ¬ Premature state routes := by
  constructor
  · intro same premature
    exact states_twice_of_premature premature
      (congrArg (fun conf => conf.1.mCarrierState) same)
  · intro ordered
    have constant : ∀ {τ : Type} (view : UplaneState → τ),
        (∀ state route, view (apply state route) = view state) →
        view (routes.foldl apply ((routes.filter passive).foldl apply state)) =
          view (routes.foldl apply state) := fun view view_apply =>
      view_twice (fun state : UplaneState => view state) (fun part _ => part) view_apply
        (fun _ _ _ _ => rfl) overwriting_const routes state
    have links := view_twice (fun state => state.carrierMgr.mLinks) linkStep apply_mLinks
      (fun _ _ _ _ => rfl) linkStep_overwriting routes state
    have eaxcs := view_twice (fun state => state.carrierMgr.mEndpointEaxcs) eaxcStep
      apply_mEndpointEaxcs (fun _ _ _ _ => rfl) eaxcStep_overwriting routes state
    have carriers := constant (fun state => state.carrierMgr.mCarriers)
      fun state route => (apply_const state route).1
    have comps := constant (fun state => state.carrierMgr.mEndpointComps)
      fun state route => (apply_const state route).2.1
    have dynComps := constant (fun state => state.carrierMgr.mEndpointDynComps)
      fun state route => (apply_const state route).2.2
    have tree := tree_twice ordered
    have states := states_twice ordered
    generalize (routes.foldl apply ((routes.filter passive).foldl apply state)) = twice at *
    generalize routes.foldl apply state = once at *
    obtain ⟨⟨_, _⟩, ⟨_, _, _, _, _⟩, _⟩ := twice
    obtain ⟨⟨_, _⟩, ⟨_, _, _, _, _⟩, _⟩ := once
    simp_all [UplaneState.conf]

end Route

namespace OranUplaneConfHandler

theorem appliedAll_eq (state : UplaneState) (params : List YangParam) :
    appliedAll state params = (params.map Route.of).foldl Route.apply state := by
  rw [appliedAll, List.foldl_map]

/-- An `active` leaf outside the carrier lists is left alone. -/
theorem apply_of_isActive {param : YangParam} (active : isActive param = true)
    (passive : (Route.of param).passive = true) (state : UplaneState) :
    Route.apply state (Route.of param) = state := by
  have leaf : leafName param.name = "active" := by simpa [isActive] using active
  have noField : EaxcField.ofLeaf "active" = none := by decide +kernel
  revert passive
  unfold Route.of
  rw [leaf]
  dsimp only
  split_ifs <;> simp [Route.ofLink, Route.ofCarrier, Route.passive, Route.apply, noField]

theorem applied_eq (state : UplaneState) (params : List YangParam) :
    applied state params =
      ((params.map Route.of).filter Route.passive).foldl Route.apply state := by
  induction params generalizing state with
  | nil => rfl
  | cons param params ih =>
      simp only [applied, List.foldl_cons, List.map_cons] at ih ⊢
      by_cases active : isActive param = true
      · simp only [active, ↓reduceIte, ih]
        by_cases passive : (Route.of param).passive = true
        · rw [List.filter_cons_of_pos passive, List.foldl_cons, apply_of_isActive active passive]
        · rw [List.filter_cons_of_neg passive]
      · have passive : (Route.of param).passive = true := by
          cases route : Route.of param with
          | active direction name value =>
              exact absurd (Route.isActive_of_route route).1 active
          | refused | link | carrier | endpoint | idle => rfl
        simp only [active, Bool.false_eq_true, ↓reduceIte, ih]
        rw [List.filter_cons_of_pos passive, List.foldl_cons]

/-- A call that changes the state of a carrier. -/
def appliesCarrier : Effect → Bool
  | .hal (.carrierStateChange _ _ _ _ _ _ true) _ => true
  | _ => false

theorem not_appliesCarrier_of_eaxc {effect : Effect} (eaxc : EaxcEffect effect) :
    appliesCarrier effect = false := by
  unfold appliesCarrier
  split
  · exact eaxc.elim
  · rfl

/-- Validation changed no carrier of the hardware, and the DONE phase ends as
it would have without validation. -/
def Harmless (env : UplaneEnv) (changes : ValueChanges) (before accepted : UplaneState) :
    Prop :=
  (∀ effect ∈ newEffects before accepted, appliesCarrier effect = false) ∧
    (finalState (donePhase env changes accepted)).conf =
      (finalState (donePhase env changes before)).conf

/-- Applying an accepted transaction twice is harmless exactly when it does not
activate a carrier, or reads no carrier's state before it creates it. -/
theorem harmless_iff (env envDone : UplaneEnv) (changes : ValueChanges)
    (deletedParams : List YangParam) (before accepted : UplaneState)
    (validated : validate env (changes.map Prod.snd) deletedParams before =
      .ok .ok accepted) :
    Harmless envDone changes before accepted ↔
      ((changes.map Prod.snd).any activates = true →
        ¬ Route.Premature before ((changes.map Prod.snd).map Route.of)) := by
  by_cases active : (changes.map Prod.snd).any activates = true
  · rcases accepted_or_split (changes.map Prod.snd) with all | ⟨earlier, param, later, split,
      acceptedEarlier, inactive, refuses⟩
    · obtain ⟨rc, first, second, run, eaxc, calls, -, -⟩ :=
        validate_of_accepted env active all deletedParams before
      rw [validated, EStateM.Result.ok.injEq] at run
      obtain ⟨rfl, rfl⟩ := run
      have returns : ∀ change ∈ changes, ¬ (Route.of change.2).Throws := fun change member =>
        throws_of_accepted all change.2 (List.mem_map.mpr ⟨change, member, rfl⟩)
      obtain ⟨_, twice, -, -⟩ := donePhase_of_not_throws envDone returns
        ((applied before (changes.map Prod.snd)).withTrace (first ++ second))
      obtain ⟨_, once, -, -⟩ := donePhase_of_not_throws envDone returns before
      have asked : ∀ effect ∈ first ++ second, appliesCarrier effect = false := by
        intro effect member
        rcases List.mem_append.mp member with early | late
        · exact not_appliesCarrier_of_eaxc (eaxc effect early)
        · obtain ⟨param, -, call, result, found, rfl⟩ := calls effect late
          obtain ⟨direction, name, -, rfl⟩ := exists_of_activeCall env found
          rfl
      rw [Harmless, newEffects_withTrace (applied_trace before _), twice, once, finalState_ok,
        finalState_ok, appliedAll_withTrace, UplaneState.withTrace_conf,
        UplaneState.withTrace_conf, UplaneState.withTrace_conf, applied_eq, appliedAll_eq,
        appliedAll_eq, Route.conf_twice_iff]
      exact ⟨fun harmless _ => harmless.2, fun ordered => ⟨asked, ordered active⟩⟩
    · obtain ⟨effects, -, run⟩ := validate_of_refuses env later (split ▸ active)
        acceptedEarlier inactive refuses deletedParams before
      rw [← split, validated] at run
      rcases run with result | ⟨exception, thrown⟩
      · simp at result
      · simp at thrown
  · have unasked := validate_of_inactive env (eq_false_of_ne_true active) deletedParams before
    rw [validated, EStateM.Result.ok.injEq] at unasked
    obtain ⟨-, rfl⟩ := unasked
    refine ⟨fun _ impossible => absurd impossible active, fun _ => ⟨?_, rfl⟩⟩
    simp [newEffects]

/-- The key leaf `name` of a list entry stands before the entry's other leaves. -/
def KeyFirst (params : List YangParam) : Prop :=
  params.Pairwise fun earlier later =>
    leafName later.name = "name" →
      ¬ later.name.toList.take (later.name.toList.length - "name".length) <+:
        earlier.name.toList

instance (params : List YangParam) : Decidable (KeyFirst params) :=
  inferInstanceAs (Decidable (List.Pairwise _ params))

/-- Creating and activating one carrier while another is switched off. -/
def createAndSwitch : ValueChanges :=
  [(none, textLeaf "/rx-array-carriers[name='cc0']/name" "cc0"),
    (none, textLeaf "/rx-array-carriers[name='cc0']/active" "INACTIVE"),
    (none, textLeaf "/tx-array-carriers[name='cc1']/name" "cc1"),
    (none, textLeaf "/tx-array-carriers[name='cc1']/active" "ACTIVE")]

theorem harmless_createAndSwitch :
    Harmless agreeable createAndSwitch UplaneState.constructed
      (finalState (validate agreeable (createAndSwitch.map Prod.snd) []
        UplaneState.constructed)) :=
  (harmless_iff agreeable agreeable createAndSwitch [] UplaneState.constructed _
    (validate_eq_of_validates _ (by decide +kernel))).mpr fun _ => by
      rintro ⟨direction, name, -, -, found⟩
      have routes : (createAndSwitch.map Prod.snd).map Route.of =
          [.carrier .rx "cc0", .active .rx "cc0" "INACTIVE", .carrier .tx "cc1",
            .active .tx "cc1" "ACTIVE"] := by
        decide +kernel
      rw [routes] at found
      by_cases first : Route.touches direction name (.carrier .rx "cc0") = true
      · simp [first] at found
      · have apart : ¬ (.rx = direction ∧ "cc0" = name) := by
          simpa [Route.touches] using first
        have member := List.mem_of_find?_eq_some found
        simp only [List.mem_cons, Route.active.injEq, reduceCtorEq, List.not_mem_nil, false_or,
          or_false] at member
        rcases member with ⟨rfl, rfl, -⟩ | ⟨-, -, impossible⟩
        · exact apart ⟨rfl, rfl⟩
        · exact absurd impossible (by decide)

/-- The key of `x]y` reads as `x`, so that its `active` leaf is taken for the
carrier `x` that is created behind it. -/
def bracketInName : ValueChanges :=
  [(none, textLeaf "/rx-array-carriers[name='x]y']/name" "x]y"),
    (none, textLeaf "/rx-array-carriers[name='x]y']/active" "INACTIVE"),
    (none, textLeaf "/rx-array-carriers[name='x']/name" "x"),
    (none, textLeaf "/tx-array-carriers[name='cc1']/name" "cc1"),
    (none, textLeaf "/tx-array-carriers[name='cc1']/active" "ACTIVE")]

theorem bracket_in_name_is_harmful :
    ¬ (KeyFirst (bracketInName.map Prod.snd) →
      Validates agreeable (bracketInName.map Prod.snd) [] UplaneState.constructed →
      Harmless agreeable bracketInName UplaneState.constructed
        (finalState (validate agreeable (bracketInName.map Prod.snd) []
          UplaneState.constructed))) := by
  intro claim
  have harmless := claim (by decide +kernel) (by decide +kernel)
  have states := congrArg (fun conf => conf.1.mCarrierState) harmless.2
  exact absurd states (by decide +kernel)

end OranUplaneConfHandler

end OpenMplane
