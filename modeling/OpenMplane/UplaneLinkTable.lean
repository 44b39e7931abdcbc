import OpenMplane.UplaneTwice

/-!
# The texts of the links

A link is known by the texts of two of its leaves, its endpoint and its carrier.
This file gives the table of these texts as the abstract state of the carrier
manager's links, shows that a leaf updates the table as its route says, and that
the links follow the table.
-/

namespace OpenMplane

open ReplayedUpdates StatePrograms

inductive LinkLeaf
  | endpoint
  | carrier
  deriving DecidableEq

/-- One of the two leaves of a link. -/
structure LinkField where
  direction : Direction
  link : String
  leaf : LinkLeaf
  deriving DecidableEq

namespace LinkField

def leafName (field : LinkField) : String :=
  match field.leaf with
  | .endpoint => "low-level-" ++ field.direction.txrx ++ "-endpoint"
  | .carrier => field.direction.txrx ++ "-array-carrier"

def path (field : LinkField) : String :=
  OranUplaneConfHandler.callbackPath ++ "/" ++ ("low-level-" ++ field.direction.txrx ++ "-links") ++
    "[name=" ++ quoted field.link ++ "]/" ++ field.leafName

/-- The name of the link reads back from its path. -/
def Plain (field : LinkField) : Prop :=
  ']' ∉ field.link.toList ∧ '\'' ∉ field.link.toList

instance (field : LinkField) : Decidable field.Plain :=
  inferInstanceAs (Decidable (_ ∧ _))

/-- What a value of the leaf does. -/
def route (field : LinkField) (text : String) : Route :=
  match field.leaf with
  | .endpoint => .link field.direction field.link text ""
  | .carrier => .link field.direction field.link "" text

theorem path_of_plain {field : LinkField} (plain : field.Plain) :
    field.path = listEntryLeaf OranUplaneConfHandler.callbackPath
      ("low-level-" ++ field.direction.txrx ++ "-links") "name" field.link field.leafName := by
  rw [← String.toList_inj]
  simp [path, listEntryLeaf, quoted, plain.2]

/-- A leaf of a link whose name reads back takes its route. -/
theorem route_of_path {field : LinkField} (plain : field.Plain) {param : YangParam}
    (path : param.name = field.path) (nonempty : YangParamUtils.toString param ≠ "") :
    Route.of param = field.route (YangParamUtils.toString param) := by
  rw [path_of_plain plain] at path
  have index : listIndex param.name = ⟨true, "low-level-" ++ field.direction.txrx ++ "-links",
      "name", field.link⟩ := by
    rw [path]
    exact listIndex_listEntry _ (by decide +kernel)
      (by cases field.direction <;> decide +kernel) (by decide +kernel) plain.1
  have leafIs : OpenMplane.leafName param.name = field.leafName := by
    rw [path]
    refine leafName_listEntry ?_
    unfold leafName
    cases field.leaf <;> cases field.direction <;> decide +kernel
  unfold Route.of
  rw [index, leafIs]
  clear index leafIs path
  obtain ⟨direction, link, leaf⟩ := field
  cases direction <;> cases leaf <;>
    simp [Route.ofLink, LinkField.route, leafName, Direction.txrx, nonempty]

theorem route_injective {field other : LinkField} {text otherText : String}
    (nonempty : text ≠ "") (same : field.route text = other.route otherText) : field = other := by
  obtain ⟨direction, link, leaf⟩ := field
  obtain ⟨otherDirection, otherLink, otherLeaf⟩ := other
  cases leaf <;> cases otherLeaf <;> simp_all [route]

end LinkField

section Table

/-- The link that two texts make. -/
def asLink (name endpointName carrierName : String) : Option Link :=
  if endpointName = "" ∧ carrierName = "" then none
  else some ⟨name, endpointName, carrierName⟩

def tableStep (table : LinkField → String) : Route → LinkField → String
  | .link direction name endpointName carrierName, field =>
      let text := match field.leaf with
        | .endpoint => endpointName
        | .carrier => carrierName
      if field.direction = direction ∧ field.link = name ∧ text ≠ "" then text else table field
  | _, field => table field

/-- The links are those that the table makes. -/
def Follows (links : TxRx (StdMap Link)) (table : LinkField → String) : Prop :=
  ∀ direction name, links.look (direction, name) =
    asLink name (table ⟨direction, name, .endpoint⟩) (table ⟨direction, name, .carrier⟩)

/-- A route that gives a text, if it is one of a link. -/
def Route.Gives : Route → Prop
  | .link _ _ endpointName carrierName => endpointName ≠ "" ∨ carrierName ≠ ""
  | _ => True

theorem Route.gives_of (param : YangParam) : (Route.of param).Gives := by
  rcases Route.of_cases param with ⟨d, a, b, route⟩ | ⟨d, route⟩ | ⟨d, route⟩ | route
  · rw [route]
    unfold Route.ofLink
    dsimp only
    generalize (if leafName param.name = a then YangParamUtils.toString param else "") = endpoint
    generalize (if leafName param.name = b then YangParamUtils.toString param else "") = carrier
    split
    · trivial
    · next both => exact not_and_or.mp both
  · rcases Route.ofCarrier_cases d (listIndex param.name).value (leafName param.name)
      (YangParamUtils.toString param) with ⟨-, other⟩ | ⟨-, other⟩ | other
    all_goals
      rw [route, other]
      trivial
  · rw [route]
    trivial
  · rw [route]
    trivial

theorem linkAt_asLink {name endpointName carrierName heldEndpoint heldCarrier : String}
    (gives : endpointName ≠ "" ∨ carrierName ≠ "") :
    Route.linkAt name endpointName carrierName (asLink name heldEndpoint heldCarrier) =
      asLink name (if endpointName ≠ "" then endpointName else heldEndpoint)
        (if carrierName ≠ "" then carrierName else heldCarrier) := by
  have written : (Link.mk name endpointName carrierName).empty = false := by
    simpa [Link.empty] using not_and_or.mpr gives
  by_cases held : heldEndpoint = "" ∧ heldCarrier = ""
  · obtain ⟨rfl, rfl⟩ := held
    have kept : ∀ text : String, (if text ≠ "" then text else "") = text := by
      intro text
      by_cases empty : text = "" <;> simp [empty]
    simp [Route.linkAt, asLink, written, kept, not_and_or.mpr gives]
  · have still : ¬ ((if endpointName ≠ "" then endpointName else heldEndpoint) = "" ∧
        (if carrierName ≠ "" then carrierName else heldCarrier) = "") := by
      by_cases noEndpoint : endpointName = "" <;> by_cases noCarrier : carrierName = "" <;>
        simp_all
    rw [asLink, if_neg held, asLink, if_neg still]
    simp [Route.linkAt, written, Link.merge]

theorem Follows.step {links : TxRx (StdMap Link)} {table : LinkField → String}
    (follows : Follows links table) {route : Route} (gives : route.Gives) :
    Follows (Route.linkStep links route) (tableStep table route) := by
  intro direction name
  rw [Route.linkStep_keyed.look_update, follows direction name]
  cases route with
  | link linkDirection linkName endpointName carrierName =>
      simp only [Route.linkKey, Option.some.injEq, Prod.mk.injEq, Route.linkWrite, tableStep]
      by_cases here : linkDirection = direction ∧ linkName = name
      · obtain ⟨rfl, rfl⟩ := here
        simp only [and_self, ↓reduceIte, true_and]
        exact linkAt_asLink gives
      · have apart : ∀ text : String,
            ¬ (direction = linkDirection ∧ name = linkName ∧ text ≠ "") :=
          fun text both => here ⟨both.1.symm, both.2.1.symm⟩
        rw [if_neg here, if_neg (apart _), if_neg (apart _)]
  | refused | carrier | active | endpoint | idle => simp [Route.linkKey, tableStep]

theorem Follows.foldl {routes : List Route} (gives : ∀ route ∈ routes, route.Gives)
    {links : TxRx (StdMap Link)} {table : LinkField → String} (follows : Follows links table) :
    Follows (routes.foldl Route.linkStep links) (routes.foldl tableStep table) := by
  induction routes generalizing links table with
  | nil => exact follows
  | cons route routes ih =>
      exact ih (fun other member => gives other (by simp [member]))
        (follows.step (gives route (by simp)))

end Table

section Targets

variable {target : LinkField → String}

/-- The route gives a leaf of a link its text at the target. -/
def Settles (target : LinkField → String) (route : Route) (field : LinkField) : Prop :=
  target field ≠ "" ∧ route = field.route (target field)

/-- The route gives a leaf of a link its text at the target, or is no route of a
link. -/
def Toward (target : LinkField → String) (route : Route) : Prop :=
  (∃ field, Settles target route field) ∨
    ∀ direction name endpointName carrierName,
      route ≠ .link direction name endpointName carrierName

theorem tableStep_route (table : LinkField → String) (field other : LinkField) {text : String}
    (nonempty : text ≠ "") :
    tableStep table (field.route text) other = if field = other then text else table other := by
  obtain ⟨direction, link, leaf⟩ := field
  obtain ⟨otherDirection, otherLink, otherLeaf⟩ := other
  cases leaf <;> cases otherLeaf <;>
    simp [tableStep, LinkField.route, nonempty, eq_comm]

theorem Toward.step {route : Route} (toward : Toward target route)
    (table : LinkField → String) (key : LinkField)
    (settled : table key = target key ∨ Settles target route key) :
    tableStep table route key = target key := by
  rcases toward with ⟨field, nonempty, rfl⟩ | other
  · rw [tableStep_route table field key nonempty]
    by_cases same : field = key
    · rw [if_pos same, same]
    · rw [if_neg same]
      exact settled.resolve_right fun gives =>
        same (LinkField.route_injective nonempty gives.2)
  · have kept : tableStep table route key = table key := by
      cases route with
      | link direction name endpointName carrierName => exact absurd rfl (other _ _ _ _)
      | refused | carrier | active | endpoint | idle => rfl
    rw [kept]
    refine settled.resolve_right fun gives => ?_
    obtain ⟨-, rfl⟩ := gives
    obtain ⟨direction, link, leaf⟩ := key
    cases leaf <;> exact other _ _ _ _ rfl

/-- Routes toward a target settle the texts they give. -/
theorem foldl_tableStep {routes : List Route} (toward : ∀ route ∈ routes, Toward target route)
    {table : LinkField → String} {key : LinkField}
    (settled : table key = target key ∨ ∃ route ∈ routes, Settles target route key) :
    routes.foldl tableStep table key = target key :=
  foldl_settles (fun table key => table key)
    (fun route member table key => (toward route member).step table key) settled

end Targets

end OpenMplane
