import OpenMplane.GuardedRuns
import OpenMplane.RunningDatastore
import OpenMplane.UplaneLinkTable

/-!
# The links over committed transactions

A committed transaction reaches the handler as a CHANGE event, which may apply
some of its leaves, and as a DONE event, which applies them all, unless an eaxc
leaf ends it early.  While no leaf of a link is deleted or emptied, the links of
the carrier manager are after each DONE event those of the running datastore.
-/

namespace OpenMplane

open GuardedRuns HandlerCallback OranUplaneConfHandler StatePrograms

/-- The names of the leaves that make a link. -/
def linkLeafNames : List String :=
  ["low-level-rx-endpoint", "rx-array-carrier", "low-level-tx-endpoint", "tx-array-carrier"]

namespace LinkField

theorem leafName_mem (field : LinkField) : field.leafName ∈ linkLeafNames := by
  unfold leafName
  cases field.direction <;> cases field.leaf <;> decide +kernel

theorem path_getLast (field : LinkField) : field.path.toList.getLast? ≠ some ']' := by
  have ends : field.leafName.toList.getLast? ≠ some ']' ∧ field.leafName.toList ≠ [] := by
    unfold leafName
    cases field.direction <;> cases field.leaf <;> decide +kernel
  have last : field.path.toList.getLast? = field.leafName.toList.getLast? := by
    rw [path, String.toList_append, List.getLast?_append_of_ne_nil _ ends.2]
  rw [last]
  exact ends.1

/-- The schema node of the leaf. -/
def node (field : LinkField) : NodePath := ⟨field.path, field.path_getLast⟩

theorem leafName_path (field : LinkField) : OpenMplane.leafName field.path = field.leafName := by
  have plain : '/' ∉ field.leafName.toList := by
    unfold leafName
    cases field.direction <;> cases field.leaf <;> decide +kernel
  have shape : field.path.toList = (callbackPath ++ "/" ++
      ("low-level-" ++ field.direction.txrx ++ "-links") ++ "[name=" ++
      quoted field.link ++ "]").toList ++ '/' :: field.leafName.toList := by
    simp [path]
  rw [OpenMplane.leafName, shape, ListCut.cutLast_append _ plain]
  exact String.ofList_toList

/-- A path with one closing bracket and without quotation marks has a name that
reads back. -/
theorem plain_of_path {field : LinkField} (brackets : field.path.toList.count ']' = 1)
    (marks : '"' ∉ field.path.toList) : field.Plain := by
  have shape : field.path.toList = (callbackPath ++ "/" ++
      ("low-level-" ++ field.direction.txrx ++ "-links") ++ "[name=").toList ++
        ((quoted field.link).toList ++ ("]/" ++ field.leafName).toList) := by
    simp [path]
  have apostrophe : '\'' ∉ field.link.toList := by
    intro inside
    refine marks ?_
    rw [shape, quoted, if_pos inside]
    simp
  refine ⟨?_, apostrophe⟩
  rw [shape, quoted, if_neg apostrophe] at brackets
  simp only [String.toList_append, List.count_append] at brackets
  have closing : ("]/".toList).count ']' = 1 := by decide
  exact List.count_eq_zero.mp (by omega)

end LinkField

/-- What the YANG module says of the leaves that make links: they hold a text and
are no leaf-lists. -/
structure UplaneSchema extends Schema where
  linkNodes : ∀ field : LinkField, field.node ∉ leafLists ∧
    ∀ text, typed field.node text = .string text

/-- In the YANG module the names of these leaves stand nowhere else. -/
def NodePath.InUplane (path : NodePath) : Prop :=
  leafName path.text ∈ linkLeafNames → ∃ field : LinkField, path = field.node

section Links

variable {schema : UplaneSchema}

/-- The text that the datastore has for a leaf of a link. -/
def Datastore.linkText (datastore : Datastore schema.toSchema) (field : LinkField) :
    Option String :=
  (datastore.leaves[field.path]?).map Leaf.text

/-- The link that the datastore has under a name, if it has one of its leaves. -/
def Datastore.linkOf (datastore : Datastore schema.toSchema) (direction : Direction)
    (name : String) : Option Link :=
  match datastore.linkText ⟨direction, name, .endpoint⟩,
      datastore.linkText ⟨direction, name, .carrier⟩ with
  | none, none => none
  | endpoint, carrier => some ⟨name, endpoint.getD "", carrier.getD ""⟩

/-- The running handler over its datastore. -/
abbrev UplaneSystem (schema : UplaneSchema) := Running UplaneState schema.toSchema

/-- The links of the carrier manager are those of the datastore. -/
def UplaneSystem.LinksMirror (system : UplaneSystem schema) : Prop :=
  ∀ direction name, (system.handler.derived.carrierMgr.mLinks.get direction)[name]? =
    system.datastore.linkOf direction name

/-- No leaf that makes a link is empty. -/
def Datastore.LinksNonempty (datastore : Datastore schema.toSchema) : Prop :=
  ∀ field, datastore.linkText field ≠ some ""

/-- The table of the texts of the datastore. -/
def Datastore.linkTable (datastore : Datastore schema.toSchema) (field : LinkField) : String :=
  (datastore.linkText field).getD ""

theorem Datastore.linkOf_eq {datastore : Datastore schema.toSchema}
    (nonempty : datastore.LinksNonempty) (direction : Direction) (name : String) :
    datastore.linkOf direction name =
      asLink name (datastore.linkTable ⟨direction, name, .endpoint⟩)
        (datastore.linkTable ⟨direction, name, .carrier⟩) := by
  have endpointText := nonempty ⟨direction, name, .endpoint⟩
  have carrierText := nonempty ⟨direction, name, .carrier⟩
  unfold linkOf linkTable asLink
  cases endpoint : datastore.linkText ⟨direction, name, .endpoint⟩ with
  | none =>
      cases carrier : datastore.linkText ⟨direction, name, .carrier⟩ with
      | none => rfl
      | some text => simp_all
  | some text =>
      have held : text ≠ "" := fun empty => endpointText (by rw [endpoint, empty])
      simp [held]

theorem UplaneSystem.linksMirror_iff {system : UplaneSystem schema}
    (nonempty : system.datastore.LinksNonempty) :
    system.LinksMirror ↔
      Follows system.handler.derived.carrierMgr.mLinks system.datastore.linkTable := by
  refine forall_congr' fun direction => forall_congr' fun name => ?_
  rw [Datastore.linkOf_eq nonempty]
  rfl

theorem instancePath_node (field : LinkField) {leaf : Leaf} (here : leaf.path = field.node) :
    schema.instancePath leaf = field.path := by
  rw [Schema.instancePath, here, if_neg (schema.linkNodes field).1]
  rfl

theorem node_of_instancePath {field : LinkField} {leaf : Leaf}
    (same : schema.instancePath leaf = field.path) : leaf.path = field.node := by
  unfold Schema.instancePath at same
  split at same
  · refine absurd ?_ field.path_getLast
    have last : "']".toList ≠ [] := by decide
    rw [← same, Leaf.entryPath, String.toList_append, List.getLast?_append_of_ne_nil _ last]
    rfl
  · cases path : leaf.path with
    | mk text named =>
        rw [path] at same
        simp only [LinkField.node, NodePath.mk.injEq]
        exact same

namespace Transaction

variable {transaction : Transaction schema.toSchema}

theorem linkText_of_mem {change : LeafChange} (member : change ∈ transaction.changes)
    {field : LinkField} (here : change.leaf.path = field.node)
    (datastore : Datastore schema.toSchema) :
    (transaction.apply datastore).linkText field =
      if change.Stores then some change.leaf.text else none := by
  have held := foldl_apply_of_mem transaction.once member datastore
  rw [instancePath_node field here] at held
  rw [Datastore.linkText, apply, held]
  split <;> rfl

theorem linkText_of_untouched {field : LinkField}
    (untouched : ∀ change ∈ transaction.changes, change.leaf.path ≠ field.node)
    (datastore : Datastore schema.toSchema) :
    (transaction.apply datastore).linkText field = datastore.linkText field := by
  have apart : ∀ change ∈ transaction.changes,
      schema.instancePath change.leaf ≠ field.path :=
    fun change member same => untouched change member (node_of_instancePath same)
  rw [Datastore.linkText, apply, foldl_apply_of_untouched apart, ← Datastore.linkText]

end Transaction

end Links

section Leaves

variable {schema : UplaneSchema}

theorem linkLeaf_of_route {param : YangParam} {direction : Direction}
    {name endpointName carrierName : String}
    (route : Route.of param = .link direction name endpointName carrierName) :
    leafName param.name ∈ linkLeafNames := by
  by_contra other
  simp only [linkLeafNames, List.mem_cons, List.not_mem_nil, or_false, not_or] at other
  obtain ⟨rxEndpoint, rxCarrier, txEndpoint, txCarrier⟩ := other
  unfold Route.of at route
  dsimp only at route
  split_ifs at route
  · simp [Route.ofLink, rxEndpoint, rxCarrier] at route
  · simp [Route.ofLink, txEndpoint, txCarrier] at route
  all_goals
    unfold Route.ofCarrier at route
    split_ifs at route

/-- A stored leaf brings the links towards the datastore after its transaction. -/
theorem toward_of_stored {target : LinkField → String} {leaf : Leaf}
    (inUplane : leaf.path.InUplane)
    (plain : ∀ field : LinkField, leaf.path = field.node → field.Plain ∧
      leaf.text ≠ "" ∧ target field = leaf.text) :
    Toward target (Route.of (schema.valueAt leaf.path.text leaf).toParam) ∧
      ∀ field : LinkField, leaf.path = field.node →
        Settles target (Route.of (schema.valueAt leaf.path.text leaf).toParam) field := by
  have settles : ∀ field : LinkField, leaf.path = field.node →
      Settles target (Route.of (schema.valueAt leaf.path.text leaf).toParam) field := by
    intro field here
    obtain ⟨fieldPlain, nonempty, value⟩ := plain field here
    have text : YangParamUtils.toString (schema.valueAt leaf.path.text leaf).toParam =
        leaf.text := by
      rw [Schema.valueAt, here, (schema.linkNodes field).2]
      rfl
    have path : (schema.valueAt leaf.path.text leaf).toParam.name = field.path := by
      rw [here]
      rfl
    refine ⟨value ▸ nonempty, ?_⟩
    rw [LinkField.route_of_path fieldPlain path (text ▸ nonempty), text, value]
  refine ⟨?_, settles⟩
  by_cases linkLeaf : leafName leaf.path.text ∈ linkLeafNames
  · obtain ⟨field, here⟩ := inUplane linkLeaf
    exact Or.inl ⟨field, settles field here⟩
  · have path : (schema.valueAt leaf.path.text leaf).toParam.name = leaf.path.text := rfl
    refine Or.inr fun direction name endpointName carrierName route => ?_
    have named := linkLeaf_of_route route
    rw [path] at named
    exact linkLeaf named

end Leaves

section Events

theorem foldl_apply_mLinks (state : UplaneState) (routes : List Route) :
    (routes.foldl Route.apply state).carrierMgr.mLinks =
      routes.foldl Route.linkStep state.carrierMgr.mLinks := by
  induction routes generalizing state with
  | nil => rfl
  | cons route routes ih => rw [List.foldl_cons, ih, Route.apply_mLinks, List.foldl_cons]

theorem applied_mLinks (state : UplaneState) (params : List YangParam) :
    (applied state params).carrierMgr.mLinks =
      (params.map Route.of).foldl Route.linkStep state.carrierMgr.mLinks := by
  rw [applied_eq, foldl_apply_mLinks, Route.foldl_passive fun _ _ _ _ => rfl]

/-- Validation applies some of the leaves to the links, whatever it returns. -/
theorem validate_mLinks (env : UplaneEnv) (params deletedParams : List YangParam)
    (state : UplaneState) :
    ∃ passed : List YangParam, (∀ param ∈ passed, param ∈ params) ∧
      (finalState (validate env params deletedParams state)).carrierMgr.mLinks =
        (passed.map Route.of).foldl Route.linkStep state.carrierMgr.mLinks := by
  by_cases active : params.any activates = true
  · rcases accepted_or_split params with all | ⟨earlier, param, later, rfl, accepted, inactive,
      refuses⟩
    · obtain ⟨rc, first, second, run, -⟩ := validate_of_accepted env active all deletedParams state
      refine ⟨params, fun _ member => member, ?_⟩
      rw [run, finalState_ok]
      exact applied_mLinks state params
    · obtain ⟨effects, -, final⟩ := finalState_validate_of_refuses env later active accepted
        inactive refuses deletedParams state
      refine ⟨earlier ++ [param], ?_, ?_⟩
      · intro other member
        rcases List.mem_append.mp member with before | last
        · exact List.mem_append_left _ before
        · rw [List.mem_singleton.mp last]
          simp
      · rw [final]
        exact applied_mLinks state _
  · refine ⟨[], by simp, ?_⟩
    rw [validate_of_inactive env (eq_false_of_ne_true active)]
    rfl

theorem donePhase_mLinks (env : UplaneEnv) (changes : ValueChanges) (state : UplaneState) :
    (finalState (donePhase env changes state)).carrierMgr.mLinks =
      (((reached changes).map Prod.snd).map Route.of).foldl Route.linkStep
        state.carrierMgr.mLinks := by
  have conf := donePhase_conf env changes state
  have mgr : (finalState (donePhase env changes state)).carrierMgr =
      (appliedAll state ((reached changes).map Prod.snd)).carrierMgr := congrArg Prod.snd conf
  rw [mgr, appliedAll_eq, foldl_apply_mLinks]

theorem reached_subset {changes : ValueChanges} {change : Option YangParam × YangParam}
    (member : change ∈ reached changes) : change ∈ changes := by
  induction changes with
  | nil => exact member
  | cons first changes ih =>
      rw [reached] at member
      split at member
      · exact List.mem_cons.mpr (Or.inl (List.mem_singleton.mp member))
      · rcases List.mem_cons.mp member with rfl | later
        · exact List.mem_cons_self ..
        · exact List.mem_cons_of_mem _ (ih later)

variable {schema : Schema}

/-- The parameter that a change stores. -/
def LeafChange.stored (schema : Schema) (change : LeafChange) : YangParam :=
  (schema.valueAt change.leaf.path.text change.leaf).toParam

/-- A parameter that a CHANGE event validates is stored by one of its changes. -/
theorem mem_changeParams {changes : List LeafChange} {held : Option YangParam}
    {param : YangParam}
    (member : param ∈ (changeParams held (changes.map (LeafChange.reported schema))).1) :
    ∃ change ∈ changes, change.Stores ∧ change.stored schema = param := by
  induction changes generalizing held with
  | nil => simp [changeParams] at member
  | cons change changes ih =>
      have later : ∀ held, param ∈ (changeParams held
          (changes.map (LeafChange.reported schema))).1 →
          ∃ other ∈ change :: changes, other.Stores ∧ other.stored schema = param := by
        intro held inside
        obtain ⟨other, inChanges, found⟩ := ih inside
        exact ⟨other, List.mem_cons_of_mem _ inChanges, found⟩
      rw [List.map_cons, changeParams] at member
      cases change with
      | created leaf | modified oldText leaf =>
          simp only [LeafChange.reported, nextParam, reduceCtorEq, ↓reduceIte, ne_eq,
            not_false_eq_true] at member
          split at member
          · exact later _ member
          · rcases List.mem_cons.mp member with here | rest
            · exact ⟨_, List.mem_cons_self .., trivial, here.symm⟩
            · exact later _ rest
      | deleted leaf =>
          simp only [LeafChange.reported, nextParam, ↓reduceIte, ne_eq,
            not_true_eq_false] at member
          split at member <;> exact later _ member

/-- A parameter that a DONE event applies is stored by one of its changes. -/
theorem mem_eventChanges {changes : List LeafChange} {throws : Option StdException}
    {entry : Option YangParam × YangParam}
    (member : entry ∈ eventChanges ⟨changes.map (LeafChange.reported schema), throws⟩) :
    ∃ change ∈ changes, change.Stores ∧ change.stored schema = entry.2 := by
  simp only [eventChanges, List.mem_map, List.mem_filterMap] at member
  obtain ⟨value, ⟨reported, ⟨change, inside, rfl⟩, found⟩, rfl⟩ := member
  refine ⟨change, inside, ?_⟩
  cases change with
  | created leaf | modified oldText leaf =>
      simp only [LeafChange.reported, changedValue, Option.some.injEq] at found
      rw [← found]
      exact ⟨trivial, rfl⟩
  | deleted leaf => simp [LeafChange.reported, changedValue] at found

end Events

section Runs

variable {schema : UplaneSchema}

/-- A transaction that sysrepo reports to the handler.  The hardware and the
datastore may answer differently while it is validated and while it is
applied. -/
structure UplaneCommit (schema : UplaneSchema) where
  validating : UplaneEnv
  applying : UplaneEnv
  surroundings : Surroundings
  transaction : Transaction schema.toSchema
  inUplane : ∀ change ∈ transaction.changes, change.leaf.path.InUplane

namespace UplaneCommit

def iter (commit : UplaneCommit schema) : ChangeIter := ⟨commit.transaction.reported, none⟩

/-- The CHANGE event. -/
def change (commit : UplaneCommit schema) :
    EStateM StdException (HandlerState UplaneState) SrError :=
  module_change (hooks commit.validating) commit.surroundings commit.iter none .change

/-- The DONE event. -/
def done (commit : UplaneCommit schema) :
    EStateM StdException (HandlerState UplaneState) SrError :=
  module_change (hooks commit.applying) commit.surroundings commit.iter none .done

/-- The handler lets the transaction pass. -/
def Committed (system : UplaneSystem schema) (commit : UplaneCommit schema) : Prop :=
  ∃ handler, commit.change system.handler = .ok .ok handler

/-- Whether a CHANGE event returned OK. -/
def accepts : EStateM.Result StdException (HandlerState UplaneState) SrError → Bool
  | .ok .ok _ => true
  | _ => false

instance (system : UplaneSystem schema) (commit : UplaneCommit schema) :
    Decidable (commit.Committed system) :=
  decidable_of_iff (accepts (commit.change system.handler) = true) <| by
    unfold Committed accepts
    split <;> simp_all

/-- A committed transaction is stored and reported as done; a refused one
changes no leaf. -/
def step (system : UplaneSystem schema) (commit : UplaneCommit schema) : UplaneSystem schema :=
  match commit.change system.handler with
  | .ok .ok handler =>
      ⟨finalState (commit.done handler), commit.transaction.apply system.datastore⟩
  | result => ⟨finalState result, system.datastore⟩

/-- The transaction gives texts to links whose names read back, and the DONE
event comes to each of them. -/
structure KeepsLinks (system : UplaneSystem schema) (commit : UplaneCommit schema) : Prop where
  committed : commit.Committed system
  stores : ∀ change ∈ commit.transaction.changes,
    leafName change.leaf.path.text ∈ linkLeafNames →
      change.Stores ∧ change.leaf.text ≠ "" ∧
        (none, change.stored schema.toSchema) ∈ reached (eventChanges commit.iter)
  plain : ∀ change ∈ commit.transaction.changes, ∀ field : LinkField,
    change.leaf.path = field.node → field.Plain

section Step

variable {system : UplaneSystem schema} {commit : UplaneCommit schema}

/-- The datastore after the transaction. -/
abbrev after (system : UplaneSystem schema) (commit : UplaneCommit schema) :
    Datastore schema.toSchema :=
  commit.transaction.apply system.datastore

theorem KeepsLinks.stored_text (keeps : commit.KeepsLinks system) {change : LeafChange}
    (member : change ∈ commit.transaction.changes) {field : LinkField}
    (here : change.leaf.path = field.node) :
    change.leaf.text ≠ "" ∧ (after system commit).linkText field = some change.leaf.text := by
  have linkLeaf : leafName change.leaf.path.text ∈ linkLeafNames := by
    rw [here]
    exact (LinkField.leafName_path field) ▸ field.leafName_mem
  obtain ⟨stores, nonempty, -⟩ := keeps.stores change member linkLeaf
  refine ⟨nonempty, ?_⟩
  rw [Transaction.linkText_of_mem member here, if_pos stores]

theorem KeepsLinks.nonempty (keeps : commit.KeepsLinks system)
    (nonempty : system.datastore.LinksNonempty) : (after system commit).LinksNonempty := by
  intro field
  by_cases touched : ∃ change ∈ commit.transaction.changes, change.leaf.path = field.node
  · obtain ⟨change, member, here⟩ := touched
    obtain ⟨written, text⟩ := keeps.stored_text member here
    rw [text]
    exact fun same => written (Option.some.inj same)
  · push Not at touched
    rw [Transaction.linkText_of_untouched touched]
    exact nonempty field

theorem KeepsLinks.toward (keeps : commit.KeepsLinks system) {change : LeafChange}
    (member : change ∈ commit.transaction.changes) :
    Toward (after system commit).linkTable (Route.of (change.stored schema.toSchema)) ∧
      ∀ field : LinkField, change.leaf.path = field.node →
        Settles (after system commit).linkTable (Route.of (change.stored schema.toSchema))
          field := by
  refine toward_of_stored (commit.inUplane change member) fun field here => ?_
  obtain ⟨nonempty, text⟩ := keeps.stored_text member here
  refine ⟨keeps.plain change member field here, nonempty, ?_⟩
  rw [Datastore.linkTable, text]
  rfl

/-- The CHANGE event moves the links towards the texts after the transaction. -/
theorem KeepsLinks.follows_change (keeps : commit.KeepsLinks system)
    (follows : Follows system.handler.derived.carrierMgr.mLinks system.datastore.linkTable) :
    ∃ table, Follows
        (finalState (commit.change system.handler)).derived.carrierMgr.mLinks table ∧
      ∀ field, system.datastore.linkTable field = (after system commit).linkTable field →
        table field = (after system commit).linkTable field := by
  rcases module_change_change_derived (hooks commit.validating) commit.surroundings commit.iter
    none system.handler with kept | validated
  · refine ⟨system.datastore.linkTable, ?_, fun _ same => same⟩
    rw [UplaneCommit.change, kept]
    exact follows
  · obtain ⟨passed, inside, links⟩ := validate_mLinks commit.validating
      (changeParams none commit.iter.changes).1 (changeParams none commit.iter.changes).2
      system.handler.derived
    refine ⟨(passed.map Route.of).foldl tableStep system.datastore.linkTable, ?_, ?_⟩
    · rw [UplaneCommit.change, validated]
      refine links ▸ follows.foldl fun route member => ?_
      obtain ⟨param, -, rfl⟩ := List.mem_map.mp member
      exact Route.gives_of param
    · refine fun field same => foldl_tableStep (fun route member => ?_) (Or.inl same)
      obtain ⟨param, passes, rfl⟩ := List.mem_map.mp member
      obtain ⟨change, changed, -, rfl⟩ := mem_changeParams (inside param passes)
      exact (keeps.toward changed).1

/-- The DONE event settles the links at the texts after the transaction. -/
theorem KeepsLinks.follows_done (keeps : commit.KeepsLinks system)
    {handler : HandlerState UplaneState} {table : LinkField → String}
    (follows : Follows handler.derived.carrierMgr.mLinks table)
    (untouched : ∀ field, system.datastore.linkTable field =
      (after system commit).linkTable field → table field = (after system commit).linkTable field) :
    Follows (finalState (commit.done handler)).derived.carrierMgr.mLinks
      (after system commit).linkTable := by
  have links : (finalState (commit.done handler)).derived.carrierMgr.mLinks =
      (((reached (eventChanges commit.iter)).map Prod.snd).map Route.of).foldl Route.linkStep
        handler.derived.carrierMgr.mLinks := by
    rw [UplaneCommit.done, module_change_done_derived]
    exact (changeHooks_eq_donePhase commit.applying commit.iter.changes) ▸
      donePhase_mLinks commit.applying (eventChanges commit.iter) handler.derived
  have settled : (((reached (eventChanges commit.iter)).map Prod.snd).map Route.of).foldl tableStep
      table = (after system commit).linkTable := by
    funext field
    refine foldl_tableStep (fun route member => ?_) ?_
    · simp only [List.map_map, List.mem_map, Function.comp_apply] at member
      obtain ⟨entry, comes, rfl⟩ := member
      obtain ⟨change, changed, -, stored⟩ := mem_eventChanges (reached_subset comes)
      rw [← stored]
      exact (keeps.toward changed).1
    · by_cases touched : ∃ change ∈ commit.transaction.changes, change.leaf.path = field.node
      · obtain ⟨change, member, here⟩ := touched
        have linkLeaf : leafName change.leaf.path.text ∈ linkLeafNames := by
          rw [here]
          exact (LinkField.leafName_path field) ▸ field.leafName_mem
        obtain ⟨-, -, comes⟩ := keeps.stores change member linkLeaf
        refine Or.inr ⟨_, ?_, (keeps.toward member).2 field here⟩
        exact List.mem_map_of_mem (List.mem_map_of_mem comes)
      · push Not at touched
        refine Or.inl (untouched field ?_)
        rw [Datastore.linkTable, Datastore.linkTable,
          Transaction.linkText_of_untouched touched]
  rw [links, ← settled]
  refine follows.foldl fun route member => ?_
  obtain ⟨param, -, rfl⟩ := List.mem_map.mp member
  exact Route.gives_of param

theorem KeepsLinks.step (keeps : commit.KeepsLinks system)
    (follows : Follows system.handler.derived.carrierMgr.mLinks system.datastore.linkTable) :
    Follows (step system commit).handler.derived.carrierMgr.mLinks
        (step system commit).datastore.linkTable ∧
      (step system commit).datastore = after system commit := by
  obtain ⟨handler, accepted⟩ := keeps.committed
  obtain ⟨table, changed, untouched⟩ := keeps.follows_change follows
  rw [accepted, finalState_ok] at changed
  rw [UplaneCommit.step, accepted]
  exact ⟨keeps.follows_done changed untouched, rfl⟩

end Step

end UplaneCommit

/-- The links follow the texts of the datastore, none of which is empty. -/
def UplaneSystem.LinksFollow (system : UplaneSystem schema) : Prop :=
  system.datastore.LinksNonempty ∧
    Follows system.handler.derived.carrierMgr.mLinks system.datastore.linkTable

/-- The links mirror the datastore in every state of a run of committed
transactions that only give texts to them. -/
theorem linksMirror_of_guarded (start : UplaneSystem schema)
    (commits reached : List (UplaneCommit schema))
    (nonempty : start.datastore.LinksNonempty) (starts : start.LinksMirror)
    (keeps : Guarded (fun system commit => commit.KeepsLinks system) UplaneCommit.step
      start commits)
    (prior : reached <+: commits) :
    UplaneSystem.LinksMirror (reached.foldl UplaneCommit.step start) := by
  have preserved : ∀ (system : UplaneSystem schema) (commit : UplaneCommit schema),
      system.LinksFollow → commit.KeepsLinks system →
        UplaneSystem.LinksFollow (UplaneCommit.step system commit) := by
    intro system commit held guard
    obtain ⟨follows, stored⟩ := guard.step held.2
    exact ⟨stored ▸ guard.nonempty held.1, follows⟩
  have holds := keeps.invariant_of_prefix preserved
    ⟨nonempty, (UplaneSystem.linksMirror_iff nonempty).mp starts⟩ prior
  exact (UplaneSystem.linksMirror_iff holds.1).mpr holds.2

/-- A schema of texts without leaf-lists. -/
def textSchema : UplaneSchema where
  leafLists := []
  typed _ text := .string text
  unambiguous _ _ inside := by simp at inside
  linkNodes _ := ⟨by simp, fun _ => rfl⟩

theorem uplaneConf_oneLine : '\n' ∉ "o-ran-uplane-conf".toList := by decide

/-- The handler as constructed over an empty datastore. -/
def emptySystem : UplaneSystem textSchema where
  handler :=
    ⟨UplaneState.constructed, [],
      ⟨⟨"o-ran-uplane-conf", uplaneConf_oneLine⟩, false, ∅, []⟩, none⟩
  datastore := ⟨∅, by simp⟩

/-- The leaf of an endpoint of a receive link. -/
def endpointNode : NodePath := LinkField.node ⟨.rx, "link0", .endpoint⟩

/-- A transaction of one change of that leaf. -/
def endpointCommit (change : LeafChange) (here : change.leaf.path = endpointNode) :
    UplaneCommit textSchema where
  validating := agreeable
  applying := agreeable
  surroundings := ⟨⟨fun _ => none⟩, true⟩
  transaction := ⟨[change], by simp⟩
  inUplane other member _ := ⟨_, (List.mem_singleton.mp member).symm ▸ here⟩

/-- The endpoint of a link is set and set again. -/
def setEndpoint : List (UplaneCommit textSchema) :=
  [endpointCommit (.created ⟨endpointNode, "rxep0"⟩) rfl,
    endpointCommit (.modified "rxep0" ⟨endpointNode, "rxep1"⟩) rfl]

/-- The endpoint of a link is set and deleted. -/
def deleteEndpoint : List (UplaneCommit textSchema) :=
  [endpointCommit (.created ⟨endpointNode, "rxep0"⟩) rfl,
    endpointCommit (.deleted ⟨endpointNode, "rxep0"⟩) rfl]

theorem linksMirror_emptySystem : emptySystem.LinksMirror := by
  intro direction name
  cases direction <;> simp [emptySystem, UplaneState.constructed, TxRx.get, Datastore.linkOf, Datastore.linkText]

theorem committed_created :
    (endpointCommit (.created ⟨endpointNode, "rxep0"⟩) rfl).Committed emptySystem := by
  decide +kernel

theorem linksMirror_setEndpoint :
    UplaneSystem.LinksMirror (setEndpoint.foldl UplaneCommit.step emptySystem) := by
  refine linksMirror_of_guarded emptySystem setEndpoint setEndpoint ?_ linksMirror_emptySystem
    ?_ (List.prefix_refl _)
  · intro field
    simp [emptySystem, Datastore.linkText]
  · have plain : ∀ change : LeafChange, change.leaf.path = endpointNode →
        ∀ other ∈ [change], ∀ field : LinkField, other.leaf.path = field.node → field.Plain := by
      intro change here other member field path
      rw [List.mem_singleton.mp member, here] at path
      have same : endpointNode.text = field.path := congrArg NodePath.text path
      exact LinkField.plain_of_path (same ▸ by decide +kernel) (same ▸ by decide +kernel)
    exact ⟨⟨committed_created, by decide +kernel, plain _ rfl⟩,
      ⟨by decide +kernel, by decide +kernel, plain _ rfl⟩, trivial⟩

/-- A deleted link stays with the carrier manager. -/
theorem deleted_link_stays :
    ¬ ∀ commits : List (UplaneCommit textSchema),
      Guarded (fun system commit => commit.Committed system) UplaneCommit.step
        emptySystem commits →
      UplaneSystem.LinksMirror (commits.foldl UplaneCommit.step emptySystem) := by
  intro mirrors
  have same := mirrors deleteEndpoint ⟨committed_created, by decide +kernel, trivial⟩ .rx "link0"
  exact absurd same (by decide +kernel)

end Runs

end OpenMplane
