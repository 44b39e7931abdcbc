import OpenMplane.UplaneDone

/-!
# Where compression leaves go

The subscription of the handler has no path, so a DONE event hands `valueChange`
an empty one, and `processValue` looks for `/compression/` in that.  This file
says what the leaves of an endpoint's `compression` container should reach, and
that none of them does: every leaf of an endpoint goes to the eaxc function.
-/

namespace OpenMplane

open StatePrograms

namespace OranUplaneConfHandler

section Paths

/-- The path of the `compression` container of an endpoint, up to its leaves. -/
def compressionPath (direction : Direction) (endpointName : String) : String :=
  callbackPath ++ "/" ++ ("low-level-" ++ direction.txrx ++ "-endpoints") ++ "[" ++
    ("name='" ++ endpointName ++ "']/compression/")

/-- The path of an entry of the dynamic configuration, up to its leaves. -/
def dynCompPath (direction : Direction) (endpointName id : String) : String :=
  compressionPath direction endpointName ++ "dynamic-compression-configuration[id='" ++ id ++
    "']/"

/-- The leaf lies in the `compression` container of the endpoint. -/
def UnderCompression (direction : Direction) (endpointName xpath : String) : Prop :=
  ∃ rest, xpath = compressionPath direction endpointName ++ rest

/-- The leaf is one of the dynamic configuration with that id. -/
def UnderDynComp (direction : Direction) (endpointName id xpath : String) : Prop :=
  ∃ leaf, xpath = dynCompPath direction endpointName id ++ leaf ∧ '/' ∉ leaf.toList

/-- Every leaf of a `compression` container is taken for an eaxc leaf. -/
theorem route_of_underCompression {direction : Direction} {endpointName : String}
    {param : YangParam} (under : UnderCompression direction endpointName param.name) :
    ∃ name leaf value, Route.of param = .endpoint direction name leaf value := by
  obtain ⟨rest, path⟩ := under
  have closed : ']' ∈ ("name='" ++ endpointName ++ "']/compression/" ++ rest).toList := by
    simp
  have listed : (listIndex param.name).listName =
      "low-level-" ++ direction.txrx ++ "-endpoints" := by
    have shape : compressionPath direction endpointName ++ rest =
        callbackPath ++ "/" ++ ("low-level-" ++ direction.txrx ++ "-endpoints") ++ "[" ++
          ("name='" ++ endpointName ++ "']/compression/" ++ rest) := by
      simp [compressionPath, String.append_assoc]
    rw [path, shape]
    exact listIndex_listName (by decide +kernel) (by cases direction <;> decide +kernel) closed
  refine ⟨(listIndex param.name).value, leafName param.name, YangParamUtils.toString param, ?_⟩
  unfold Route.of
  cases direction <;> simp [listed, Direction.txrx]

end Paths

section Handed

variable (env : UplaneEnv)

/-- The leaf is handed to the eaxc function in that call. -/
def HandsTo (param : YangParam) (path : String) (call : HandlerCall) : Prop :=
  ∃ direction name leaf value, Route.of param = .endpoint direction name leaf value ∧
    path = param.name ∧ call = .handleEaxc name leaf value direction

theorem handed_mem_iff_of_leafEffects {param : YangParam} {effects : List Effect}
    (made : LeafEffects env param effects) (path : String) (call : HandlerCall) :
    .handed path call ∈ effects ↔ HandsTo param path call := by
  cases made with
  | none quiet notActivated =>
      simp only [List.not_mem_nil, false_iff]
      rintro ⟨direction, name, leaf, value, route, -⟩
      exact quiet direction name leaf value route
  | active route result =>
      simp only [List.mem_singleton, reduceCtorEq, false_iff]
      rintro ⟨direction, name, leaf, value, other, -⟩
      rw [route] at other
      contradiction
  | @endpoint direction name leaf value effects route madeEndpoint =>
      have only : HandsTo param path call ↔
          path = param.name ∧ call = .handleEaxc name leaf value direction := by
        constructor
        · rintro ⟨otherDirection, otherName, otherLeaf, otherValue, other, same⟩
          rw [route, Route.endpoint.injEq] at other
          obtain ⟨rfl, rfl, rfl, rfl⟩ := other
          exact same
        · exact fun same => ⟨direction, name, leaf, value, route, same⟩
      rw [only]
      cases madeEndpoint <;> simp

/-- Whatever a DONE phase hands on goes to the eaxc function, and it hands on
every endpoint leaf it comes to. -/
theorem donePhase_handed (changes : ValueChanges) (state : UplaneState) :
    ∃ effects, (finalState (donePhase env changes state)).trace = state.trace ++ effects ∧
      ∀ path call, .handed path call ∈ effects ↔
        ∃ change ∈ reached changes, HandsTo change.2 path call := by
  induction changes generalizing state with
  | nil => exact ⟨[], by simp [donePhase], by simp [reached]⟩
  | cons change changes ih =>
      by_cases throws : (Route.of change.2).Throws
      · obtain ⟨direction, name, leaf, value, exception, route, run⟩ :=
          processLeaf_of_throws env throws state
        have stops : valueChange env "" change.1 change.2 state = .error exception
            ((Route.apply state (Route.of change.2)).withTrace
              [.handed change.2.name (.handleEaxc name leaf value direction)]) := by
          rw [valueChange, bind_error run]
        refine ⟨[.handed change.2.name (.handleEaxc name leaf value direction)], ?_, ?_⟩
        · rw [donePhase, List.forM_cons, bind_error stops, finalState_error,
            UplaneState.withTrace_trace, Route.apply_trace]
        · intro path call
          rw [reached, if_pos throws]
          simp [HandsTo, route]
      · obtain ⟨own, made, run⟩ := valueChange_of_not_throws env throws change.1 state
        obtain ⟨later, trace, handed⟩ :=
          ih ((Route.apply state (Route.of change.2)).withTrace own)
        refine ⟨own ++ later, ?_, ?_⟩
        · rw [donePhase, List.forM_cons, bind_ok run, ← donePhase, trace]
          simp
        · intro path call
          rw [reached, if_neg throws, List.mem_append, handed,
            handed_mem_iff_of_leafEffects env made]
          simp

end Handed

section Events

variable (env : UplaneEnv)

/-- The value that a change creates or modifies a leaf with. -/
def storedValue (change : Change) : Option SrVal :=
  match change.oper with
  | .created | .modified => change.newVal
  | .deleted | .moved => none

/-- A leaf of the dynamic configuration, or one that `handleCompression` has a
branch for. -/
def HandledCompression (direction : Direction) (endpointName : String) (param : YangParam) :
    Prop :=
  (∃ id, UnderDynComp direction endpointName id param.name) ∨
    compressionArguments (leafName param.name) (YangParamUtils.toString param) ≠ none

/-- The value of a leaf of a `compression` container reaches the compression
update of its endpoint, and not the eaxc function. -/
structure ReachesCompression (direction : Direction) (endpointName : String)
    (param : YangParam) (effects : List Effect) : Prop where
  dynamic : ∀ id, UnderDynComp direction endpointName id param.name →
    .handed param.name (.handleDynCompConfig endpointName id (leafName param.name)
      (YangParamUtils.toString param) direction) ∈ effects
  dynamicUpdate : ∀ id, UnderDynComp direction endpointName id param.name →
    dynCompArguments (leafName param.name) (YangParamUtils.toString param) ≠ none →
    ∃ config result,
      .hal (.updateEndpointCompressionDynConfig direction endpointName config) result ∈ effects
  static : (∀ id, ¬ UnderDynComp direction endpointName id param.name) →
    compressionArguments (leafName param.name) (YangParamUtils.toString param) ≠ none →
    .handed param.name (.handleCompression endpointName (leafName param.name)
      (YangParamUtils.toString param) direction) ∈ effects
  staticUpdate : (∀ id, ¬ UnderDynComp direction endpointName id param.name) →
    compressionArguments (leafName param.name) (YangParamUtils.toString param) ≠ none →
    ∃ compression result,
      .hal (.updateEndpointCompression direction endpointName compression) result ∈ effects
  notEaxc : ∀ name leaf value other,
    .handed param.name (.handleEaxc name leaf value other) ∉ effects

/-- Where a leaf of a `compression` container is handed to, when every handed
leaf of an endpoint goes to the eaxc function. -/
theorem reachesCompression_iff {direction : Direction} {endpointName : String}
    {param : YangParam} {effects : List Effect} {changes : ValueChanges}
    (under : UnderCompression direction endpointName param.name)
    (handed : ∀ path call, .handed path call ∈ effects ↔
      ∃ change ∈ reached changes, HandsTo change.2 path call) :
    ReachesCompression direction endpointName param effects ↔
      ¬ HandledCompression direction endpointName param ∧
        ∀ change ∈ reached changes, change.2.name ≠ param.name := by
  constructor
  · intro reaches
    refine ⟨?_, ?_⟩
    · intro handled
      have goesElsewhere : ∀ call, .handed param.name call ∈ effects →
          ∃ name leaf value other, call = .handleEaxc name leaf value other := by
        intro call member
        obtain ⟨change, -, other, name, leaf, value, -, -, rfl⟩ := (handed _ _).mp member
        exact ⟨name, leaf, value, other, rfl⟩
      by_cases dynamic : ∃ id, UnderDynComp direction endpointName id param.name
      · obtain ⟨id, inside⟩ := dynamic
        obtain ⟨_, _, _, _, impossible⟩ := goesElsewhere _ (reaches.dynamic id inside)
        contradiction
      · obtain ⟨_, _, _, _, impossible⟩ := goesElsewhere _
          (reaches.static (not_exists.mp dynamic) (handled.resolve_left dynamic))
        contradiction
    · intro change member same
      -- the leaf that is reached lies under the same container
      obtain ⟨name, leaf, value, route⟩ := route_of_underCompression (same ▸ under)
      exact reaches.notEaxc name leaf value direction
        ((handed _ _).mpr ⟨change, member, direction, name, leaf, value, route, same.symm, rfl⟩)
  · rintro ⟨unhandled, unreached⟩
    have static : compressionArguments (leafName param.name) (YangParamUtils.toString param) =
        none := by
      by_contra some
      exact unhandled (Or.inr some)
    refine ⟨fun id inside => ?_, fun id inside => ?_, fun _ some => ?_, fun _ some => ?_, ?_⟩
    · exact absurd (Or.inl ⟨id, inside⟩) unhandled
    · exact absurd (Or.inl ⟨id, inside⟩) unhandled
    · exact absurd static some
    · exact absurd static some
    · intro name leaf value other member
      obtain ⟨change, inside, _, _, _, _, -, path, -⟩ := (handed _ _).mp member
      exact unreached change inside path.symm

/-- The effects of a DONE event of the module. -/
def eventEffects (surroundings : Surroundings) (iter : ChangeIter)
    (state : HandlerState UplaneState) : List Effect :=
  newEffects state.derived (finalState
    (HandlerCallback.module_change (hooks env) surroundings iter none .done state)).derived

theorem handed_mem_eventEffects (surroundings : Surroundings) (iter : ChangeIter)
    (state : HandlerState UplaneState) (path : String) (call : HandlerCall) :
    .handed path call ∈ eventEffects env surroundings iter state ↔
      ∃ change ∈ reached (eventChanges iter), HandsTo change.2 path call := by
  obtain ⟨effects, trace, handed⟩ := donePhase_handed env (eventChanges iter) state.derived
  rw [eventEffects, HandlerCallback.module_change_done_derived, Option.getD_none,
    changeHooks_eq_donePhase]
  rw [eventChanges] at trace
  rw [newEffects, trace, List.drop_left, handed]

/-- The leaves of an event's `compression` containers reach the compression
updates exactly when none of them is one that the updates handle, and the event
comes to none of them. -/
theorem reachesCompression_event_iff (surroundings : Surroundings) (iter : ChangeIter)
    (state : HandlerState UplaneState) :
    (∀ change ∈ iter.changes, ∀ value, storedValue change = some value →
      ∀ direction endpointName, UnderCompression direction endpointName value.xpath →
        ReachesCompression direction endpointName value.toParam
          (eventEffects env surroundings iter state)) ↔
      ∀ change ∈ iter.changes, ∀ value, storedValue change = some value →
        ∀ direction endpointName, UnderCompression direction endpointName value.xpath →
          ¬ HandledCompression direction endpointName value.toParam ∧
            ∀ other ∈ reached (eventChanges iter), other.2.name ≠ value.xpath := by
  have handed := handed_mem_eventEffects env surroundings iter state
  constructor
  · intro reaches change member value stored direction endpointName under
    have iff : ReachesCompression direction endpointName value.toParam _ ↔ _ :=
      reachesCompression_iff under handed
    exact iff.mp
      (reaches change member value stored direction endpointName under)
  · intro passed change member value stored direction endpointName under
    have iff : ReachesCompression direction endpointName value.toParam _ ↔ _ :=
      reachesCompression_iff under handed
    exact iff.mpr
      (passed change member value stored direction endpointName under)

/-- The event that creates the bit width of an endpoint's compression. -/
def iqBitwidthEvent : ChangeIter :=
  ⟨[⟨.created, none, some ⟨compressionPath .rx "ep0" ++ "iq-bitwidth", .uint8 9, "9"⟩⟩], none⟩

/-- The handler before its first event. -/
def idleHandler : HandlerState UplaneState :=
  ⟨UplaneState.constructed, [], ⟨⟨"o-ran-uplane-conf", by decide⟩, false, ∅, []⟩, none⟩

/-- The bit width of an endpoint's compression goes to the eaxc function. -/
theorem iqBitwidth_goes_to_eaxc :
    ¬ ∀ change ∈ iqBitwidthEvent.changes, ∀ value, storedValue change = some value →
      ∀ direction endpointName, UnderCompression direction endpointName value.xpath →
        ReachesCompression direction endpointName value.toParam
          (eventEffects agreeable ⟨⟨fun _ => none⟩, true⟩ iqBitwidthEvent idleHandler) := by
  intro reaches
  have notEaxc := (reaches _ (List.mem_singleton.mpr rfl) _ rfl .rx "ep0"
    ⟨"iq-bitwidth", rfl⟩).notEaxc "ep0" "iq-bitwidth" "9" .rx
  exact notEaxc (by decide +kernel)

end Events

end OranUplaneConfHandler

end OpenMplane
