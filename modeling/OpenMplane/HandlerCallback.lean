import OpenMplane.StatePrograms
import OpenMplane.YangPersist
import OpenMplane.YangParam

/-!
# Change events of a YANG module

sysrepo reports a transaction to `HandlerCallback::module_change` twice: as a
CHANGE event that may still be refused and as a DONE event once it is stored.
This file models the callback over the hooks of an arbitrary handler: the
read-only check, the validation of a CHANGE event, and the loop over the
changes of a DONE event that hands each value to the handler and then to the
persistence manager.
-/

namespace OpenMplane

open StatePrograms

/-- The results of sysrepo calls that the handlers return. -/
inductive SrError
  | ok
  | invalArg
  | validationFailed
  deriving DecidableEq, Repr

inductive SrEvent
  | change
  | done
  | other
  deriving DecidableEq

inductive SrChangeOper
  | created
  | modified
  | deleted
  | moved
  deriving DecidableEq

/-- A change as `get_change_next` returns it; the values may be null. -/
structure Change where
  oper : SrChangeOper
  oldVal : Option SrVal
  newVal : Option SrVal
  deriving DecidableEq

/-- The changes an iterator delivers, and the exception it ends with when it
does not reach its end. -/
structure ChangeIter where
  changes : List Change
  throws : Option StdException
  deriving DecidableEq

/-- The protected hooks of a handler with state `σ`. -/
structure Hooks (σ : Type) where
  valueChange : String → Option YangParam → YangParam → EStateM StdException σ Unit
  paramDelete : String → YangParam → EStateM StdException σ Unit
  validate : List YangParam → List YangParam → EStateM StdException σ SrError

/-- A handler object: the state of the derived class, the read-only paths, the
persistence manager and the file it saves to. -/
structure HandlerState (σ : Type) where
  derived : σ
  mReadOnlyPaths : List String
  persist : YangPersist
  file : Option String
  deriving DecidableEq

/-- What the callback finds around it: the datastore session and whether the
save file can be opened for writing. -/
structure Surroundings where
  session : SrSession
  opens : Bool

namespace YangHandlerSysrepoUnlogged

/-- The pairs that `setVal` hands to `YangPersist::set`: the value itself, then
whatever its xpath reads back as under other names.  It is assumed that a read of
the value just stored fails or finds it, so that `params` is not null. -/
def savedPairs (session : SrSession) (value : SrVal) : List (String × String) :=
  (value.xpath, value.valToString) ::
    match RadioDatastoreSysrepo.getItems session value.xpath with
    | none => []
    | some params => (params.filter fun param => param.name ≠ value.xpath).map fun param =>
        (param.name, YangParamUtils.toString param)

def setVal (session : SrSession) (value : SrVal) (persist : YangPersist) : YangPersist :=
  persist.setPairs (savedPairs session value)

end YangHandlerSysrepoUnlogged

namespace HandlerCallback

variable {σ α : Type}

/-- The state of the derived class. -/
def derived : Member (HandlerState σ) σ where
  get := HandlerState.derived
  put state derived := { state with derived := derived }
  get_put _ _ := rfl
  put_get _ := rfl
  put_put _ _ _ := rfl

/-- A hook of the derived class. -/
def onDerived (hook : EStateM StdException σ α) : EStateM StdException (HandlerState σ) α :=
  focus derived hook

/-- `mSetValFunc`. -/
def setValFunc (session : SrSession) (value : SrVal) :
    EStateM StdException (HandlerState σ) Unit :=
  modify fun state => { state with
    persist := YangHandlerSysrepoUnlogged.setVal session value state.persist }

/-- `mChangeCompleteFunc`. -/
def changeCompleteFunc (opens : Bool) : EStateM StdException (HandlerState σ) Unit :=
  modify fun state => { state with file := (state.persist.write opens state.file).2 }

/-- The end of an iteration. -/
def finish (iter : ChangeIter) : EStateM StdException σ Unit :=
  match iter.throws with
  | none => pure ()
  | some exception => throw exception

/-- The value path that one change of `checkPseudoReadOnly` leaves behind; a
change without the values it needs keeps the path of the one before it. -/
def nextValuePath (valuePath : String) (change : Change) : String :=
  match change.oper, change.oldVal, change.newVal with
  | .created, _, some new => new.xpath
  | .deleted, some old, _ => old.xpath
  | .modified, some old, some _ => old.xpath
  | .moved, some old, some _ => old.xpath
  | .moved, none, some new => new.xpath
  | _, _, _ => valuePath

/-- The loop of `checkPseudoReadOnly`: whether a change is refused. -/
def refusesReadOnly (readOnlyPaths : List String) : String → List Change → Bool
  | _, [] => false
  | valuePath, change :: changes =>
      let valuePath := nextValuePath valuePath change
      if valuePath ≠ "" ∧ (readOnlyPaths.any fun path => startsWith valuePath path) then true
      else refusesReadOnly readOnlyPaths valuePath changes

/-- `HandlerCallback::checkPseudoReadOnly`; an exception of the iterator is
swallowed. -/
def checkPseudoReadOnly (readOnlyPaths : List String) (iter : ChangeIter) : SrError :=
  if readOnlyPaths = [] then .ok
  else if refusesReadOnly readOnlyPaths "" iter.changes then .validationFailed
  else .ok

/-- The `param` that one change of `handleChangeEvent` leaves behind. -/
def nextParam (param : Option YangParam) (change : Change) : Option YangParam :=
  let value := if change.oper = .deleted then change.oldVal else change.newVal
  match value with
  | some value => some value.toParam
  | none => param

/-- The loop of `handleChangeEvent`: the modified and the deleted parameters. -/
def changeParams :
    Option YangParam → List Change → List YangParam × List YangParam
  | _, [] => ([], [])
  | param, change :: changes =>
      let param := nextParam param change
      let (params, deletedParams) := changeParams param changes
      match param with
      | none => (params, deletedParams)
      | some value =>
          if YangParamUtils.toString value = "" then (params, deletedParams)
          else if change.oper ≠ .deleted then (value :: params, deletedParams)
          else (params, value :: deletedParams)

/-- `HandlerCallback::handleChangeEvent`; an exception gives OK. -/
def handleChangeEvent (hooks : Hooks σ) (iter : ChangeIter) :
    EStateM StdException (HandlerState σ) SrError := fun state =>
  match iter.throws with
  | some _ => .ok .ok state
  | none =>
      let (params, deletedParams) := changeParams none iter.changes
      if params = [] then .ok .ok state
      else match onDerived (hooks.validate params deletedParams) state with
        | .ok result state => .ok result state
        | .error _ state => .ok .ok state

/-- One pass of the loop in `handleDoneEvent`. -/
def doneChange (hooks : Hooks σ) (session : SrSession) (xpathString : String)
    (change : Change) : EStateM StdException (HandlerState σ) Unit :=
  match change.oper, change.oldVal, change.newVal with
  | .created, _, some new => do
      onDerived (hooks.valueChange xpathString none new.toParam)
      setValFunc session new
  | .deleted, some old, _ =>
      onDerived (hooks.paramDelete xpathString old.toParam)
  | .modified, some old, some new => do
      onDerived (hooks.valueChange xpathString (some old.toParam) new.toParam)
      setValFunc session new
  | .moved, some old, some new => do
      onDerived (hooks.valueChange xpathString (some old.toParam) new.toParam)
      setValFunc session new
  | .moved, none, some new => do
      onDerived (hooks.valueChange xpathString none new.toParam)
      setValFunc session new
  | _, _, _ => pure ()

/-- The `try` block of `handleDoneEvent`. -/
def doneChanges (hooks : Hooks σ) (surroundings : Surroundings) (xpathString : String)
    (iter : ChangeIter) : EStateM StdException (HandlerState σ) Unit := do
  forM iter.changes (doneChange hooks surroundings.session xpathString)
  finish iter
  changeCompleteFunc surroundings.opens

def handleDoneEvent (hooks : Hooks σ) (surroundings : Surroundings) (xpathString : String)
    (iter : ChangeIter) : EStateM StdException (HandlerState σ) SrError := do
  swallow (doneChanges hooks surroundings xpathString iter)
  return .ok

/-- `HandlerCallback::module_change`; no xpath when the subscription was made
without one. -/
def module_change (hooks : Hooks σ) (surroundings : Surroundings) (iter : ChangeIter)
    (xpath : Option String) (event : SrEvent) :
    EStateM StdException (HandlerState σ) SrError := do
  let xpathString := xpath.getD ""
  match event with
  | .change =>
      let state ← get
      let rc := checkPseudoReadOnly state.mReadOnlyPaths iter
      if rc ≠ .ok then return rc
      handleChangeEvent hooks iter
  | .other => return .ok
  | .done => handleDoneEvent hooks surroundings xpathString iter

section Done

/-- What the derived class does in one pass of the loop. -/
def changeHook (hooks : Hooks σ) (xpathString : String) (change : Change) :
    EStateM StdException σ Unit :=
  match change.oper, change.oldVal, change.newVal with
  | .created, _, some new => hooks.valueChange xpathString none new.toParam
  | .deleted, some old, _ => hooks.paramDelete xpathString old.toParam
  | .modified, some old, some new =>
      hooks.valueChange xpathString (some old.toParam) new.toParam
  | .moved, old, some new => hooks.valueChange xpathString (old.map SrVal.toParam) new.toParam
  | _, _, _ => pure ()

/-- The pairs that one pass of the loop saves. -/
def changePairs (session : SrSession) (change : Change) : List (String × String) :=
  match change.oper, change.oldVal, change.newVal with
  | .created, _, some new | .modified, some _, some new | .moved, _, some new =>
      YangHandlerSysrepoUnlogged.savedPairs session new
  | _, _, _ => []

/-- One pass is a hook of the derived class and then a batch of saves. -/
theorem doneChange_eq (hooks : Hooks σ) (session : SrSession) (xpathString : String)
    (change : Change) :
    doneChange hooks session xpathString change = (do
      onDerived (changeHook hooks xpathString change)
      modify fun state => { state with
        persist := state.persist.setPairs (changePairs session change) }) := by
  obtain ⟨oper, oldVal, newVal⟩ := change
  cases oper with
  | deleted =>
      -- a deletion saves nothing: the second half writes the state back
      cases oldVal with
      | none => rfl
      | some old => exact bind_pure_unit.symm
  | created | modified | moved =>
      rcases oldVal with _ | old <;> rcases newVal with _ | new <;> rfl

/-- The derived class over the changes of an event, as far as no hook throws. -/
def changeHooks (hooks : Hooks σ) (xpathString : String) (changes : List Change) :
    EStateM StdException σ Unit :=
  forM changes (changeHook hooks xpathString)

variable {hooks : Hooks σ} {session : SrSession} {xpathString : String}

theorem doneChange_of_ok {change : Change} {state : HandlerState σ} {derived : σ}
    (returned : changeHook hooks xpathString change state.derived = .ok () derived) :
    doneChange hooks session xpathString change state = .ok () { state with
      derived := derived
      persist := state.persist.setPairs (changePairs session change) } := by
  have hook : onDerived (changeHook hooks xpathString change) state =
      .ok () { state with derived := derived } :=
    focus_ok HandlerCallback.derived returned
  rw [doneChange_eq, bind_ok hook, modify_apply]

/-- One pass whose hook throws. -/
theorem doneChange_of_error {change : Change} {state : HandlerState σ} {derived : σ}
    {exception : StdException}
    (thrown : changeHook hooks xpathString change state.derived = .error exception derived) :
    doneChange hooks session xpathString change state =
      .error exception { state with derived := derived } := by
  have hook : onDerived (changeHook hooks xpathString change) state =
      .error exception { state with derived := derived } :=
    focus_error HandlerCallback.derived thrown
  rw [doneChange_eq, bind_error hook]

/-- The loop leaves the derived class where its hooks leave it. -/
theorem finalState_forM_doneChange_derived (session : SrSession) (changes : List Change) (state : HandlerState σ) :
    (finalState (forM changes (doneChange hooks session xpathString) state)).derived =
      finalState (changeHooks hooks xpathString changes state.derived) := by
  induction changes generalizing state with
  | nil => rfl
  | cons change changes ih =>
      rw [changeHooks, List.forM_cons, List.forM_cons]
      cases run : changeHook hooks xpathString change state.derived with
      | ok value derived =>
          rw [bind_ok (doneChange_of_ok run), bind_ok run, ih]
          rfl
      | error exception derived =>
          rw [bind_error (doneChange_of_error run), bind_error run]
          rfl

theorem forM_doneChange_of_ok {changes : List Change} {state : HandlerState σ} {derived : σ}
    (returned : changeHooks hooks xpathString changes state.derived = .ok () derived) :
    forM changes (doneChange hooks session xpathString) state = .ok () { state with
      derived := derived
      persist := state.persist.setPairs (changes.flatMap (changePairs session)) } := by
  unfold changeHooks at returned
  induction changes generalizing state with
  | nil =>
      have same : state.derived = derived := by simpa using returned
      rw [← same]
      rfl
  | cons change changes ih =>
      rw [List.forM_cons, bind_eq_ok] at returned
      obtain ⟨value, middle, head, tail⟩ := returned
      rw [List.forM_cons, bind_ok (doneChange_of_ok head), ih tail]
      simp [YangPersist.setPairs]

theorem module_change_done (hooks : Hooks σ) (surroundings : Surroundings)
    (iter : ChangeIter) (xpath : Option String) (state : HandlerState σ) :
    module_change hooks surroundings iter xpath .done state =
      .ok .ok (finalState (doneChanges hooks surroundings (xpath.getD "") iter state)) := rfl

/-- A DONE event leaves the derived class where its hooks leave it. -/
theorem module_change_done_derived (hooks : Hooks σ) (surroundings : Surroundings)
    (iter : ChangeIter) (xpath : Option String) (state : HandlerState σ) :
    (finalState (module_change hooks surroundings iter xpath .done state)).derived =
      finalState (changeHooks hooks (xpath.getD "") iter.changes state.derived) := by
  rw [module_change_done, finalState_ok, doneChanges,
    ← finalState_forM_doneChange_derived surroundings.session]
  cases run : forM iter.changes (doneChange hooks surroundings.session (xpath.getD "")) state with
  | ok value middle =>
      rw [bind_ok run, finish]
      cases iter.throws <;> rfl
  | error exception middle => rw [bind_error run]

theorem module_change_done_of_ok (hooks : Hooks σ) (surroundings : Surroundings)
    (iter : ChangeIter) (xpath : Option String) {state : HandlerState σ} {derived : σ} (ends : iter.throws = none)
    (returned : changeHooks hooks (xpath.getD "") iter.changes state.derived = .ok () derived) :
    let persist := state.persist.setPairs
      (iter.changes.flatMap (changePairs surroundings.session))
    finalState (module_change hooks surroundings iter xpath .done state) = { state with
      derived := derived
      persist := persist
      file := (persist.write surroundings.opens state.file).2 } := by
  rw [module_change_done, finalState_ok, doneChanges, bind_ok (forM_doneChange_of_ok returned),
    finish, ends]
  rfl

/-- However far it is processed, a DONE event that saves no persistent value leaves
the saved map alone and at most writes the file. -/
theorem module_change_done_of_unmatched (hooks : Hooks σ) (surroundings : Surroundings)
    (iter : ChangeIter) (xpath : Option String) {state : HandlerState σ}
    (unmatched : ∀ pair ∈ iter.changes.flatMap (changePairs surroundings.session),
      ¬ state.persist.xpathMatchesPersist pair.1) :
    let final := finalState (module_change hooks surroundings iter xpath .done state)
    final.persist = state.persist ∧
      (final.file = state.file ∨
        final.file = (state.persist.write surroundings.opens state.file).2) := by
  have loop : Within (Keeps fun after : HandlerState σ =>
      after.persist = state.persist ∧ after.file = state.file)
      (forM iter.changes (doneChange hooks surroundings.session (xpath.getD ""))) := by
    refine Within.forM fun change member => ?_
    rw [doneChange_eq]
    refine Within.bind (Within.focus fun _ _ same => same) fun _ => Within.modify fun after same => ?_
    refine ⟨?_, same.2⟩
    dsimp only
    rw [same.1]
    exact YangPersist.setPairs_of_unmatched fun pair inside =>
      unmatched pair (List.mem_flatMap.mpr ⟨change, member, inside⟩)
  have kept := loop state ⟨rfl, rfl⟩
  rw [module_change_done, finalState_ok, doneChanges]
  cases run : forM iter.changes (doneChange hooks surroundings.session (xpath.getD "")) state with
  | ok value middle =>
      rw [run, finalState_ok] at kept
      rw [bind_ok run, finish]
      cases iter.throws with
      | none => exact ⟨kept.1, Or.inr (by rw [← kept.1, ← kept.2]; rfl)⟩
      | some exception => exact ⟨kept.1, Or.inl kept.2⟩
  | error exception middle =>
      rw [run, finalState_error] at kept
      rw [bind_error run]
      exact ⟨kept.1, Or.inl kept.2⟩

end Done

section Validation

variable {hooks : Hooks σ}

/-- A CHANGE event leaves the derived class alone or where its validation
leaves it. -/
theorem module_change_change_derived (hooks : Hooks σ) (surroundings : Surroundings)
    (iter : ChangeIter) (xpath : Option String) (state : HandlerState σ) :
    let final := (finalState (module_change hooks surroundings iter xpath .change state)).derived
    let params := changeParams none iter.changes
    final = state.derived ∨ final = finalState (hooks.validate params.1 params.2 state.derived) := by
  dsimp only [module_change]
  rw [bind_ok (get_apply state)]
  split
  · exact Or.inl rfl
  · unfold handleChangeEvent
    dsimp only
    cases iter.throws with
    | some exception => exact Or.inl rfl
    | none =>
        dsimp only
        split
        · exact Or.inl rfl
        · refine Or.inr ?_
          cases run : hooks.validate (changeParams none iter.changes).1
              (changeParams none iter.changes).2 state.derived with
          | ok result part =>
              have hook : onDerived (hooks.validate _ _) state = _ := focus_ok derived run
              rw [hook]
              rfl
          | error exception part =>
              have hook : onDerived (hooks.validate _ _) state = _ := focus_error derived run
              rw [hook]
              rfl

end Validation

end HandlerCallback

end OpenMplane
