import OpenMplane.RadioDatastore
import OpenMplane.YangParam
import Mathlib.Logic.Function.Basic

/-!
# Edits of the radio datastore

A call that changes items queues edits in a session and applies them.  A session
of sysrepo keeps its edits until they are applied, and no call discards the edits
of one that failed, so the next call on the session applies them too.  Calls are
exact where none are left.
-/

namespace OpenMplane

open GuardedRuns StatePrograms

/-- An edit of a session, as it was asked for. -/
inductive Edit
  | set_item (xpath : String) (value : Option YangParam)
  | set_item_str (xpath value : String)
  | delete_item (xpath : String)
  deriving DecidableEq

/-- A session with the edits it has collected. -/
structure EditSession where
  datastore : SrDatastore
  edits : List Edit
  deriving DecidableEq

/-- The datastore, and what sysrepo has in each of its own. -/
structure EditedDatastore (content : Type) where
  mState : DatastoreState
  mSrSessions : List EditSession
  stores : SrDatastore → content

namespace EditedDatastore

open RadioDatastoreSysrepo

variable {content : Type} (apply : content → Edit → content)

abbrev EditM (content : Type) := EStateM DatastoreException (EditedDatastore content)

section Sysrepo

/-- The session that a call with this number works on, where it gets that far. -/
def sessionOf (datastoreId : Nat) (datastore : EditedDatastore content) : Option EditSession :=
  sessionAt datastore.mState datastore.mSrSessions datastoreId

/-- `set_item`, `set_item_str` and `delete_item` of a session: a call that throws
adds no edit. -/
def addEdit (datastoreId : Nat) (code : SrErrorCode) (edit : Edit) : EditM content Unit := do
  call code
  modify fun datastore => { datastore with
    mSrSessions := datastore.mSrSessions.modify datastoreId fun session =>
      { session with edits := session.edits ++ [edit] } }

/-- `apply_changes` of a session: a call that throws keeps the edits. -/
def applyChanges (datastoreId : Nat) (code : SrErrorCode) : EditM content Unit := do
  call code
  modify fun datastore =>
    match datastore.mSrSessions[datastoreId]? with
    | none => datastore
    | some session => { datastore with
        mSrSessions := datastore.mSrSessions.set datastoreId { session with edits := [] }
        stores := Function.update datastore.stores session.datastore
          (session.edits.foldl apply (datastore.stores session.datastore)) }

end Sysrepo

section Source

/-- The calls of a session for a list of edits; `outcome` says how the session's
calls end, from the one with the number on. -/
def addEdits (datastoreId : Nat) (outcome : Nat → SrErrorCode) :
    Nat → List Edit → EditM content Unit
  | _, [] => pure ()
  | index, edit :: edits => do
      addEdit datastoreId (outcome index) edit
      addEdits datastoreId outcome (index + 1) edits

/-- The body of the `try` of a call that changes items. -/
def applyEdits (datastoreId : Nat) (edits : List Edit) (outcome : Nat → SrErrorCode) :
    EditM content YangResult := do
  addEdits datastoreId outcome 0 edits
  applyChanges apply datastoreId (outcome edits.length)
  pure .OK

/-- What the calls that change items share. -/
def change (datastoreId : Nat) (edits : List Edit) (halt : Bool)
    (outcome : Nat → SrErrorCode) : EditM content YangResult := do
  match (← get).sessionOf datastoreId with
  | none => pure .FAIL
  | some _ =>
      catching (applyEdits apply datastoreId edits outcome) (exceptionHandler · halt)

def setItem (xpath : String) (param : YangParam) (datastoreId : Nat) :
    (Nat → SrErrorCode) → EditM content YangResult :=
  change apply datastoreId [.set_item xpath (some param)] false

def setItemStr (xpath value : String) (datastoreId : Nat) :
    (Nat → SrErrorCode) → EditM content YangResult :=
  change apply datastoreId [.set_item_str xpath value] false

/-- `RadioDatastoreSysrepo::setItems`; every value is set under the one xpath. -/
def setItems (xpath : String) (params : List YangParam) (datastoreId : Nat) :
    (Nat → SrErrorCode) → EditM content YangResult :=
  change apply datastoreId (params.map fun param => .set_item xpath (some param)) false

def deleteItem (xpath : String) (datastoreId : Nat) :
    (Nat → SrErrorCode) → EditM content YangResult :=
  change apply datastoreId [.delete_item xpath] false

/-- The edits of `createListEntry` with texts. -/
def entryEdits (xpath : String) (values : StdMap String) : List Edit :=
  .set_item xpath none :: values.toList.map fun entry =>
    .set_item_str (xpath ++ "/" ++ entry.1) entry.2

/-- `RadioDatastoreSysrepo::createListEntry` with texts, which throws on. -/
def createListEntry (xpath : String) (values : StdMap String) (datastoreId : Nat) :
    (Nat → SrErrorCode) → EditM content YangResult :=
  change apply datastoreId (entryEdits xpath values) true

/-- The edits of `createListEntry` with pointers to texts. -/
def pointedEdits (xpath : String) (values : StdMap (Option String)) : List Edit :=
  .set_item xpath none :: values.toList.map fun entry =>
    match entry.2 with
    | some text => .set_item_str (xpath ++ "/" ++ entry.1) text
    | none => .set_item (xpath ++ "/" ++ entry.1) none

/-- `RadioDatastoreSysrepo::createListEntry` with pointers, which does not. -/
def createListEntryPointers (xpath : String) (values : StdMap (Option String))
    (datastoreId : Nat) : (Nat → SrErrorCode) → EditM content YangResult :=
  change apply datastoreId (pointedEdits xpath values) false

/-- The xpath of an entry with its key, as the other two `createListEntry` make it. -/
def keyedPath (xpath key keyval : String) : String :=
  xpath ++ "[" ++ key ++ "='" ++ keyval ++ "']"

/-- A call that changes items. -/
inductive ItemCall
  | setItem (xpath : String) (param : YangParam)
  | setItemStr (xpath value : String)
  | setItems (xpath : String) (params : List YangParam)
  | deleteItem (xpath : String)
  | createListEntry (xpath : String) (values : StdMap String)
  | createKeyedEntry (xpath key keyval : String) (values : StdMap String)
  | createListEntryPointers (xpath : String) (values : StdMap (Option String))
  | createKeyedEntryPointers (xpath key keyval : String) (values : StdMap (Option String))

/-- The call on a datastore, with how the calls of the session end. -/
structure DatastoreCall where
  item : ItemCall
  datastoreId : Nat
  outcome : Nat → SrErrorCode

def DatastoreCall.run (made : DatastoreCall) : EditM content YangResult :=
  match made.item with
  | .setItem xpath param => EditedDatastore.setItem apply xpath param made.datastoreId made.outcome
  | .setItemStr xpath value =>
      EditedDatastore.setItemStr apply xpath value made.datastoreId made.outcome
  | .setItems xpath params =>
      EditedDatastore.setItems apply xpath params made.datastoreId made.outcome
  | .deleteItem xpath => EditedDatastore.deleteItem apply xpath made.datastoreId made.outcome
  | .createListEntry xpath values =>
      EditedDatastore.createListEntry apply xpath values made.datastoreId made.outcome
  | .createKeyedEntry xpath key keyval values =>
      EditedDatastore.createListEntry apply (keyedPath xpath key keyval) values
        made.datastoreId made.outcome
  | .createListEntryPointers xpath values =>
      EditedDatastore.createListEntryPointers apply xpath values made.datastoreId made.outcome
  | .createKeyedEntryPointers xpath key keyval values =>
      EditedDatastore.createListEntryPointers apply (keyedPath xpath key keyval) values
        made.datastoreId made.outcome

end Source

section Specs

def ItemCall.edits : ItemCall → List Edit
  | .setItem xpath param => [.set_item xpath (some param)]
  | .setItemStr xpath value => [.set_item_str xpath value]
  | .setItems xpath params => params.map fun param => .set_item xpath (some param)
  | .deleteItem xpath => [.delete_item xpath]
  | .createListEntry xpath values => entryEdits xpath values
  | .createKeyedEntry xpath key keyval values => entryEdits (keyedPath xpath key keyval) values
  | .createListEntryPointers xpath values => pointedEdits xpath values
  | .createKeyedEntryPointers xpath key keyval values =>
      pointedEdits (keyedPath xpath key keyval) values

theorem run_eq_change (made : DatastoreCall) :
    ∃ halt, made.run apply = change apply made.datastoreId made.item.edits halt made.outcome := by
  obtain ⟨item, datastoreId, outcome⟩ := made
  cases item with
  | setItem | setItemStr | setItems | deleteItem | createListEntryPointers
  | createKeyedEntryPointers => exact ⟨false, rfl⟩
  | createListEntry | createKeyedEntry => exact ⟨true, rfl⟩

theorem call_of_failed {σ : Type} {code : SrErrorCode} (failed : code ≠ .SR_ERR_OK) (state : σ) :
    call code state = .error (.sysrepo_exception code) state := by
  rw [call, if_neg failed]
  rfl

/-- The session has collected some more edits. -/
def collected (datastoreId : Nat) (edits : List Edit) (before : EditedDatastore content) :
    EditedDatastore content :=
  { before with
    mSrSessions := before.mSrSessions.modify datastoreId fun session =>
      { session with edits := session.edits ++ edits } }

theorem addEdit_of_ok (datastoreId : Nat) (edit : Edit) (before : EditedDatastore content) :
    addEdit datastoreId .SR_ERR_OK edit before = .ok () (collected datastoreId [edit] before) :=
  rfl

/-- Edits whose calls succeed are all collected. -/
theorem addEdits_of_ok {datastoreId : Nat} {outcome : Nat → SrErrorCode} {index : Nat}
    {edits : List Edit} (succeeds : ∀ i < edits.length, outcome (index + i) = .SR_ERR_OK)
    (before : EditedDatastore content) :
    addEdits datastoreId outcome index edits before =
      .ok () (collected datastoreId edits before) := by
  induction edits generalizing index before with
  | nil =>
      have same : (fun session : EditSession => { session with edits := session.edits ++ [] }) =
          id := by
        funext session
        simp
      rw [addEdits, collected, same, List.modify_id]
      rfl
  | cons edit edits ih =>
      have here : outcome index = .SR_ERR_OK := succeeds 0 (by simp)
      have later : ∀ i < edits.length, outcome (index + 1 + i) = .SR_ERR_OK := by
        intro i below
        have next := succeeds (i + 1) (by simpa using below)
        rwa [show index + (i + 1) = index + 1 + i by omega] at next
      rw [addEdits, here, bind_ok (addEdit_of_ok datastoreId edit before), ih later]
      simp [collected, List.modify_modify_eq, Function.comp_def]

theorem addEdits_of_failed {datastoreId : Nat} {outcome : Nat → SrErrorCode} {index : Nat}
    {edits : List Edit} (fails : ∃ i < edits.length, outcome (index + i) ≠ .SR_ERR_OK)
    (before : EditedDatastore content) :
    ∃ code after, addEdits datastoreId outcome index edits before =
        .error (.sysrepo_exception code) after ∧
      code ≠ .SR_ERR_OK ∧ after.stores = before.stores := by
  induction edits generalizing index before with
  | nil => simp at fails
  | cons edit edits ih =>
      rw [addEdits]
      by_cases here : outcome index = .SR_ERR_OK
      · have later : ∃ i < edits.length, outcome (index + 1 + i) ≠ .SR_ERR_OK := by
          obtain ⟨i, below, fails⟩ := fails
          cases i with
          | zero => exact absurd here fails
          | succ i =>
              refine ⟨i, by simpa using below, ?_⟩
              rwa [show index + 1 + i = index + (i + 1) by omega]
        rw [here, bind_ok (addEdit_of_ok datastoreId edit before)]
        exact ih later _
      · refine ⟨outcome index, before, ?_, here, rfl⟩
        exact bind_error (bind_error (call_of_failed here before))

theorem getElem?_of_sessionOf {before : EditedDatastore content} {datastoreId : Nat}
    {session : EditSession} (found : before.sessionOf datastoreId = some session) :
    before.mSrSessions[datastoreId]? = some session := by
  unfold sessionOf sessionAt at found
  split at found
  · contradiction
  · split at found
    · contradiction
    · exact found

/-- A change whose calls all succeed applies what the session has collected. -/
theorem change_of_ok {before : EditedDatastore content} {datastoreId : Nat}
    {session : EditSession} (found : before.sessionOf datastoreId = some session)
    {edits : List Edit} {outcome : Nat → SrErrorCode}
    (succeeds : ∀ i ≤ edits.length, outcome i = .SR_ERR_OK) (halt : Bool) :
    ∃ after, change apply datastoreId edits halt outcome before = .ok .OK after ∧
      after.stores = Function.update before.stores session.datastore
        ((session.edits ++ edits).foldl apply (before.stores session.datastore)) := by
  have added : addEdits datastoreId outcome 0 edits before =
      .ok () (collected datastoreId edits before) := by
    refine addEdits_of_ok (fun i below => ?_) before
    rw [Nat.zero_add]
    exact succeeds i (Nat.le_of_lt below)
  have held : (collected datastoreId edits before).mSrSessions[datastoreId]? =
      some { session with edits := session.edits ++ edits } := by
    rw [collected, List.getElem?_modify_eq, getElem?_of_sessionOf found]
    rfl
  rw [change, bind_ok (get_apply before), found]
  dsimp only
  rw [catching, applyEdits, bind_ok added, succeeds _ (Nat.le_refl _)]
  refine ⟨_, rfl, ?_⟩
  dsimp only
  rw [held]
  rfl

theorem applyEdits_of_failed {datastoreId : Nat} {edits : List Edit}
    {outcome : Nat → SrErrorCode} (fails : ∃ i ≤ edits.length, outcome i ≠ .SR_ERR_OK)
    (before : EditedDatastore content) :
    ∃ code after, applyEdits apply datastoreId edits outcome before =
        .error (.sysrepo_exception code) after ∧
      code ≠ .SR_ERR_OK ∧ after.stores = before.stores := by
  rw [applyEdits]
  by_cases early : ∃ i < edits.length, outcome (0 + i) ≠ .SR_ERR_OK
  · obtain ⟨code, after, thrown, failed, same⟩ := addEdits_of_failed early before
    exact ⟨code, after, bind_error thrown, failed, same⟩
  · push Not at early
    have last : outcome edits.length ≠ .SR_ERR_OK := by
      obtain ⟨i, within, failed⟩ := fails
      rcases Nat.lt_or_eq_of_le within with below | rfl
      · exact absurd (Nat.zero_add i ▸ early i below) failed
      · exact failed
    refine ⟨outcome edits.length, collected datastoreId edits before, ?_, last, rfl⟩
    rw [bind_ok (addEdits_of_ok early before)]
    exact bind_error (bind_error (call_of_failed last _))

theorem exceptionHandler_of_failed {σ : Type} {code : SrErrorCode}
    (failed : code ≠ .SR_ERR_OK) (halt : Bool) (state : σ) :
    (∀ after, exceptionHandler code halt state ≠ .ok .OK after) ∧
      finalState (exceptionHandler code halt state) = state := by
  by_cases there : code = .SR_ERR_EXISTS
  · simp [exceptionHandler, there]
  · cases halt <;> simp [exceptionHandler, there, failed]

/-- A change that has no session, or of whose calls one fails, is not reported as
done and leaves the stores as they are. -/
theorem change_of_failed {before : EditedDatastore content} {datastoreId : Nat}
    {edits : List Edit} {outcome : Nat → SrErrorCode}
    (fails : before.sessionOf datastoreId = none ∨
      ∃ i ≤ edits.length, outcome i ≠ .SR_ERR_OK) (halt : Bool) :
    (∀ after, change apply datastoreId edits halt outcome before ≠ .ok .OK after) ∧
      (finalState (change apply datastoreId edits halt outcome before)).stores =
        before.stores := by
  rw [change, bind_ok (get_apply before)]
  cases found : before.sessionOf datastoreId with
  | none => simp
  | some session =>
      have some_fails : ∃ i ≤ edits.length, outcome i ≠ .SR_ERR_OK := by
        rcases fails with missing | fails
        · rw [found] at missing
          contradiction
        · exact fails
      obtain ⟨code, after, thrown, failed, same⟩ :=
        applyEdits_of_failed apply some_fails before
      obtain ⟨refused, kept⟩ := exceptionHandler_of_failed failed halt after
      dsimp only
      rw [catching, thrown]
      exact ⟨refused, by rw [kept, same]⟩

end Specs

section Runs

variable (before : EditedDatastore content) (made : DatastoreCall)

/-- The datastore after a call, whichever way it is left. -/
def step : EditedDatastore content := finalState (made.run apply before)

/-- The call returns OK. -/
def Succeeds : Prop := ∃ after, made.run apply before = .ok .OK after

/-- The stores with the items of the call. -/
def withItems : SrDatastore → content :=
  match before.sessionOf made.datastoreId with
  | none => before.stores
  | some session => Function.update before.stores session.datastore
      (made.item.edits.foldl apply (before.stores session.datastore))

/-- A call that returns OK changes the stores by its own items, and any other not at
all. -/
structure Exact : Prop where
  succeeds : Succeeds apply before made →
    (step apply before made).stores = withItems apply before made
  fails : ¬ Succeeds apply before made → (step apply before made).stores = before.stores

/-- A call all of whose session's calls succeed finds no edits in the session. -/
def Clean : Prop :=
  ∀ session, before.sessionOf made.datastoreId = some session →
    (∀ i ≤ made.item.edits.length, made.outcome i = .SR_ERR_OK) → session.edits = []

variable {before made}

theorem exact_of_clean (clean : Clean before made) : Exact apply before made := by
  obtain ⟨halt, run⟩ := run_eq_change apply made
  cases found : before.sessionOf made.datastoreId with
  | none =>
      obtain ⟨refused, kept⟩ := change_of_failed apply (Or.inl found) halt
      refine ⟨?_, ?_⟩
      · rintro ⟨after, returned⟩
        exact absurd (run ▸ returned) (refused after)
      · intro _
        rw [step, run]
        exact kept
  | some session =>
      by_cases all : ∀ i ≤ made.item.edits.length, made.outcome i = .SR_ERR_OK
      · obtain ⟨after, returned, stores⟩ := change_of_ok apply found all halt
        rw [clean session found all, List.nil_append] at stores
        have reached : step apply before made = after := by rw [step, run, returned, finalState_ok]
        refine ⟨fun _ => ?_, fun unsuccessful => ?_⟩
        · rw [reached, stores, withItems, found]
        · exact absurd ⟨after, by rw [run, returned]⟩ unsuccessful
      · push Not at all
        obtain ⟨refused, kept⟩ := change_of_failed apply (Or.inr all) halt
        refine ⟨?_, ?_⟩
        · rintro ⟨after, returned⟩
          exact absurd (run ▸ returned) (refused after)
        · intro _
          rw [step, run]
          exact kept

/-- In a run in which every call that is applied finds its session without edits, each
call changes the stores by its own items or not at all. -/
theorem exact_of_guarded (start : EditedDatastore content) (calls : List DatastoreCall)
    (clean : Guarded Clean (step apply) start calls) :
    ∀ earlier made later, calls = earlier ++ made :: later →
      Exact apply (earlier.foldl (step apply) start) made := by
  intro earlier made later cut
  exact exact_of_clean apply (guarded_iff_forall_split.mp clean earlier made later cut)

/-- An active datastore whose stores are logs of their edits. -/
def logged : EditedDatastore (List Edit) :=
  ⟨.ACTIVE, [⟨.SR_DS_RUNNING, []⟩, ⟨.SR_DS_OPERATIONAL, []⟩], fun _ => []⟩

def log (store : List Edit) (edit : Edit) : List Edit := store ++ [edit]

/-- A name is set, and the changes are applied or found locked. -/
def setName (name : String) (applies : SrErrorCode) : DatastoreCall :=
  ⟨.setItemStr "/m:info/name" name, 0, fun index => if index = 1 then applies else .SR_ERR_OK⟩

theorem exact_of_guarded_setName :
    Exact log ([setName "a" .SR_ERR_OK].foldl (step log) logged) (setName "b" .SR_ERR_LOCKED) := by
  refine exact_of_guarded log logged
    [setName "a" .SR_ERR_OK, setName "b" .SR_ERR_LOCKED] ⟨?_, ?_, trivial⟩ _ _ [] rfl
  · intro session found _
    obtain rfl := Option.some.inj found
    rfl
  · intro session found succeeds
    exact absurd (succeeds 1 (by decide)) (by decide)

/-- The name that was found locked is set by the next call. -/
theorem locked_name_is_set_later :
    ¬ Exact log ([setName "a" .SR_ERR_LOCKED].foldl (step log) logged)
      (setName "b" .SR_ERR_OK) := by
  intro exact
  have stores := exact.succeeds ⟨_, rfl⟩
  exact absurd (congrFun stores .SR_DS_RUNNING) (by decide +kernel)

end Runs

end EditedDatastore

end OpenMplane
