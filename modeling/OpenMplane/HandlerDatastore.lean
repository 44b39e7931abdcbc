import OpenMplane.OperationRecords
import OpenMplane.RadioDatastoreEdits

/-!
# The operations that the handlers make

The handlers work on the datastore through a few of its methods.  How the calls
of sysrepo end is given by the number of the operation, so that every pattern of
failures is a value, and each operation is recorded with its result.
-/

namespace OpenMplane

open EditedDatastore OperationRecords RadioDatastoreSysrepo StatePrograms

/-- A call of a method of the datastore with the running data; what is subscribed
is left out. -/
inductive Operation
  | setItemStr (xpath value : String)
  | createListEntry (xpath : String) (values : StdMap String)
  | getItems (xpath : String)
  | getItemsSubscribe (moduleName path : String)
  | itemsChangeSubscribe (moduleName xpath : String)
  | rpcSubscribe (path : String)

/-- An operation with its result, or none if it threw. -/
structure OperationRecord where
  operation : Operation
  result : Option YangResult

/-- How the calls of sysrepo end, by the number of the operation and that of the
call, and the values of a reading, none for a null pointer. -/
structure SysrepoRun where
  outcome : Nat → Nat → SrErrorCode
  get_items : Nat → Option (List SrVal)

/-- The datastore with a record of what was made on it. -/
structure HandlerDatastore (content : Type) where
  datastore : EditedDatastore content
  made : List OperationRecord

variable {content : Type}

namespace EditedDatastore

section Source

/-- What the methods of one call share. -/
def callOnce (body : EditM content YangResult) (datastoreId : Nat) : EditM content YangResult := do
  match (← get).sessionOf datastoreId with
  | none => pure .FAIL
  | some _ => catching body (exceptionHandler · false)

/-- `RadioDatastoreSysrepo::getItems` with its result. -/
def getItems (vals : Option (List SrVal)) (datastoreId : Nat) (outcome : Nat → SrErrorCode) :
    EditM content YangResult :=
  callOnce (do
      call (outcome 0)
      pure (if vals.isNone then .NOT_FOUND else .OK)) datastoreId

/-- What `getItemsSubscribe`, `itemsChangeSubscribe` and `rpcSubscribe` share. -/
def subscribe (datastoreId : Nat) (outcome : Nat → SrErrorCode) : EditM content YangResult :=
  callOnce (do
      call (outcome 0)
      pure .OK) datastoreId

def getItemsSubscribe (_moduleName _path : String) :
    Nat → (Nat → SrErrorCode) → EditM content YangResult := subscribe

def itemsChangeSubscribe (_moduleName _xpath : String) :
    Nat → (Nat → SrErrorCode) → EditM content YangResult := subscribe

def rpcSubscribe (_path : String) :
    Nat → (Nat → SrErrorCode) → EditM content YangResult := subscribe

end Source

end EditedDatastore

namespace Operation

variable (apply : content → Edit → content)

def run (outcome : Nat → SrErrorCode) (vals : Option (List SrVal)) :
    Operation → EditM content YangResult
  | .setItemStr xpath value => EditedDatastore.setItemStr apply xpath value 0 outcome
  | .createListEntry xpath values => EditedDatastore.createListEntry apply xpath values 0 outcome
  | .getItems _ => EditedDatastore.getItems vals 0 outcome
  | .getItemsSubscribe moduleName path =>
      EditedDatastore.getItemsSubscribe moduleName path 0 outcome
  | .itemsChangeSubscribe moduleName xpath =>
      EditedDatastore.itemsChangeSubscribe moduleName xpath 0 outcome
  | .rpcSubscribe path => EditedDatastore.rpcSubscribe path 0 outcome

/-- The number of the last call of sysrepo that the operation makes. -/
def lastCall : Operation → Nat
  | .setItemStr _ _ => 1
  | .createListEntry xpath values => (entryEdits xpath values).length
  | .getItems _ | .getItemsSubscribe _ _ | .itemsChangeSubscribe _ _ | .rpcSubscribe _ => 0

end Operation

/-- The operation succeeded: a reading also when there was nothing to read. -/
def OperationRecord.Good (record : OperationRecord) : Prop :=
  record.result = some .OK ∨
    record.result = some .NOT_FOUND ∧ ∃ xpath, record.operation = .getItems xpath

/-- There is a session, and every call of sysrepo for the operation succeeds. -/
def SysrepoRun.Succeeds (sysrepo : SysrepoRun) (session : Bool) (number : Nat)
    (operation : Operation) : Prop :=
  session = true ∧ ∀ call ≤ operation.lastCall, sysrepo.outcome number call = .SR_ERR_OK

namespace HandlerDatastore

/-- Whether operations have a session. -/
def hasSession (handled : HandlerDatastore content) : Bool :=
  (handled.datastore.sessionOf 0).isSome

/-- An operation, recorded; the exceptions that leave it are those of sysrepo. -/
def perform (apply : content → Edit → content) (sysrepo : SysrepoRun) (operation : Operation) :
    EStateM StdException (HandlerDatastore content) YangResult := fun handled =>
  let number := handled.made.length
  match operation.run apply (sysrepo.outcome number) (sysrepo.get_items number)
      handled.datastore with
  | .ok result datastore => .ok result ⟨datastore, handled.made ++ [⟨operation, some result⟩]⟩
  | .error _ datastore => .error .sysrepo ⟨datastore, handled.made ++ [⟨operation, none⟩]⟩

end HandlerDatastore

section Sessions

variable (apply : content → Edit → content)

abbrev SessionKept (content : Type) : EditedDatastore content → EditedDatastore content → Prop :=
  Same fun datastore => (datastore.mState, datastore.mSrSessions.length)

theorem within_call (code : SrErrorCode) : Within (SessionKept content) (call code) :=
  Within.ite (fun _ => Within.pure _) fun _ => Within.throw _

theorem within_catching {σ α : Type} {relation : σ → σ → Prop} [IsPreorder σ relation]
    {body : EStateM DatastoreException σ α} {handler : SrErrorCode → EStateM DatastoreException σ α}
    (main : Within relation body) (handles : ∀ code, Within relation (handler code)) :
    Within relation (RadioDatastoreSysrepo.catching body handler) := by
  intro state
  have moved := main state
  rw [RadioDatastoreSysrepo.catching]
  cases run : body state with
  | ok value after =>
      rw [run] at moved
      exact moved
  | error exception after =>
      rw [run] at moved
      cases exception with
      | runtime_error => exact moved
      | sysrepo_exception code => exact IsTrans.trans _ _ _ moved (handles code after)

theorem within_exceptionHandler (code : SrErrorCode) (halt : Bool) :
    Within (SessionKept content) (exceptionHandler code halt) := by
  refine Within.ite (fun _ => Within.pure _) fun _ => ?_
  refine Within.ite (fun _ => ?_) fun _ => Within.pure _
  exact Within.ite (fun _ => Within.throw _) fun _ => Within.pure _

theorem within_addEdits (datastoreId : Nat) (outcome : Nat → SrErrorCode) (edits : List Edit)
    (index : Nat) :
    Within (SessionKept content) (addEdits datastoreId outcome index edits) := by
  induction edits generalizing index with
  | nil => exact Within.pure _
  | cons edit edits ih =>
      refine Within.bind (Within.bind (within_call _) fun _ => ?_) fun _ => ih (index + 1)
      refine Within.modify fun state => ?_
      simp [SessionKept, Same]

theorem within_applyChanges (datastoreId : Nat) (code : SrErrorCode) :
    Within (SessionKept content) (applyChanges apply datastoreId code) := by
  refine Within.bind (within_call code) fun _ => Within.modify fun state => ?_
  cases state.mSrSessions[datastoreId]? with
  | none => rfl
  | some session => simp [SessionKept, Same]

theorem within_change (datastoreId : Nat) (edits : List Edit) (halt : Bool)
    (outcome : Nat → SrErrorCode) :
    Within (SessionKept content) (change apply datastoreId edits halt outcome) := by
  refine Within.bind Within.get fun state => ?_
  cases state.sessionOf datastoreId with
  | none => exact Within.pure _
  | some session =>
      refine within_catching ?_ fun code => within_exceptionHandler code halt
      refine Within.bind (within_addEdits datastoreId outcome edits 0) fun _ => ?_
      exact Within.bind (within_applyChanges apply datastoreId _) fun _ => Within.pure _

theorem within_callOnce {body : EditM content YangResult} (main : Within (SessionKept content) body)
    (datastoreId : Nat) : Within (SessionKept content) (callOnce body datastoreId) := by
  refine Within.bind Within.get fun state => ?_
  cases state.sessionOf datastoreId with
  | none => exact Within.pure _
  | some session => exact within_catching main fun code => within_exceptionHandler code false

theorem within_run (outcome : Nat → SrErrorCode) (vals : Option (List SrVal))
    (operation : Operation) : Within (SessionKept content) (operation.run apply outcome vals) := by
  have once : ∀ result : YangResult, Within (SessionKept content)
      (do call (outcome 0); pure result) :=
    fun result => Within.bind (within_call _) fun _ => Within.pure _
  cases operation with
  | setItemStr | createListEntry => exact within_change apply 0 _ _ outcome
  | getItems | getItemsSubscribe | itemsChangeSubscribe | rpcSubscribe =>
      exact within_callOnce (once _) 0

end Sessions

section Results

variable (apply : content → Edit → content) {before : EditedDatastore content}
  {outcome : Nat → SrErrorCode} {vals : Option (List SrVal)}

theorem isSome_sessionOf_eq {after : EditedDatastore content} (kept : SessionKept content before after) :
    (after.sessionOf 0).isSome = (before.sessionOf 0).isSome := by
  injection kept with sameState sameLength
  unfold sessionOf sessionAt
  rw [sameState, sameLength]
  split
  · rfl
  · split
    · rfl
    · have there : 0 < before.mSrSessions.length := by omega
      have thereAfter : 0 < after.mSrSessions.length := by omega
      simp [there, thereAfter]

/-- An operation with a session all of whose calls succeed is good. -/
theorem run_of_ok {session : EditSession} (found : before.sessionOf 0 = some session)
    (operation : Operation)
    (succeeds : ∀ call ≤ operation.lastCall, outcome call = .SR_ERR_OK) :
    ∃ result after, operation.run apply outcome vals before = .ok result after ∧
      OperationRecord.Good ⟨operation, some result⟩ := by
  have once : ∀ result : YangResult, outcome 0 = .SR_ERR_OK →
      callOnce (do call (outcome 0); pure result) 0 before = .ok result before := by
    intro result ok
    rw [callOnce, bind_ok (get_apply before), found, ok]
    rfl
  cases operation with
  | setItemStr xpath value =>
      have all : ∀ i ≤ [Edit.set_item_str xpath value].length, outcome i = .SR_ERR_OK := succeeds
      obtain ⟨after, run, -⟩ := change_of_ok apply found all false
      exact ⟨.OK, after, run, Or.inl rfl⟩
  | createListEntry xpath values =>
      have all : ∀ i ≤ (entryEdits xpath values).length, outcome i = .SR_ERR_OK := succeeds
      obtain ⟨after, run, -⟩ := change_of_ok apply found all true
      exact ⟨.OK, after, run, Or.inl rfl⟩
  | getItems xpath =>
      refine ⟨_, before, once _ (succeeds 0 (Nat.le_refl 0)), ?_⟩
      cases vals with
      | none => exact Or.inr ⟨rfl, xpath, rfl⟩
      | some vals => exact Or.inl rfl
  | getItemsSubscribe | itemsChangeSubscribe | rpcSubscribe =>
      exact ⟨.OK, before, once .OK (succeeds 0 (Nat.le_refl 0)), Or.inl rfl⟩

theorem run_of_failed (operation : Operation)
    (fails : before.sessionOf 0 = none ∨ ∃ call ≤ operation.lastCall, outcome call ≠ .SR_ERR_OK)
    {result : YangResult} {after : EditedDatastore content}
    (run : operation.run apply outcome vals before = .ok result after) :
    ¬ OperationRecord.Good ⟨operation, some result⟩ := by
  have notOk : result ≠ .OK ∧ ((∃ xpath, operation = .getItems xpath) → result ≠ .NOT_FOUND) := by
    have changed : ∀ (edits : List Edit) halt, operation.lastCall = edits.length →
        change apply 0 edits halt outcome before = .ok result after → result ≠ .OK := by
      rintro edits halt calls same rfl
      rw [calls] at fails
      exact (change_of_failed apply fails halt).1 after same
    have once : ∀ given : YangResult, operation.lastCall = 0 →
        callOnce (do call (outcome 0); pure given) 0 before = .ok result after →
          result ≠ .OK ∧ result ≠ .NOT_FOUND := by
      intro given calls same
      rw [callOnce, bind_ok (get_apply before)] at same
      cases found : before.sessionOf 0 with
      | none =>
          rw [found] at same
          cases same
          exact ⟨by decide, by decide⟩
      | some session =>
          have thrown : outcome 0 ≠ .SR_ERR_OK := by
            rcases fails with missing | ⟨number, within, failed⟩
            · rw [found] at missing
              contradiction
            · rw [calls] at within
              rwa [Nat.le_zero.mp within] at failed
          rw [found] at same
          dsimp only at same
          rw [catching, bind_error (call_of_failed thrown before)] at same
          dsimp only at same
          by_cases there : outcome 0 = .SR_ERR_EXISTS
          · rw [exceptionHandler, if_pos there] at same
            cases same
            exact ⟨by decide, by decide⟩
          · rw [exceptionHandler, if_neg there, if_pos thrown] at same
            cases same
            exact ⟨by decide, by decide⟩
    cases operation with
    | setItemStr xpath value =>
        exact ⟨changed [.set_item_str xpath value] false rfl run, fun ⟨_, other⟩ => by cases other⟩
    | createListEntry xpath values =>
        exact ⟨changed (entryEdits xpath values) true rfl run, fun ⟨_, other⟩ => by cases other⟩
    | getItems | getItemsSubscribe | itemsChangeSubscribe | rpcSubscribe =>
        obtain ⟨notOk, notMissing⟩ := once _ rfl run
        exact ⟨notOk, fun _ => notMissing⟩
  rintro (ok | ⟨missing, reading⟩)
  · exact notOk.1 (Option.some.inj ok)
  · exact notOk.2 reading (Option.some.inj missing)

end Results

namespace HandlerDatastore

variable (apply : content → Edit → content) (sysrepo : SysrepoRun) (session : Bool)

/-- What every operation does: it is recorded, and the record tells whether it
succeeded; a call that throws has failed. -/
theorem performs_perform (operation : Operation) :
    Performs made OperationRecord.Good (sysrepo.Succeeds session)
      (fun handled => handled.hasSession = session) (fun handled => handled.hasSession = session)
      True [operation] (fun _ => True) (perform apply sysrepo operation) := by
  intro before holds
  have kept := within_run apply (sysrepo.outcome before.made.length)
    (sysrepo.get_items before.made.length) operation before.datastore
  have succeedsIff : AllSucceed (sysrepo.Succeeds session) before.made.length [operation] ↔
      (before.datastore.sessionOf 0 ≠ none ∧ ∀ call ≤ operation.lastCall,
        sysrepo.outcome before.made.length call = .SR_ERR_OK) := by
    rw [← holds]
    simp [AllSucceed, SysrepoRun.Succeeds, hasSession, Option.isSome_iff_ne_none]
  rw [perform]
  dsimp only
  cases run : operation.run apply (sysrepo.outcome before.made.length)
      (sysrepo.get_items before.made.length) before.datastore with
  | ok result after =>
      rw [run] at kept
      refine ⟨(isSome_sessionOf_eq kept).trans holds, trivial, [⟨operation, some result⟩], rfl,
        fun _ => rfl, ?_⟩
      rw [List.forall_mem_singleton, succeedsIff, true_and]
      constructor
      · intro good
        by_contra fails
        refine run_of_failed apply operation ?_ run good
        by_cases missing : before.datastore.sessionOf 0 = none
        · exact Or.inl missing
        · have failing : ¬ ∀ call ≤ operation.lastCall,
              sysrepo.outcome before.made.length call = .SR_ERR_OK :=
            fun all => fails ⟨missing, all⟩
          push Not at failing
          exact Or.inr failing
      · rintro ⟨there, all⟩
        obtain ⟨found, held⟩ := Option.ne_none_iff_exists'.mp there
        obtain ⟨other, last, same, good⟩ := run_of_ok apply held operation all
        rw [run] at same
        cases same
        exact good
  | error exception after =>
      rw [succeedsIff]
      rintro ⟨-, there, all⟩
      obtain ⟨found, held⟩ := Option.ne_none_iff_exists'.mp there
      obtain ⟨other, last, same, -⟩ := run_of_ok apply held operation all
      rw [run] at same
      cases same

end HandlerDatastore

end OpenMplane
