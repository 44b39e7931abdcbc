import OpenMplane.GuardedRuns
import OpenMplane.StatePrograms

/-!
# The states of the radio datastore

The datastore is initialised, configured and activated by calls of sysrepo that
may fail.  `setState` throws where a change of state is not in its table, and
some error paths ask for such a change; connections are made anew while sessions
stay.  This file follows the runs in which neither shows.
-/

namespace OpenMplane

open GuardedRuns StatePrograms

/-- `IRadioDataStore::State_E`. -/
inductive DatastoreState
  | UNINITIALISED
  | INITIALISED
  | CONFIGURING
  | ACTIVE
  | SETUP_FAILURE
  deriving DecidableEq

/-- `YangResult_E`. -/
inductive YangResult
  | OK
  | FAIL
  | INVALID_TYPE
  | EXISTS
  | NOT_FOUND
  deriving DecidableEq

/-- `sr_error_t`, how a call of sysrepo ends; its C++ side throws every code but
`SR_ERR_OK`. -/
inductive SrErrorCode
  | SR_ERR_OK
  | SR_ERR_INVAL_ARG
  | SR_ERR_LY
  | SR_ERR_SYS
  | SR_ERR_NOMEM
  | SR_ERR_NOT_FOUND
  | SR_ERR_EXISTS
  | SR_ERR_INTERNAL
  | SR_ERR_UNSUPPORTED
  | SR_ERR_VALIDATION_FAILED
  | SR_ERR_OPERATION_FAILED
  | SR_ERR_UNAUTHORIZED
  | SR_ERR_LOCKED
  | SR_ERR_TIME_OUT
  | SR_ERR_CALLBACK_FAILED
  | SR_ERR_CALLBACK_SHELVE
  deriving DecidableEq

/-- What leaves a method of the datastore other than a result. -/
inductive DatastoreException
  | runtime_error
  | sysrepo_exception (error_code : SrErrorCode)
  deriving DecidableEq

/-- A `RadioDatastoreSysrepo` over some kind of session; connections go by the
number under which they were made.  A session is only pushed when there is one. -/
structure RadioDatastoreSysrepo (session : Type) where
  mState : DatastoreState
  mModsInstalled : List String
  mSrConnection : Option Nat
  mSrSessions : List session
  connections : Nat
  deriving DecidableEq

namespace RadioDatastoreSysrepo

/-- The state after the constructor. -/
def constructed {session : Type} : RadioDatastoreSysrepo session :=
  ⟨.UNINITIALISED, [], none, [], 0⟩

/-- The checks before a call works on the session with a number. -/
def sessionAt {session : Type} (mState : DatastoreState) (mSrSessions : List session)
    (datastoreId : Nat) : Option session :=
  if mState ≠ .ACTIVE then none
  else if mSrSessions.length ≤ datastoreId then none
  else mSrSessions[datastoreId]?

end RadioDatastoreSysrepo

/-- `sr_datastore_t`, as far as it is used. -/
inductive SrDatastore
  | SR_DS_RUNNING
  | SR_DS_OPERATIONAL
  deriving DecidableEq

/-- What a session was made on. -/
structure OpenSession where
  connection : Nat
  datastore : SrDatastore
  deriving DecidableEq

namespace RadioDatastoreSysrepo

section Source

variable {σ α : Type}

/-- A call of sysrepo that ends with the code. -/
def call (code : SrErrorCode) : EStateM DatastoreException σ Unit :=
  if code = .SR_ERR_OK then pure () else throw (.sysrepo_exception code)

/-- `catch (const sysrepo::sysrepo_exception& exception)`. -/
def catching (body : EStateM DatastoreException σ α)
    (handler : SrErrorCode → EStateM DatastoreException σ α) :
    EStateM DatastoreException σ α := fun state =>
  match body state with
  | .error (.sysrepo_exception error_code) after => handler error_code after
  | result => result

/-- `RadioDatastoreSysrepo::exceptionHandler`; `throw` throws what is handled. -/
def exceptionHandler (errType : SrErrorCode) (halt : Bool) :
    EStateM DatastoreException σ YangResult :=
  if errType = .SR_ERR_EXISTS then pure .EXISTS
  else if errType ≠ .SR_ERR_OK then
    if halt then throw (.sysrepo_exception errType) else pure .FAIL
  else pure .OK

abbrev SetupM := EStateM DatastoreException (RadioDatastoreSysrepo OpenSession)

/-- The changes of state that `RadioDatastore::setState` accepts. -/
def validStateChange (mState state : DatastoreState) : Bool :=
  match mState with
  | .UNINITIALISED => state = .INITIALISED
  | .INITIALISED => state = .CONFIGURING
  | .CONFIGURING => state = .ACTIVE
  | .ACTIVE | .SETUP_FAILURE => true

/-- `RadioDatastore::setState`; it returns true when it returns. -/
def setState (state : DatastoreState) : SetupM Unit := do
  let mState := (← get).mState
  if state ≠ mState then
    if !validStateChange mState state then throw .runtime_error
    modify fun datastore => { datastore with mState := state }

def addInstalledModule (name : String) : SetupM Unit :=
  modify fun datastore =>
    if name ∈ datastore.mModsInstalled then datastore
    else { datastore with mModsInstalled := datastore.mModsInstalled ++ [name] }

/-- `mSrConnection = std::make_shared<sysrepo::Connection>()`. -/
def connect (code : SrErrorCode) : SetupM Unit := do
  call code
  modify fun datastore => { datastore with
    mSrConnection := some datastore.connections
    connections := datastore.connections + 1 }

def resetConnection (reconnects : SrErrorCode) : SetupM YangResult := do
  if (← get).mState ≠ .CONFIGURING then return .FAIL
  if (← get).mSrConnection = none then return .FAIL
  catching (do
      modify fun datastore => { datastore with mSrConnection := none }
      connect reconnects
      pure .OK)
    (exceptionHandler · false)

def initialise (connects : SrErrorCode) : SetupM YangResult := do
  let result ← catching (do
      connect connects
      setState .INITIALISED
      pure .OK)
    (exceptionHandler · false)
  if result ≠ .OK then setState .SETUP_FAILURE
  return result

/-- `mSrSessions.push_back(session)` of a session that was made on the connection. -/
def openSession (datastore : SrDatastore) (opens : SrErrorCode) : SetupM Unit := do
  call opens
  modify fun state => { state with
    mSrSessions := state.mSrSessions ++
      (state.mSrConnection.map fun connection => ⟨connection, datastore⟩).toList }

/-- The body of the `try` of `activate`. -/
def openSessions (reconnects opensRunning opensOperational : SrErrorCode) :
    SetupM YangResult := do
  let _ ← resetConnection reconnects
  if (← get).mSrConnection = none then exceptionHandler .SR_ERR_INTERNAL false
  else
    openSession .SR_DS_RUNNING opensRunning
    openSession .SR_DS_OPERATIONAL opensOperational
    setState .ACTIVE
    pure .OK

def activate (reconnects opensRunning opensOperational : SrErrorCode) : SetupM YangResult := do
  let result ←
    if (← get).mSrConnection = none then
      exceptionHandler .SR_ERR_INTERNAL false
    else
      catching (openSessions reconnects opensRunning opensOperational)
        (exceptionHandler · true)
  if result = .FAIL then setState .SETUP_FAILURE
  return result

def installModule (name : String) (installs reconnects : SrErrorCode) : SetupM YangResult := do
  setState .CONFIGURING
  if (← get).mState ≠ .CONFIGURING then return .FAIL
  if (← get).mSrConnection = none then return .FAIL
  catching (do
      call installs
      addInstalledModule name
      resetConnection reconnects)
    fun exception => do
      let result ← exceptionHandler exception true
      -- a module that is there already is as good as one that was installed
      return if result = .EXISTS then .OK else result

/-- What `uninstallModule` and `installModuleData` share. -/
def configure (ends : SrErrorCode) : SetupM YangResult := do
  setState .CONFIGURING
  if (← get).mState ≠ .CONFIGURING then return .FAIL
  if (← get).mSrConnection = none then return .FAIL
  catching (do
      call ends
      pure .OK)
    (exceptionHandler · true)

/-- `RadioDatastoreSysrepo::uninstallModule`; the list of modules keeps its name. -/
def uninstallModule (removes : SrErrorCode) : SetupM YangResult := configure removes

def installModuleData (installs : SrErrorCode) : SetupM YangResult := configure installs

def enableFeature (enables : SrErrorCode) : SetupM YangResult := do
  if (← get).mState ≠ .CONFIGURING then return .FAIL
  if (← get).mSrConnection = none then return .FAIL
  catching (do
      call enables
      pure .OK)
    (exceptionHandler · true)

/-- A call of the datastore, with how each call of sysrepo that it comes to ends.
What is handed on to sysrepo is left out. -/
inductive SetupCall
  | initialise (connects : SrErrorCode)
  | installModule (name : String) (installs reconnects : SrErrorCode)
  | uninstallModule (removes : SrErrorCode)
  | installModuleData (installs : SrErrorCode)
  | enableFeature (enables : SrErrorCode)
  | activate (reconnects opensRunning opensOperational : SrErrorCode)
  deriving DecidableEq

def SetupCall.run : SetupCall → SetupM YangResult
  | .initialise connects => RadioDatastoreSysrepo.initialise connects
  | .installModule name installs reconnects =>
      RadioDatastoreSysrepo.installModule name installs reconnects
  | .uninstallModule removes => RadioDatastoreSysrepo.uninstallModule removes
  | .installModuleData installs => RadioDatastoreSysrepo.installModuleData installs
  | .enableFeature enables => RadioDatastoreSysrepo.enableFeature enables
  | .activate reconnects opensRunning opensOperational =>
      RadioDatastoreSysrepo.activate reconnects opensRunning opensOperational

end Source

section Step

variable (before : RadioDatastoreSysrepo OpenSession)

/-- The sessions that the running and the operational data are read through belong
to the connection. -/
def Current : Prop :=
  ∃ connection, before.mSrConnection = some connection ∧
    before.mSrSessions[0]? = some ⟨connection, .SR_DS_RUNNING⟩ ∧
    before.mSrSessions[1]? = some ⟨connection, .SR_DS_OPERATIONAL⟩

/-- What the call is for is not done: it has no connection or is out of place, or a
call of sysrepo that it comes to fails. -/
def Failed : SetupCall → Prop
  | .initialise connects => connects ≠ .SR_ERR_OK
  | .installModule _ installs reconnects => before.mSrConnection = none ∨
      installs ≠ .SR_ERR_OK ∧ installs ≠ .SR_ERR_EXISTS ∨
      installs = .SR_ERR_OK ∧ reconnects ≠ .SR_ERR_OK
  | .uninstallModule ends | .installModuleData ends =>
      before.mSrConnection = none ∨ ends ≠ .SR_ERR_OK
  | .enableFeature enables => before.mState ≠ .CONFIGURING ∨ before.mSrConnection = none ∨
      enables ≠ .SR_ERR_OK
  | .activate reconnects opensRunning opensOperational => before.mSrConnection = none ∨
      before.mState = .CONFIGURING ∧ reconnects ≠ .SR_ERR_OK ∨
      opensRunning ≠ .SR_ERR_OK ∨ opensOperational ≠ .SR_ERR_OK

/-- The call returns, and a failure is reported and leaves the state as it was or
as that of a failure. -/
def Reported (setup : SetupCall) : Prop :=
  ∃ result after, setup.run before = .ok result after ∧
    (Failed before setup → result ≠ .OK) ∧
    (result ≠ .OK → after.mState = .SETUP_FAILURE ∨ after.mState = before.mState)

/-- The datastore after a call, whichever way it is left. -/
def step (setup : SetupCall) : RadioDatastoreSysrepo OpenSession :=
  finalState (setup.run before)

/-- The call is reported, and an active datastore has its sessions. -/
def Fine (setup : SetupCall) : Prop :=
  Reported before setup ∧ ((step before setup).mState = .ACTIVE → Current (step before setup))

/-- What `installModule`, `uninstallModule` and `installModuleData` need: an
initialised datastore, with a connection unless it is being configured. -/
def Configurable : Prop :=
  before.mState ≠ .UNINITIALISED ∧
    (before.mSrConnection = none → before.mState = .CONFIGURING)

/-- The calls that are safe where they are made. -/
def Safe : SetupCall → Prop
  | .initialise connects =>
      if connects = .SR_ERR_OK then before.mState ≠ .CONFIGURING
      else before.mState = .ACTIVE ∨ before.mState = .SETUP_FAILURE
  | .installModule _ installs reconnects => Configurable before ∧
      (before.mSrConnection ≠ none → installs = .SR_ERR_EXISTS ∨
        installs = .SR_ERR_OK ∧ (reconnects = .SR_ERR_OK ∨ before.mState = .CONFIGURING))
  | .uninstallModule ends | .installModuleData ends => Configurable before ∧
      (before.mSrConnection ≠ none → ends = .SR_ERR_OK ∨
        ends = .SR_ERR_EXISTS ∧ before.mState = .CONFIGURING)
  | .enableFeature enables => before.mState = .CONFIGURING → before.mSrConnection ≠ none →
      enables = .SR_ERR_OK ∨ enables = .SR_ERR_EXISTS
  | .activate reconnects opensRunning opensOperational =>
      if before.mSrConnection = none then
        before.mState = .ACTIVE ∨ before.mState = .SETUP_FAILURE
      else
        (before.mState = .CONFIGURING → reconnects = .SR_ERR_OK) ∧
        (opensRunning = .SR_ERR_EXISTS ∨ opensRunning = .SR_ERR_OK ∧
          (opensOperational = .SR_ERR_EXISTS ∨ opensOperational = .SR_ERR_OK ∧
            match before.mState with
            | .UNINITIALISED | .INITIALISED => False
            | .CONFIGURING => before.mSrSessions = []
            | .SETUP_FAILURE => before.mSrSessions = [] ∨ Current before
            | .ACTIVE => True))

/-- The connections and the sessions come from connections that were made. -/
structure Made : Prop where
  connection : ∀ connection ∈ before.mSrConnection, connection < before.connections
  sessions : ∀ session ∈ before.mSrSessions, session.connection < before.connections

end Step

section Specs

variable {σ α : Type} (before : RadioDatastoreSysrepo OpenSession)

theorem setState_apply (state : DatastoreState) :
    setState state before =
      if state = before.mState ∨ validStateChange before.mState state = true then
        .ok () { before with mState := state }
      else .error .runtime_error before := by
  rw [setState, bind_ok (get_apply before)]
  by_cases same : state = before.mState
  · subst same
    simp
  · cases validStateChange before.mState state <;> simp [same, bind_apply]

theorem resetConnection_apply (reconnects : SrErrorCode) :
    resetConnection reconnects before =
      if before.mState ≠ .CONFIGURING ∨ before.mSrConnection = none then .ok .FAIL before
      else if reconnects = .SR_ERR_OK then
        .ok .OK { before with
          mSrConnection := some before.connections
          connections := before.connections + 1 }
      else .ok (if reconnects = .SR_ERR_EXISTS then .EXISTS else .FAIL)
        { before with mSrConnection := none } := by
  rw [resetConnection, bind_ok (get_apply before)]
  by_cases configuring : before.mState = .CONFIGURING
  · by_cases connected : before.mSrConnection = none
    · simp [configuring, connected, bind_apply]
    · by_cases ok : reconnects = .SR_ERR_OK
      · simp [configuring, connected, bind_apply, ok, catching, connect, call, map_apply]
      · by_cases there : reconnects = .SR_ERR_EXISTS <;>
          simp [configuring, connected, bind_apply, ok, there, catching, connect, call,
            exceptionHandler]
  · simp [configuring]

theorem openSession_apply (datastore : SrDatastore) (opens : SrErrorCode) {connection : Nat}
    (connected : before.mSrConnection = some connection) :
    openSession datastore opens before =
      if opens = .SR_ERR_OK then .ok () { before with
        mSrSessions := before.mSrSessions ++ [⟨connection, datastore⟩] }
      else .error (.sysrepo_exception opens) before := by
  by_cases ok : opens = .SR_ERR_OK <;> simp [openSession, call, bind_apply, ok, connected]

theorem addInstalledModule_apply (name : String) : ∃ mModsInstalled,
    addInstalledModule name before = .ok () { before with mModsInstalled } := by
  by_cases there : name ∈ before.mModsInstalled
  · exact ⟨before.mModsInstalled, by simp [addInstalledModule, there]⟩
  · exact ⟨before.mModsInstalled ++ [name], by simp [addInstalledModule, there]⟩

end Specs

/-! Which calls are fine is read off the paths through them, by how the calls of
sysrepo end and by the state. -/

section Calls

attribute [local simp] Fine Reported Failed step Safe Configurable SetupCall.run call catching
  exceptionHandler setState_apply resetConnection_apply openSession_apply validStateChange
  bind_apply map_apply

variable {before : RadioDatastoreSysrepo OpenSession}

theorem initialise_fine_iff (connects : SrErrorCode) :
    Fine before (.initialise connects) ↔ Safe before (.initialise connects) := by
  by_cases ok : connects = .SR_ERR_OK
  · subst ok
    cases state : before.mState <;> simp [initialise, connect, state]
  · by_cases there : connects = .SR_ERR_EXISTS <;> cases state : before.mState <;>
      simp [initialise, connect, ok, there, state]

theorem installModule_fine_iff (name : String) (installs reconnects : SrErrorCode) :
    Fine before (.installModule name installs reconnects) ↔
      Safe before (.installModule name installs reconnects) := by
  obtain ⟨mModsInstalled, added⟩ :=
    addInstalledModule_apply { before with mState := .CONFIGURING } name
  by_cases connected : before.mSrConnection = none
  · cases state : before.mState <;> simp [installModule, connected, state]
  · by_cases ok : installs = .SR_ERR_OK
    · subst ok
      by_cases again : reconnects = .SR_ERR_OK
      · subst again
        cases state : before.mState <;> simp [installModule, connected, state, added]
      · by_cases there : reconnects = .SR_ERR_EXISTS <;> cases state : before.mState <;>
          simp [installModule, connected, state, added, again, there]
    · by_cases there : installs = .SR_ERR_EXISTS <;> cases state : before.mState <;>
        simp [installModule, connected, state, ok, there]

theorem configure_fine_iff (ends : SrErrorCode) :
    Fine before (.uninstallModule ends) ↔ Safe before (.uninstallModule ends) := by
  by_cases connected : before.mSrConnection = none
  · cases state : before.mState <;> simp [uninstallModule, configure, connected, state]
  · by_cases ok : ends = .SR_ERR_OK
    · subst ok
      cases state : before.mState <;> simp [uninstallModule, configure, connected, state]
    · by_cases there : ends = .SR_ERR_EXISTS <;> cases state : before.mState <;>
        simp [uninstallModule, configure, connected, state, ok, there]

theorem enableFeature_fine_iff (active : before.mState = .ACTIVE → Current before)
    (enables : SrErrorCode) :
    Fine before (.enableFeature enables) ↔ Safe before (.enableFeature enables) := by
  by_cases configuring : before.mState = .CONFIGURING
  · by_cases connected : before.mSrConnection = none
    · simp [enableFeature, connected, configuring]
    · by_cases ok : enables = .SR_ERR_OK
      · simp [enableFeature, connected, configuring, ok]
      · by_cases there : enables = .SR_ERR_EXISTS <;>
          simp [enableFeature, connected, configuring, ok, there]
  · simpa [enableFeature, configuring] using active

theorem two_of_append_iff {α : Type} {first second : α} (differ : first ≠ second)
    (sessions : List α) :
    ((sessions ++ [first] ++ [second])[0]? = some first ∧
        (sessions ++ [first] ++ [second])[1]? = some second) ↔
      sessions = [] ∨ sessions[0]? = some first ∧ sessions[1]? = some second := by
  match sessions with
  | [] => simp
  | [only] => simp [differ]
  | zeroth :: one :: rest => simp

/-- Two more sessions are the current ones when there were none before. -/
theorem current_opened_iff {connection : Nat}
    (connected : before.mSrConnection = some connection) :
    Current { before with
        mState := .ACTIVE
        mSrSessions := before.mSrSessions ++ [⟨connection, .SR_DS_RUNNING⟩] ++
          [⟨connection, .SR_DS_OPERATIONAL⟩] } ↔
      before.mSrSessions = [] ∨ Current before := by
  have differ : (⟨connection, .SR_DS_RUNNING⟩ : OpenSession) ≠
      ⟨connection, .SR_DS_OPERATIONAL⟩ := by simp
  unfold Current
  simp only [connected, Option.some.injEq, exists_eq_left',
    two_of_append_iff differ before.mSrSessions]

theorem not_current_of_fresh (made : Made before) :
    ¬ Current { before with
      mSrConnection := some before.connections
      connections := before.connections + 1 } := by
  rintro ⟨connection, connected, first, -⟩
  obtain rfl := Option.some.inj connected
  exact absurd (made.sessions _ (List.mem_of_getElem? first)) (Nat.lt_irrefl _)

theorem current_append (current : Current before) (more : List OpenSession) :
    Current { before with mSrSessions := before.mSrSessions ++ more } := by
  obtain ⟨connection, connected, first, second⟩ := current
  refine ⟨connection, connected, ?_, ?_⟩
  · exact (List.getElem?_append_left (List.getElem?_eq_some_iff.mp first).1).trans first
  · exact (List.getElem?_append_left (List.getElem?_eq_some_iff.mp second).1).trans second

theorem activate_fine_iff_of_configuring (made : Made before) {connection : Nat}
    (connected : before.mSrConnection = some connection)
    (configuring : before.mState = .CONFIGURING)
    (reconnects opensRunning opensOperational : SrErrorCode) :
    Fine before (.activate reconnects opensRunning opensOperational) ↔
      Safe before (.activate reconnects opensRunning opensOperational) := by
  by_cases again : reconnects = .SR_ERR_OK
  · by_cases running : opensRunning = .SR_ERR_OK
    · by_cases operational : opensOperational = .SR_ERR_OK
      · have current := @current_opened_iff { before with
          mSrConnection := some before.connections
          connections := before.connections + 1 } _ rfl
        simp only [not_current_of_fresh made, or_false] at current
        simpa [activate, openSessions, connected, configuring, again, running, operational]
          using current
      · by_cases there : opensOperational = .SR_ERR_EXISTS <;>
          simp [activate, openSessions, connected, configuring, again, running, operational,
            there]
    · by_cases there : opensRunning = .SR_ERR_EXISTS <;>
        simp [activate, openSessions, connected, configuring, again, running, there]
  · by_cases there : reconnects = .SR_ERR_EXISTS <;>
      simp [activate, openSessions, connected, configuring, again, there]

theorem activate_fine_iff_of_connected (active : before.mState = .ACTIVE → Current before)
    {connection : Nat} (connected : before.mSrConnection = some connection)
    (configuring : before.mState ≠ .CONFIGURING)
    (reconnects opensRunning opensOperational : SrErrorCode) :
    Fine before (.activate reconnects opensRunning opensOperational) ↔
      Safe before (.activate reconnects opensRunning opensOperational) := by
  by_cases running : opensRunning = .SR_ERR_OK
  · by_cases operational : opensOperational = .SR_ERR_OK
    · have current := current_opened_iff connected
      simp only [connected] at current
      cases state : before.mState with
      | UNINITIALISED | INITIALISED =>
          simp [activate, openSessions, connected, state, running, operational]
      | CONFIGURING => exact absurd state configuring
      | ACTIVE =>
          simpa [activate, openSessions, connected, state, running, operational]
            using current.mpr (Or.inr (active state))
      | SETUP_FAILURE =>
          simpa [activate, openSessions, connected, state, running, operational] using current
    · by_cases there : opensOperational = .SR_ERR_EXISTS
      · have current := fun state => current_append (active state)
          [⟨connection, .SR_DS_RUNNING⟩]
        simp only [connected] at current
        simpa [activate, openSessions, connected, configuring, running, there] using current
      · simp [activate, openSessions, connected, configuring, running, operational, there]
  · by_cases there : opensRunning = .SR_ERR_EXISTS
    · simpa [activate, openSessions, connected, configuring, there] using active
    · simp [activate, openSessions, connected, configuring, running, there]

theorem activate_fine_iff (made : Made before)
    (active : before.mState = .ACTIVE → Current before)
    (reconnects opensRunning opensOperational : SrErrorCode) :
    Fine before (.activate reconnects opensRunning opensOperational) ↔
      Safe before (.activate reconnects opensRunning opensOperational) := by
  cases connected : before.mSrConnection with
  | none =>
      have unused : ¬ Current before := by simp [Current, connected]
      cases state : before.mState <;> simp [activate, connected, state]
  | some connection =>
      by_cases configuring : before.mState = .CONFIGURING
      · exact activate_fine_iff_of_configuring made connected configuring _ _ _
      · exact activate_fine_iff_of_connected active connected configuring _ _ _

end Calls

section Runs

theorem within_catching {α : Type} {relation : RadioDatastoreSysrepo OpenSession →
      RadioDatastoreSysrepo OpenSession → Prop} [IsPreorder _ relation]
    {body : SetupM α} {handler : SrErrorCode → SetupM α} (tried : Within relation body)
    (handled : ∀ error_code, Within relation (handler error_code)) :
    Within relation (catching body handler) := by
  intro before
  have moved := tried before
  unfold catching
  cases run : body before with
  | ok value after =>
      rw [run] at moved
      exact moved
  | error exception after =>
      rw [run] at moved
      cases exception with
      | runtime_error => exact moved
      | sysrepo_exception error_code =>
          exact IsTrans.trans _ _ _ moved (handled error_code after)

theorem keeps_call (code : SrErrorCode) : Within (Keeps Made) (call code : SetupM Unit) :=
  Within.ite (fun _ => .pure _) fun _ => .throw _

theorem keeps_exceptionHandler (code : SrErrorCode) (halt : Bool) :
    Within (Keeps Made) (exceptionHandler code halt : SetupM YangResult) :=
  Within.ite (fun _ => .pure _) fun _ => Within.ite
    (fun _ => Within.ite (fun _ => .throw _) fun _ => .pure _) fun _ => .pure _

theorem keeps_setState (state : DatastoreState) : Within (Keeps Made) (setState state) := by
  intro before made
  rw [setState_apply]
  split
  · exact ⟨made.connection, made.sessions⟩
  · exact made

theorem keeps_connect (code : SrErrorCode) : Within (Keeps Made) (connect code) := by
  refine Within.bind (keeps_call code) fun _ => Within.modify fun before made => ?_
  exact ⟨by simp, fun session member => Nat.lt_succ_of_lt (made.sessions session member)⟩

theorem keeps_resetConnection (code : SrErrorCode) :
    Within (Keeps Made) (resetConnection code) := by
  intro before made
  rw [resetConnection_apply]
  split
  · exact made
  · split
    · exact ⟨by simp, fun session member => Nat.lt_succ_of_lt (made.sessions session member)⟩
    · exact ⟨by simp, made.sessions⟩

theorem keeps_openSession (datastore : SrDatastore) (code : SrErrorCode) :
    Within (Keeps Made) (openSession datastore code) := by
  refine Within.bind (keeps_call code) fun _ => Within.modify fun before made => ?_
  refine ⟨made.connection, fun session member => ?_⟩
  rcases List.mem_append.mp member with old | new
  · exact made.sessions session old
  · simp only [Option.mem_toList, Option.map_eq_some_iff] at new
    obtain ⟨connection, connected, rfl⟩ := new
    exact made.connection connection connected

theorem keeps_addInstalledModule (name : String) :
    Within (Keeps Made) (addInstalledModule name) := by
  intro before made
  obtain ⟨mModsInstalled, added⟩ := addInstalledModule_apply before name
  rw [added]
  exact ⟨made.connection, made.sessions⟩

theorem keeps_configure (ends : SrErrorCode) : Within (Keeps Made) (configure ends) :=
  Within.bind (keeps_setState _) fun _ => Within.bind .get fun _ => Within.ite
    (fun _ => .pure _) fun _ => Within.bind .get fun _ => Within.ite (fun _ => .pure _)
      fun _ => within_catching (Within.bind (keeps_call _) fun _ => .pure _)
        fun _ => keeps_exceptionHandler _ _

theorem keeps_openSessions (reconnects opensRunning opensOperational : SrErrorCode) :
    Within (Keeps Made) (openSessions reconnects opensRunning opensOperational) :=
  Within.bind (keeps_resetConnection _) fun _ => Within.bind .get fun _ => Within.ite
    (fun _ => keeps_exceptionHandler _ _) fun _ => Within.bind (keeps_openSession _ _)
      fun _ => Within.bind (keeps_openSession _ _) fun _ => Within.bind (keeps_setState _)
        fun _ => .pure _

/-- Every call leaves only connections and sessions that were made. -/
theorem made_step {before : RadioDatastoreSysrepo OpenSession} (made : Made before)
    (setup : SetupCall) : Made (step before setup) := by
  have keeps : Within (Keeps Made) setup.run := by
    cases setup with
    | initialise connects =>
        refine Within.bind (within_catching (Within.bind (keeps_connect _) fun _ =>
          Within.bind (keeps_setState _) fun _ => .pure _) fun _ => keeps_exceptionHandler _ _)
          fun result => ?_
        exact Within.ite (fun _ => Within.bind (keeps_setState _) fun _ => .pure _)
          fun _ => .pure _
    | installModule name installs reconnects =>
        refine Within.bind (keeps_setState _) fun _ => Within.bind .get fun _ => Within.ite
          (fun _ => .pure _) fun _ => Within.bind .get fun _ => Within.ite (fun _ => .pure _)
            fun _ => within_catching ?_ fun _ =>
              Within.bind (keeps_exceptionHandler _ _) fun _ => .pure _
        exact Within.bind (keeps_call _) fun _ => Within.bind (keeps_addInstalledModule _)
          fun _ => keeps_resetConnection _
    | uninstallModule ends | installModuleData ends => exact keeps_configure ends
    | enableFeature enables =>
        exact Within.bind .get fun _ => Within.ite (fun _ => .pure _) fun _ =>
          Within.bind .get fun _ => Within.ite (fun _ => .pure _) fun _ =>
            within_catching (Within.bind (keeps_call _) fun _ => .pure _)
              fun _ => keeps_exceptionHandler _ _
    | activate reconnects opensRunning opensOperational =>
        have fails : ∀ result, Within (Keeps Made) (if result = YangResult.FAIL then
            setState .SETUP_FAILURE >>= fun _ => pure result else pure result) :=
          fun result => Within.ite (fun _ => Within.bind (keeps_setState _) fun _ => .pure _)
            fun _ => .pure _
        exact Within.bind .get fun _ => Within.ite
          (fun _ => Within.bind (keeps_exceptionHandler _ _) fails)
          fun _ => Within.bind (within_catching (keeps_openSessions _ _ _)
            fun _ => keeps_exceptionHandler _ _) fails
  exact keeps before made

/-- What holds of the datastore as long as its calls are fine. -/
structure Sound (before : RadioDatastoreSysrepo OpenSession) : Prop where
  made : Made before
  active : before.mState = .ACTIVE → Current before

theorem sound_constructed : Sound constructed where
  made := ⟨by simp [constructed], by simp [constructed]⟩
  active := by simp [constructed]

theorem fine_iff_safe {before : RadioDatastoreSysrepo OpenSession} (made : Made before)
    (active : before.mState = .ACTIVE → Current before) (setup : SetupCall) :
    Fine before setup ↔ Safe before setup := by
  cases setup with
  | initialise connects => exact initialise_fine_iff connects
  | installModule name installs reconnects => exact installModule_fine_iff name _ _
  | uninstallModule ends | installModuleData ends => exact configure_fine_iff ends
  | enableFeature enables => exact enableFeature_fine_iff active enables
  | activate reconnects opensRunning opensOperational => exact activate_fine_iff made active _ _ _

/-- In exactly the runs whose calls are all safe where they are made, every call is
reported and an active datastore has the sessions of its connection. -/
theorem fine_iff_guarded (setups : List SetupCall) :
    (∀ earlier setup later, setups = earlier ++ setup :: later →
        Fine (earlier.foldl step constructed) setup) ↔
      Guarded Safe step constructed setups := by
  rw [← guarded_iff_forall_split]
  exact guarded_iff_of_invariant (fun _ setup sound => fine_iff_safe sound.made sound.active setup)
    (fun _ setup sound fine => ⟨made_step sound.made setup, fine.2⟩) sound_constructed setups

/-- A datastore that is activated, configured again and activated again. -/
def activatedTwice : List SetupCall :=
  [.initialise .SR_ERR_OK, .installModule "ietf-interfaces" .SR_ERR_OK .SR_ERR_OK,
    .activate .SR_ERR_OK .SR_ERR_OK .SR_ERR_OK,
    .installModule "ietf-hardware" .SR_ERR_OK .SR_ERR_OK,
    .activate .SR_ERR_OK .SR_ERR_OK .SR_ERR_OK]

/-- It reads through sessions of a connection that it no longer has; and a datastore
that cannot connect throws where it is to report that. -/
theorem activated_twice_is_not_current :
    (activatedTwice.foldl step constructed).mState = .ACTIVE ∧
      ¬ Current (activatedTwice.foldl step constructed) ∧
      (SetupCall.initialise .SR_ERR_SYS).run constructed = .error .runtime_error constructed := by
  have last : activatedTwice.foldl step constructed =
      ⟨.ACTIVE, ["ietf-interfaces", "ietf-hardware"], some 4,
        [⟨2, .SR_DS_RUNNING⟩, ⟨2, .SR_DS_OPERATIONAL⟩, ⟨4, .SR_DS_RUNNING⟩,
          ⟨4, .SR_DS_OPERATIONAL⟩], 5⟩ := by
    decide +kernel
  refine ⟨?_, ?_, rfl⟩
  · rw [last]
  · rw [last]
    rintro ⟨connection, connected, first, -⟩
    obtain rfl := Option.some.inj connected
    simp at first

end Runs

end RadioDatastoreSysrepo

end OpenMplane
