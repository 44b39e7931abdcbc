import OpenMplane.RadioDatastoreEdits
import OpenMplane.SysrepoReaders

/-!
# The change of a password

`OranUserMgmtHandler::rpcChgPassword` addresses the password of the session's
user by an xpath that leaves out the list of the users, and asks for it with a
predicate on the container.  Whatever the datastore answers when it reads such
an xpath, it does not write there, so that no request is ever successful.
-/

namespace OpenMplane

open RadioDatastoreSysrepo EditedDatastore SysrepoUtils StatePrograms

/-- An entry of the list `user`, without its key. -/
structure LstUser where
  accountType : Option String
  password : Option String
  enabled : Option Bool
  deriving DecidableEq

/-- The container `users`: its entries by their names. -/
abbrev CntUsers := StdMap LstUser

/-- How the calls of sysrepo end that the handler makes: `get_item` with its
value, and `set_item_str` and `apply_changes` by their order. -/
structure UserMgmtSysrepo where
  get_item : CntUsers → String → SrErrorCode × Option SrVal
  set_item_str : CntUsers → String → String → Nat → SrErrorCode

/-- `YangParam::getString`; the member stays empty for other types. -/
def YangParam.getString (param : YangParam) : String :=
  match param.data with
  | .string value => value
  | _ => ""

namespace OranUserMgmtHandler

section Source

variable (sysrepo : UserMgmtSysrepo) (apply : CntUsers → Edit → CntUsers)

/-- `YangHandlerSysrepoUnlogged::path` of the module. -/
def path (subpath : String) : String := "/" ++ "o-ran-usermgmt" ++ ":" ++ subpath

def getItem (xpath : String) (datastoreId : Nat) :
    EditM CntUsers (YangResult × Option YangParam) := do
  match (← get).sessionOf datastoreId with
  | none => pure (.FAIL, none)
  | some session => do
      let got := sysrepo.get_item ((← get).stores session.datastore) xpath
      catching
        (do
          call got.1
          match got.2 with
          | none => pure (.NOT_FOUND, none)
          | some val =>
              if skipped val.data then pure (.INVALID_TYPE, none)
              else pure (.OK, some val.toParam))
        (fun code => do pure (← exceptionHandler code false, none))

def status : String := path ("chg-password" ++ "/status")

def statusMessage : String := path ("chg-password" ++ "/status-message")

/-- What is added to `retList`. -/
def answer (result message : String) : List YangParam :=
  [⟨status, .string result⟩, ⟨statusMessage, .string message⟩]

/-- `"/o-ran-usermgmt:users[name='" + userName + "']/password"`. -/
def userMgmtPath (userName : String) : String :=
  "/o-ran-usermgmt:users[name='" ++ userName ++ "']/password"

/-- `OranUserMgmtHandler::rpcChgPassword` in a session of the user, which
returns true: what it answers, or nothing when it follows a null pointer. -/
def rpcChgPassword (userName : String) (callList : List YangParam) :
    EditM CntUsers (Option (List YangParam)) := do
  let args := paramsToMap callList
  match args["newPassword"]?, args["newPasswordConfirm"]? with
  | some newPassword, some newPasswordConfirm =>
      let newPassword := YangParamUtils.toString newPassword
      if YangParamUtils.toString newPasswordConfirm ≠ newPassword then
        pure (some (answer "Failed" "New Passwords don't match"))
      else
        match args["currentPassword"]? with
        | none => pure none
        | some currentPassword => do
            let (found, passwordParam) ← getItem sysrepo (userMgmtPath userName) 0
            if found ≠ .OK then
              pure (some (answer "Failed" "Failed to get current password"))
            else
              match passwordParam with
              | none => pure none
              | some passwordParam =>
                  if YangParamUtils.toString currentPassword ≠ passwordParam.getString then
                    pure (some (answer "Failed" "Current Password Match Failed"))
                  else do
                    let users := (← get).stores .SR_DS_RUNNING
                    let result ← setItemStr apply (userMgmtPath userName) newPassword 0
                      (sysrepo.set_item_str users (userMgmtPath userName) newPassword)
                    if result ≠ .OK then
                      pure (some (answer "Failed" "Password has not successfully updated"))
                    else pure (some (answer "Success" "Password has been successfully updated"))
  | _, _ => pure none

end Source

/-- A step to the list of the users. -/
def UserStep (step : String) : Prop :=
  (step = "user" ∨ step = "o-ran-usermgmt:user") ∨
    ∃ predicates, step = "user[" ++ predicates ++ "]" ∨
      step = "o-ran-usermgmt:user[" ++ predicates ++ "]"

/-- The xpaths of the nodes of the module's data: predicates belong to the
list, the container and the leaves stand alone. -/
inductive NamesNode : String → Prop
  | users : NamesNode "/o-ran-usermgmt:users"
  | user {step : String} : UserStep step → NamesNode ("/o-ran-usermgmt:users" ++ ("/" ++ step))
  | leaf {step leaf : String} : UserStep step →
      leaf ∈ ["name", "account-type", "password", "enabled"] →
      NamesNode ("/o-ran-usermgmt:users" ++ ("/" ++ (step ++ "/" ++ leaf)))

/-- Nothing is written to an xpath into the container that names no node. -/
def RefusesUnknown (sysrepo : UserMgmtSysrepo) : Prop :=
  ∀ users rest value, ¬ NamesNode ("/o-ran-usermgmt:users" ++ rest) →
    sysrepo.set_item_str users ("/o-ran-usermgmt:users" ++ rest) value 0 ≠ .SR_ERR_OK

/-- The text of an input. -/
def input (callList : List YangParam) (leaf : String) : Option String :=
  (paramsToMap callList)[leaf]?.map YangParamUtils.toString

/-- A request that should be successful: the new passwords agree, the current
one is that of the user, and the datastore accepts the write. -/
structure Granted (accepts : CntUsers → String → String → Bool) (users : CntUsers)
    (userName : String) (callList : List YangParam) (newPassword : String) (entry : LstUser) :
    Prop where
  new : input callList "newPassword" = some newPassword
  confirmed : input callList "newPasswordConfirm" = some newPassword
  own : users[userName]? = some entry
  current : ∃ currentPassword, entry.password = some currentPassword ∧
    input callList "currentPassword" = some currentPassword
  accepted : accepts users userName newPassword = true

/-- A request that should be successful sets the password of the user and
nothing else, any other one fails and changes nothing. -/
def Answered (sysrepo : UserMgmtSysrepo) (apply : CntUsers → Edit → CntUsers)
    (accepts : CntUsers → String → String → Bool) (before : EditedDatastore CntUsers)
    (userName : String) (callList : List YangParam) : Prop :=
  let users := before.stores .SR_DS_RUNNING
  let run := rpcChgPassword sysrepo apply userName callList before
  (∀ newPassword entry, Granted accepts users userName callList newPassword entry →
    ∃ message after, run = .ok (some (answer "Success" message)) after ∧
      after.stores = Function.update before.stores .SR_DS_RUNNING
        (users.insert userName { entry with password := some newPassword })) ∧
  ((¬ ∃ newPassword entry, Granted accepts users userName callList newPassword entry) →
    ∃ message after, run = .ok (some (answer "Failed" message)) after ∧
      after.stores = before.stores)

/-- The inputs that are followed without a check are there. -/
def InputsThere (callList : List YangParam) : Prop :=
  ∃ newPassword newPasswordConfirm, input callList "newPassword" = some newPassword ∧
    input callList "newPasswordConfirm" = some newPasswordConfirm ∧
      (newPasswordConfirm ≠ newPassword ∨ input callList "currentPassword" ≠ none)

section Steps

/-- The xpath of the handler names no node, whatever the name of the user. -/
theorem not_namesNode_userMgmtPath (userName : String) :
    ¬ NamesNode ("/o-ran-usermgmt:users" ++ ("[name='" ++ userName ++ "']/password")) := by
  have letters : ∀ rest : String, "/o-ran-usermgmt:users" ++ ("[name='" ++ userName ++
      "']/password") ≠ "/o-ran-usermgmt:users" ++ ("/" ++ rest) := by
    intro rest same
    have lists := congrArg String.toList same
    simp at lists
  intro names
  generalize whole : "/o-ran-usermgmt:users" ++ ("[name='" ++ userName ++ "']/password") = xpath
    at names
  cases names with
  | users =>
      have lists := congrArg String.toList whole
      simp at lists
  | user step => exact letters _ whole
  | leaf step member => exact letters _ whole

theorem usersPath_append (userName : String) :
    "/o-ran-usermgmt:users" ++ ("[name='" ++ userName ++ "']/password") = userMgmtPath userName := by
  have regrouped : "/o-ran-usermgmt:users" ++ ("[name='" ++ userName ++ "']/password") =
      "/o-ran-usermgmt:users" ++ "[name='" ++ userName ++ "']/password" := by
    simp only [String.append_assoc]
  have literal : "/o-ran-usermgmt:users" ++ "[name='" = "/o-ran-usermgmt:users[name='" := rfl
  exact regrouped.trans (congrArg (fun front => front ++ userName ++ "']/password") literal)

theorem exceptionHandler_of_thrown {σ : Type} {code : SrErrorCode} (failed : code ≠ .SR_ERR_OK)
    (state : σ) : ∃ result, exceptionHandler code false state = .ok result state ∧
      result ≠ .OK := by
  by_cases there : code = .SR_ERR_EXISTS
  · exact ⟨.EXISTS, by simp [exceptionHandler, there], by decide⟩
  · exact ⟨.FAIL, by simp [exceptionHandler, there, failed], by decide⟩

variable (sysrepo : UserMgmtSysrepo) (apply : CntUsers → Edit → CntUsers)
  (before : EditedDatastore CntUsers)

/-- Reading changes nothing, and there is a value where it succeeds. -/
theorem getItem_returns (xpath : String) (datastoreId : Nat) :
    ∃ result param, getItem sysrepo xpath datastoreId before = .ok (result, param) before ∧
      (result = .OK → ∃ value, param = some value) := by
  rw [getItem, bind_ok (get_apply before)]
  cases before.sessionOf datastoreId with
  | none => exact ⟨.FAIL, none, rfl, fun same => absurd same (by decide)⟩
  | some session =>
      dsimp only
      rw [bind_ok (get_apply before)]
      generalize sysrepo.get_item (before.stores session.datastore) xpath = got
      obtain ⟨code, val⟩ := got
      by_cases failed : code = .SR_ERR_OK
      · have done : (call code : EditM CntUsers Unit) before = .ok () before := by
          rw [failed]
          rfl
        rw [catching, bind_ok done]
        cases val with
        | none => exact ⟨.NOT_FOUND, none, rfl, fun same => absurd same (by decide)⟩
        | some val =>
            dsimp only
            by_cases passed : skipped val.data = true
            · rw [if_pos passed]
              exact ⟨.INVALID_TYPE, none, rfl, fun same => absurd same (by decide)⟩
            · rw [if_neg passed]
              exact ⟨.OK, some val.toParam, rfl, fun _ => ⟨_, rfl⟩⟩
      · obtain ⟨result, handled, notOk⟩ := exceptionHandler_of_thrown failed before
        rw [catching, bind_error (call_of_failed failed before)]
        dsimp only
        rw [bind_ok handled]
        exact ⟨result, none, rfl, fun same => absurd same notOk⟩

/-- A write that sysrepo refuses is reported and changes nothing. -/
theorem setItemStr_refused {xpath value : String} {datastoreId : Nat}
    {outcome : Nat → SrErrorCode} (refused : outcome 0 ≠ .SR_ERR_OK) :
    ∃ result after, setItemStr apply xpath value datastoreId outcome before = .ok result after ∧
      result ≠ .OK ∧ after.stores = before.stores := by
  rw [setItemStr, change, bind_ok (get_apply before)]
  cases before.sessionOf datastoreId with
  | none => exact ⟨.FAIL, before, rfl, by decide, rfl⟩
  | some session =>
      have fails : ∃ i ≤ [Edit.set_item_str xpath value].length, outcome i ≠ .SR_ERR_OK :=
        ⟨0, Nat.zero_le _, refused⟩
      obtain ⟨code, after, thrown, failed, same⟩ := applyEdits_of_failed apply fails before
      obtain ⟨result, handled, notOk⟩ := exceptionHandler_of_thrown failed after
      dsimp only
      rw [catching, thrown]
      exact ⟨result, after, handled, notOk, same⟩

variable {sysrepo}

/-- A request without the inputs that are followed does not return. -/
theorem rpcChgPassword_of_missing {userName : String} {callList : List YangParam}
    (missing : ¬ InputsThere callList) :
    rpcChgPassword sysrepo apply userName callList before = .ok none before := by
  rw [rpcChgPassword]
  dsimp only
  cases newGiven : (paramsToMap callList)["newPassword"]? with
  | none => rfl
  | some newPassword =>
      cases confirmGiven : (paramsToMap callList)["newPasswordConfirm"]? with
      | none => rfl
      | some newPasswordConfirm =>
          dsimp only
          have agree : ¬ YangParamUtils.toString newPasswordConfirm ≠
              YangParamUtils.toString newPassword := by
            intro differ
            refine missing ⟨YangParamUtils.toString newPassword,
              YangParamUtils.toString newPasswordConfirm, ?_, ?_, Or.inl differ⟩
            · rw [input, newGiven, Option.map_some]
            · rw [input, confirmGiven, Option.map_some]
          rw [if_neg agree]
          cases currentGiven : (paramsToMap callList)["currentPassword"]? with
          | none => rfl
          | some currentPassword =>
              have there : InputsThere callList := by
                refine ⟨YangParamUtils.toString newPassword,
                  YangParamUtils.toString newPasswordConfirm, ?_, ?_, Or.inr ?_⟩
                · rw [input, newGiven, Option.map_some]
                · rw [input, confirmGiven, Option.map_some]
                · rw [input, currentGiven]
                  exact Option.some_ne_none _
              exact absurd there missing

theorem rpcChgPassword_fails (refuses : RefusesUnknown sysrepo) {userName : String}
    {callList : List YangParam} (there : InputsThere callList) :
    ∃ message after, rpcChgPassword sysrepo apply userName callList before =
      .ok (some (answer "Failed" message)) after ∧ after.stores = before.stores := by
  obtain ⟨newText, confirmText, newInput, confirmInput, rest⟩ := there
  obtain ⟨newPassword, newGiven, rfl⟩ := Option.map_eq_some_iff.mp newInput
  obtain ⟨newPasswordConfirm, confirmGiven, rfl⟩ := Option.map_eq_some_iff.mp confirmInput
  rw [rpcChgPassword]
  dsimp only
  rw [newGiven, confirmGiven]
  dsimp only
  by_cases differ : YangParamUtils.toString newPasswordConfirm ≠ YangParamUtils.toString newPassword
  · rw [if_pos differ]
    exact ⟨_, before, rfl, rfl⟩
  rw [if_neg differ]
  have currentInput := rest.resolve_left differ
  cases currentGiven : (paramsToMap callList)["currentPassword"]? with
  | none =>
      rw [input, currentGiven] at currentInput
      exact absurd rfl currentInput
  | some currentPassword =>
      obtain ⟨found, param, read, value⟩ :=
        getItem_returns sysrepo before (userMgmtPath userName) 0
      dsimp only
      rw [bind_ok read]
      dsimp only
      by_cases failed : found ≠ .OK
      · rw [if_pos failed]
        exact ⟨_, before, rfl, rfl⟩
      rw [if_neg failed]
      obtain ⟨passwordParam, rfl⟩ := value (not_not.mp failed)
      dsimp only
      by_cases wrong : YangParamUtils.toString currentPassword ≠ passwordParam.getString
      · rw [if_pos wrong]
        exact ⟨_, before, rfl, rfl⟩
      rw [if_neg wrong, bind_ok (get_apply before)]
      have unknown := refuses (before.stores .SR_DS_RUNNING)
        ("[name='" ++ userName ++ "']/password") (YangParamUtils.toString newPassword)
        (not_namesNode_userMgmtPath userName)
      rw [usersPath_append] at unknown
      obtain ⟨result, after, written, notOk, same⟩ := @setItemStr_refused apply before
        (userMgmtPath userName) (YangParamUtils.toString newPassword) 0 _ unknown
      rw [bind_ok written, if_pos notOk]
      exact ⟨_, after, rfl, same⟩

end Steps

theorem answer_injective {first second firstMessage secondMessage : String}
    (same : answer first firstMessage = answer second secondMessage) : first = second := by
  have heads := (List.cons.inj same).1
  exact YangData.string.inj (YangParam.mk.inj heads).2

/-- The handler answers as it should exactly when the inputs are there and the
request should not be successful. -/
theorem passwordAnswered_iff {sysrepo : UserMgmtSysrepo} (refuses : RefusesUnknown sysrepo)
    (apply : CntUsers → Edit → CntUsers) (accepts : CntUsers → String → String → Bool)
    (before : EditedDatastore CntUsers) (userName : String) (callList : List YangParam) :
    Answered sysrepo apply accepts before userName callList ↔
      InputsThere callList ∧ ¬ ∃ newPassword entry,
        Granted accepts (before.stores .SR_DS_RUNNING) userName callList newPassword entry := by
  constructor
  · rintro ⟨success, failure⟩
    have notGranted : ¬ ∃ newPassword entry,
        Granted accepts (before.stores .SR_DS_RUNNING) userName callList newPassword entry := by
      rintro ⟨newPassword, entry, granted⟩
      obtain ⟨message, after, result, -⟩ := success newPassword entry granted
      obtain ⟨currentPassword, -, currentInput⟩ := granted.current
      have there : InputsThere callList := by
        refine ⟨newPassword, newPassword, granted.new, granted.confirmed, Or.inr ?_⟩
        rw [currentInput]
        exact Option.some_ne_none _
      obtain ⟨other, otherAfter, fails, -⟩ :=
        @rpcChgPassword_fails sysrepo apply before refuses userName callList there
      have same := (EStateM.Result.ok.inj (result.symm.trans fails)).1
      exact absurd (answer_injective (Option.some.inj same)) (by decide)
    refine ⟨?_, notGranted⟩
    by_contra missing
    obtain ⟨message, after, result, -⟩ := failure notGranted
    have crashed := @rpcChgPassword_of_missing sysrepo apply before userName callList missing
    exact absurd (EStateM.Result.ok.inj (result.symm.trans crashed)).1 (Option.some_ne_none _)
  · rintro ⟨there, notGranted⟩
    refine ⟨?_, fun _ => rpcChgPassword_fails apply before refuses there⟩
    intro newPassword entry granted
    exact absurd ⟨newPassword, entry, granted⟩ notGranted

section Examples

/-- Sysrepo on xpaths that name no node. -/
def unknownNode : UserMgmtSysrepo where
  get_item _ _ := (.SR_ERR_LY, none)
  set_item_str _ _ _ _ := .SR_ERR_LY

theorem unknownNode_refuses : RefusesUnknown unknownNode := by
  intro users rest value _
  exact fun same => SrErrorCode.noConfusion same

def request (currentPassword newPassword newPasswordConfirm : String) : List YangParam :=
  [⟨path "chg-password/currentPassword", .string currentPassword⟩,
    ⟨path "chg-password/newPassword", .string newPassword⟩,
    ⟨path "chg-password/newPasswordConfirm", .string newPasswordConfirm⟩]

theorem input_request (currentPassword newPassword newPasswordConfirm : String) :
    input (request currentPassword newPassword newPasswordConfirm) "currentPassword" =
        some currentPassword ∧
      input (request currentPassword newPassword newPasswordConfirm) "newPassword" =
        some newPassword ∧
      input (request currentPassword newPassword newPasswordConfirm) "newPasswordConfirm" =
        some newPasswordConfirm := by
  have current : leafName (path "chg-password/currentPassword") = "currentPassword" := by
    decide +kernel
  have new : leafName (path "chg-password/newPassword") = "newPassword" := by decide +kernel
  have confirm : leafName (path "chg-password/newPasswordConfirm") = "newPasswordConfirm" := by
    decide +kernel
  simp [input, SysrepoReaders.paramsToMap_getElem?, SysrepoReaders.lastNamed, request, current, new, confirm,
    YangParamUtils.toString]

def alice : LstUser := ⟨none, some "Old1.", some true⟩

def aliceOnly : EditedDatastore CntUsers :=
  ⟨.ACTIVE, [⟨.SR_DS_RUNNING, []⟩, ⟨.SR_DS_OPERATIONAL, []⟩],
    fun _ => (∅ : CntUsers).insert "alice" alice⟩

/-- Passwords that do not agree are refused. -/
theorem answered_differing : Answered unknownNode (fun users _ => users) (fun _ _ _ => true)
    aliceOnly "alice" (request "Old1." "New1." "New2.") := by
  obtain ⟨-, new, confirm⟩ := input_request "Old1." "New1." "New2."
  refine (passwordAnswered_iff unknownNode_refuses _ _ _ _ _).mpr ⟨⟨_, _, new, confirm, Or.inl (by decide)⟩, ?_⟩
  rintro ⟨newPassword, entry, granted⟩
  have first := Option.some.inj (new.symm.trans granted.new)
  have second := Option.some.inj (confirm.symm.trans granted.confirmed)
  exact absurd (first.trans second.symm) (by decide)

/-- A user who gives the right passwords is refused as well. -/
theorem own_password_is_not_changed :
    ¬ Answered unknownNode (fun users _ => users) (fun _ _ _ => true) aliceOnly "alice"
      (request "Old1." "New1." "New1.") := by
  rintro ⟨success, -⟩
  obtain ⟨current, new, confirm⟩ := input_request "Old1." "New1." "New1."
  have granted : Granted (fun _ _ _ => true) (aliceOnly.stores .SR_DS_RUNNING) "alice"
      (request "Old1." "New1." "New1.") "New1." alice :=
    ⟨new, confirm, Std.ExtTreeMap.getElem?_insert_self, ⟨"Old1.", rfl, current⟩, rfl⟩
  have there : InputsThere (request "Old1." "New1." "New1.") := by
    refine ⟨_, _, new, confirm, Or.inr ?_⟩
    rw [current]
    exact Option.some_ne_none _
  obtain ⟨message, after, result, -⟩ := success _ _ granted
  obtain ⟨other, otherAfter, fails, -⟩ :=
    rpcChgPassword_fails (fun users _ => users) aliceOnly unknownNode_refuses there
  have same := (EStateM.Result.ok.inj (result.symm.trans fails)).1
  exact absurd (answer_injective (Option.some.inj same)) (by decide)

end Examples

end OranUserMgmtHandler

end OpenMplane
