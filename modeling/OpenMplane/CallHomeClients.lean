import OpenMplane.CallHomeKeys
import OpenMplane.OrderedEntries

/-!
# Call home clients

`addCallHomeClient` and `deleteCallHomeClient` of the handler of `ietf-netconf-server`.  A
client is deleted where its key is listed; when it is the only key, the container of all
clients is to be deleted, by a path that is not absolute, and sysrepo refuses it.  The last
client and every client with a `]` in its name stay, and a client that is only mentioned in the
name of another one is reported as deleted.
-/

namespace OpenMplane

open GuardedRuns StatePrograms EditedDatastore RadioDatastoreSysrepo

-- one name for the fact that the `if`s below decide by
local instance lawfulBEqKeyValue : LawfulBEq (List Char) := inferInstance

def clientName (url port : String) : String := "client-" ++ url ++ "-" ++ port

def endPointPath : String := "endpoints/endpoint[name='ssh-endpoint']"

/-- What `addCallHomeClient` sets below a client. -/
def clientEntries (url port : String) : List (String × Option String) :=
  [(endPointPath, none),
    (endPointPath ++ "/ssh/tcp-client-parameters/remote-address", some url),
    (endPointPath ++ "/ssh/tcp-client-parameters/remote-port", some port),
    (endPointPath ++ "/ssh/tcp-client-parameters/keepalives/idle-time", some "60"),
    (endPointPath ++ "/ssh/tcp-client-parameters/keepalives/max-probes", some "10"),
    (endPointPath ++ "/ssh/tcp-client-parameters/keepalives/probe-interval", some "30"),
    (endPointPath ++ "/ssh/ssh-server-parameters/server-identity/" ++
      "host-key[name='default-key']", none),
    (endPointPath ++ "/ssh/ssh-server-parameters/server-identity/" ++
      "host-key[name='default-key']/public-key/keystore-reference", some "genkey"),
    (endPointPath ++ "/ssh/ssh-server-parameters/client-authentication/" ++
      "users/user[name='default-user']", none),
    ("connection-type/persistent", none)]

def clientValues (url port : String) : StdMap (Option String) :=
  Std.ExtTreeMap.ofList (clientEntries url port)

/-- The paths below a client that the handler sets. -/
def clientNodes : List String := (clientEntries "" "").map Prod.fst

def Edit.xpath : Edit → String
  | .set_item xpath _ => xpath
  | .set_item_str xpath _ => xpath
  | .delete_item xpath => xpath

/-- Sysrepo with the list of the clients, each with what is set below it: what an edit does to
the list, in which order it is read, and how the call for an xpath ends. -/
structure ClientStore (entry : Type) where
  blank : entry
  put : entry → String → Option String → entry
  apply : StdMap entry → Edit → StdMap entry
  listed : StdMap entry → List String
  answer : String → SrErrorCode
  nodup_listed : ∀ clients, (listed clients).Nodup
  mem_listed : ∀ clients name, name ∈ listed clients ↔ name ∈ clients
  apply_client : ∀ clients name, '\'' ∉ name.toList →
    apply clients (.set_item (clientPath name) none) =
      clients.insert name (clients.getD name blank)
  apply_node : ∀ clients name path, '\'' ∉ name.toList → path ∈ clientNodes →
    apply clients (.set_item (clientPath name ++ "/" ++ path) none) =
      clients.insert name (put (clients.getD name blank) path none)
  apply_text : ∀ clients name path text, '\'' ∉ name.toList → path ∈ clientNodes →
    apply clients (.set_item_str (clientPath name ++ "/" ++ path) text) =
      clients.insert name (put (clients.getD name blank) path (some text))
  apply_delete : ∀ clients name, '\'' ∉ name.toList →
    apply clients (.delete_item (clientPath name)) = clients.erase name
  answer_client : ∀ name, '\'' ∉ name.toList → answer (clientPath name) = .SR_ERR_OK
  answer_node : ∀ name path, '\'' ∉ name.toList → path ∈ clientNodes →
    answer (clientPath name ++ "/" ++ path) = .SR_ERR_OK
  answer_relative : ∀ xpath, xpath.toList.head? ≠ some '/' → answer xpath ≠ .SR_ERR_OK

section Source

variable {entry : Type} (store : ClientStore entry)

/-- How the calls of a session for these edits end; the changes are always applied. -/
def ClientStore.outcome (edits : List Edit) (index : Nat) : SrErrorCode :=
  match edits[index]? with
  | some edit => store.answer edit.xpath
  | none => .SR_ERR_OK

def addCallHomeClient (url port : String) : EditM (StdMap entry) Bool := do
  let path := keyedPath clientListPath "name" (clientName url port)
  let values := clientValues url port
  let result ← createListEntryPointers store.apply path values 0
    (store.outcome (pointedEdits path values))
  return decide (result = .OK)

/-- `RadioDatastoreSysrepo::getListItems` of the list of the clients. -/
def getListItems (datastoreId : Nat) :
    EditM (StdMap entry) (Option (List (List Char))) := do
  let datastore ← get
  match datastore.sessionOf datastoreId with
  | none => return some []
  | some session =>
      return listKeyValues ((store.listed (datastore.stores session.datastore)).map instancePath)

/-- `IetfNetconfServerHandler::deleteCallHomeClient`; it does not return where the scan does
not come to an end. -/
def deleteCallHomeClient (url port : String) : EditM (StdMap entry) (Option Bool) := do
  let clientNameToSearch := "name='client-" ++ url ++ "-" ++ port ++ "'"
  match ← getListItems store 0 with
  | none => return none
  | some keyValues =>
      if clientNameToSearch.toList ∈ keyValues then
        let xpath :=
          if 1 < keyValues.length then clientListPath ++ "[" ++ clientNameToSearch ++ "]"
          else "netconf-server/call-home"
        let result ← deleteItem store.apply xpath 0 (store.outcome [.delete_item xpath])
        return some (decide (result = .OK))
      else return some false

end Source

/-- The address and the port of a client, which have no quotes. -/
structure CallHomeClient where
  url : String
  port : String
  url_plain : '\'' ∉ url.toList
  port_plain : '\'' ∉ port.toList

def CallHomeClient.name (client : CallHomeClient) : String := clientName client.url client.port

inductive ClientCall
  | addClient (client : CallHomeClient)
  | deleteClient (client : CallHomeClient)

namespace ClientCall

def client : ClientCall → CallHomeClient
  | addClient client => client
  | deleteClient client => client

def adds : ClientCall → Bool
  | addClient _ => true
  | deleteClient _ => false

def name (call : ClientCall) : String := call.client.name

def run {entry : Type} (store : ClientStore entry) :
    ClientCall → EditM (StdMap entry) (Option Bool)
  | addClient client => some <$> addCallHomeClient store client.url client.port
  | deleteClient client => deleteCallHomeClient store client.url client.port

end ClientCall

section Specs

variable {entry : Type} (store : ClientStore entry)

/-- A datastore that is ready: the first session is on the running datastore and has no edits. -/
def activated (others : List EditSession) (stores : SrDatastore → StdMap entry) :
    EditedDatastore (StdMap entry) :=
  ⟨.ACTIVE, ⟨.SR_DS_RUNNING, []⟩ :: others, stores⟩

/-- The ready datastore with other clients. -/
def withClients (others : List EditSession) (stores : SrDatastore → StdMap entry)
    (clients : StdMap entry) : EditedDatastore (StdMap entry) :=
  activated others (Function.update stores .SR_DS_RUNNING clients)

variable {others : List EditSession} {stores : SrDatastore → StdMap entry}

theorem withClients_self :
    withClients others stores (stores .SR_DS_RUNNING) = activated others stores := by
  rw [withClients, Function.update_eq_self]

theorem change_of_answers {edits : List Edit} (halt : Bool)
    (answers : ∀ edit ∈ edits, store.answer edit.xpath = .SR_ERR_OK) :
    change store.apply 0 edits halt (store.outcome edits) (activated others stores) =
      .ok .OK (withClients others stores
        (edits.foldl store.apply (stores .SR_DS_RUNNING))) := by
  have succeeds : ∀ i < edits.length, store.outcome edits (0 + i) = .SR_ERR_OK := by
    intro i below
    rw [Nat.zero_add, ClientStore.outcome, List.getElem?_eq_getElem below]
    exact answers _ (List.getElem_mem below)
  have applied : store.outcome edits edits.length = .SR_ERR_OK := by
    rw [ClientStore.outcome, List.getElem?_eq_none (Nat.le_refl _)]
  have added : addEdits 0 (store.outcome edits) 0 edits (activated others stores) =
      .ok () (collected 0 edits (activated others stores)) := addEdits_of_ok succeeds _
  rw [change, bind_ok (get_apply _)]
  change catching _ _ _ = _
  rw [catching, applyEdits, bind_ok added, applied]
  rfl

/-- A path that is not absolute is refused, and nothing is changed. -/
theorem deleteItem_of_relative {xpath : String} (relative : xpath.toList.head? ≠ some '/') :
    ∃ result, deleteItem store.apply xpath 0 (store.outcome [.delete_item xpath])
        (activated others stores) = .ok result (activated others stores) ∧ result ≠ .OK := by
  have refused := store.answer_relative xpath relative
  have thrown : addEdits 0 (store.outcome [.delete_item xpath]) 0 [.delete_item xpath]
      (activated others stores) =
        .error (.sysrepo_exception (store.answer xpath)) (activated others stores) :=
    bind_error (bind_error (call_of_failed refused _))
  rw [deleteItem, change, bind_ok (get_apply _)]
  change ∃ result, catching _ _ _ = _ ∧ _
  rw [catching, applyEdits, bind_error thrown]
  change ∃ result, exceptionHandler _ false _ = _ ∧ _
  rw [exceptionHandler]
  by_cases there : store.answer xpath = .SR_ERR_EXISTS
  · rw [if_pos there]
    exact ⟨.EXISTS, rfl, by decide⟩
  · rw [if_neg there, if_pos refused]
    exact ⟨.FAIL, rfl, by decide⟩

theorem mem_clientNodes {url port : String} {item : String × Option String}
    (member : item ∈ (clientValues url port).toList) : item.1 ∈ clientNodes := by
  have inMap := OrderedEntries.mem_of_mem_toList _ member
  rw [clientValues, Std.ExtTreeMap.mem_ofList] at inMap
  exact List.contains_iff_mem.mp inMap

theorem answers_pointedEdits {name : String} (plain : '\'' ∉ name.toList) {url port : String} :
    ∀ edit ∈ pointedEdits (clientPath name) (clientValues url port),
      store.answer edit.xpath = .SR_ERR_OK := by
  intro edit member
  rcases List.mem_cons.mp member with rfl | below
  · exact store.answer_client name plain
  · obtain ⟨⟨path, value⟩, inMap, rfl⟩ := List.mem_map.mp below
    have answers := store.answer_node name path plain (mem_clientNodes inMap)
    cases value with
    | none => exact answers
    | some text => exact answers

/-- Whatever is set below a client changes that client alone. -/
theorem foldl_pointedEdits {name : String} (plain : '\'' ∉ name.toList) (url port : String)
    (clients : StdMap entry) :
    ∃ data, (pointedEdits (clientPath name) (clientValues url port)).foldl store.apply clients =
      clients.insert name data := by
  rw [pointedEdits, List.foldl_cons, store.apply_client clients name plain]
  have nodes : ∀ item ∈ (clientValues url port).toList, item.1 ∈ clientNodes :=
    fun item member => mem_clientNodes member
  generalize clients.getD name store.blank = data
  generalize (clientValues url port).toList = items at nodes
  induction items generalizing data with
  | nil => exact ⟨data, rfl⟩
  | cons item items ih =>
      obtain ⟨path, value⟩ := item
      have node : path ∈ clientNodes := nodes _ List.mem_cons_self
      have inItems : ∀ item ∈ items, item.1 ∈ clientNodes :=
        fun item member => nodes item (List.mem_cons_of_mem _ member)
      rw [List.map_cons, List.foldl_cons]
      cases value with
      | none =>
          dsimp only
          rw [store.apply_node _ name path plain node, OrderedEntries.insert_insert]
          exact ih _ inItems
      | some text =>
          dsimp only
          rw [store.apply_text _ name path text plain node, OrderedEntries.insert_insert]
          exact ih _ inItems

theorem CallHomeClient.name_plain (client : CallHomeClient) : '\'' ∉ client.name.toList := by
  rw [CallHomeClient.name, clientName]
  simp only [String.toList_append]
  exact List.not_mem_append
    (List.not_mem_append (List.not_mem_append (by decide) client.url_plain) (by decide))
    client.port_plain

theorem run_addClient (client : CallHomeClient) :
    ∃ data, (ClientCall.addClient client).run store (activated others stores) =
      .ok (some true) (withClients others stores
        ((stores .SR_DS_RUNNING).insert client.name data)) := by
  obtain ⟨data, added⟩ := foldl_pointedEdits store client.name_plain client.url client.port
    (stores .SR_DS_RUNNING)
  have changed := @change_of_answers entry store others stores _ false
    (@answers_pointedEdits entry store _ client.name_plain client.url client.port)
  rw [added] at changed
  have created : addCallHomeClient store client.url client.port (activated others stores) = _ :=
    bind_ok changed
  refine ⟨data, ?_⟩
  change EStateM.map _ _ _ = _
  rw [EStateM.map, created]
  rfl

/-- What `deleteCallHomeClient` makes of the clients, and what it returns. -/
def deleted (clients : StdMap entry) (name : String) : StdMap entry × Option Bool :=
  match listKeyValues ((store.listed clients).map instancePath) with
  | none => (clients, none)
  | some keyValues =>
      if keyText '\'' name ∈ keyValues then
        if 1 < keyValues.length then (clients.erase name, some true) else (clients, some false)
      else (clients, some false)

theorem searched_eq (url port : String) :
    "name='client-" ++ url ++ "-" ++ port ++ "'" = "name='" ++ clientName url port ++ "'" := by
  apply String.toList_inj.mp
  simp only [clientName, String.toList_append, List.append_assoc]
  rfl

theorem toList_searched (name : String) :
    ("name='" ++ name ++ "'").toList = keyText '\'' name := by
  simp only [String.toList_append, List.append_assoc]
  rfl

theorem clientPath_eq (name : String) :
    clientListPath ++ "[" ++ ("name='" ++ name ++ "'") ++ "]" = clientPath name := by
  apply String.toList_inj.mp
  simp only [clientPath, keyedPath, String.toList_append, List.append_assoc]
  rfl

theorem deleteItem_clientPath {name : String} (plain : '\'' ∉ name.toList) :
    deleteItem store.apply (clientPath name) 0 (store.outcome [.delete_item (clientPath name)])
      (activated others stores) =
        .ok .OK (withClients others stores ((stores .SR_DS_RUNNING).erase name)) := by
  have answers : ∀ edit ∈ [Edit.delete_item (clientPath name)],
      store.answer edit.xpath = .SR_ERR_OK := by
    intro edit member
    obtain rfl := List.mem_singleton.mp member
    exact store.answer_client name plain
  rw [deleteItem, change_of_answers store false answers, List.foldl_cons, List.foldl_nil,
    store.apply_delete _ name plain]

theorem run_deleteClient (client : CallHomeClient) :
    (ClientCall.deleteClient client).run store (activated others stores) =
      .ok (deleted store (stores .SR_DS_RUNNING) client.name).2
        (withClients others stores (deleted store (stores .SR_DS_RUNNING) client.name).1) := by
  have listed : getListItems store 0 (activated others stores) =
      .ok (listKeyValues ((store.listed (stores .SR_DS_RUNNING)).map instancePath))
        (activated others stores) := rfl
  change deleteCallHomeClient store client.url client.port _ = _
  rw [deleteCallHomeClient, bind_ok listed, searched_eq, toList_searched, deleted]
  rw [← CallHomeClient.name]
  cases listKeyValues ((store.listed (stores .SR_DS_RUNNING)).map instancePath) with
  | none =>
      dsimp only
      rw [withClients_self]
      rfl
  | some keyValues =>
      dsimp only
      by_cases found : keyText '\'' client.name ∈ keyValues
      · rw [if_pos found, if_pos found]
        by_cases more : 1 < keyValues.length
        · rw [if_pos more, if_pos more, clientPath_eq,
            bind_ok (deleteItem_clientPath store client.name_plain)]
          rfl
        · rw [if_neg more, if_neg more, withClients_self]
          have relative : "netconf-server/call-home".toList.head? ≠ some '/' := by decide
          obtain ⟨result, refused, failed⟩ :=
            @deleteItem_of_relative entry store others stores _ relative
          rw [bind_ok refused, decide_eq_false failed]
          rfl
      · rw [if_neg found, if_neg found, withClients_self]
        rfl

end Specs

section Runs

variable {entry : Type} (store : ClientStore entry)

/-- The clients in the running datastore. -/
def clientsOf (datastore : EditedDatastore (StdMap entry)) : StdMap entry :=
  datastore.stores .SR_DS_RUNNING

namespace ClientCall

def step (datastore : EditedDatastore (StdMap entry)) (call : ClientCall) :
    EditedDatastore (StdMap entry) :=
  finalState (call.run store datastore)

def returned (datastore : EditedDatastore (StdMap entry)) (call : ClientCall) : Option Bool :=
  match call.run store datastore with
  | .ok value _ => value
  | .error _ _ => none

/-- The call changes its own client only, as it should, and a deletion says whether the client
was there. -/
structure Correct (datastore : EditedDatastore (StdMap entry)) (call : ClientCall) : Prop where
  own : call.name ∈ clientsOf (call.step store datastore) ↔ call.adds = true
  others : ∀ name, name ≠ call.name →
    (clientsOf (call.step store datastore))[name]? = (clientsOf datastore)[name]?
  found : call.adds = false →
    call.returned store datastore = some (decide (call.name ∈ clientsOf datastore))

/-- A client that is deleted has no `]` in its name and is not the only one, and one that is
not there has no key between the brackets of another one. -/
def Meets (clients : StdMap entry) : ClientCall → Prop
  | addClient _ => True
  | deleteClient client =>
      (client.name ∈ clients →
        ']' ∉ client.name.toList ∧ ∃ other ∈ clients, other ≠ client.name) ∧
      (client.name ∉ clients → ∀ other ∈ clients, ¬ Lists other client.name)

/-- The xpaths of the clients fit the positions of the scanner. -/
def Fits (clients : StdMap entry) : Prop := ∀ name ∈ clients, Short name

/-- The last of the calls that is about the name. -/
def lastOf (name : String) (calls : List ClientCall) : Option ClientCall :=
  (calls.filter (·.name = name)).getLast?

section Step

variable {others : List EditSession} {stores : SrDatastore → StdMap entry}
variable {store} {name : String} {clients : StdMap entry}

theorem clientsOf_withClients : clientsOf (withClients others stores clients) = clients := by
  rw [clientsOf, withClients, activated]
  exact Function.update_self SrDatastore.SR_DS_RUNNING clients stores

theorem correct_addClient (client : CallHomeClient) :
    Correct store (activated others stores) (addClient client) := by
  obtain ⟨data, ran⟩ := @run_addClient entry store others stores client
  have after : clientsOf (step store (activated others stores) (addClient client)) =
      (stores .SR_DS_RUNNING).insert client.name data := by
    rw [step, ran, finalState_ok, clientsOf_withClients]
  refine ⟨?_, fun other different => ?_, nofun⟩
  · rw [after]
    exact iff_of_true Std.ExtTreeMap.mem_insert_self rfl
  · rw [after, Std.ExtTreeMap.getElem?_insert, if_neg]
    · rfl
    · exact fun same => different (Std.LawfulEqCmp.eq_of_compare same).symm

theorem clientsOf_deleteClient (client : CallHomeClient) :
    clientsOf (step store (activated others stores) (deleteClient client)) =
      (deleted store (stores .SR_DS_RUNNING) client.name).1 := by
  rw [step, run_deleteClient, finalState_ok, clientsOf_withClients]

theorem returned_deleteClient (client : CallHomeClient) :
    returned store (activated others stores) (deleteClient client) =
      (deleted store (stores .SR_DS_RUNNING) client.name).2 := by
  rw [returned, run_deleteClient]

/-- Every step leads to a datastore that is ready. -/
theorem exists_step (call : ClientCall) :
    ∃ clients, step store (activated others stores) call = withClients others stores clients := by
  cases call with
  | addClient client =>
      obtain ⟨data, ran⟩ := @run_addClient entry store others stores client
      exact ⟨_, by rw [step, ran, finalState_ok]⟩
  | deleteClient client => exact ⟨_, by rw [step, run_deleteClient, finalState_ok]⟩

theorem keyValues_of_fits (fits : Fits clients) :
    listKeyValues ((store.listed clients).map instancePath) =
      some ((store.listed clients).flatMap fun name => pairsOf (instancePath name)) :=
  listKeyValues_eq fun name member => fits name ((store.mem_listed clients name).mp member)

theorem keyText_mem_iff :
    keyText '\'' name ∈ ((store.listed clients).flatMap fun name => pairsOf (instancePath name)) ↔
      ∃ other ∈ clients, Lists other name := by
  rw [List.mem_flatMap]
  simp only [store.mem_listed, mem_pairsOf_iff]
  rfl

theorem deleted_of_unlisted (fits : Fits clients)
    (unlisted : ¬ ∃ other ∈ clients, Lists other name) :
    deleted store clients name = (clients, some false) := by
  rw [deleted, keyValues_of_fits fits]
  exact if_neg (mt keyText_mem_iff.mp unlisted)

theorem deleted_of_more (fits : Fits clients) (listed : ∃ other ∈ clients, Lists other name)
    (more : 1 <
      ((store.listed clients).flatMap fun name => pairsOf (instancePath name)).length) :
    deleted store clients name = (clients.erase name, some true) := by
  rw [deleted, keyValues_of_fits fits]
  exact (if_pos (keyText_mem_iff.mpr listed)).trans (if_pos more)

theorem deleted_of_single (fits : Fits clients)
    (single :
      ((store.listed clients).flatMap fun name => pairsOf (instancePath name)).length ≤ 1) :
    deleted store clients name = (clients, some false) := by
  rw [deleted, keyValues_of_fits fits]
  dsimp only
  split
  · exact if_neg (Nat.not_lt.mpr single)
  · rfl

theorem correct_deleteClient {client : CallHomeClient} {after : StdMap entry}
    {result : Option Bool}
    (made : deleted store (stores .SR_DS_RUNNING) client.name = (after, result)) :
    Correct store (activated others stores) (deleteClient client) ↔
      client.name ∉ after ∧
        (∀ name, name ≠ client.name → after[name]? = (stores .SR_DS_RUNNING)[name]?) ∧
        result = some (decide (client.name ∈ stores .SR_DS_RUNNING)) := by
  have clients : clientsOf (step store (activated others stores) (deleteClient client)) = after :=
    by rw [clientsOf_deleteClient, made]
  have value : returned store (activated others stores) (deleteClient client) = result := by
    rw [returned_deleteClient, made]
  constructor
  · rintro ⟨own, kept, found⟩
    rw [clients] at own kept
    rw [value] at found
    exact ⟨fun member => absurd (own.mp member) nofun, kept, found rfl⟩
  · rintro ⟨gone, kept, found⟩
    refine ⟨?_, ?_, fun _ => value.trans found⟩
    · rw [clients]
      exact iff_of_false gone nofun
    · rw [clients]
      exact kept

theorem getElem?_erase_of_ne {other : String} (different : other ≠ name) :
    (clients.erase name)[other]? = clients[other]? := by
  rw [Std.ExtTreeMap.getElem?_erase, if_neg]
  exact fun same => different (Std.LawfulEqCmp.eq_of_compare same).symm

/-- A deletion is correct exactly when it meets the condition. -/
theorem correct_deleteClient_iff (fits : Fits (stores .SR_DS_RUNNING))
    (client : CallHomeClient) :
    Correct store (activated others stores) (deleteClient client) ↔
      Meets (stores .SR_DS_RUNNING) (deleteClient client) := by
  have plain := client.name_plain
  by_cases present : client.name ∈ stores .SR_DS_RUNNING
  · have needed : Meets (stores .SR_DS_RUNNING) (deleteClient client) ↔
        ']' ∉ client.name.toList ∧ ∃ other ∈ stores .SR_DS_RUNNING, other ≠ client.name :=
      ⟨fun meets => meets.1 present, fun meets => ⟨fun _ => meets, fun absent => absurd present absent⟩⟩
    rw [needed]
    by_cases closing : ']' ∈ client.name.toList
    · have unlisted : ¬ ∃ other ∈ stores .SR_DS_RUNNING, Lists other client.name := by
        rintro ⟨other, -, -, -, -, noClosing, -⟩
        exact noClosing (closing_mem_keyText.mpr closing)
      rw [correct_deleteClient (deleted_of_unlisted fits unlisted)]
      exact iff_of_false (fun correct => correct.1 present) fun meets => meets.1 closing
    · have listed : ∃ other ∈ stores .SR_DS_RUNNING, Lists other client.name :=
        ⟨client.name, present, (lists_self_iff plain).mpr closing⟩
      by_cases more : ∃ other ∈ stores .SR_DS_RUNNING, other ≠ client.name
      · obtain ⟨other, member, different⟩ := more
        have several := two_le_length ((store.mem_listed _ _).mpr present)
          ((store.mem_listed _ _).mpr member) different
        rw [correct_deleteClient (deleted_of_more fits listed several)]
        refine iff_of_true ⟨?_, fun name different => getElem?_erase_of_ne different, ?_⟩
          ⟨closing, other, member, different⟩
        · exact fun held => (Std.ExtTreeMap.mem_erase.mp held).1 Std.ReflCmp.compare_self
        · rw [decide_eq_true present]
      · have single := length_le_one (store.nodup_listed (stores .SR_DS_RUNNING))
          (fun other member => not_not.mp fun different =>
            more ⟨other, (store.mem_listed _ _).mp member, different⟩) plain closing
        rw [correct_deleteClient (deleted_of_single fits single)]
        exact iff_of_false (fun correct => correct.1 present) fun meets => more meets.2
  · have needed : Meets (stores .SR_DS_RUNNING) (deleteClient client) ↔
        ¬ ∃ other ∈ stores .SR_DS_RUNNING, Lists other client.name := by
      constructor
      · rintro meets ⟨other, member, lists⟩
        exact meets.2 present other member lists
      · exact fun unlisted => ⟨fun member => absurd member present,
          fun _ other member lists => unlisted ⟨other, member, lists⟩⟩
    rw [needed]
    by_cases listed : ∃ other ∈ stores .SR_DS_RUNNING, Lists other client.name
    · have several : 1 < ((store.listed (stores .SR_DS_RUNNING)).flatMap
          fun name => pairsOf (instancePath name)).length := by
        obtain ⟨other, member, lists⟩ := listed
        refine two_le_length_of_lists plain ((store.mem_listed _ _).mpr member) ?_ lists
        rintro rfl
        exact present member
      rw [correct_deleteClient (deleted_of_more fits listed several)]
      refine iff_of_false (fun correct => ?_) fun unlisted => unlisted listed
      have result := correct.2.2
      rw [decide_eq_false present] at result
      cases result
    · rw [correct_deleteClient (deleted_of_unlisted fits listed)]
      exact iff_of_true ⟨present, fun _ _ => rfl, by rw [decide_eq_false present]⟩ listed

theorem correct_iff_meets (fits : Fits (stores .SR_DS_RUNNING)) (call : ClientCall) :
    Correct store (activated others stores) call ↔ Meets (stores .SR_DS_RUNNING) call := by
  cases call with
  | addClient client => exact iff_of_true (correct_addClient client) trivial
  | deleteClient client => exact correct_deleteClient_iff fits client

end Step

/-- Calls that are all correct leave the clients that were there and those that were added, but
for those that have been deleted since; the data of a client that no call is about is as it
was. -/
theorem clients_of_correct {start : EditedDatastore (StdMap entry)} {calls : List ClientCall}
    (correct : Guarded (Correct store) (step store) start calls) (name : String) :
    (name ∈ clientsOf (calls.foldl (step store) start) ↔
      match lastOf name calls with
      | none => name ∈ clientsOf start
      | some call => call.adds = true) ∧
    (lastOf name calls = none →
      (clientsOf (calls.foldl (step store) start))[name]? = (clientsOf start)[name]?) := by
  induction calls using List.reverseRecOn with
  | nil => exact ⟨Iff.rfl, fun _ => rfl⟩
  | append_singleton calls call ih =>
      obtain ⟨own, others, -⟩ := correct.rest_of_append.1
      obtain ⟨members, same⟩ := ih correct.of_append
      rw [List.foldl_append, List.foldl_cons, List.foldl_nil]
      by_cases about : call.name = name
      · have last : lastOf name (calls ++ [call]) = some call := by
          have alone : [call].filter (·.name = name) = [call] := by simp [about]
          rw [lastOf, List.filter_append, alone]
          exact List.getLast?_concat
        rw [last]
        subst about
        exact ⟨own, nofun⟩
      · have last : lastOf name (calls ++ [call]) = lastOf name calls := by
          have passed : [call].filter (·.name = name) = [] := by simp [about]
          rw [lastOf, List.filter_append, passed, List.append_nil, lastOf]
        have kept := others name (Ne.symm about)
        have member : name ∈ clientsOf (step store (calls.foldl (step store) start) call) ↔
            name ∈ clientsOf (calls.foldl (step store) start) := by
          rw [← Std.ExtTreeMap.isSome_getElem?_iff_mem, kept,
            Std.ExtTreeMap.isSome_getElem?_iff_mem]
        rw [last, member, kept]
        exact ⟨members, same⟩

end ClientCall

open ClientCall in
/-- As long as the xpaths of the clients fit the scanner, the calls of a run are all correct
exactly when no client is deleted that has a `]` in its name, that is the last one, or that is
not there but listed as a part of another one.  Correct calls leave the clients that were there
and those that were added, without those that have been deleted since, and the data of the
others. -/
theorem clients_iff (others : List EditSession) (stores : SrDatastore → StdMap entry)
    (calls : List ClientCall) :
    (Guarded (fun datastore call => Fits (clientsOf datastore) ∧ Correct store datastore call)
        (step store) (activated others stores) calls ↔
      Guarded (fun datastore call => Fits (clientsOf datastore) ∧ Meets (clientsOf datastore) call)
        (step store) (activated others stores) calls) ∧
    (Guarded (Correct store) (step store) (activated others stores) calls → ∀ name,
      (name ∈ clientsOf (calls.foldl (step store) (activated others stores)) ↔
        match lastOf name calls with
        | none => name ∈ stores .SR_DS_RUNNING
        | some call => call.adds = true) ∧
      (lastOf name calls = none →
        (clientsOf (calls.foldl (step store) (activated others stores)))[name]? =
          (stores .SR_DS_RUNNING)[name]?)) := by
  refine ⟨?_, fun correct name => clients_of_correct store correct name⟩
  refine guarded_iff_of_invariant
    (fun datastore call (ready : ∃ stores, datastore = activated others stores) => ?_)
    (fun datastore call ready _ => ?_) ⟨stores, rfl⟩ calls
  · obtain ⟨stores, rfl⟩ := ready
    exact and_congr_right fun fits => correct_iff_meets fits call
  · obtain ⟨stores, rfl⟩ := ready
    obtain ⟨clients, after⟩ := @exists_step entry store others stores call
    exact ⟨_, after⟩

end Runs

section PlainStore

/-- What stands before the name in the xpath of a client. -/
def clientPrefix : List Char := clientListPath.toList ++ "[name='".toList

/-- The name of a client in an xpath, and the path of what is below it. -/
def nodeOf (xpath : String) : Option (String × Option String) :=
  if clientPrefix <+: xpath.toList then
    match ListCut.cutFirst '\'' (xpath.toList.drop clientPrefix.length) with
    | some (name, [']']) => some (String.ofList name, none)
    | some (name, ']' :: '/' :: path) => some (String.ofList name, some (String.ofList path))
    | _ => none
  else none

theorem toList_clientPath (name : String) :
    (clientPath name).toList = clientPrefix ++ (name.toList ++ '\'' :: [']']) := by
  simp only [clientPath, keyedPath, clientPrefix, String.toList_append, List.append_assoc]
  rfl

theorem nodeOf_clientPath {name : String} (plain : '\'' ∉ name.toList) :
    nodeOf (clientPath name) = some (name, none) := by
  rw [nodeOf, toList_clientPath, if_pos (List.prefix_append _ _), List.drop_left,
    ListCut.cutFirst_append _ plain]
  change some (String.ofList name.toList, none) = _
  rw [String.ofList_toList]

theorem nodeOf_below {name : String} (plain : '\'' ∉ name.toList) (path : String) :
    nodeOf (clientPath name ++ "/" ++ path) = some (name, some path) := by
  have text : (clientPath name ++ "/" ++ path).toList =
      clientPrefix ++ (name.toList ++ '\'' :: ']' :: '/' :: path.toList) := by
    simp only [String.toList_append, toList_clientPath, List.append_assoc]
    rfl
  rw [nodeOf, text, if_pos (List.prefix_append _ _), List.drop_left,
    ListCut.cutFirst_append _ plain]
  change some (String.ofList name.toList, some (String.ofList path.toList)) = _
  rw [String.ofList_toList, String.ofList_toList]

/-- An edit of clients that are kept as the paths that are set below them. -/
def applyPlain (clients : StdMap (StdMap (Option String))) :
    Edit → StdMap (StdMap (Option String))
  | .set_item xpath _ =>
      match nodeOf xpath with
      | none => clients
      | some (name, none) => clients.insert name (clients.getD name ∅)
      | some (name, some path) => clients.insert name ((clients.getD name ∅).insert path none)
  | .set_item_str xpath text =>
      match nodeOf xpath with
      | some (name, some path) =>
          clients.insert name ((clients.getD name ∅).insert path (some text))
      | _ => clients
  | .delete_item xpath =>
      match nodeOf xpath with
      | some (name, none) => clients.erase name
      | _ => clients

theorem head?_clientListPath (text : String) :
    (clientListPath ++ text).toList.head? = some '/' := by
  rw [String.toList_append]
  rfl

/-- Clients that are kept as the paths that are set below them, in the order of their names. -/
def plainStore : ClientStore (StdMap (Option String)) where
  blank := ∅
  put data path value := data.insert path value
  apply := applyPlain
  listed clients := clients.keys
  answer xpath := if xpath.toList.head? = some '/' then .SR_ERR_OK else .SR_ERR_INVAL_ARG
  nodup_listed _ := Std.ExtTreeMap.nodup_keys
  mem_listed _ _ := Std.ExtTreeMap.mem_keys
  apply_client clients name plain := by rw [applyPlain, nodeOf_clientPath plain]
  apply_node clients name path plain _ := by rw [applyPlain, nodeOf_below plain]
  apply_text clients name path text plain _ := by rw [applyPlain, nodeOf_below plain]
  apply_delete clients name plain := by rw [applyPlain, nodeOf_clientPath plain]
  answer_client name _ := by
    rw [clientPath, keyedPath]
    simp only [String.append_assoc]
    exact if_pos (head?_clientListPath _)
  answer_node name path _ _ := by
    rw [clientPath, keyedPath]
    simp only [String.append_assoc]
    exact if_pos (head?_clientListPath _)
  answer_relative xpath relative := by
    rw [if_neg relative]
    exact nofun

/-- A client on the default port of the module. -/
def oneClient : CallHomeClient := ⟨"10.0.0.1", "4334", by decide, by decide⟩

theorem short_oneClient : Short oneClient.name := by
  rw [Short]
  decide +kernel

open ClientCall in
/-- The only client is not deleted, and is not reported as deleted. -/
theorem last_client_stays : ¬ ∀ (others : List EditSession)
    (stores : SrDatastore → StdMap (StdMap (Option String))) (calls : List ClientCall),
    Guarded (Correct plainStore) (ClientCall.step plainStore) (activated others stores) calls := by
  intro always
  have run := always [] (fun _ => ∅) [.addClient oneClient, .deleteClient oneClient]
  obtain ⟨data, ran⟩ := @run_addClient _ plainStore [] (fun _ => ∅) oneClient
  have second := run.2.1
  rw [ClientCall.step, ran, finalState_ok, withClients] at second
  have held : Function.update (fun _ => (∅ : StdMap (StdMap (Option String))))
      SrDatastore.SR_DS_RUNNING ((∅ : StdMap (StdMap (Option String))).insert oneClient.name data)
        .SR_DS_RUNNING = (∅ : StdMap (StdMap (Option String))).insert oneClient.name data :=
    Function.update_self ..
  have only : ∀ other ∈ (∅ : StdMap (StdMap (Option String))).insert oneClient.name data,
      other = oneClient.name := by
    intro other member
    rcases Std.ExtTreeMap.mem_insert.mp member with same | earlier
    · exact (Std.LawfulEqCmp.eq_of_compare same).symm
    · exact absurd earlier Std.ExtTreeMap.not_mem_empty
  have meets := (correct_deleteClient_iff (by
    intro other member
    rw [held] at member
    rw [only other member]
    exact short_oneClient) oneClient).mp second
  obtain ⟨-, other, member, different⟩ := meets.1 (by
    rw [held]
    exact Std.ExtTreeMap.mem_insert_self)
  rw [held] at member
  exact different (only other member)

end PlainStore

end OpenMplane
