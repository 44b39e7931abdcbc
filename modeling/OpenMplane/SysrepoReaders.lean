import OpenMplane.RadioDatastore
import OpenMplane.YangParam

/-!
# Readers of the running and of the operational data

`SysrepoUtils` reads either store through the session with its number.  Of the
helpers that take the number, `getParams` drops it, so that the operational
reader over it reads the running store.
-/

namespace OpenMplane

/-- `RadioDatastoreSysrepo::RadDs_E`. -/
inductive RadDs
  | RADIO_DS_RUNNING
  | RADIO_DS_OPERATIONAL
  deriving DecidableEq

def RadDs.datastoreId : RadDs → Nat
  | .RADIO_DS_RUNNING => 0
  | .RADIO_DS_OPERATIONAL => 1

namespace RadioDatastoreSysrepo

/-- The session that a call with this number works on, where it gets that far. -/
def sessionOf {session : Type} (datastore : RadioDatastoreSysrepo session)
    (datastoreId : Nat) : Option session :=
  sessionAt datastore.mState datastore.mSrSessions datastoreId

/-- `RadioDatastoreSysrepo::getItems`: nothing for a result other than OK. -/
def getItemsById (datastore : RadioDatastoreSysrepo SrSession) (xpath : String)
    (datastoreId : Nat) : Option (List YangParam) :=
  (datastore.sessionOf datastoreId).bind fun session => getItems session xpath

end RadioDatastoreSysrepo

namespace SysrepoUtils

section Source

variable (ds : RadioDatastoreSysrepo SrSession)

/-- The private `SysrepoUtils::getKeyParams`. -/
def getKeyParamsById (path : String) (datastoreId : Nat) : StdMap (StdMap YangParam) :=
  SysrepoUtils.getKeyParams (ds.getItemsById · datastoreId) path

/-- The private `SysrepoUtils::getKeyValues`. -/
def getKeyValuesById (path : String) (datastoreId : Nat) : StdMap (StdMap String) :=
  SysrepoUtils.getKeyValues (ds.getItemsById · datastoreId) path

/-- The private `SysrepoUtils::getParams`; its call of `getItems` leaves the number
to its default. -/
def getParamsById (xpath : String) (_datastoreId : Nat) : StdMap YangParam :=
  SysrepoUtils.getParams (ds.getItemsById · RadDs.RADIO_DS_RUNNING.datastoreId) xpath

end Source

end SysrepoUtils

namespace SysrepoReaders

open SysrepoUtils

section Source

variable (ds : RadioDatastoreSysrepo SrSession)

def getKeyParams (path : String) : StdMap (StdMap YangParam) :=
  getKeyParamsById ds path RadDs.RADIO_DS_RUNNING.datastoreId

def getKeyValues (path : String) : StdMap (StdMap String) :=
  getKeyValuesById ds path RadDs.RADIO_DS_RUNNING.datastoreId

def getParams (xpath : String) : StdMap YangParam :=
  getParamsById ds xpath RadDs.RADIO_DS_RUNNING.datastoreId

def getOperationalKeyParams (path : String) : StdMap (StdMap YangParam) :=
  getKeyParamsById ds path RadDs.RADIO_DS_OPERATIONAL.datastoreId

def getOperationalKeyValues (path : String) : StdMap (StdMap String) :=
  getKeyValuesById ds path RadDs.RADIO_DS_OPERATIONAL.datastoreId

def getOperationalParams (xpath : String) : StdMap YangParam :=
  getParamsById ds xpath RadDs.RADIO_DS_OPERATIONAL.datastoreId

end Source

/-- The contents of the two stores, as they are read by xpath. -/
structure Stores where
  running : SrSession
  operational : SrSession

namespace Stores

/-- The datastore in a state, with the sessions that its activation opens. -/
def datastore (stores : Stores) (state : DatastoreState) : RadioDatastoreSysrepo SrSession :=
  ⟨state, [], some 0, [stores.running, stores.operational], 1⟩

variable (stores : Stores) (xpath : String)

theorem getItemsById_running :
    (stores.datastore .ACTIVE).getItemsById xpath RadDs.RADIO_DS_RUNNING.datastoreId =
      RadioDatastoreSysrepo.getItems stores.running xpath := rfl

theorem getItemsById_operational :
    (stores.datastore .ACTIVE).getItemsById xpath RadDs.RADIO_DS_OPERATIONAL.datastoreId =
      RadioDatastoreSysrepo.getItems stores.operational xpath := rfl

theorem getItemsById_inactive {state : DatastoreState} (inactive : state ≠ .ACTIVE)
    (datastoreId : Nat) : (stores.datastore state).getItemsById xpath datastoreId = none := by
  simp [RadioDatastoreSysrepo.getItemsById, RadioDatastoreSysrepo.sessionOf,
    RadioDatastoreSysrepo.sessionAt, datastore, inactive]

end Stores

section LastNamed

/-- The last of the parameters with the leaf name. -/
def lastNamed (params : List YangParam) (leaf : String) : Option YangParam :=
  (params.filter fun param => leafName param.name = leaf).getLast?

theorem lastNamed_cons (param : YangParam) (params : List YangParam) (leaf : String) :
    lastNamed (param :: params) leaf =
      (lastNamed params leaf).or (if leafName param.name = leaf then some param else none) := by
  unfold lastNamed
  by_cases here : leafName param.name = leaf
  · simp only [here, decide_true, List.filter_cons_of_pos, List.getLast?_cons, ↓reduceIte]
    cases (params.filter fun param => leafName param.name = leaf).getLast? <;> rfl
  · simp [here]

theorem paramsToMap_getElem? (params : List YangParam) (leaf : String) :
    (paramsToMap params)[leaf]? = lastNamed params leaf := by
  have merged : ∀ values : StdMap YangParam,
      (params.foldl (fun values param => values.insert (leafName param.name) param) values)[leaf]? =
        (lastNamed params leaf).or values[leaf]? := by
    induction params with
    | nil => intro values; rfl
    | cons param params ih =>
        intro values
        rw [List.foldl_cons, ih, lastNamed_cons, Std.ExtTreeMap.getElem?_insert, Option.or_assoc]
        by_cases here : leafName param.name = leaf <;>
          simp [here, Std.LawfulEqCmp.compare_eq_iff_eq]
  rw [paramsToMap, merged]
  simp

theorem paramsToMap_eq_iff (first second : List YangParam) :
    paramsToMap first = paramsToMap second ↔
      ∀ leaf, lastNamed first leaf = lastNamed second leaf := by
  constructor
  · intro same leaf
    rw [← paramsToMap_getElem?, same, paramsToMap_getElem?]
  · intro same
    apply Std.ExtTreeMap.ext_getElem?
    intro leaf
    rw [paramsToMap_getElem?, same, paramsToMap_getElem?]

end LastNamed

section Stores

/-- The parameters that are read from a store under an xpath. -/
def itemsAt (store : SrSession) (xpath : String) : List YangParam :=
  (RadioDatastoreSysrepo.getItems store xpath).getD []

/-- The running readers see only the running store, and the operational readers
only the operational one. -/
def Separate (state : DatastoreState) (first second : Stores) (xpath : String) : Prop :=
  (first.running = second.running →
    getKeyParams (first.datastore state) xpath = getKeyParams (second.datastore state) xpath ∧
    getKeyValues (first.datastore state) xpath = getKeyValues (second.datastore state) xpath ∧
    getParams (first.datastore state) xpath = getParams (second.datastore state) xpath) ∧
  (first.operational = second.operational →
    getOperationalKeyParams (first.datastore state) xpath =
      getOperationalKeyParams (second.datastore state) xpath ∧
    getOperationalKeyValues (first.datastore state) xpath =
      getOperationalKeyValues (second.datastore state) xpath ∧
    getOperationalParams (first.datastore state) xpath =
      getOperationalParams (second.datastore state) xpath)

variable (stores : Stores) (xpath : String)

theorem getOperationalParams_active :
    getOperationalParams (stores.datastore .ACTIVE) xpath =
      paramsToMap (itemsAt stores.running xpath) := by
  rw [getOperationalParams, getParamsById, SysrepoUtils.getParams, Stores.getItemsById_running,
    itemsAt]
  cases RadioDatastoreSysrepo.getItems stores.running xpath <;> rfl

/-- The stores are kept apart exactly where the operational stores differ or the
running stores have the same last parameter of each name. -/
theorem separate_iff (state : DatastoreState) (first second : Stores) :
    Separate state first second xpath ↔
      (state = .ACTIVE → first.operational = second.operational → ∀ leaf,
        lastNamed (itemsAt first.running xpath) leaf =
          lastNamed (itemsAt second.running xpath) leaf) := by
  by_cases active : state = .ACTIVE
  · subst active
    have running : first.running = second.running →
        getKeyParams (first.datastore .ACTIVE) xpath =
            getKeyParams (second.datastore .ACTIVE) xpath ∧
          getKeyValues (first.datastore .ACTIVE) xpath =
            getKeyValues (second.datastore .ACTIVE) xpath ∧
          getParams (first.datastore .ACTIVE) xpath =
            getParams (second.datastore .ACTIVE) xpath := by
      intro same
      simp only [getKeyParams, getKeyValues, getParams, getKeyValuesById, getKeyParamsById,
        getParamsById, SysrepoUtils.getKeyValues, SysrepoUtils.getKeyParams, SysrepoUtils.getParams,
        Stores.getItemsById_running, same, and_self]
    have operational : first.operational = second.operational →
        getOperationalKeyParams (first.datastore .ACTIVE) xpath =
            getOperationalKeyParams (second.datastore .ACTIVE) xpath ∧
          getOperationalKeyValues (first.datastore .ACTIVE) xpath =
            getOperationalKeyValues (second.datastore .ACTIVE) xpath := by
      intro same
      simp only [getOperationalKeyParams, getOperationalKeyValues, getKeyValuesById,
        getKeyParamsById, SysrepoUtils.getKeyValues, SysrepoUtils.getKeyParams,
        Stores.getItemsById_operational, same, and_self]
    constructor
    · intro separate _ same
      have params := (separate.2 same).2.2
      rw [getOperationalParams_active, getOperationalParams_active] at params
      exact (paramsToMap_eq_iff _ _).mp params
    · refine fun alike => ⟨running, fun same => ?_⟩
      refine ⟨(operational same).1, (operational same).2, ?_⟩
      rw [getOperationalParams_active, getOperationalParams_active]
      exact (paramsToMap_eq_iff _ _).mpr (alike rfl same)
  · have nothing := fun stores : Stores =>
      stores.getItemsById_inactive xpath active
    refine iff_of_true ⟨fun _ => ?_, fun _ => ?_⟩ fun here => absurd here active
    · simp only [getKeyParams, getKeyValues, getParams, getKeyValuesById, getKeyParamsById,
        getParamsById, SysrepoUtils.getKeyValues, SysrepoUtils.getKeyParams, SysrepoUtils.getParams,
        nothing, and_self]
    · simp only [getOperationalKeyParams, getOperationalKeyValues, getOperationalParams,
        getKeyValuesById, getKeyParamsById, getParamsById, SysrepoUtils.getKeyValues,
        SysrepoUtils.getKeyParams, SysrepoUtils.getParams, nothing, and_self]

/-- A running store with one leaf, and one with nothing. -/
def oneLeaf : SrSession := ⟨fun _ => some [⟨"/m:info/name", .string "a", "a"⟩]⟩

def empty : SrSession := ⟨fun _ => some []⟩

/-- The operational reader sees the running store. -/
theorem running_leaf_is_seen :
    ¬ Separate .ACTIVE ⟨oneLeaf, empty⟩ ⟨empty, empty⟩ "/m:info/*" := by
  intro separate
  have params := (separate.2 rfl).2.2
  rw [getOperationalParams_active, getOperationalParams_active, paramsToMap_eq_iff] at params
  exact absurd (params "name") (by decide +kernel)

end Stores

end SysrepoReaders

end OpenMplane
