import Mathlib.Data.List.Nodup
import OpenMplane.LogList

/-!
# Names and levels of objects that log

What the list of objects is to be at any time: each name is that of one object, and an object
gets the level that the settings so far would have given it.  The numbers behind names count
the objects that live, so that a number may come back while it is in use, and a name that
a user gives may be one with a number.
-/

namespace OpenMplane

open GuardedRuns LogList

/-- An object without its level and its group. -/
structure ObjectKey where
  place : Nat
  instanceName : String
  baseName : String
  deriving DecidableEq

def Loggable.key (logger : Loggable) : ObjectKey :=
  ⟨logger.place, logger.instanceName, logger.baseName⟩

/-- How many objects were constructed with a name. -/
def countBase (keys : List ObjectKey) (name : String) : Nat :=
  keys.countP fun key => decide (key.baseName = name)

/-- The name that an object gets, by the objects that live. -/
def newName (keys : List ObjectKey) (name : String) : String :=
  if countBase keys name = 0 then name else numbered name (countBase keys name)

/-- A setting selects an object of that name: it is the name itself, or it differs in case only
when no object has the name itself and none before it does as well. -/
def Selects (mList : StdMap Nat) (instanceName name : String) : Prop :=
  name = instanceName ∨ instanceName ∉ mList ∧ lowerName name = lowerName instanceName ∧
    ∀ other ∈ mList.keys, lowerName other = lowerName instanceName → compare other name ≠ .lt

instance (mList : StdMap Nat) (instanceName name : String) :
    Decidable (Selects mList instanceName name) := inferInstanceAs (Decidable (_ ∨ _))

/-- The list with what has been set so far: the level for an object of a name and a group that
was there from the beginning, and the levels set for a group and for a name, or for all once
the group or the name was known. -/
structure Logged where
  state : LogState
  given : String → String → LogDebugLevel
  groups : String → Option LogDebugLevel
  instances : String → Option LogDebugLevel

namespace Logged

def initial : Logged := ⟨.initial, fun _ _ => .LOG_DEBUG_NONE, fun _ => none, fun _ => none⟩

/-- The levels after an event. -/
def givenBy (logged : Logged) : LogEvent → String → String → LogDebugLevel
  | .setLogDebugLevel level, _, _ => level
  | .setGroupLogDebugLevel level groupName, name, group =>
      if lowerName group = lowerName groupName then level else logged.given name group
  | .setInstanceLogDebugLevel level instanceName, name, group =>
      if Selects logged.state.list.mList instanceName name then level else logged.given name group
  | _, name, group => logged.given name group

def keys (logged : Logged) : List ObjectKey := logged.state.objects.map Loggable.key

/-- The name of a new object. -/
def nameOf (logged : Logged) (instanceName : String) : String :=
  newName logged.keys (validName instanceName "unnamed")

/-- What has been set for a group after an event. -/
def groupsBy (logged : Logged) : LogEvent → String → Option LogDebugLevel
  | .construct _ groupName, group =>
      if lowerName (validGroupName groupName) = group then
        some ((logged.groups group).getD .LOG_DEBUG_NONE)
      else logged.groups group
  | .setLogDebugLevel level, group => (logged.groups group).map fun _ => level
  | .setGroupLogDebugLevel level groupName, group =>
      if lowerName groupName = group then some level else logged.groups group
  | _, group => logged.groups group

/-- What has been set for a name after an event. -/
def instancesBy (logged : Logged) : LogEvent → String → Option LogDebugLevel
  | .construct instanceName _, name =>
      if lowerName (logged.nameOf instanceName) = name then
        some ((logged.instances name).getD .LOG_DEBUG_NONE)
      else logged.instances name
  | .setLogDebugLevel level, name => (logged.instances name).map fun _ => level
  | .setInstanceLogDebugLevel level instanceName, name =>
      if lowerName instanceName = name then some level else logged.instances name
  | _, name => logged.instances name

def step (logged : Logged) (event : LogEvent) : Logged :=
  ⟨logged.state.step event, logged.givenBy event, logged.groupsBy event, logged.instancesBy event⟩

theorem groups_step (logged : Logged) (event : LogEvent) (group : String) :
    (logged.step event).groups group = logged.groupsBy event group := rfl

theorem instances_step (logged : Logged) (event : LogEvent) (name : String) :
    (logged.step event).instances name = logged.instancesBy event name := rfl

/-- Fewer than 2^32 objects of a name live at a time. -/
def Few (logged : Logged) (event : LogEvent) : Prop :=
  ∀ name, countBase (logged.step event).keys name < 2 ^ 32

/-- What is expected of an event. -/
structure Good (logged : Logged) (event : LogEvent) : Prop where
  names : ((logged.step event).state.objects.map Loggable.instanceName).Nodup
  entries : ∀ name place, (logged.step event).state.list.mList[name]? = some place ↔
    ∃ logger ∈ (logged.step event).state.objects,
      logger.instanceName = name ∧ logger.place = place
  level : ∀ logger ∈ (logged.step event).state.objects,
    logger.mLevel = (logged.step event).given logger.instanceName logger.groupName

/-- The levels that have been set for a name and its group. -/
def recorded (logged : Logged) (name group : String) : List LogDebugLevel :=
  (logged.groups (lowerName group)).toList ++ (logged.instances (lowerName name)).toList

/-- The constructions that go as they should: the name without a number, if no object was
constructed with it, or else with their number, is not that of an object; and the level that
the settings give is the greatest of those that were set for the name and the group. -/
structure Meets (logged : Logged) (event : LogEvent) : Prop where
  free : ∀ instanceName groupName, event = .construct instanceName groupName →
    ∀ key ∈ logged.keys, key.instanceName ≠ logged.nameOf instanceName
  levels : ∀ instanceName groupName, event = .construct instanceName groupName →
    let name := logged.nameOf instanceName
    let group := validGroupName groupName
    (∀ level ∈ logged.recorded name group, level.rank ≤ (logged.given name group).rank) ∧
      (logged.given name group = .LOG_DEBUG_NONE ∨
        logged.given name group ∈ logged.recorded name group)

end Logged

/-- The list has the objects, and counts them by the name they were constructed with. -/
structure LogList.Consistent (list : LogList) (keys : List ObjectKey) : Prop where
  names : (keys.map ObjectKey.instanceName).Nodup
  entries : ∀ name place, list.mList[name]? = some place ↔
    ∃ key ∈ keys, key.instanceName = name ∧ key.place = place
  counts : ∀ name, list.mUniqueNames[name]? =
    if countBase keys name = 0 then none else some (countBase keys name)
  bases : ∀ key ∈ keys, list.mUniqueMap[key.instanceName]? = some key.baseName
  registers : list.mAllowRegistration = true

namespace LogDebugLevel

variable {level : LogDebugLevel}

/-- The level of an object from the two that are kept. -/
theorem raise_eq_iff (group name : Option LogDebugLevel) :
    (LOG_DEBUG_NONE.raise (group.getD LOG_DEBUG_NONE)).raise (name.getD LOG_DEBUG_NONE) = level ↔
      (∀ other ∈ group.toList ++ name.toList, other.rank ≤ level.rank) ∧
        (level = LOG_DEBUG_NONE ∨ level ∈ group.toList ++ name.toList) := by
  cases group with
  | none =>
      cases name with
      | none => cases level <;> decide
      | some name => cases name <;> cases level <;> decide
  | some group =>
      cases name with
      | none => cases group <;> cases level <;> decide
      | some name => cases group <;> cases name <;> cases level <;> decide

end LogDebugLevel

section Keys

variable {keys : List ObjectKey} {key : ObjectKey}

theorem countBase_cons (name : String) : countBase (key :: keys) name =
    countBase keys name + if key.baseName = name then 1 else 0 := by
  rw [countBase, countBase, List.countP_cons]
  simp only [decide_eq_true_eq]

theorem perm_filter_place (places : (keys.map ObjectKey.place).Nodup) (member : key ∈ keys) :
    keys.Perm (key :: keys.filter fun other => decide (other.place ≠ key.place)) := by
  have nodup : keys.Nodup := List.Nodup.of_map _ places
  have same : keys.erase key = keys.filter fun other => decide (other.place ≠ key.place) := by
    rw [nodup.erase_eq_filter]
    refine List.filter_congr fun other there => ?_
    by_cases equal : other = key
    · simp [equal]
    · have apart : other.place ≠ key.place :=
        fun place => equal (List.inj_on_of_nodup_map places there member place)
      simp [equal, apart]
  rw [← same]
  exact List.perm_cons_erase member

end Keys

namespace LogList

variable {list : LogList} {keys : List ObjectKey} {key : ObjectKey}

theorem uniqueInstanceName_eq (consistent : list.Consistent keys) (instanceName : String)
    (few : countBase keys (validName instanceName "unnamed") + 1 < 2 ^ 32) :
    list.uniqueInstanceName instanceName =
      (newName keys (validName instanceName "unnamed"), { list with
        mUniqueNames := list.mUniqueNames.insert (validName instanceName "unnamed")
          (countBase keys (validName instanceName "unnamed") + 1)
        mUniqueMap := list.mUniqueMap.insert
          (newName keys (validName instanceName "unnamed"))
          (validName instanceName "unnamed") }) := by
  have counts := consistent.counts (validName instanceName "unnamed")
  have opened : ¬(!list.mAllowRegistration) = true := by simp [consistent.registers]
  rw [uniqueInstanceName, if_neg opened]
  dsimp only
  by_cases none : countBase keys (validName instanceName "unnamed") = 0
  · rw [if_pos none] at counts
    rw [counts, newName, if_pos none, none]
  · rw [if_neg none] at counts
    rw [counts, newName, if_neg none]
    dsimp only
    rw [Nat.mod_eq_of_lt few]

/-- The level that a new object is given. -/
def newLevel (list : LogList) (logger : Loggable) : LogDebugLevel :=
  (LogDebugLevel.LOG_DEBUG_NONE.raise
    ((list.mGroupLevels[lowerName logger.groupName]?).getD .LOG_DEBUG_NONE)).raise
      ((list.mInstanceLevels[lowerName logger.instanceName]?).getD .LOG_DEBUG_NONE)

theorem getD_insertIfNew_same (levels : StdMap LogDebugLevel) (name : String) :
    (levels.insertIfNew name .LOG_DEBUG_NONE).getD name .LOG_DEBUG_NONE =
      (levels[name]?).getD .LOG_DEBUG_NONE := by
  rw [Std.ExtTreeMap.getD_insertIfNew, ← Std.ExtTreeMap.getD_eq_getD_getElem?]
  by_cases there : name ∈ levels
  · rw [if_neg fun both => both.2 there]
  · rw [if_pos ⟨Std.ReflCmp.compare_self, there⟩, Std.ExtTreeMap.getD_eq_fallback there]

theorem add_of_free (registers : list.mAllowRegistration = true) {logger : Loggable}
    (free : logger.instanceName ∉ list.mList) :
    list.add logger = ({ logger with mLevel := list.newLevel logger }, { list with
      mList := list.mList.insert logger.instanceName logger.place
      mGroupLevels :=
        list.mGroupLevels.insertIfNew (lowerName logger.groupName) .LOG_DEBUG_NONE
      mInstanceLevels :=
        list.mInstanceLevels.insertIfNew (lowerName logger.instanceName) .LOG_DEBUG_NONE }) := by
  have opened : ¬(!list.mAllowRegistration) = true := by simp [registers]
  rw [add, if_neg opened, if_neg free]
  simp only [getGroupLevel, getInstanceLevel, getD_insertIfNew_same]
  rfl

theorem key_add (logger : Loggable) : (list.add logger).1.key = logger.key := by
  rw [add]
  split
  · rfl
  · split <;> rfl

theorem map_key_setObject (level : LogDebugLevel) (objects : List Loggable) (place : Nat) :
    (setObject level objects place).map Loggable.key = objects.map Loggable.key := by
  rw [setObject, List.map_map]
  refine List.map_congr_left fun logger _ => ?_
  rw [Function.comp_apply]
  split <;> rfl

theorem map_key_foldl {α : Type} {change : List Loggable → α → List Loggable}
    (same : ∀ objects entry, (change objects entry).map Loggable.key = objects.map Loggable.key)
    (entries : List α) (objects : List Loggable) :
    (entries.foldl change objects).map Loggable.key = objects.map Loggable.key := by
  induction entries generalizing objects with
  | nil => rfl
  | cons entry entries ih => rw [List.foldl_cons, ih, same]

theorem Consistent.mem_iff (consistent : list.Consistent keys) (name : String) :
    name ∈ list.mList ↔ ∃ key ∈ keys, key.instanceName = name := by
  rw [← Std.ExtTreeMap.isSome_getElem?_iff_mem, Option.isSome_iff_exists]
  constructor
  · rintro ⟨place, held⟩
    obtain ⟨key, member, same, -⟩ := (consistent.entries name place).mp held
    exact ⟨key, member, same⟩
  · rintro ⟨key, member, same⟩
    exact ⟨key.place, (consistent.entries name key.place).mpr ⟨key, member, same, rfl⟩⟩

theorem getElem?_insert_self_or {β : Type} (map : StdMap β) (name other : String) (value : β) :
    (map.insert name value)[other]? = if name = other then some value else map[other]? := by
  rw [Std.ExtTreeMap.getElem?_insert]
  exact if_congr Std.LawfulEqCmp.compare_eq_iff_eq rfl rfl

theorem getElem?_erase_or {β : Type} (map : StdMap β) (name other : String) :
    (map.erase name)[other]? = if name = other then none else map[other]? := by
  rw [Std.ExtTreeMap.getElem?_erase]
  exact if_congr Std.LawfulEqCmp.compare_eq_iff_eq rfl rfl

/-- A new object whose name is free. -/
theorem Consistent.cons (consistent : list.Consistent keys) {after : LogList}
    (free : ∀ other ∈ keys, other.instanceName ≠ key.instanceName)
    (mList : after.mList = list.mList.insert key.instanceName key.place)
    (mUniqueNames : after.mUniqueNames =
      list.mUniqueNames.insert key.baseName (countBase keys key.baseName + 1))
    (mUniqueMap : after.mUniqueMap = list.mUniqueMap.insert key.instanceName key.baseName)
    (registers : after.mAllowRegistration = true) : after.Consistent (key :: keys) where
  names := by
    refine List.nodup_cons.mpr ⟨fun member => ?_, consistent.names⟩
    obtain ⟨other, there, same⟩ := List.mem_map.mp member
    exact free other there same
  entries name place := by
    rw [mList, getElem?_insert_self_or]
    by_cases own : key.instanceName = name
    · rw [if_pos own]
      constructor
      · intro same
        exact ⟨key, List.mem_cons_self, own, Option.some.inj same⟩
      · rintro ⟨other, member, same, rfl⟩
        rcases List.mem_cons.mp member with rfl | there
        · rfl
        · exact absurd (same.trans own.symm) (free other there)
    · rw [if_neg own, consistent.entries]
      constructor
      · rintro ⟨other, member, both⟩
        exact ⟨other, List.mem_cons_of_mem _ member, both⟩
      · rintro ⟨other, member, same, placed⟩
        rcases List.mem_cons.mp member with rfl | there
        · exact absurd same own
        · exact ⟨other, there, same, placed⟩
  counts name := by
    rw [mUniqueNames, getElem?_insert_self_or, countBase_cons]
    by_cases own : key.baseName = name
    · rw [if_pos own, if_pos own, if_neg (Nat.succ_ne_zero _), own]
    · rw [if_neg own, if_neg own, Nat.add_zero]
      exact consistent.counts name
  bases other member := by
    rw [mUniqueMap, getElem?_insert_self_or]
    rcases List.mem_cons.mp member with rfl | there
    · exact if_pos rfl
    · rw [if_neg (free other there).symm]
      exact consistent.bases other there
  registers := registers

/-- What is left of the list when an object has gone. -/
theorem del_eq (consistent : list.Consistent keys) {logger : Loggable}
    (member : logger.key ∈ keys) (few : countBase keys logger.baseName < 2 ^ 32) :
    (list.del logger).mList = list.mList.erase logger.instanceName ∧
      (∀ name, (list.del logger).mUniqueNames[name]? =
        if logger.baseName = name then
          if countBase keys name = 1 then none else some (countBase keys name - 1)
        else list.mUniqueNames[name]?) ∧
      (∀ name, name ∈ list.mUniqueMap →
        (list.del logger).mUniqueMap[name]? = list.mUniqueMap[name]?) ∧
      (list.del logger).mAllowRegistration = list.mAllowRegistration := by
  have listed : ¬logger.instanceName ∉ list.mList :=
    not_not_intro ((consistent.mem_iff _).mpr ⟨_, member, rfl⟩)
  have base : list.mUniqueMap[logger.instanceName]? = some logger.baseName :=
    consistent.bases _ member
  have known : logger.instanceName ∈ list.mUniqueMap :=
    Std.ExtTreeMap.isSome_getElem?_iff_mem.mp (by rw [base]; rfl)
  have kept : ∀ name, name ∈ list.mUniqueMap →
      (list.mUniqueMap.insertIfNew logger.instanceName "")[name]? = list.mUniqueMap[name]? := by
    intro name _
    rw [Std.ExtTreeMap.getElem?_insertIfNew, if_neg fun both => both.2 known]
  have baseName : (list.mUniqueMap.insertIfNew logger.instanceName "").getD
      logger.instanceName "" = logger.baseName := by
    rw [Std.ExtTreeMap.getD_eq_getD_getElem?, kept _ known, base]
    rfl
  have lives : 0 < countBase keys logger.baseName :=
    List.countP_pos_iff.mpr ⟨logger.key, member, decide_eq_true rfl⟩
  have counts := consistent.counts logger.baseName
  rw [if_neg (by omega)] at counts
  have less : (countBase keys logger.baseName + (2 ^ 32 - 1)) % 2 ^ 32 =
      countBase keys logger.baseName - 1 := by omega
  rw [del, if_neg listed]
  dsimp only
  rw [baseName, counts]
  dsimp only
  rw [less]
  by_cases last : countBase keys logger.baseName = 1
  · rw [if_pos (by omega)]
    refine ⟨rfl, fun name => ?_, kept, rfl⟩
    dsimp only
    rw [getElem?_erase_or]
    split
    · next own => rw [← own, if_pos last]
    · rfl
  · rw [if_neg (by omega)]
    refine ⟨rfl, fun name => ?_, kept, rfl⟩
    dsimp only
    rw [getElem?_insert_self_or]
    split
    · next own => rw [← own, if_neg last]
    · rfl

/-- An object that goes takes its own entry with it, and no other. -/
theorem Consistent.del (consistent : list.Consistent keys)
    (places : (keys.map ObjectKey.place).Nodup) {logger : Loggable}
    (member : logger.key ∈ keys) (few : countBase keys logger.baseName < 2 ^ 32) :
    (list.del logger).Consistent
      (keys.filter fun other => decide (other.place ≠ logger.place)) := by
  obtain ⟨mList, mUniqueNames, mUniqueMap, registers⟩ := del_eq consistent member few
  have split := perm_filter_place places member
  have names := (split.map ObjectKey.instanceName).nodup_iff.mp consistent.names
  obtain ⟨unlisted, others⟩ := List.nodup_cons.mp names
  have rest : ∀ other, other ∈ (keys.filter fun other => decide (other.place ≠ logger.place)) →
      other ∈ keys ∧ other.instanceName ≠ logger.instanceName := by
    intro other there
    refine ⟨(List.mem_filter.mp there).1, fun same => unlisted ?_⟩
    exact List.mem_map.mpr ⟨other, there, same⟩
  refine ⟨others, fun name place => ?_, fun name => ?_, fun other there => ?_,
    registers.trans consistent.registers⟩
  · rw [mList, getElem?_erase_or]
    by_cases own : logger.instanceName = name
    · rw [if_pos own]
      refine ⟨nofun, ?_⟩
      rintro ⟨other, there, same, -⟩
      exact absurd (same.trans own.symm) (rest other there).2
    · rw [if_neg own, consistent.entries]
      constructor
      · rintro ⟨other, there, same, placed⟩
        rcases List.mem_cons.mp (split.mem_iff.mp there) with rfl | kept
        · exact absurd same own
        · exact ⟨other, kept, same, placed⟩
      · rintro ⟨other, there, both⟩
        exact ⟨other, (rest other there).1, both⟩
  · have count : countBase keys name = countBase (keys.filter fun other =>
        decide (other.place ≠ logger.place)) name + if logger.baseName = name then 1 else 0 := by
      have whole := split.countP_eq fun other => decide (other.baseName = name)
      exact whole.trans (countBase_cons name)
    rw [mUniqueNames name, consistent.counts name, count]
    by_cases own : logger.baseName = name
    · rw [if_pos own, if_pos own, Nat.add_sub_cancel]
      exact if_congr (by omega) rfl rfl
    · rw [if_neg own, if_neg own, Nat.add_zero]
  · have base := consistent.bases other (rest other there).1
    rw [mUniqueMap _ (Std.ExtTreeMap.isSome_getElem?_iff_mem.mp (by rw [base]; rfl)), base]

end LogList

namespace Logged

variable {logged : Logged} {event : LogEvent}

/-- What holds in every state of a run. -/
structure Invariant (logged : Logged) : Prop where
  consistent : logged.state.list.Consistent logged.keys
  places : (logged.keys.map ObjectKey.place).Nodup
  below : ∀ key ∈ logged.keys, key.place < logged.state.next
  few : ∀ name, countBase logged.keys name < 2 ^ 32
  groups : ∀ group, logged.state.list.mGroupLevels[group]? = logged.groups group
  instances : ∀ name, logged.state.list.mInstanceLevels[name]? = logged.instances name
  levels : ∀ logger ∈ logged.state.objects,
    logger.mLevel = logged.given logger.instanceName logger.groupName

section Construct

variable {instanceName groupName : String}

/-- The new object before it is added to the list. -/
def unlisted (logged : Logged) (instanceName groupName : String) : Loggable where
  place := logged.state.next
  instanceName := logged.nameOf instanceName
  groupName := validGroupName groupName
  mLevel := .LOG_DEBUG_NONE
  baseName := validName instanceName "unnamed"

/-- The list when the name has been found. -/
def named (logged : Logged) (instanceName : String) : LogList :=
  { logged.state.list with
    mUniqueNames := logged.state.list.mUniqueNames.insert (validName instanceName "unnamed")
      (countBase logged.keys (validName instanceName "unnamed") + 1)
    mUniqueMap := logged.state.list.mUniqueMap.insert (logged.nameOf instanceName)
      (validName instanceName "unnamed") }

theorem keys_construct : (logged.step (.construct instanceName groupName)).keys =
    (logged.state.newLoggable instanceName groupName).1.key :: logged.keys := rfl

theorem baseName_newLoggable : (logged.state.newLoggable instanceName groupName).1.baseName =
    validName instanceName "unnamed" := by
  rw [LogState.newLoggable]
  exact congrArg ObjectKey.baseName (key_add _)

theorem countBase_of_few (few : logged.Few (.construct instanceName groupName)) :
    countBase logged.keys (validName instanceName "unnamed") + 1 < 2 ^ 32 := by
  have bound := few (validName instanceName "unnamed")
  rw [keys_construct, countBase_cons] at bound
  have own : (logged.state.newLoggable instanceName groupName).1.key.baseName =
      validName instanceName "unnamed" := baseName_newLoggable
  rwa [if_pos own] at bound

theorem newLoggable_eq (invariant : logged.Invariant)
    (few : logged.Few (.construct instanceName groupName)) :
    logged.state.newLoggable instanceName groupName =
      (logged.named instanceName).add (logged.unlisted instanceName groupName) := by
  rw [LogState.newLoggable, uniqueInstanceName_eq invariant.consistent _ (countBase_of_few few)]
  rfl

theorem key_newLoggable (invariant : logged.Invariant)
    (few : logged.Few (.construct instanceName groupName)) :
    (logged.state.newLoggable instanceName groupName).1.key =
      ⟨logged.state.next, logged.nameOf instanceName, validName instanceName "unnamed"⟩ := by
  rw [newLoggable_eq invariant few, key_add]
  rfl

theorem add_unlisted (invariant : logged.Invariant)
    (free : ∀ key ∈ logged.keys, key.instanceName ≠ logged.nameOf instanceName) :
    (logged.named instanceName).add (logged.unlisted instanceName groupName) =
      ({ logged.unlisted instanceName groupName with
          mLevel := logged.state.list.newLevel (logged.unlisted instanceName groupName) },
        { logged.named instanceName with
          mList := logged.state.list.mList.insert (logged.nameOf instanceName) logged.state.next
          mGroupLevels := logged.state.list.mGroupLevels.insertIfNew
            (lowerName (validGroupName groupName)) .LOG_DEBUG_NONE
          mInstanceLevels := logged.state.list.mInstanceLevels.insertIfNew
            (lowerName (logged.nameOf instanceName)) .LOG_DEBUG_NONE }) := by
  have registers : (logged.named instanceName).mAllowRegistration = true :=
    invariant.consistent.registers
  have unused : (logged.unlisted instanceName groupName).instanceName ∉
      (logged.named instanceName).mList := by
    intro listed
    obtain ⟨key, member, same⟩ := (invariant.consistent.mem_iff _).mp listed
    exact free key member same
  exact add_of_free registers unused

theorem consistent_construct (invariant : logged.Invariant)
    (few : logged.Few (.construct instanceName groupName))
    (free : ∀ key ∈ logged.keys, key.instanceName ≠ logged.nameOf instanceName) :
    (logged.step (.construct instanceName groupName)).state.list.Consistent
      (logged.step (.construct instanceName groupName)).keys := by
  have list : (logged.step (.construct instanceName groupName)).state.list =
      (logged.state.newLoggable instanceName groupName).2 := rfl
  rw [keys_construct, key_newLoggable invariant few, list, newLoggable_eq invariant few,
    add_unlisted invariant free]
  exact invariant.consistent.cons free rfl rfl rfl invariant.consistent.registers

theorem objects_construct (invariant : logged.Invariant)
    (few : logged.Few (.construct instanceName groupName))
    (free : ∀ key ∈ logged.keys, key.instanceName ≠ logged.nameOf instanceName) :
    (logged.step (.construct instanceName groupName)).state.objects =
      { logged.unlisted instanceName groupName with
        mLevel := logged.state.list.newLevel (logged.unlisted instanceName groupName) } ::
        logged.state.objects := by
  have objects : (logged.step (.construct instanceName groupName)).state.objects =
      (logged.state.newLoggable instanceName groupName).1 :: logged.state.objects := rfl
  rw [objects, newLoggable_eq invariant few, add_unlisted invariant free]

theorem newLevel_eq_iff (invariant : logged.Invariant) :
    logged.state.list.newLevel (logged.unlisted instanceName groupName) =
        logged.given (logged.nameOf instanceName) (validGroupName groupName) ↔
      (∀ level ∈ logged.recorded (logged.nameOf instanceName) (validGroupName groupName),
          level.rank ≤
            (logged.given (logged.nameOf instanceName) (validGroupName groupName)).rank) ∧
        (logged.given (logged.nameOf instanceName) (validGroupName groupName) = .LOG_DEBUG_NONE ∨
          logged.given (logged.nameOf instanceName) (validGroupName groupName) ∈
            logged.recorded (logged.nameOf instanceName) (validGroupName groupName)) := by
  have level : logged.state.list.newLevel (logged.unlisted instanceName groupName) =
      (LogDebugLevel.LOG_DEBUG_NONE.raise ((logged.state.list.mGroupLevels[lowerName
        (validGroupName groupName)]?).getD .LOG_DEBUG_NONE)).raise
          ((logged.state.list.mInstanceLevels[lowerName
            (logged.nameOf instanceName)]?).getD .LOG_DEBUG_NONE) := rfl
  rw [level, invariant.groups, invariant.instances]
  exact LogDebugLevel.raise_eq_iff _ _

end Construct

theorem map_instanceName (objects : List Loggable) : objects.map Loggable.instanceName =
    (objects.map Loggable.key).map ObjectKey.instanceName := by
  rw [List.map_map]
  rfl

section Settings

variable {level : LogDebugLevel} {objects : List Loggable}

theorem find?_place (places : (objects.map Loggable.place).Nodup) {logger : Loggable}
    (member : logger ∈ objects) :
    objects.find? (fun other => decide (other.place = logger.place)) = some logger := by
  cases found : objects.find? fun other => decide (other.place = logger.place) with
  | none => exact absurd (decide_eq_true rfl) (List.find?_eq_none.mp found logger member)
  | some other =>
      have picked := List.find?_some found
      have same : other.place = logger.place := of_decide_eq_true picked
      exact congrArg some (List.inj_on_of_nodup_map places (List.mem_of_find?_eq_some found) member
        same)

theorem foldl_setObject (places : List Nat) : places.foldl (setObject level) objects =
    objects.map fun logger =>
      if logger.place ∈ places then { logger with mLevel := level } else logger := by
  induction places generalizing objects with
  | nil => simp
  | cons place places ih =>
      rw [List.foldl_cons, ih, setObject, List.map_map]
      refine List.map_congr_left fun logger _ => ?_
      rw [Function.comp_apply]
      by_cases here : logger.place = place
      · simp [here]
      · simp [here]

theorem groupAt_setObject (place other : Nat) :
    groupAt (setObject level objects place) other = groupAt objects other := by
  have same : ((fun logger : Loggable => decide (logger.place = other)) ∘ fun logger : Loggable =>
      if logger.place = place then { logger with mLevel := level } else logger) =
        fun logger => decide (logger.place = other) := by
    funext logger
    rw [Function.comp_apply]
    split <;> rfl
  rw [groupAt, setObject, List.find?_map, same, groupAt, Option.map_map]
  refine congrArg (Option.getD · "") (congrArg (Option.map · _) ?_)
  funext logger
  rw [Function.comp_apply]
  split <;> rfl

theorem foldl_setGroup (entries : List (String × Nat)) (groupName : String) :
    entries.foldl (fun objects entry =>
        if lowerName (groupAt objects entry.2) ≠ lowerName groupName then objects
        else setObject level objects entry.2) objects =
      ((entries.map Prod.snd).filter fun place =>
        decide (lowerName (groupAt objects place) = lowerName groupName)).foldl
          (setObject level) objects := by
  induction entries generalizing objects with
  | nil => rfl
  | cons entry entries ih =>
      rw [List.foldl_cons, ih, List.map_cons]
      by_cases own : lowerName (groupAt objects entry.2) = lowerName groupName
      · rw [if_neg (not_not_intro own), List.filter_cons, if_pos (decide_eq_true own),
          List.foldl_cons]
        simp only [groupAt_setObject]
      · rw [if_pos own, List.filter_cons, if_neg fun same => own (of_decide_eq_true same)]

theorem listed (invariant : logged.Invariant) {logger : Loggable}
    (member : logger ∈ logged.state.objects) :
    logged.state.list.mList[logger.instanceName]? = some logger.place :=
  (invariant.consistent.entries _ _).mpr ⟨logger.key, List.mem_map_of_mem member, rfl, rfl⟩

theorem placed (invariant : logged.Invariant) {logger : Loggable}
    (member : logger ∈ logged.state.objects) :
    logger.place ∈ logged.state.list.mList.toList.map Prod.snd :=
  List.mem_map.mpr ⟨(logger.instanceName, logger.place),
    Std.ExtTreeMap.mem_toList_iff_getElem?_eq_some.mpr (listed invariant member), rfl⟩

theorem places_nodup (invariant : logged.Invariant) :
    (logged.state.objects.map Loggable.place).Nodup := by
  have places := invariant.places
  rw [keys, List.map_map] at places
  exact places

/-- The first entry in order whose name is picked. -/
theorem find?_eq_iff {entries : List (String × Nat)}
    (ordered : entries.Pairwise fun first second => compare first.1 second.1 = .lt)
    {entry : String × Nat} (member : entry ∈ entries) (picks : String → Bool) :
    entries.find? (fun other => picks other.1) = some entry ↔
      picks entry.1 = true ∧ ∀ other ∈ entries.map Prod.fst, picks other = true →
        compare other entry.1 ≠ .lt := by
  induction entries with
  | nil => cases member
  | cons first entries ih =>
      obtain ⟨before, ordered⟩ := List.pairwise_cons.mp ordered
      rw [List.find?_cons, List.map_cons]
      cases isPicked : picks first.1 with
      | true =>
          dsimp only
          constructor
          · intro same
            obtain rfl := Option.some.inj same
            refine ⟨isPicked, fun other inside _ => ?_⟩
            rcases List.mem_cons.mp inside with rfl | later
            · have self : compare first.1 first.1 = .eq := Std.ReflCmp.compare_self
              rw [self]
              decide
            · obtain ⟨behind, there, rfl⟩ := List.mem_map.mp later
              have swapped : compare behind.1 first.1 = (compare first.1 behind.1).swap :=
                Std.OrientedCmp.eq_swap
              rw [swapped, before behind there]
              decide
          · rintro ⟨-, least⟩
            rcases List.mem_cons.mp member with rfl | later
            · rfl
            · exact absurd (before entry later) (least first.1 List.mem_cons_self isPicked)
      | false =>
          dsimp only
          rcases List.mem_cons.mp member with rfl | later
          · constructor
            · intro found
              have picked := List.find?_some found
              rw [isPicked] at picked
              cases picked
            · rintro ⟨picked, -⟩
              rw [isPicked] at picked
              cases picked
          · rw [ih ordered later]
            refine and_congr_right fun _ => ⟨fun least other inside picked => ?_,
              fun least other inside => least other (List.mem_cons_of_mem _ inside)⟩
            rcases List.mem_cons.mp inside with rfl | there
            · rw [isPicked] at picked
              cases picked
            · exact least other there picked

theorem name_of_place (invariant : logged.Invariant) {logger : Loggable}
    (member : logger ∈ logged.state.objects) {name : String}
    (held : logged.state.list.mList[name]? = some logger.place) : name = logger.instanceName := by
  obtain ⟨key, there, rfl, place⟩ := (invariant.consistent.entries _ _).mp held
  have own : logger.key ∈ logged.keys := List.mem_map_of_mem member
  rw [List.inj_on_of_nodup_map invariant.places there own place]
  rfl

/-- Of the objects, a setting by name sets the one whose name it selects. -/
theorem selects_iff (invariant : logged.Invariant) {logger : Loggable}
    (member : logger ∈ logged.state.objects) (instanceName : String) :
    Selects logged.state.list.mList instanceName logger.instanceName ↔
      ∃ entry, selected logged.state.list.mList instanceName = some entry ∧
        entry.2 = logger.place := by
  have held := listed invariant member
  rw [selected]
  cases exact : logged.state.list.mList[instanceName]? with
  | some place =>
      have there : instanceName ∈ logged.state.list.mList :=
        Std.ExtTreeMap.isSome_getElem?_iff_mem.mp (by rw [exact]; rfl)
      constructor
      · rintro (same | ⟨absent, -⟩)
        · rw [same, exact] at held
          exact ⟨_, rfl, Option.some.inj held⟩
        · exact absurd there absent
      · rintro ⟨entry, found, own⟩
        obtain rfl := Option.some.inj found
        exact Or.inl (name_of_place invariant member (exact.trans (congrArg some own))).symm
  | none =>
      have absent : instanceName ∉ logged.state.list.mList := by
        rw [← Std.ExtTreeMap.isSome_getElem?_iff_mem, exact]
        exact Bool.false_ne_true
      have apart : logger.instanceName ≠ instanceName := by
        intro same
        rw [same, exact] at held
        cases held
      have inside : (logger.instanceName, logger.place) ∈ logged.state.list.mList.toList :=
        Std.ExtTreeMap.mem_toList_iff_getElem?_eq_some.mpr held
      have first := find?_eq_iff Std.ExtTreeMap.ordered_keys_toList inside fun name =>
        decide (lowerName name = lowerName instanceName)
      rw [Std.ExtTreeMap.map_fst_toList_eq_keys] at first
      simp only [decide_eq_true_eq] at first
      have only : Selects logged.state.list.mList instanceName logger.instanceName ↔ _ :=
        (or_iff_right apart).trans ((and_iff_right absent).trans first.symm)
      rw [only]
      constructor
      · intro found
        exact ⟨_, found, rfl⟩
      · rintro ⟨⟨name, place⟩, found, own⟩
        obtain rfl : place = logger.place := own
        have kept := Std.ExtTreeMap.mem_toList_iff_getElem?_eq_some.mp
          (List.mem_of_find?_eq_some found)
        rw [name_of_place invariant member kept] at found
        exact found

theorem levels_setting (invariant : logged.Invariant) {changed : List Nat}
    {given : String → String → LogDebugLevel}
    (picks : ∀ logger ∈ logged.state.objects, given logger.instanceName logger.groupName =
      if logger.place ∈ changed then level
      else logged.given logger.instanceName logger.groupName) :
    ∀ logger ∈ changed.foldl (setObject level) logged.state.objects,
      logger.mLevel = given logger.instanceName logger.groupName := by
  rw [foldl_setObject]
  intro logger member
  obtain ⟨before, there, rfl⟩ := List.mem_map.mp member
  have own := picks before there
  by_cases here : before.place ∈ changed
  · rw [if_pos here] at own ⊢
    exact own.symm
  · rw [if_neg here] at own ⊢
    exact (invariant.levels before there).trans own.symm

end Settings

theorem consistent_of_same (invariant : logged.Invariant) {after : LogList} {keys : List ObjectKey}
    (same : keys = logged.keys) (mList : after.mList = logged.state.list.mList)
    (mUniqueNames : after.mUniqueNames = logged.state.list.mUniqueNames)
    (mUniqueMap : after.mUniqueMap = logged.state.list.mUniqueMap)
    (registers : after.mAllowRegistration = logged.state.list.mAllowRegistration) :
    after.Consistent keys := by
  have before := invariant.consistent
  subst same
  refine ⟨before.names, ?_, ?_, ?_, registers.trans before.registers⟩
  · rw [mList]
    exact before.entries
  · rw [mUniqueNames]
    exact before.counts
  · rw [mUniqueMap]
    exact before.bases

/-- The settings leave the names and the places of the objects. -/
theorem keys_setting (setting : ∀ instanceName groupName, event ≠ .construct instanceName groupName)
    (stays : ∀ place, event ≠ .destroy place) : (logged.step event).keys = logged.keys := by
  cases event with
  | construct instanceName groupName => exact absurd rfl (setting instanceName groupName)
  | destroy place => exact absurd rfl (stays place)
  | setLogDebugLevel level =>
      refine map_key_foldl (fun objects entry => ?_) _ _
      exact map_key_setObject level objects entry.2
  | setGroupLogDebugLevel level groupName =>
      refine map_key_foldl (fun objects entry => ?_) _ _
      split
      · rfl
      · exact map_key_setObject level objects entry.2
  | setInstanceLogDebugLevel level instanceName =>
      change List.map Loggable.key
        (logged.state.list.setInstanceLevel logged.state.objects level instanceName).1 = _
      unfold setInstanceLevel
      split
      · exact map_key_setObject level _ _
      · rfl

theorem step_destroy_none {place : Nat}
    (gone : logged.state.objects.find? (fun logger => decide (logger.place = place)) = none) :
    (logged.step (.destroy place)).state = logged.state := by
  change logged.state.step (.destroy place) = _
  rw [LogState.step, gone]

theorem step_destroy_some {place : Nat} {logger : Loggable}
    (found : logged.state.objects.find? (fun logger => decide (logger.place = place)) =
      some logger) :
    (logged.step (.destroy place)).state.list = logged.state.list.del logger ∧
      (logged.step (.destroy place)).state.next = logged.state.next ∧
      (logged.step (.destroy place)).keys =
        logged.keys.filter fun other => decide (other.place ≠ logger.place) := by
  have picked := List.find?_some found
  have own : logger.place = place := of_decide_eq_true picked
  have state : (logged.step (.destroy place)).state = { logged.state with
      list := logged.state.list.del logger
      objects := logged.state.objects.filter fun other => decide (other.place ≠ place) } := by
    change logged.state.step (.destroy place) = _
    rw [LogState.step, found]
  refine ⟨by rw [state], by rw [state], ?_⟩
  rw [keys, keys, state, own, List.filter_map]
  rfl

theorem consistent_step (invariant : logged.Invariant) (few : logged.Few event)
    (free : ∀ instanceName groupName, event = .construct instanceName groupName →
      ∀ key ∈ logged.keys, key.instanceName ≠ logged.nameOf instanceName) :
    (logged.step event).state.list.Consistent (logged.step event).keys := by
  cases event with
  | construct instanceName groupName =>
      exact consistent_construct invariant few (free instanceName groupName rfl)
  | destroy place =>
      cases found : logged.state.objects.find? fun logger => decide (logger.place = place) with
      | none =>
          have same := step_destroy_none found
          rw [keys, same]
          exact invariant.consistent
      | some logger =>
          obtain ⟨list, -, keys⟩ := step_destroy_some found
          rw [list, keys]
          have member := @List.mem_map_of_mem _ _ _ _ Loggable.key (List.mem_of_find?_eq_some found)
          exact invariant.consistent.del invariant.places member (invariant.few logger.baseName)
  | setLogDebugLevel level =>
      exact consistent_of_same invariant (keys_setting nofun nofun) rfl rfl rfl rfl
  | setGroupLogDebugLevel level groupName =>
      exact consistent_of_same invariant (keys_setting nofun nofun) rfl rfl rfl rfl
  | setInstanceLogDebugLevel level instanceName =>
      exact consistent_of_same invariant (keys_setting nofun nofun) rfl rfl rfl rfl

/-- Every object has the level that the settings so far give it. -/
theorem levels_step (invariant : logged.Invariant) (few : logged.Few event)
    (meets : logged.Meets event) : ∀ logger ∈ (logged.step event).state.objects,
      logger.mLevel = (logged.step event).given logger.instanceName logger.groupName := by
  cases event with
  | construct instanceName groupName =>
      have free := meets.free instanceName groupName rfl
      rw [objects_construct invariant few free]
      intro logger member
      rcases List.mem_cons.mp member with rfl | there
      · exact (newLevel_eq_iff invariant).mpr (meets.levels instanceName groupName rfl)
      · exact invariant.levels logger there
  | destroy place =>
      intro logger member
      refine invariant.levels logger ?_
      cases found : logged.state.objects.find? fun logger => decide (logger.place = place) with
      | none =>
          rw [step_destroy_none found] at member
          exact member
      | some gone =>
          have objects : (logged.step (.destroy place)).state.objects =
              logged.state.objects.filter fun other => decide (other.place ≠ place) := by
            change (logged.state.step (.destroy place)).objects = _
            rw [LogState.step, found]
          rw [objects] at member
          exact (List.mem_filter.mp member).1
  | setLogDebugLevel level =>
      have objects : (logged.step (.setLogDebugLevel level)).state.objects =
          (logged.state.list.mList.toList.map Prod.snd).foldl (setObject level)
            logged.state.objects := List.foldl_map.symm
      rw [objects]
      refine levels_setting invariant fun logger member => ?_
      rw [if_pos (placed invariant member)]
      rfl
  | setGroupLogDebugLevel level groupName =>
      have objects : (logged.step (.setGroupLogDebugLevel level groupName)).state.objects = _ :=
        foldl_setGroup logged.state.list.mList.toList groupName
      rw [objects]
      refine levels_setting invariant fun logger member => ?_
      have group : groupAt logged.state.objects logger.place = logger.groupName := by
        rw [groupAt, find?_place (places_nodup invariant) member]
        rfl
      refine if_congr ?_ rfl rfl
      rw [List.mem_filter, decide_eq_true_eq, group]
      exact ⟨fun own => ⟨placed invariant member, own⟩, fun own => own.2⟩
  | setInstanceLogDebugLevel level instanceName =>
      have objects : (logged.step (.setInstanceLogDebugLevel level instanceName)).state.objects =
          ((selected logged.state.list.mList instanceName).toList.map Prod.snd).foldl
            (setObject level) logged.state.objects := by
        change (logged.state.list.setInstanceLevel logged.state.objects level instanceName).1 = _
        rw [setInstanceLevel]
        cases selected logged.state.list.mList instanceName with
        | none => rfl
        | some entry => rfl
      rw [objects]
      refine levels_setting invariant fun logger member => ?_
      refine if_congr ((selects_iff invariant member instanceName).trans ?_) rfl rfl
      rw [List.mem_map]
      exact ⟨fun ⟨entry, found, place⟩ => ⟨entry, Option.mem_toList.mpr found, place⟩,
        fun ⟨entry, found, place⟩ => ⟨entry, Option.mem_toList.mp found, place⟩⟩

theorem mGroupLevels_del (list : LogList) (logger : Loggable) :
    (list.del logger).mGroupLevels = list.mGroupLevels ∧
      (list.del logger).mInstanceLevels = list.mInstanceLevels := by
  rw [LogList.del]
  split
  · exact ⟨rfl, rfl⟩
  · dsimp only
    split
    · exact ⟨rfl, rfl⟩
    · split <;> exact ⟨rfl, rfl⟩

theorem getElem?_insertIfNew_none (levels : StdMap LogDebugLevel) (name other : String) :
    (levels.insertIfNew name .LOG_DEBUG_NONE)[other]? =
      if name = other then some ((levels[other]?).getD .LOG_DEBUG_NONE) else levels[other]? := by
  rw [Std.ExtTreeMap.getElem?_insertIfNew]
  by_cases own : name = other
  · subst own
    rw [if_pos rfl]
    by_cases there : name ∈ levels
    · rw [if_neg fun both => both.2 there, Std.ExtTreeMap.getElem?_eq_some_getElem there]
      rfl
    · rw [if_pos ⟨Std.ReflCmp.compare_self, there⟩, Std.ExtTreeMap.getElem?_eq_none there]
      rfl
  · rw [if_neg own, if_neg fun both => own (Std.LawfulEqCmp.compare_eq_iff_eq.mp both.1)]

theorem kept_construct {instanceName groupName : String} (invariant : logged.Invariant)
    (few : logged.Few (.construct instanceName groupName))
    (free : ∀ key ∈ logged.keys, key.instanceName ≠ logged.nameOf instanceName) :
    (∀ group, (logged.step (.construct instanceName groupName)).state.list.mGroupLevels[group]? =
        (logged.step (.construct instanceName groupName)).groups group) ∧
      ∀ name, (logged.step (.construct instanceName groupName)).state.list.mInstanceLevels[name]? =
        (logged.step (.construct instanceName groupName)).instances name := by
  have list : (logged.step (.construct instanceName groupName)).state.list =
      (logged.state.newLoggable instanceName groupName).2 := rfl
  rw [newLoggable_eq invariant few, add_unlisted invariant free] at list
  constructor
  · intro group
    rw [list, getElem?_insertIfNew_none, invariant.groups, groups_step, groupsBy]
  · intro name
    rw [list, getElem?_insertIfNew_none, invariant.instances, instances_step, instancesBy]

/-- The list keeps what has been set for the groups and for the names. -/
theorem kept_step (invariant : logged.Invariant) (few : logged.Few event)
    (meets : logged.Meets event) :
    (∀ group, (logged.step event).state.list.mGroupLevels[group]? =
        (logged.step event).groups group) ∧
      ∀ name, (logged.step event).state.list.mInstanceLevels[name]? =
        (logged.step event).instances name := by
  have groups := invariant.groups
  have instances := invariant.instances
  cases event with
  | construct instanceName groupName =>
      exact kept_construct invariant few (meets.free instanceName groupName rfl)
  | destroy place =>
      cases found : logged.state.objects.find? fun logger => decide (logger.place = place) with
      | none =>
          rw [step_destroy_none found]
          exact ⟨groups, instances⟩
      | some logger =>
          obtain ⟨sameGroups, sameInstances⟩ := mGroupLevels_del logged.state.list logger
          rw [(step_destroy_some found).1, sameGroups, sameInstances]
          exact ⟨groups, instances⟩
  | setLogDebugLevel level =>
      have list : (logged.step (.setLogDebugLevel level)).state.list = { logged.state.list with
          mInstanceLevels := logged.state.list.mInstanceLevels.map fun _ _ => level
          mGroupLevels := logged.state.list.mGroupLevels.map fun _ _ => level } := rfl
      rw [list]
      refine ⟨fun group => ?_, fun name => ?_⟩
      · dsimp only
        rw [Std.ExtTreeMap.getElem?_map, groups]
        rfl
      · dsimp only
        rw [Std.ExtTreeMap.getElem?_map, instances]
        rfl
  | setGroupLogDebugLevel level groupName =>
      refine ⟨fun group => ?_, instances⟩
      have list : (logged.step (.setGroupLogDebugLevel level groupName)).state.list.mGroupLevels =
          logged.state.list.mGroupLevels.insert (lowerName groupName) level := rfl
      rw [list, getElem?_insert_self_or, groups]
      rfl
  | setInstanceLogDebugLevel level instanceName =>
      refine ⟨groups, fun name => ?_⟩
      have list :
          (logged.step (.setInstanceLogDebugLevel level instanceName)).state.list.mInstanceLevels =
            logged.state.list.mInstanceLevels.insert (lowerName instanceName) level := rfl
      rw [list, getElem?_insert_self_or, instances]
      rfl

theorem places_step (invariant : logged.Invariant) (few : logged.Few event) :
    ((logged.step event).keys.map ObjectKey.place).Nodup ∧
      ∀ key ∈ (logged.step event).keys, key.place < (logged.step event).state.next := by
  have settings : (logged.step event).keys = logged.keys →
      (logged.step event).state.next = logged.state.next →
        ((logged.step event).keys.map ObjectKey.place).Nodup ∧
          ∀ key ∈ (logged.step event).keys, key.place < (logged.step event).state.next := by
    intro keys next
    rw [keys, next]
    exact ⟨invariant.places, invariant.below⟩
  cases event with
  | construct instanceName groupName =>
      have key := @key_newLoggable _ instanceName groupName invariant few
      have next : (logged.step (.construct instanceName groupName)).state.next =
          logged.state.next + 1 := rfl
      rw [keys_construct, key, next]
      constructor
      · refine List.nodup_cons.mpr ⟨fun member => ?_, invariant.places⟩
        obtain ⟨other, there, same⟩ := List.mem_map.mp member
        exact absurd same (Nat.ne_of_lt (invariant.below other there))
      · intro other member
        rcases List.mem_cons.mp member with rfl | there
        · exact Nat.lt_succ_self _
        · exact Nat.lt_succ_of_lt (invariant.below other there)
  | destroy place =>
      cases found : logged.state.objects.find? fun logger => decide (logger.place = place) with
      | none =>
          have same := step_destroy_none found
          exact settings (by rw [keys, same]; rfl) (by rw [same])
      | some logger =>
          obtain ⟨-, next, keys⟩ := step_destroy_some found
          rw [keys, next]
          exact ⟨(List.filter_sublist.map _).nodup invariant.places,
            fun other member => invariant.below other (List.mem_filter.mp member).1⟩
  | setLogDebugLevel level => exact settings (keys_setting nofun nofun) rfl
  | setGroupLogDebugLevel level groupName => exact settings (keys_setting nofun nofun) rfl
  | setInstanceLogDebugLevel level instanceName => exact settings (keys_setting nofun nofun) rfl

theorem step_invariant (invariant : logged.Invariant) (few : logged.Few event)
    (meets : logged.Meets event) : (logged.step event).Invariant :=
  have kept := kept_step invariant few meets
  have places := places_step invariant few
  ⟨consistent_step invariant few meets.free, places.1, places.2, few, kept.1, kept.2,
    levels_step invariant few meets⟩

theorem good_of_invariant (after : (logged.step event).Invariant) : logged.Good event where
  names := by
    rw [map_instanceName]
    exact after.consistent.names
  entries name place := by
    rw [after.consistent.entries]
    constructor
    · rintro ⟨key, member, both⟩
      obtain ⟨logger, there, rfl⟩ := List.mem_map.mp member
      exact ⟨logger, there, both⟩
    · rintro ⟨logger, there, both⟩
      exact ⟨logger.key, List.mem_map_of_mem there, both⟩
  level := after.levels

/-- A name that an object has already is not free after it is given again. -/
theorem free_of_good (invariant : logged.Invariant) (few : logged.Few event)
    (good : logged.Good event) (instanceName groupName : String)
    (construct : event = .construct instanceName groupName) :
    ∀ key ∈ logged.keys, key.instanceName ≠ logged.nameOf instanceName := by
  subst construct
  intro key member same
  have names := good.names
  rw [map_instanceName] at names
  have keys := @keys_construct logged instanceName groupName
  rw [key_newLoggable invariant few] at keys
  rw [show (logged.step (.construct instanceName groupName)).state.objects.map Loggable.key = _
    from keys] at names
  exact (List.nodup_cons.mp names).1 (List.mem_map.mpr ⟨key, member, same⟩)

theorem good_iff (invariant : logged.Invariant) (few : logged.Few event) :
    logged.Good event ↔ logged.Meets event := by
  constructor
  · intro good
    have free := free_of_good invariant few good
    refine ⟨free, ?_⟩
    rintro instanceName groupName rfl
    have level := good.level
    rw [objects_construct invariant few (free _ _ rfl)] at level
    exact (newLevel_eq_iff invariant).mp (level _ List.mem_cons_self)
  · intro meets
    exact good_of_invariant (step_invariant invariant few meets)

theorem initial_invariant : initial.Invariant := by
  refine ⟨⟨List.nodup_nil, fun name place => ?_, fun name => ?_, nofun, rfl⟩, List.nodup_nil, nofun,
    fun _ => Nat.two_pow_pos 32, fun group => ?_, fun name => ?_, nofun⟩
  · rw [show initial.state.list.mList = ∅ from rfl, Std.ExtTreeMap.getElem?_empty]
    exact ⟨nofun, fun ⟨_, member, _⟩ => by cases member⟩
  · rw [show initial.state.list.mUniqueNames = ∅ from rfl, Std.ExtTreeMap.getElem?_empty]
    rfl
  · exact Std.ExtTreeMap.getElem?_empty
  · exact Std.ExtTreeMap.getElem?_empty

/-- From any state with the invariant, a run goes as it should exactly when its constructions
do. -/
theorem guarded_iff {events : List LogEvent} (invariant : logged.Invariant)
    (few : Guarded Few step logged events) :
    Guarded Good step logged events ↔ Guarded Meets step logged events := by
  induction events generalizing logged with
  | nil => exact Iff.rfl
  | cons event events ih =>
      have here := good_iff invariant few.1
      constructor
      · intro good
        have meets := here.mp good.1
        exact ⟨meets, (ih (step_invariant invariant few.1 meets) few.2).mp good.2⟩
      · intro meets
        exact ⟨here.mpr meets.1,
          (ih (step_invariant invariant few.1 meets.1) few.2).mpr meets.2⟩

end Logged

open Logged in
/-- The list has the objects that live, under names of their own and with the levels that were
set, exactly when each object is constructed with a name that is free and levels that agree. -/
theorem registers_iff (events : List LogEvent) (few : Guarded Few step initial events) :
    Guarded Good step initial events ↔ Guarded Meets step initial events :=
  guarded_iff initial_invariant few

/-- Objects that are constructed after their levels were set. -/
def laterObjects : List LogEvent :=
  [.construct "a" "b", .setLogDebugLevel .LOG_DEBUG_NORMAL, .construct "a" "b",
    .setGroupLogDebugLevel .LOG_DEBUG_VERBOSE "C", .construct "d" "c", .destroy 0,
    .setInstanceLogDebugLevel .LOG_DEBUG_NONE "D"]

theorem Logged.meets_setting {logged : Logged} {event : LogEvent}
    (setting : ∀ instanceName groupName, event ≠ .construct instanceName groupName) :
    logged.Meets event :=
  ⟨fun instanceName groupName same => absurd same (setting instanceName groupName),
    fun instanceName groupName same => absurd same (setting instanceName groupName)⟩

open Logged in
theorem registers_iff_laterObjects : Guarded Few step initial laterObjects ∧
    Guarded Good step initial laterObjects := by
  have few : Guarded Few step initial laterObjects := by
    refine ⟨fun name => ?_, fun name => ?_, fun name => ?_, fun name => ?_, fun name => ?_,
      fun name => ?_, fun name => ?_, trivial⟩
    all_goals exact Nat.lt_of_le_of_lt List.countP_le_length (by decide)
  refine ⟨few, (registers_iff _ few).mpr ⟨⟨?_, ?_⟩, meets_setting nofun, ⟨?_, ?_⟩,
    meets_setting nofun, ⟨?_, ?_⟩, meets_setting nofun, meets_setting nofun, trivial⟩⟩
  all_goals
    rintro instanceName groupName same
    cases same
    decide +kernel

open Logged in
/-- A name with a number is given again while it is in use. -/
theorem number_is_used_twice : ¬ ∀ events, Guarded Few step initial events →
    Guarded Good step initial events := by
  intro always
  have few : Guarded Few step initial [.construct "a" "b", .construct "a" "b", .destroy 0,
      .construct "a" "b"] := by
    refine ⟨fun name => ?_, fun name => ?_, fun name => ?_, fun name => ?_, trivial⟩
    · exact Nat.lt_of_le_of_lt List.countP_le_length (by decide)
    · exact Nat.lt_of_le_of_lt List.countP_le_length (by decide)
    · exact Nat.lt_of_le_of_lt List.countP_le_length (by decide)
    · exact Nat.lt_of_le_of_lt List.countP_le_length (by decide)
  have good := (always _ few).2.2.2.1
  exact absurd good.names (by decide)

end OpenMplane
