import OpenMplane.DvTypeBase
import OpenMplane.GuardedRuns
import OpenMplane.StdString

/-!
# The list of objects that log

The model of `LogList` and of the objects that are in it.  A name that is taken is made
unique by a number, which counts the objects of that name; the levels that are set are kept
by group and by name for objects to come.
-/

namespace OpenMplane

inductive LogDebugLevel
  | LOG_DEBUG_NONE
  | LOG_DEBUG_NORMAL
  | LOG_DEBUG_VERBOSE
  deriving DecidableEq

namespace LogDebugLevel

/-- The number of a level. -/
def rank : LogDebugLevel → Nat
  | LOG_DEBUG_NONE => 0
  | LOG_DEBUG_NORMAL => 1
  | LOG_DEBUG_VERBOSE => 2

/-- A level, raised to another that is greater. -/
def raise (level other : LogDebugLevel) : LogDebugLevel :=
  if level.rank < other.rank then other else level

end LogDebugLevel

/-- `toLower` of a name. -/
def lowerName (name : String) : String := String.ofList (toLower name.toList)

structure LogList where
  mUniqueNames : StdMap Nat
  mUniqueMap : StdMap String
  mInstanceLevels : StdMap LogDebugLevel
  mGroupLevels : StdMap LogDebugLevel
  mList : StdMap Nat
  mAllowRegistration : Bool

/-- An object that logs: where it is, its names and its level, and the name that it was
constructed with. -/
structure Loggable where
  place : Nat
  instanceName : String
  groupName : String
  mLevel : LogDebugLevel
  baseName : String
  deriving DecidableEq

namespace LogList

def construct : LogList := ⟨∅, ∅, ∅, ∅, ∅, true⟩

def validName (name defaultName : String) : String :=
  let nameCopy := if name = "" then defaultName else name
  String.ofList (nameCopy.toList.map fun letter => if letter = ' ' then '_' else letter)

def validGroupName (name : String) : String := validName name "GLOBAL"

/-- A name with a number behind it. -/
def numbered (name : String) (number : Nat) : String :=
  String.ofList (name.toList ++ '-' :: (Nat.repr number).toList)

def uniqueInstanceName (list : LogList) (name : String) : String × LogList :=
  if !list.mAllowRegistration then (name, list)
  else
    let nameCopy := validName name "unnamed"
    match list.mUniqueNames[nameCopy]? with
    | none =>
        (nameCopy, { list with
          mUniqueNames := list.mUniqueNames.insert nameCopy 1
          mUniqueMap := list.mUniqueMap.insert nameCopy nameCopy })
    | some number =>
        let uniqueName := numbered nameCopy number
        (uniqueName, { list with
          mUniqueNames := list.mUniqueNames.insert nameCopy ((number + 1) % 2 ^ 32)
          mUniqueMap := list.mUniqueMap.insert uniqueName nameCopy })

/-- `getGroupLevel` with the level that is the default. -/
def getGroupLevel (list : LogList) (groupName : String) : LogDebugLevel × LogList :=
  let levels := list.mGroupLevels.insertIfNew (lowerName groupName) .LOG_DEBUG_NONE
  (levels.getD (lowerName groupName) .LOG_DEBUG_NONE, { list with mGroupLevels := levels })

/-- `getInstanceLevel` with the level that is the default. -/
def getInstanceLevel (list : LogList) (instanceName : String) : LogDebugLevel × LogList :=
  let levels := list.mInstanceLevels.insertIfNew (lowerName instanceName) .LOG_DEBUG_NONE
  (levels.getD (lowerName instanceName) .LOG_DEBUG_NONE, { list with mInstanceLevels := levels })

/-- `add`: the object with its level, and the list. -/
def add (list : LogList) (logger : Loggable) : Loggable × LogList :=
  if !list.mAllowRegistration then (logger, list)
  else if logger.instanceName ∈ list.mList then (logger, list)
  else
    let list := { list with mList := list.mList.insert logger.instanceName logger.place }
    let level := LogDebugLevel.LOG_DEBUG_NONE
    let (groupLevel, list) := list.getGroupLevel logger.groupName
    let (instanceLevel, list) := list.getInstanceLevel logger.instanceName
    ({ logger with mLevel := (level.raise groupLevel).raise instanceLevel }, list)

/-- `del`; a name that `mUniqueMap` does not have gets an entry there. -/
def del (list : LogList) (logger : Loggable) : LogList :=
  if logger.instanceName ∉ list.mList then list
  else
    let list := { list with
      mList := list.mList.erase logger.instanceName
      mUniqueMap := list.mUniqueMap.insertIfNew logger.instanceName "" }
    let baseName := list.mUniqueMap.getD logger.instanceName ""
    match list.mUniqueNames[baseName]? with
    | none => list
    | some number =>
        let number := (number + (2 ^ 32 - 1)) % 2 ^ 32
        if number = 0 then { list with mUniqueNames := list.mUniqueNames.erase baseName }
        else { list with mUniqueNames := list.mUniqueNames.insert baseName number }

/-- The entry that an instance name selects: that of the name itself, or else the first that
differs in case only. -/
def selected (mList : StdMap Nat) (instanceName : String) : Option (String × Nat) :=
  match mList[instanceName]? with
  | some place => some (instanceName, place)
  | none =>
      mList.toList.find? fun entry => decide (lowerName entry.1 = lowerName instanceName)

/-- `setLevel` of the object at a place. -/
def setObject (level : LogDebugLevel) (objects : List Loggable) (place : Nat) : List Loggable :=
  objects.map fun logger =>
    if logger.place = place then { logger with mLevel := level } else logger

def setLevel (list : LogList) (objects : List Loggable) (level : LogDebugLevel) :
    List Loggable × LogList :=
  (list.mList.toList.foldl (fun objects entry => setObject level objects entry.2) objects,
    { list with
      mInstanceLevels := list.mInstanceLevels.map fun _ _ => level
      mGroupLevels := list.mGroupLevels.map fun _ _ => level })

/-- The name of the group of the object at a place. -/
def groupAt (objects : List Loggable) (place : Nat) : String :=
  ((objects.find? fun logger => decide (logger.place = place)).map Loggable.groupName).getD ""

def setGroupLevel (list : LogList) (objects : List Loggable) (level : LogDebugLevel)
    (groupName : String) : List Loggable × LogList :=
  (list.mList.toList.foldl (fun objects entry =>
      if lowerName (groupAt objects entry.2) ≠ lowerName groupName then objects
      else setObject level objects entry.2) objects,
    { list with mGroupLevels := list.mGroupLevels.insert (lowerName groupName) level })

def setInstanceLevel (list : LogList) (objects : List Loggable) (level : LogDebugLevel)
    (instanceName : String) : List Loggable × LogList :=
  (match selected list.mList instanceName with
    | some entry => setObject level objects entry.2
    | none => objects,
    { list with mInstanceLevels := list.mInstanceLevels.insert (lowerName instanceName) level })

end LogList

/-- The list, the objects that live, and the place of the next one. -/
structure LogState where
  list : LogList
  objects : List Loggable
  next : Nat

/-- What happens to the list before its registration is closed. -/
inductive LogEvent
  | construct (instanceName groupName : String)
  | destroy (place : Nat)
  | setLogDebugLevel (level : LogDebugLevel)
  | setGroupLogDebugLevel (level : LogDebugLevel) (groupName : String)
  | setInstanceLogDebugLevel (level : LogDebugLevel) (instanceName : String)
  deriving DecidableEq

namespace LogState

def initial : LogState := ⟨.construct, [], 0⟩

/-- The constructor of an object, and the list after it. -/
def newLoggable (state : LogState) (instanceName groupName : String) : Loggable × LogList :=
  let (uniqueName, list) := state.list.uniqueInstanceName instanceName
  list.add
    { place := state.next
      instanceName := uniqueName
      groupName := LogList.validGroupName groupName
      mLevel := .LOG_DEBUG_NONE
      baseName := LogList.validName instanceName "unnamed" }

def step (state : LogState) : LogEvent → LogState
  | .construct instanceName groupName =>
      let (logger, list) := state.newLoggable instanceName groupName
      ⟨list, logger :: state.objects, state.next + 1⟩
  | .destroy place =>
      match state.objects.find? fun logger => decide (logger.place = place) with
      | none => state
      | some logger =>
          { state with
            list := state.list.del logger
            objects := state.objects.filter fun other => decide (other.place ≠ place) }
  | .setLogDebugLevel level =>
      let (objects, list) := state.list.setLevel state.objects level
      { state with list, objects }
  | .setGroupLogDebugLevel level groupName =>
      let (objects, list) := state.list.setGroupLevel state.objects level groupName
      { state with list, objects }
  | .setInstanceLogDebugLevel level instanceName =>
      let (objects, list) := state.list.setInstanceLevel state.objects level instanceName
      { state with list, objects }

end LogState

end OpenMplane
