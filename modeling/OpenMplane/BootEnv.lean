import OpenMplane.BankChoice
import OpenMplane.BootEnvRoundTrip
import Mathlib.Logic.Function.Basic

/-!
# Boot environments

A `BootEnv` keeps the boot environment in several banks, one of which is active.  A change
takes the flag from the active bank and writes the new variables, with the flag, to the
inactive one.  This file follows the object over the flash devices and says what a new object
makes of any contents of them: every bank that can be read counts, whatever its checksum, and
the first one with a flag becomes the active one, or else the first of all.  What was read can
be written again and is found again, and other contents of one device change the object of this
device only.
-/

namespace OpenMplane

open BankChoice BootEnvDevice

structure PartitionInfo where
  name : String
  size : Nat

/-- What `getDeviceList` returns: the partitions by their index. -/
abbrev PartitionMap := Std.ExtTreeMap Nat PartitionInfo

/-- What the devices hold, by their index. -/
abbrev EnvFlash := Nat → List UInt8

/-- What the drivers of the devices do: the answer to `read`, which depends on what the device
holds, and the answers to the calls of `write`. -/
structure EnvDrivers where
  reads : Nat → List UInt8 → ReadAnswer
  writes : Nat → EnvDriver

/-- `BootEnv`; the pointers to the active and the inactive device are places of the list. -/
structure BootEnv where
  mFlagSupported : Bool
  mMinNumBanks : Nat
  mEnvDevices : List BootEnvDevice
  mActiveEnv : Option Nat
  mInactiveEnv : Option Nat
  mError : String

/-- The object and the devices. -/
structure BootState where
  env : BootEnv
  flash : EnvFlash

/-- The calls that change the environment. -/
inductive BootCall
  | setVar (vars : EnvVars)
  | deleteVar (vars : List (List UInt8))
  | resetVars (vars : EnvVars)

/-- The environment that a call writes in place of another. -/
def BootCall.newEnv : BootCall → EnvVars → EnvVars
  | .setVar vars, env => vars.toList.foldl (fun env varVal => env.insert varVal.1 varVal.2) env
  | .deleteVar vars, env => vars.foldl (fun env var => env.erase var) env
  | .resetVars vars, _ => vars

namespace BootState

/-- A call of a method of the device at a place. -/
def changeDevice (place : Nat) (change : BootEnvDevice → BootEnvDevice) (state : BootState) :
    BootState :=
  { state with
    env := { state.env with mEnvDevices := state.env.mEnvDevices.modify place change } }

/-- `write` of the device at a place; `checkState` excludes that there is none. -/
def writeDevice (writes : Nat → EnvDriver) (place : Nat) (state : BootState) : Bool × BootState :=
  match state.env.mEnvDevices[place]? with
  | none => (false, state)
  | some device =>
      let outcome := device.write (writes device.mIndex) (state.flash device.mIndex)
      (outcome.returned,
        { env := { state.env with mEnvDevices := state.env.mEnvDevices.set place outcome.device }
          flash := Function.update state.flash device.mIndex outcome.contents })

/-- What is wrong when `checkState` returns false. -/
def stateError (env : BootEnv) : Option String :=
  if env.mEnvDevices.length < env.mMinNumBanks then
    some ("Found only " ++ toString env.mEnvDevices.length ++ " valid devices (need at least " ++
      toString env.mMinNumBanks ++ ")")
  else if env.mActiveEnv = none then some "No active environment"
  else if env.mMinNumBanks < 2 then none
  else if env.mInactiveEnv = none then some "No inactive environment"
  else none

def setError (error : String) (state : BootState) : BootState :=
  { state with env := { state.env with mError := error } }

/-- The error of the device at a place becomes that of the object. -/
def takeError (place : Nat) (state : BootState) : BootState :=
  (state.setError ((state.env.mEnvDevices[place]?.map BootEnvDevice.mError).getD "")).changeDevice
    place fun device => { device with mError := "" }

def initDevice (drivers : EnvDrivers) (state : BootState) (entry : Nat × PartitionInfo) :
    BootState :=
  let envDevice := BootEnvDevice.new entry.1 entry.2.name state.env.mFlagSupported entry.2.size
    (drivers.reads entry.1 (state.flash entry.1))
  if envDevice.mValid = false then state
  else
    let place := state.env.mEnvDevices.length
    let state : BootState :=
      { state with env := { state.env with mEnvDevices := state.env.mEnvDevices ++ [envDevice] } }
    if envDevice.mActive = true ∧ state.env.mActiveEnv = none then
      { state with env := { state.env with mActiveEnv := some place } }
    else
      let state :=
        if envDevice.mActive then
          (writeDevice drivers.writes place
            (state.changeDevice place fun device => device.setActiveFlag false)).2
        else state
      { state with env := { state.env with mInactiveEnv := some place } }

/-- The start of `init` and its loop. -/
def initDevices (drivers : EnvDrivers) (devices : PartitionMap) (state : BootState) : BootState :=
  let env := { state.env with
    mEnvDevices := [], mActiveEnv := none, mInactiveEnv := none, mError := "" }
  devices.toList.foldl (initDevice drivers) { state with env }

/-- `init`; it returns false when it finds an active device. -/
def init (drivers : EnvDrivers) (devices : PartitionMap) (state : BootState) :
    Bool × BootState :=
  let state := initDevices drivers devices state
  if state.env.mEnvDevices.length < state.env.mMinNumBanks then
    (false, state.setError ("Found only " ++ toString state.env.mEnvDevices.length ++
      " valid devices (need at least " ++ toString state.env.mMinNumBanks ++ ")"))
  else if state.env.mActiveEnv.isSome then (false, state)
  else
    let state : BootState := { state with env := { state.env with mActiveEnv := some 0 } }
    (true, (writeDevice drivers.writes 0
      (state.changeDevice 0 fun device => device.setActiveFlag true)).2)

def construct (mFlagSupported : Bool) (mMinNumBanks : Nat) (drivers : EnvDrivers)
    (devices : PartitionMap) (flash : EnvFlash) : BootState :=
  (init drivers devices ⟨⟨mFlagSupported, mMinNumBanks, [], none, none, ""⟩, flash⟩).2

/-- The device that the object takes for the active one. -/
def active (env : BootEnv) : Option BootEnvDevice :=
  env.mActiveEnv.bind fun place => env.mEnvDevices[place]?

def getVars (env : BootEnv) : EnvVars :=
  match stateError env with
  | some _ => ∅
  | none => ((active env).map BootEnvDevice.mEnv).getD ∅

/-- `writeInactive`; what `writes` does holds for both devices. -/
def writeInactive (writes : Nat → EnvDriver) (newEnv : EnvVars) (state : BootState) :
    Bool × BootState :=
  match stateError state.env with
  | some error => (false, state.setError error)
  | none =>
      let active := state.env.mActiveEnv.getD 0
      let inactive := state.env.mInactiveEnv.getD 0
      let (wrote, state) := writeDevice writes active
        (state.changeDevice active fun device => device.setActiveFlag false)
      if wrote = false then (false, state.takeError active)
      else if state.env.mMinNumBanks < 2 then (true, state)
      else
        let (wrote, state) := writeDevice writes inactive
          (state.changeDevice inactive fun device =>
            (device.setActiveFlag true).resetVars newEnv)
        if wrote = false then (false, state.takeError inactive)
        else
          (true, { state with
            env := { state.env with mActiveEnv := some inactive, mInactiveEnv := some active } })

def writeActive (writes : Nat → EnvDriver) (newEnv : EnvVars) (state : BootState) :
    Bool × BootState :=
  match stateError state.env with
  | some error => (false, state.setError error)
  | none =>
      let active := state.env.mActiveEnv.getD 0
      let (wrote, state) := writeDevice writes active
        (state.changeDevice active fun device => device.resetVars newEnv)
      if wrote = false then (false, state.takeError active) else (true, state)

/-- A call that changes the environment, with the `writeEnv` of the class. -/
def call (writeEnv : EnvVars → BootState → Bool × BootState) (call : BootCall)
    (state : BootState) : Bool × BootState :=
  match stateError state.env with
  | some error => (false, state.setError error)
  | none =>
      writeEnv (call.newEnv (((active state.env).map BootEnvDevice.mEnv).getD ∅)) state

/-- The flag of a device as the mark of a bank. -/
def flagMarking : Marking BootEnvDevice where
  marked := BootEnvDevice.mActive
  mark flag device := device.setActiveFlag flag
  marked_mark _ _ := rfl
  mark_marked _ := rfl

/-- A new device object on a partition that can be read. -/
def load (flash : EnvFlash) (entry : Nat × PartitionInfo) : BootEnvDevice :=
  BootEnvDevice.new entry.1 entry.2.name true entry.2.size (.bytes (flash entry.1))

/-- The devices that count as valid. -/
def loaded (flash : EnvFlash) (entries : List (Nat × PartitionInfo)) : List BootEnvDevice :=
  (entries.map (load flash)).filter BootEnvDevice.mValid

/-- The drivers do what they are asked for. -/
structure Working (drivers : EnvDrivers) : Prop where
  reads : ∀ index contents, drivers.reads index contents = .bytes contents
  writes : ∀ index device contents,
    (BootEnvDevice.write device (drivers.writes index) contents).returned = true

/-- A device object whose variables can be written and read back. -/
structure Kept (device : BootEnvDevice) : Prop where
  flags : device.mFlagSupported = true
  valid : device.mValid = true
  noError : device.mError = ""
  sized : device.dataOffset ≤ device.mEnvSize
  storable : Storable device.mEnv
  light : TerminatedStrings.weight (envStrs device.mEnv) ≤ device.room + 1

/-- A new object for the partition of a device. -/
def reload (device : BootEnvDevice) (contents : List UInt8) : BootEnvDevice :=
  BootEnvDevice.new device.mIndex device.mDevName true device.mEnvSize (.bytes contents)

variable {flash : EnvFlash} {drivers : EnvDrivers} {device : BootEnvDevice}
  {contents : List UInt8} {entry : Nat × PartitionInfo} {entries : List (Nat × PartitionInfo)}
  {state : BootState} {place : Nat}

section Devices

/-- A bank counts as valid exactly when all of it could be read, whatever its checksum. -/
theorem valid_new_iff (index : Nat) (devName : String) (flags : Bool) (size : Nat) :
    (BootEnvDevice.new index devName flags size (.bytes contents)).mValid = true ↔
      size ≤ contents.length := by
  unfold BootEnvDevice.new BootEnvDevice.read
  by_cases short : contents.length < size
  · simp [short]
  · simp only [short, ↓reduceIte, true_iff]
    omega

theorem readValLE_snd (count : Nat) (data : List UInt8) :
    (ByteTransfer.readValLE count data).2 = data.drop count := by
  induction count generalizing data with
  | zero => rfl
  | succ count ih =>
      cases data with
      | nil => rfl
      | cons byte data =>
          rw [ByteTransfer.readValLE, List.drop_succ_cons]
          exact ih data

/-- The variables stand behind the checksum and the flag. -/
theorem mEnv_readData (flags : device.mFlagSupported = true) (data : List UInt8) :
    (device.readData data).mEnv =
      (TerminatedStrings.readStrings 0 (data.drop 5)).foldl addVar device.mEnv := by
  have behind : ((ByteTransfer.readByte (ByteTransfer.readWordLE data).2).2) = data.drop 5 := by
    rw [ByteTransfer.readByte, ByteTransfer.readVal_snd, ByteTransfer.readWordLE, readValLE_snd,
      List.drop_drop]
  unfold readData
  rw [← behind, flags]
  rfl

theorem kept_new (index : Nat) (devName : String) {size : Nat} (sized : 5 ≤ size)
    (whole : size ≤ contents.length) :
    Kept (BootEnvDevice.new index devName true size (.bytes contents)) := by
  have notShort : ¬ contents.length < size := by omega
  have variables' := @mEnv_readData
    ⟨true, size, false, index, devName, false, ∅, ""⟩ rfl (contents.take size)
  have light := weight_foldl_addVar ((contents.take size).drop 5)
  unfold BootEnvDevice.new BootEnvDevice.read
  simp only [notShort, ↓reduceIte]
  refine ⟨rfl, rfl, rfl, sized, ?_, ?_⟩
  · rw [variables']
    exact storable_foldl_addVar _
  · rw [variables']
    refine light.trans (Nat.le_of_eq ?_)
    rw [List.length_drop, List.length_take, Nat.min_eq_left whole]
    rfl

theorem kept_of_valid {index size : Nat} {devName : String} (sized : 5 ≤ size)
    (valid : (BootEnvDevice.new index devName true size (.bytes contents)).mValid = true) :
    Kept (BootEnvDevice.new index devName true size (.bytes contents)) :=
  kept_new index devName sized ((valid_new_iff index devName true size).mp valid)

theorem new_fields (index : Nat) (devName : String) (flags : Bool) (size : Nat)
    (answer : ReadAnswer) :
    let device := BootEnvDevice.new index devName flags size answer
    device.mIndex = index ∧ device.mDevName = devName ∧ device.mFlagSupported = flags ∧
      device.mEnvSize = size := by
  unfold BootEnvDevice.new BootEnvDevice.read
  cases answer with
  | unopened strError => exact ⟨rfl, rfl, rfl, rfl⟩
  | failed strError => exact ⟨rfl, rfl, rfl, rfl⟩
  | bytes data =>
      dsimp only
      split
      · exact ⟨rfl, rfl, rfl, rfl⟩
      · exact ⟨rfl, rfl, rfl, rfl⟩

theorem setActiveFlag_of_mActive {flag : Bool} (same : device.mActive = flag) :
    device.setActiveFlag flag = device := by
  subst same
  rfl

namespace Kept

theorem setActiveFlag (kept : Kept device) (flag : Bool) : Kept (device.setActiveFlag flag) :=
  ⟨kept.flags, kept.valid, kept.noError, kept.sized, kept.storable, kept.light⟩

theorem resetVars {vars : EnvVars} (kept : Kept device) (storable : Storable vars)
    (light : TerminatedStrings.weight (envStrs vars) ≤ device.room + 1) :
    Kept (device.resetVars vars) :=
  ⟨kept.flags, kept.valid, kept.noError, kept.sized, storable, light⟩

/-- A device that was written is found again by a new object. -/
theorem reload_write {driver : EnvDriver} (kept : Kept device)
    (wrote : (device.write driver contents).returned = true) :
    reload device (device.write driver contents).contents = device := by
  have found := readBack_of_weight kept.sized kept.storable kept.light wrote device.mIndex
    device.mDevName
  rw [kept.flags, if_pos rfl] at found
  rw [reload, found]
  obtain ⟨flags, size, valid, index, devName, isActive, vars, error⟩ := device
  obtain ⟨rfl, rfl, rfl, -, -, -⟩ := kept
  rfl

end Kept

theorem write_obedient (device : BootEnvDevice) (contents : List UInt8) :
    (device.write obedient contents).returned = true := by
  have noError : ¬ (device.writtenData.length : Int) < 0 := by omega
  simp [BootEnvDevice.write, BootEnvDevice.eraseFlash, obedient, nerase, eraseBlocks, noError]

/-- Drivers of which none fails. -/
def obedientDrivers : EnvDrivers where
  reads _ contents := .bytes contents
  writes _ := obedient

theorem working_obedient : Working obedientDrivers :=
  ⟨fun _ _ => rfl, fun _ device contents => write_obedient device contents⟩

/-- Two banks of sixteen bytes. -/
def twoBanks : PartitionMap :=
  ((∅ : PartitionMap).insert 1 ⟨"/dev/mtd3", 16⟩).insert 2 ⟨"/dev/mtd2", 16⟩

end Devices

section Partitions

theorem loaded_cons (flash : EnvFlash) (entry : Nat × PartitionInfo)
    (entries : List (Nat × PartitionInfo)) : loaded flash (entry :: entries) =
      (if (load flash entry).mValid = true then [load flash entry] else []) ++
        loaded flash entries := by
  rw [loaded, List.map_cons, List.filter_cons]
  split <;> rfl

theorem mIndex_load (flash : EnvFlash) (entry : Nat × PartitionInfo) :
    (load flash entry).mIndex = entry.1 :=
  (new_fields _ _ _ _ _).1

theorem mIndex_mem_of_loaded (member : device ∈ loaded flash entries) :
    device.mIndex ∈ entries.map Prod.fst := by
  obtain ⟨entry, inside, rfl⟩ := List.mem_map.mp (List.mem_filter.mp member).1
  rw [mIndex_load]
  exact List.mem_map_of_mem inside

theorem kept_of_mem (sized : ∀ entry ∈ entries, 5 ≤ entry.2.size)
    (member : device ∈ loaded flash entries) : Kept device := by
  obtain ⟨inside, valid⟩ := List.mem_filter.mp member
  obtain ⟨entry, listed, rfl⟩ := List.mem_map.mp inside
  exact kept_of_valid (sized entry listed) valid

theorem reload_load (flash : EnvFlash) (entry : Nat × PartitionInfo) (contents : List UInt8) :
    reload (load flash entry) contents = load (Function.update flash entry.1 contents) entry := by
  obtain ⟨index, name, -, size⟩ := new_fields entry.1 entry.2.name true entry.2.size
    (.bytes (flash entry.1))
  rw [reload, load, index, name, size, load, Function.update_self]

theorem load_congr {other : EnvFlash} (same : flash entry.1 = other entry.1) :
    load flash entry = load other entry := by
  rw [load, load, same]

theorem loaded_congr {other : EnvFlash}
    (same : ∀ index ∈ entries.map Prod.fst, flash index = other index) :
    loaded flash entries = loaded other entries := by
  unfold loaded
  congr 1
  exact List.map_congr_left fun entry inside => load_congr (same _ (List.mem_map_of_mem inside))

theorem loaded_update_other {index : Nat} (outside : index ∉ entries.map Prod.fst) :
    loaded (Function.update flash index contents) entries = loaded flash entries := by
  refine loaded_congr fun other inside => Function.update_of_ne ?_ _ _
  rintro rfl
  exact outside inside

/-- Other contents of one device give another object in its place. -/
theorem loaded_update (distinct : (entries.map Prod.fst).Nodup)
    (here : (loaded flash entries)[place]? = some device) (contents : List UInt8)
    (valid : (reload device contents).mValid = true) :
    loaded (Function.update flash device.mIndex contents) entries =
      (loaded flash entries).set place (reload device contents) := by
  induction entries generalizing place with
  | nil => simp [loaded] at here
  | cons entry entries ih =>
      rw [List.map_cons, List.nodup_cons] at distinct
      rw [loaded_cons] at here ⊢
      rw [loaded_cons]
      by_cases isValid : (load flash entry).mValid = true
      · rw [if_pos isValid] at here ⊢
        cases place with
        | zero =>
            cases here
            rw [reload_load] at valid ⊢
            rw [mIndex_load, if_pos valid, loaded_update_other distinct.1]
            rfl
        | succ place =>
            have behind : (loaded flash entries)[place]? = some device := here
            have apart : entry.1 ≠ device.mIndex := by
              intro same
              rw [same] at distinct
              exact distinct.1 (mIndex_mem_of_loaded (List.mem_of_getElem? behind))
            have first : load (Function.update flash device.mIndex contents) entry =
                load flash entry := load_congr (Function.update_of_ne apart _ _)
            rw [first, if_pos isValid, ih distinct.2 behind]
            rfl
      · rw [if_neg isValid] at here ⊢
        have behind : (loaded flash entries)[place]? = some device := here
        have apart : entry.1 ≠ device.mIndex := by
          intro same
          rw [same] at distinct
          exact distinct.1 (mIndex_mem_of_loaded (List.mem_of_getElem? behind))
        have first : load (Function.update flash device.mIndex contents) entry =
            load flash entry := load_congr (Function.update_of_ne apart _ _)
        rw [first, if_neg isValid, List.nil_append, ih distinct.2 behind]
        rfl

theorem length_loaded (whole : ∀ entry ∈ entries, entry.2.size ≤ (flash entry.1).length) :
    (loaded flash entries).length = entries.length := by
  induction entries with
  | nil => rfl
  | cons entry entries ih =>
      have valid : (load flash entry).mValid = true :=
        (valid_new_iff _ _ _ _).mpr (whole entry List.mem_cons_self)
      rw [loaded_cons, if_pos valid, List.length_append, List.length_cons,
        ih fun other member => whole other (List.mem_cons_of_mem entry member)]
      exact Nat.add_comm 1 _

theorem nodup_keys (devices : PartitionMap) : (devices.toList.map Prod.fst).Nodup := by
  refine List.pairwise_map.mpr (devices.distinct_keys_toList.imp fun apart same => ?_)
  rw [same] at apart
  exact apart Std.ReflCmp.compare_self

end Partitions

end BootState

end OpenMplane
