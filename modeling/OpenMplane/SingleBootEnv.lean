import OpenMplane.BootEnvUpdates

/-!
# Boot environments with a single bank

`SingleBootEnv` has one bank without a flag and writes it in place.  The variables are changed
in the object before the device is written, and they stay changed when the device refuses: the
object shows what every call was to write, and the device holds it when the call succeeded.
-/

namespace OpenMplane

open BootEnvDevice

namespace BootState

/-- A call of a `SingleBootEnv`. -/
def updateSingle (state : BootState) (input : BootCall × (Nat → EnvDriver)) : Bool × BootState :=
  call (writeActive input.2) input.1 state

/-- An object whose active device is at a place. -/
structure Single (state : BootState) (place : Nat) (device : BootEnvDevice) : Prop where
  usable : stateError state.env = none
  isActive : state.env.mActiveEnv = some place
  here : state.env.mEnvDevices[place]? = some device

/-- The two objects stand for the same bank. -/
structure SameBank (device other : BootEnvDevice) : Prop where
  flags : device.mFlagSupported = other.mFlagSupported
  size : device.mEnvSize = other.mEnvSize
  index : device.mIndex = other.mIndex
  name : device.mDevName = other.mDevName

variable {state : BootState} {place : Nat} {device other : BootEnvDevice}
  {input : BootCall × (Nat → EnvDriver)}

theorem SameBank.trans {third : BootEnvDevice} (first : SameBank device other)
    (second : SameBank other third) : SameBank device third :=
  ⟨first.flags.trans second.flags, first.size.trans second.size, first.index.trans second.index,
    first.name.trans second.name⟩

theorem getVars_of_single (single : Single state place device) :
    getVars state.env = device.mEnv := by
  rw [getVars, single.usable, BootState.active, single.isActive, Option.bind_some, single.here]
  rfl

theorem sameBank_write (driver : EnvDriver) (contents : List UInt8) (vars : EnvVars) :
    SameBank ((device.resetVars vars).write driver contents).device device ∧
      ((device.resetVars vars).write driver contents).device.mEnv = vars := by
  have fields := write_device (device.resetVars vars) driver contents
  have flags := congrArg BootEnvDevice.mFlagSupported fields
  have size := congrArg BootEnvDevice.mEnvSize fields
  have index := congrArg BootEnvDevice.mIndex fields
  have name := congrArg BootEnvDevice.mDevName fields
  have sameVars := congrArg BootEnvDevice.mEnv fields
  exact ⟨⟨flags, size, index, name⟩, sameVars⟩

theorem stateError_congr {first second : BootEnv}
    (length : first.mEnvDevices.length = second.mEnvDevices.length)
    (minimum : first.mMinNumBanks = second.mMinNumBanks)
    (isActive : first.mActiveEnv = second.mActiveEnv)
    (isInactive : first.mInactiveEnv = second.mInactiveEnv) :
    stateError first = stateError second := by
  rw [stateError, stateError, length, minimum, isActive, isInactive]

/-- One call: the object has the new variables, and the device when the call succeeds. -/
theorem updateSingle_spec (single : Single state place device) :
    ∃ after, Single (updateSingle state input).2 place after ∧ SameBank after device ∧
      after.mEnv = input.1.newEnv device.mEnv ∧
      ((updateSingle state input).1 = true → ∃ old,
        ((device.resetVars (input.1.newEnv device.mEnv)).write (input.2 device.mIndex) old).returned =
            true ∧
          (updateSingle state input).2.flash device.mIndex =
            ((device.resetVars (input.1.newEnv device.mEnv)).write (input.2 device.mIndex)
              old).contents) := by
  have inside := (List.getElem?_eq_some_iff.mp single.here).1
  have isActive : state.env.mActiveEnv.getD 0 = place := by
    rw [single.isActive, Option.getD_some]
  have eq : updateSingle state input =
      writeActive input.2 (input.1.newEnv device.mEnv) state := by
    rw [updateSingle, call, single.usable, BootState.active, single.isActive, Option.bind_some,
      single.here]
    rfl
  rw [eq]
  generalize input.1.newEnv device.mEnv = vars
  have changed : (state.changeDevice place fun device =>
      device.resetVars vars).env.mEnvDevices[place]? = some (device.resetVars vars) := by
    rw [changeDevice, List.getElem?_modify_eq, single.here]
    rfl
  have length : place < (state.env.mEnvDevices.modify place fun device =>
      device.resetVars vars).length := by
    rw [List.length_modify]
    exact inside
  obtain ⟨same, sameVars⟩ := @sameBank_write device (input.2 device.mIndex)
    (state.flash device.mIndex) vars
  unfold writeActive writeDevice
  simp only [single.usable, isActive, changed]
  generalize written : (device.resetVars vars).write (input.2 (device.resetVars vars).mIndex)
    ((state.changeDevice place fun device => device.resetVars vars).flash
      (device.resetVars vars).mIndex) = outcome
  have written' : (device.resetVars vars).write (input.2 device.mIndex)
      (state.flash device.mIndex) = outcome := written
  rw [written'] at same sameVars
  cases returned : outcome.returned with
  | false =>
      simp only [↓reduceIte]
      refine ⟨{ outcome.device with mError := "" }, ⟨?_, single.isActive, ?_⟩,
        ⟨same.flags, same.size, same.index, same.name⟩, sameVars,
        fun impossible => absurd impossible Bool.false_ne_true⟩
      · rw [← single.usable]
        refine stateError_congr ?_ rfl rfl rfl
        simp [takeError, setError, changeDevice]
      · simp [takeError, setError, changeDevice, inside]
  | true =>
      simp only [Bool.true_eq_false, ↓reduceIte]
      refine ⟨outcome.device, ⟨?_, single.isActive, ?_⟩, same, sameVars, fun _ =>
        ⟨state.flash device.mIndex, by rw [written', returned], ?_⟩⟩
      · rw [← single.usable]
        refine stateError_congr ?_ rfl rfl rfl
        simp [changeDevice]
      · simp [changeDevice, inside]
      · rw [written']
        exact Function.update_self ..

/-- What the object shows in the end is what all calls were to write, those that failed among
them; behind a call that succeeded a new object on the device shows the same. -/
theorem single_updates_are_shown (single : Single state place device)
    (sized : device.dataOffset ≤ device.mEnvSize) (inputs : List (BootCall × (Nat → EnvDriver))) :
    let final := inputs.foldl (fun state input => (updateSingle state input).2) state
    getVars final.env = inputs.foldl (fun vars input => input.1.newEnv vars) device.mEnv ∧
      ∀ earlier last, inputs = earlier ++ [last] →
        (updateSingle (earlier.foldl (fun state input => (updateSingle state input).2) state)
          last).1 = true →
        Storable (getVars final.env) →
        TerminatedStrings.weight (envStrs (getVars final.env)) ≤ device.room + 1 →
        (BootEnvDevice.new device.mIndex device.mDevName device.mFlagSupported device.mEnvSize
          (.bytes (final.flash device.mIndex))).mEnv = getVars final.env := by
  have run : ∀ calls : List (BootCall × (Nat → EnvDriver)), ∃ after,
      Single (calls.foldl (fun state input => (updateSingle state input).2) state) place after ∧
        SameBank after device ∧
          after.mEnv = calls.foldl (fun vars input => input.1.newEnv vars) device.mEnv := by
    intro calls
    induction calls using List.reverseRecOn with
    | nil => exact ⟨device, single, ⟨rfl, rfl, rfl, rfl⟩, rfl⟩
    | append_singleton calls last ih =>
        obtain ⟨before, isSingle, same, vars⟩ := ih
        obtain ⟨after, next, nextSame, nextVars, -⟩ := @updateSingle_spec _ _ _ last isSingle
        rw [List.foldl_append, List.foldl_append, ← vars]
        exact ⟨after, next, nextSame.trans same, nextVars⟩
  dsimp only
  constructor
  · obtain ⟨after, isSingle, -, vars⟩ := run inputs
    rw [getVars_of_single isSingle, vars]
  · rintro earlier last rfl succeeded storable light
    obtain ⟨before, isSingle, same, -⟩ := run earlier
    obtain ⟨after, next, -, nextVars, held⟩ := @updateSingle_spec _ _ _ last isSingle
    obtain ⟨old, returned, contents⟩ := held succeeded
    rw [List.foldl_append, List.foldl_cons, List.foldl_nil] at storable light ⊢
    rw [getVars_of_single next, nextVars] at storable light ⊢
    have offset : before.dataOffset = device.dataOffset := by
      rw [dataOffset, dataOffset, same.flags]
    have room : before.room = device.room := by
      rw [BootEnvDevice.room, BootEnvDevice.room, offset, same.size]
    have reread := readBack_of_weight (by
        change before.dataOffset ≤ before.mEnvSize
        rw [offset, same.size]
        exact sized) storable
      (by
        change _ ≤ before.room + 1
        rw [room]
        exact light) returned device.mIndex device.mDevName
    change BootEnvDevice.new device.mIndex device.mDevName before.mFlagSupported before.mEnvSize
      _ = _ at reread
    rw [same.flags, same.size] at reread
    rw [← same.index, contents]
    rw [← same.index] at reread
    rw [reread]
    rfl

/-- A single bank of sixteen bytes without variables. -/
def emptyBank : BootEnvDevice := ⟨false, 16, true, 1, "/dev/mtd1", true, ∅, ""⟩

/-- Two updates, the second of which the driver refuses. -/
def refusedSecond : List (BootCall × (Nat → EnvDriver)) :=
  [(.setVar ((∅ : EnvVars).insert [0x61] [0x62]), fun _ => obedient),
    (.setVar ((∅ : EnvVars).insert [0x63] [0x64]), fun _ => locked)]

/-- The next update writes the variables of all three. -/
theorem single_updates_are_shown_refusedSecond :
    let state : BootState := ⟨⟨false, 1, [emptyBank], some 0, none, ""⟩, fun _ => []⟩
    let inputs := refusedSecond ++ [(.setVar ((∅ : EnvVars).insert [0x61] [0x65]), fun _ => obedient)]
    let final := inputs.foldl (fun state input => (updateSingle state input).2) state
    getVars final.env = ((∅ : EnvVars).insert [0x61] [0x65]).insert [0x63] [0x64] ∧
      (BootEnvDevice.new 1 "/dev/mtd1" false 16 (.bytes (final.flash 1))).mEnv =
        getVars final.env := by
  have shown := @single_updates_are_shown ⟨⟨false, 1, [emptyBank], some 0, none, ""⟩, fun _ => []⟩ 0
    emptyBank ⟨rfl, rfl, rfl⟩ (by decide)
    (refusedSecond ++ [(.setVar ((∅ : EnvVars).insert [0x61] [0x65]), fun _ => obedient)])
  refine ⟨shown.1.trans (by decide +kernel), ?_⟩
  exact shown.2 refusedSecond _ rfl (by decide +kernel) (by decide +kernel) (by decide +kernel)

end BootState

end OpenMplane
