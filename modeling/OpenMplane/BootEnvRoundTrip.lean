import Mathlib.Data.List.Nodup
import OpenMplane.BootEnvDevice
import OpenMplane.OrderedEntries

/-!
# Writing and reading a bank of the boot environment

What `BootEnvDevice::write` stored is read back by a new object whenever the strings of
the environment find room.  `write` never asks whether they do: an environment that is
too large is cut off where the bank ends, after the device was erased.
-/

namespace OpenMplane

open ListCut TerminatedStrings ByteTransfer

namespace BootEnvDevice

section Strings

variable {env : EnvVars}

/-- The texts that the format can hold: no name has a `=`, and no text a terminator. -/
def Storable (env : EnvVars) : Prop :=
  ∀ entry ∈ env.toList, 0x3d ∉ entry.1 ∧ 0 ∉ entry.1 ∧ 0 ∉ entry.2

instance (env : EnvVars) : Decidable (Storable env) :=
  inferInstanceAs (Decidable (∀ entry ∈ env.toList, 0x3d ∉ entry.1 ∧ 0 ∉ entry.1 ∧ 0 ∉ entry.2))

theorem readable_envStrs (storable : Storable env) : Readable 0 (envStrs env) := by
  intro text member
  obtain ⟨entry, inside, rfl⟩ := List.mem_map.mp member
  obtain ⟨-, name, value⟩ := storable entry inside
  refine ⟨by simp [envStr], fun terminator => ?_⟩
  rcases List.mem_append.mp terminator with inName | behind
  · exact name inName
  · rcases List.mem_cons.mp behind with sign | inValue
    · exact absurd sign (by decide)
    · exact value inValue

theorem addVar_envStr {entry : List UInt8 × List UInt8} (plain : 0x3d ∉ entry.1) :
    addVar env (envStr entry) = env.insert entry.1 entry.2 := by
  rw [addVar, envStr, cutFirst_append entry.2 plain]

theorem foldl_addVar_map {entries : List (List UInt8 × List UInt8)}
    (plain : ∀ entry ∈ entries, 0x3d ∉ entry.1) :
    (entries.map envStr).foldl addVar env = env.insertMany entries := by
  induction entries generalizing env with
  | nil => simp
  | cons entry entries ih =>
      have first := plain entry (by simp)
      have others := fun other member => plain other (List.mem_cons_of_mem entry member)
      rw [List.map_cons, List.foldl_cons, addVar_envStr first, ih others,
        Std.ExtTreeMap.insertMany_cons]

theorem foldl_addVar_envStrs (storable : Storable env) :
    (envStrs env).foldl addVar ∅ = env := by
  rw [envStrs, foldl_addVar_map fun entry member => (storable entry member).1,
    OrderedEntries.insertMany_toList]

end Strings

section ReadBack

variable {device reader : BootEnvDevice}

/-- The strings of the environment and the extra terminator find room in the bank. -/
def Fits (device : BootEnvDevice) : Prop :=
  weight (envStrs device.mEnv) + 1 ≤ device.room

instance (device : BootEnvDevice) : Decidable device.Fits :=
  inferInstanceAs (Decidable (_ ≤ _))

theorem length_writtenData (sized : device.dataOffset ≤ device.mEnvSize) :
    device.writtenData.length = device.mEnvSize := by
  have header := length_flagBytes device
  rw [List.length_append, length_valBytesLE] at header
  rw [writtenData_eq sized, List.length_append, length_valBytesLE, List.length_append,
    length_envData, room]
  omega

/-- Without the terminators at its end an environment is still read back. -/
theorem readStrings_envData (storable : Storable device.mEnv)
    (fits : weight (envStrs device.mEnv) ≤ device.room + 1) :
    readStrings 0 device.envData = envStrs device.mEnv :=
  readStrings_take (readable_envStrs storable) fits _ (by simp)

/-- What a new object reads in a bank that was written. -/
theorem readData_writtenData (sized : device.dataOffset ≤ device.mEnvSize)
    (storable : Storable device.mEnv)
    (fits : weight (envStrs device.mEnv) ≤ device.room + 1)
    (flags : reader.mFlagSupported = device.mFlagSupported) (empty : reader.mEnv = ∅) :
    reader.readData device.writtenData =
      { reader with
        mValid := true
        mActive := if device.mFlagSupported then device.mActive else true
        mEnv := device.mEnv } := by
  have offset : reader.dataOffset = (valBytesLE 4 (Crc32.calcCrc device.envData).toNat ++
      device.flagBytes).length := by
    have header := length_flagBytes device
    simp only [List.length_append, length_valBytesLE] at header ⊢
    rw [header, dataOffset, dataOffset, flags]
  have checked : device.writtenData.drop reader.dataOffset = device.envData := by
    rw [writtenData_eq sized, ← List.append_assoc, offset]
    exact List.drop_left
  have sum : (Crc32.calcCrc device.envData).toNat % 256 ^ 4 =
      (Crc32.calcCrc device.envData).toNat :=
    Nat.mod_eq_of_lt (Crc32.calcCrc device.envData).toNat_lt
  have crc : readWordLE device.writtenData =
      ((Crc32.calcCrc device.envData).toNat, device.flagBytes ++ device.envData) := by
    rw [writtenData_eq sized, readWordLE, readValLE_valBytesLE, sum]
  unfold readData
  rw [crc, checked, flags, empty]
  cases flag : device.mFlagSupported with
  | false =>
      simp [flagBytes, flag, readStrings_envData storable fits, foldl_addVar_envStrs storable]
  | true =>
      cases active : device.mActive with
      | false =>
          simp [flagBytes, flag, active, readByte, readVal, readStrings_envData storable fits,
            foldl_addVar_envStrs storable]
      | true =>
          simp [flagBytes, flag, active, readByte, readVal, readStrings_envData storable fits,
            foldl_addVar_envStrs storable]

end ReadBack

section Writes

variable {device : BootEnvDevice} {driver : EnvDriver} {contents : List UInt8}

/-- The driver stops `write` before any of the device is erased or written. -/
def Refuses (driver : EnvDriver) : Prop :=
  driver.opensToErase = false ∨ driver.regionCount = false ∨
    match driver.memInfo with
    | none => True
    | some meminfo => nerase meminfo = 0 ∧ driver.opensToWrite = false

/-- A refused `write` leaves the device alone; any other has touched it. -/
theorem write_touched (device : BootEnvDevice) (driver : EnvDriver) (contents : List UInt8) :
    (Refuses driver → (device.write driver contents).returned = false ∧
        (device.write driver contents).touched = false ∧
          (device.write driver contents).contents = contents) ∧
      (¬ Refuses driver → (device.write driver contents).touched = true) := by
  unfold Refuses write eraseFlash
  by_cases opens : driver.opensToErase = false
  · simp [opens]
  by_cases regions : driver.regionCount = false
  · simp [opens, regions]
  cases info : driver.memInfo with
  | none => simp [opens, regions]
  | some meminfo =>
      rcases Nat.eq_zero_or_pos (nerase meminfo) with none | some'
      · cases writes : driver.opensToWrite with
        | false => simp [opens, regions, none, eraseBlocks]
        | true =>
            simp only [opens, regions, none, eraseBlocks, ↓reduceIte, Bool.true_eq_false]
            split_ifs <;> simp
      · have erases : nerase meminfo ≠ 0 := by omega
        simp only [opens, regions, erases, some', false_and, or_false, decide_true]
        refine ⟨fun impossible => absurd impossible (by simp), fun _ => ?_⟩
        rcases eraseBlocks driver (nerase meminfo) 0 contents with ⟨erased, after⟩
        cases erased with
        | false => rfl
        | true =>
            simp only [Bool.true_eq_false, ↓reduceIte]
            split_ifs <;> rfl

theorem write_stores (wrote : (device.write driver contents).returned = true) :
    (device.write driver contents).contents.take device.writtenData.length =
        device.writtenData ∧
      (device.write driver contents).device = device := by
  revert wrote
  unfold write
  dsimp only
  split_ifs with erased opens negative short
  · intro wrote
    exact absurd (wrote.symm.trans erased) (by decide)
  · simp
  · simp
  · simp
  · intro _
    exact ⟨driver.stores _ _ (not_lt.mp short), rfl⟩

/-- What `write` should do: what it stored is read back by a new object on the device,
and an environment that does not fit leaves the device alone. -/
structure WriteKeeps (device : BootEnvDevice) (driver : EnvDriver) (contents : List UInt8) :
    Prop where
  readBack : (device.write driver contents).returned = true →
    ∀ (index : Nat) (devName : String),
      let reader := new index devName device.mFlagSupported device.mEnvSize
        (.bytes (device.write driver contents).contents)
      reader.mValid = true ∧ reader.mEnv = device.mEnv ∧
        (device.mFlagSupported = true → reader.mActive = device.mActive)
  refused : ¬ device.Fits →
    (device.write driver contents).returned = false ∧
      (device.write driver contents).touched = false ∧
        (device.write driver contents).contents = contents

/-- The strings are read back from any bank that has room for them but for their last two
terminators. -/
theorem readBack_of_weight (sized : device.dataOffset ≤ device.mEnvSize)
    (storable : Storable device.mEnv)
    (fits : weight (envStrs device.mEnv) ≤ device.room + 1)
    (wrote : (device.write driver contents).returned = true) (index : Nat) (devName : String) :
    new index devName device.mFlagSupported device.mEnvSize
        (.bytes (device.write driver contents).contents) =
      ⟨device.mFlagSupported, device.mEnvSize, true, index, devName,
        if device.mFlagSupported then device.mActive else true, device.mEnv, ""⟩ := by
  have stored := (write_stores wrote).1
  rw [length_writtenData sized] at stored
  have whole : ¬ (device.write driver contents).contents.length < device.mEnvSize := by
    have taken := congrArg List.length stored
    rw [length_writtenData sized, List.length_take] at taken
    omega
  have read := @readData_writtenData device
    ⟨device.mFlagSupported, device.mEnvSize, false, index, devName, false, ∅, ""⟩ sized storable
    fits rfl rfl
  unfold new BootEnvDevice.read
  simp only [whole, ↓reduceIte, stored, read]

/-- Whether `write` keeps what it should: exactly when the environment fits, or the driver
stops the call before the device is touched. -/
theorem writeKeeps_iff (device : BootEnvDevice) (driver : EnvDriver) (contents : List UInt8)
    (sized : device.dataOffset < device.mEnvSize) (storable : Storable device.mEnv) :
    WriteKeeps device driver contents ↔ device.Fits ∨ Refuses driver := by
  have touches := write_touched device driver contents
  constructor
  · intro keeps
    by_contra neither
    obtain ⟨tooLarge, accepted⟩ := not_or.mp neither
    have untouched := (keeps.refused tooLarge).2.1
    rw [touches.2 accepted] at untouched
    exact absurd untouched (by decide)
  · rintro (fits | refuses)
    · have light : weight (envStrs device.mEnv) ≤ device.room + 1 := by
        unfold Fits at fits
        omega
      refine ⟨fun wrote index devName => ?_, fun tooLarge => absurd fits tooLarge⟩
      rw [readBack_of_weight (by omega) storable light wrote]
      exact ⟨rfl, rfl, fun flags => if_pos flags⟩
    · have refused := touches.1 refuses
      refine ⟨fun wrote => ?_, fun _ => refused⟩
      exact absurd (wrote.symm.trans refused.1) (by decide)

end Writes

section Reread

variable {env : EnvVars} {strings : List (List UInt8)} {entry : List UInt8 × List UInt8}

/-- Every variable that was read stands in one of the strings. -/
theorem mem_foldl_addVar (member : entry ∈ (strings.foldl addVar env).toList) :
    entry ∈ env.toList ∨ envStr entry ∈ strings ∧ 0x3d ∉ entry.1 := by
  induction strings generalizing env with
  | nil => exact Or.inl member
  | cons text strings ih =>
      rcases ih member with before | ⟨inside, plain⟩
      · cases cut : cutFirst 0x3d text with
        | none =>
            rw [addVar, cut] at before
            exact Or.inl before
        | some parts =>
            obtain ⟨name, value⟩ := parts
            obtain ⟨whole, plain⟩ := cutFirst_eq_some.mp cut
            rw [addVar, cut] at before
            have held := Std.ExtTreeMap.mem_toList_iff_getElem?_eq_some.mp before
            rw [Std.ExtTreeMap.getElem?_insert] at held
            split at held
            · next same =>
                have named : name = entry.1 := Std.LawfulEqCmp.compare_eq_iff_eq.mp same
                have valued : value = entry.2 := Option.some.inj held
                refine Or.inr ⟨?_, named ▸ plain⟩
                rw [envStr, ← named, ← valued, ← whole]
                exact List.mem_cons_self
            · exact Or.inl (Std.ExtTreeMap.mem_toList_iff_getElem?_eq_some.mpr held)
      · exact Or.inr ⟨List.mem_cons_of_mem _ inside, plain⟩

theorem storable_foldl_addVar (data : List UInt8) :
    Storable ((readStrings 0 data).foldl addVar ∅) := by
  intro entry member
  rcases mem_foldl_addVar member with before | ⟨inside, plain⟩
  · have held := Std.ExtTreeMap.mem_toList_iff_getElem?_eq_some.mp before
    simp at held
  · have unterminated := (mem_readStrings inside).2
    rw [envStr, List.mem_append, List.mem_cons, not_or, not_or] at unterminated
    exact ⟨plain, unterminated.1, unterminated.2.2⟩

theorem nodup_envStrs (storable : Storable env) : (envStrs env).Nodup := by
  have entries : env.toList.Nodup := by
    refine Std.ExtTreeMap.distinct_keys_toList.imp fun apart same => ?_
    rw [same] at apart
    exact apart Std.ReflCmp.compare_self
  refine List.Nodup.map_on (fun first inFirst second inSecond same => ?_) entries
  have firstCut := cutFirst_append first.2 (storable first inFirst).1
  have secondCut := cutFirst_append second.2 (storable second inSecond).1
  unfold envStr at same
  rw [same, secondCut] at firstCut
  have parts := Prod.mk.inj (Option.some.inj firstCut)
  exact Prod.ext parts.1.symm parts.2.symm

/-- What was read of some data weighs no more than these and one terminator. -/
theorem weight_foldl_addVar (data : List UInt8) :
    weight (envStrs ((readStrings 0 data).foldl addVar ∅)) ≤ data.length + 1 := by
  have among : envStrs ((readStrings 0 data).foldl addVar ∅) ⊆ readStrings 0 data := by
    intro text member
    obtain ⟨entry, inside, rfl⟩ := List.mem_map.mp member
    rcases mem_foldl_addVar inside with before | ⟨stands, -⟩
    · have held := Std.ExtTreeMap.mem_toList_iff_getElem?_eq_some.mp before
      simp at held
    · exact stands
  exact (weight_le_of_subset (nodup_envStrs (storable_foldl_addVar data)) among).trans
    (weight_readStrings_le data)

end Reread

/-- A driver that does what it is asked for. -/
def obedient : EnvDriver where
  strError := ""
  opensToErase := true
  regionCount := true
  memInfo := some ⟨65536, 65536, by decide⟩
  eraseBlock _ contents := (true, contents.map fun _ => 0xff)
  opensToWrite := true
  writeData data contents := (data.length, data ++ contents.drop data.length)
  stores _ _ _ := List.take_left

/-- A driver that does not open the device. -/
def locked : EnvDriver :=
  { obedient with strError := "Permission denied", opensToErase := false, opensToWrite := false }

theorem not_refuses_obedient : ¬ Refuses obedient := by
  simp [Refuses, obedient, nerase]

/-- A new bank of some size with the variable `a=b`. -/
def oneVariable (mEnvSize : Nat) : BootEnvDevice :=
  ⟨true, mEnvSize, true, 1, "/dev/mtd2", true, (∅ : EnvVars).insert [0x61] [0x62], ""⟩

theorem writeKeeps_oneVariable : WriteKeeps (oneVariable 16) obedient [] :=
  (writeKeeps_iff (oneVariable 16) obedient [] (by decide) (by decide)).mpr (Or.inl (by decide))

/-- A variable of four bytes is written to a bank with room for three. -/
theorem large_environment_is_written :
    (oneVariable 8).dataOffset < 8 ∧ Storable (oneVariable 8).mEnv ∧
      ¬ WriteKeeps (oneVariable 8) obedient [] := by
  refine ⟨by decide, by decide, fun keeps => ?_⟩
  have touched := (write_touched (oneVariable 8) obedient []).2 not_refuses_obedient
  have untouched := (keeps.refused (by decide)).2.1
  rw [touched] at untouched
  exact absurd untouched (by decide)

end BootEnvDevice

end OpenMplane
