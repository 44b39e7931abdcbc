import OpenMplane.BootEnvStart
import OpenMplane.GuardedRuns

/-!
# Updates of a boot environment

An update writes the active bank without its flag and then the inactive bank with the new
variables.  What the object shows is what the last update wrote that succeeded, whatever the
drivers do, and after an update that succeeded a new object shows the same.  While an update
is under way the devices do not keep that promise: a start between the two writes finds the
first bank, and a start after a bank was erased finds no variables at all, since an erased
byte is a flag and no checksum is asked for.
-/

namespace OpenMplane

open BankChoice BootEnvDevice GuardedRuns

namespace BootState

variable {flash : EnvFlash} {drivers : EnvDrivers} {device first second : BootEnvDevice}
  {state : BootState} {place active inactive : Nat} {devices : PartitionMap}
  {writes : Nat → EnvDriver} {vars newEnv : EnvVars}

section Writing

/-- A write that fails leaves its error in the device, and nothing else. -/
theorem write_device (device : BootEnvDevice) (driver : EnvDriver) (contents : List UInt8) :
    { (device.write driver contents).device with mError := "" } = { device with mError := "" } := by
  unfold BootEnvDevice.write BootEnvDevice.eraseFlash
  by_cases opens : driver.opensToErase = false
  · simp [opens, BootEnvDevice.setError]
  by_cases regions : driver.regionCount = false
  · simp [opens, regions, BootEnvDevice.setError]
  cases info : driver.memInfo with
  | none => simp [opens, regions, BootEnvDevice.setError]
  | some meminfo =>
      simp only [opens, regions]
      rcases eraseBlocks driver (nerase meminfo) 0 contents with ⟨erased, after⟩
      cases erased with
      | false => rfl
      | true =>
          simp only [Bool.true_eq_false, ↓reduceIte]
          split_ifs <;> rfl

theorem takeError_writeDevice {change : BootEnvDevice → BootEnvDevice}
    (here : state.env.mEnvDevices[place]? = some device) (noError : (change device).mError = "") :
    ∃ error contents,
      (writeDevice writes place (state.changeDevice place change)).2.takeError place =
        { env := { state.env with
            mEnvDevices := state.env.mEnvDevices.modify place change, mError := error }
          flash := Function.update state.flash (change device).mIndex contents } := by
  have changed : (state.changeDevice place change).env.mEnvDevices[place]? =
      some (change device) := by
    rw [changeDevice, List.getElem?_modify_eq, here]
    rfl
  have restored := write_device (change device) (writes (change device).mIndex)
    (state.flash (change device).mIndex)
  generalize outcome : (change device).write (writes (change device).mIndex)
    (state.flash (change device).mIndex) = written at restored
  have cleared : ((state.env.mEnvDevices.modify place change).set place written.device).modify place
      (fun device => { device with mError := "" }) = state.env.mEnvDevices.modify place change := by
    have inside : place < (state.env.mEnvDevices.modify place change).length :=
      (List.getElem?_eq_some_iff.mp changed).1
    rw [modify_of_getElem? (List.getElem?_set_self inside), List.set_set, restored,
      modify_of_getElem? here, List.set_set]
    refine congrArg _ ?_
    rw [← noError]
  refine ⟨written.device.mError, written.contents, ?_⟩
  have inside : place < (state.env.mEnvDevices.modify place change).length :=
    (List.getElem?_eq_some_iff.mp changed).1
  unfold writeDevice
  rw [changed]
  simp only [takeError, setError, changeDevice, outcome, cleared, List.getElem?_set_self inside,
    Option.map_some, Option.getD_some]

theorem writeDevice_cases {change : BootEnvDevice → BootEnvDevice}
    (here : state.env.mEnvDevices[place]? = some device) (kept : Kept (change device)) :
    (∃ after error contents, writeDevice writes place (state.changeDevice place change) =
        (false, after) ∧ after.takeError place =
          { env := { state.env with
              mEnvDevices := state.env.mEnvDevices.set place (change device), mError := error }
            flash := Function.update state.flash (change device).mIndex contents }) ∨
    ∃ contents, reload (change device) contents = change device ∧
      writeDevice writes place (state.changeDevice place change) =
        (true,
          { env := { state.env with
              mEnvDevices := state.env.mEnvDevices.set place (change device) }
            flash := Function.update state.flash (change device).mIndex contents }) := by
  rw [← modify_of_getElem? here]
  cases wrote : ((change device).write (writes (change device).mIndex)
      (state.flash (change device).mIndex)).returned with
  | true => exact Or.inr ⟨_, kept.reload_write wrote, writeDevice_changeDevice here wrote⟩
  | false =>
      obtain ⟨error, contents, failed⟩ :=
        @takeError_writeDevice _ _ _ writes change here kept.noError
      refine Or.inl ⟨_, error, contents, Prod.ext ?_ rfl, failed⟩
      have changed : (state.changeDevice place change).env.mEnvDevices[place]? =
          some (change device) := by
        rw [changeDevice, List.getElem?_modify_eq, here]
        rfl
      rw [writeDevice, changed]
      exact wrote

theorem exists_reload (kept : Kept device) : ∃ contents, reload device contents = device := by
  exact ⟨_, kept.reload_write (write_obedient device [])⟩

end Writing

/-- The active device without its flag. -/
def off (device : BootEnvDevice) : BootEnvDevice := device.setActiveFlag false

/-- The inactive device with the flag and the new variables. -/
def on (newEnv : EnvVars) (device : BootEnvDevice) : BootEnvDevice :=
  (device.setActiveFlag true).resetVars newEnv

/-- All but two devices hold what the object shows. -/
def ShownBut (devices : PartitionMap) (flash : EnvFlash) (shown : List BootEnvDevice)
    (first second : Nat) : Prop :=
  ∃ kept : EnvFlash, loaded kept devices.toList = shown ∧
    ∀ index, index ≠ first → index ≠ second → flash index = kept index

/-- An object with two banks that take turns.  What the other banks hold is shown; these two may
hold anything. -/
structure Turning (devices : PartitionMap) (state : BootState) (active inactive : Nat)
    (first second : BootEnvDevice) : Prop where
  flags : state.env.mFlagSupported = true
  enough : 2 ≤ state.env.mMinNumBanks ∧
    state.env.mMinNumBanks ≤ state.env.mEnvDevices.length
  isActive : state.env.mActiveEnv = some active
  isInactive : state.env.mInactiveEnv = some inactive
  apart : inactive ≠ active
  here : state.env.mEnvDevices[active]? = some first
  there : state.env.mEnvDevices[inactive]? = some second
  shown : ShownBut devices state.flash state.env.mEnvDevices first.mIndex second.mIndex
  unmarked : ∀ other device, state.env.mEnvDevices[other]? = some device → other ≠ active →
    other ≠ inactive → device.mActive = false

section Updates

theorem stateError_of_turning (turning : Turning devices state active inactive first second) :
    stateError state.env = none := by
  have two : ¬ state.env.mMinNumBanks < 2 := not_lt.mpr turning.enough.1
  rw [stateError, if_neg (not_lt.mpr turning.enough.2), turning.isActive,
    if_neg (Option.some_ne_none active), if_neg two, turning.isInactive,
    if_neg (Option.some_ne_none inactive)]

theorem getVars_of_turning (turning : Turning devices state active inactive first second) :
    getVars state.env = first.mEnv := by
  rw [getVars, stateError_of_turning turning, BootState.active, turning.isActive,
    Option.bind_some, turning.here]
  rfl

theorem turning_of_mirrors (mirrors : Mirrors devices state active)
    (two : 2 ≤ state.env.mMinNumBanks) :
    ∃ inactive first second, Turning devices state active inactive first second := by
  obtain ⟨inactive, isInactive, inside, apart⟩ :=
    mirrors.isInactive (two.trans mirrors.enough.2)
  refine ⟨inactive, _, _, mirrors.flags, ⟨two, mirrors.enough.2⟩, mirrors.isActive, isInactive,
    apart, List.getElem?_eq_getElem mirrors.settled.inside, List.getElem?_eq_getElem inside,
    ⟨state.flash, mirrors.shown, fun _ _ _ => rfl⟩, fun other device found notActive _ => ?_⟩
  have isMarked := mirrors.settled.marked_iff other device found
  exact Bool.eq_false_iff.mpr fun marked => notActive (isMarked.mp marked)

/-- What the two writes of an update do: the first fails, the second fails, or none. -/
theorem writeInactive_cases (turning : Turning devices state active inactive first second)
    (firstKept : Kept (off first)) (secondKept : Kept (on newEnv second)) :
    (∃ error contents, writeInactive writes newEnv state =
      (false,
        { env := { state.env with
            mEnvDevices := state.env.mEnvDevices.set active (off first), mError := error }
          flash := Function.update state.flash first.mIndex contents })) ∨
    (∃ error former contents, writeInactive writes newEnv state =
      (false,
        { env := { state.env with
            mEnvDevices := (state.env.mEnvDevices.set active (off first)).set inactive
              (on newEnv second)
            mError := error }
          flash := Function.update (Function.update state.flash first.mIndex former) second.mIndex
            contents })) ∨
    ∃ former contents, reload first former = off first ∧
      reload second contents = on newEnv second ∧
      writeInactive writes newEnv state =
        (true,
          { env := { state.env with
              mEnvDevices := (state.env.mEnvDevices.set active (off first)).set inactive
                (on newEnv second)
              mActiveEnv := some inactive
              mInactiveEnv := some active }
            flash := Function.update (Function.update state.flash first.mIndex former)
              second.mIndex contents }) := by
  have two : ¬ state.env.mMinNumBanks < 2 := not_lt.mpr turning.enough.1
  have isActive : state.env.mActiveEnv.getD 0 = active := by
    rw [turning.isActive, Option.getD_some]
  have isInactive : state.env.mInactiveEnv.getD 0 = inactive := by
    rw [turning.isInactive, Option.getD_some]
  unfold writeInactive
  simp only [stateError_of_turning turning, isActive, isInactive]
  rcases @writeDevice_cases first state active writes off turning.here firstKept with
    ⟨after, error, contents, failed, taken⟩ | ⟨former, found, written⟩
  · refine Or.inl ⟨error, contents, ?_⟩
    change writeDevice writes active
      (state.changeDevice active fun device => device.setActiveFlag false) = _ at failed
    simp only [failed, ↓reduceIte]
    exact congrArg (Prod.mk false) taken
  · refine Or.inr ?_
    set middle : BootState :=
      { env := { state.env with mEnvDevices := state.env.mEnvDevices.set active (off first) }
        flash := Function.update state.flash (off first).mIndex former } with isMiddle
    have there : middle.env.mEnvDevices[inactive]? = some second := by
      rw [← turning.there]
      exact List.getElem?_set_ne turning.apart.symm
    have notSingle : ¬ middle.env.mMinNumBanks < 2 := two
    change writeDevice writes active
      (state.changeDevice active fun device => device.setActiveFlag false) =
        (true, middle) at written
    simp only [written, notSingle, Bool.true_eq_false, ↓reduceIte]
    rcases @writeDevice_cases second middle inactive writes (on newEnv) there secondKept with
      ⟨after, error, contents, failed, taken⟩ | ⟨contents, refound, rewritten⟩
    · refine Or.inl ⟨error, former, contents, ?_⟩
      change writeDevice writes inactive (middle.changeDevice inactive fun device =>
        (device.setActiveFlag true).resetVars newEnv) = _ at failed
      simp only [failed, ↓reduceIte]
      exact congrArg (Prod.mk false) taken
    · refine Or.inr ⟨former, contents, found, refound, ?_⟩
      change writeDevice writes inactive (middle.changeDevice inactive fun device =>
        (device.setActiveFlag true).resetVars newEnv) = _ at rewritten
      simp only [rewritten, Bool.true_eq_false, ↓reduceIte]
      rfl

theorem ShownBut.set {shown : List BootEnvDevice} {former latter : Nat}
    {changed : BootEnvDevice} (isShown : ShownBut devices flash shown former latter)
    (here : shown[place]? = some device) (among : device.mIndex = former ∨ device.mIndex = latter)
    (kept : Kept changed) (same : ∀ contents, reload device contents = reload changed contents)
    (contents : List UInt8) :
    ShownBut devices (Function.update flash device.mIndex contents) (shown.set place changed) former
      latter := by
  obtain ⟨held, isHeld, others⟩ := isShown
  obtain ⟨found, isFound⟩ := exists_reload kept
  subst isHeld
  have updated := loaded_update (nodup_keys devices) here found
    (by rw [same, isFound]; exact kept.valid)
  rw [same, isFound] at updated
  refine ⟨_, updated, fun index notFormer notLatter => ?_⟩
  have apart : index ≠ device.mIndex := by
    rintro rfl
    rcases among with isFormer | isLatter
    · exact notFormer isFormer
    · exact notLatter isLatter
  rw [Function.update_of_ne apart, Function.update_of_ne apart]
  exact others index notFormer notLatter

theorem ShownBut.symm {shown : List BootEnvDevice} {former latter : Nat}
    (isShown : ShownBut devices flash shown former latter) :
    ShownBut devices flash shown latter former := by
  obtain ⟨held, isHeld, others⟩ := isShown
  exact ⟨held, isHeld, fun index notLatter notFormer => others index notFormer notLatter⟩

theorem Turning.kept (turning : Turning devices state active inactive first second)
    (sized : ∀ entry ∈ devices.toList, 5 ≤ entry.2.size)
    (here : state.env.mEnvDevices[place]? = some device) : Kept device := by
  obtain ⟨held, isHeld, -⟩ := turning.shown
  refine @kept_of_mem held _ _ sized ?_
  rw [isHeld]
  exact List.mem_of_getElem? here

/-- The environment that a call writes can be held by the inactive bank. -/
def Fitting (state : BootState) (input : BootCall × (Nat → EnvDriver)) : Prop :=
  Storable (input.1.newEnv (getVars state.env)) ∧
    ∀ device ∈ state.env.mInactiveEnv.bind fun place => state.env.mEnvDevices[place]?,
      TerminatedStrings.weight (envStrs (input.1.newEnv (getVars state.env))) ≤ device.room + 1

instance (state : BootState) (input : BootCall × (Nat → EnvDriver)) :
    Decidable (Fitting state input) :=
  inferInstanceAs (Decidable (_ ∧ ∀ device ∈ state.env.mInactiveEnv.bind fun place =>
    state.env.mEnvDevices[place]?, _))

/-- A call of an object that writes the inactive bank. -/
def update (state : BootState) (input : BootCall × (Nat → EnvDriver)) : Bool × BootState :=
  call (writeInactive input.2) input.1 state

variable {input : BootCall × (Nat → EnvDriver)}

theorem update_eq (turning : Turning devices state active inactive first second) :
    update state input = writeInactive input.2 (input.1.newEnv (getVars state.env)) state := by
  rw [update, call, stateError_of_turning turning, getVars_of_turning turning, BootState.active,
    turning.isActive, Option.bind_some, turning.here]
  rfl

section Written

variable {changed : BootEnvDevice}

theorem Turning.getElem?_there (turning : Turning devices state active inactive first second) :
    (state.env.mEnvDevices.set active (off first))[inactive]? = some second := by
  rw [← turning.there]
  exact List.getElem?_set_ne turning.apart.symm

theorem Turning.getElem?_here (turning : Turning devices state active inactive first second) :
    ((state.env.mEnvDevices.set active (off first)).set inactive changed)[active]? =
      some (off first) := by
  rw [List.getElem?_set_ne turning.apart,
    List.getElem?_set_self (List.getElem?_eq_some_iff.mp turning.here).1]

/-- The bank that was active has no flag any more, and the others had none. -/
theorem Turning.unmarked_off (turning : Turning devices state active inactive first second)
    {other : Nat} (isDevice : (state.env.mEnvDevices.set active (off first))[other]? = some device)
    (notInactive : other ≠ inactive) : device.mActive = false :=
  @unmarked_set _ flagMarking _ _ _ _ rfl _ isDevice fun notActive found =>
    turning.unmarked other device found notActive notInactive

theorem Turning.firstFailed (turning : Turning devices state active inactive first second)
    (firstKept : Kept (off first)) (error : String) (contents : List UInt8) :
    Turning devices
      { env := { state.env with
          mEnvDevices := state.env.mEnvDevices.set active (off first), mError := error }
        flash := Function.update state.flash first.mIndex contents }
      active inactive (off first) second := by
  refine ⟨turning.flags, ⟨turning.enough.1, ?_⟩, turning.isActive, turning.isInactive,
    turning.apart, List.getElem?_set_self (List.getElem?_eq_some_iff.mp turning.here).1,
    turning.getElem?_there,
    turning.shown.set turning.here (Or.inl rfl) firstKept (fun _ => rfl) contents, ?_⟩
  · exact turning.enough.2.trans_eq (List.length_set ..).symm
  · intro other device found _ notInactive
    exact turning.unmarked_off found notInactive

theorem Turning.secondFailed (turning : Turning devices state active inactive first second)
    (firstKept : Kept (off first)) (secondKept : Kept (on newEnv second)) (error : String)
    (former contents : List UInt8) :
    Turning devices
      { env := { state.env with
          mEnvDevices := (state.env.mEnvDevices.set active (off first)).set inactive
            (on newEnv second)
          mError := error }
        flash := Function.update (Function.update state.flash first.mIndex former) second.mIndex
          contents }
      active inactive (off first) (on newEnv second) := by
  have once := turning.shown.set turning.here (Or.inl rfl) firstKept (fun _ => rfl) former
  refine ⟨turning.flags, ⟨turning.enough.1, ?_⟩, turning.isActive, turning.isInactive,
    turning.apart, turning.getElem?_here,
    List.getElem?_set_self (List.getElem?_eq_some_iff.mp turning.getElem?_there).1,
    once.set turning.getElem?_there (Or.inr rfl) secondKept (fun _ => rfl) contents, ?_⟩
  · rw [List.length_set, List.length_set]
    exact turning.enough.2
  · intro other device found _ notInactive
    rw [List.getElem?_set_ne (Ne.symm notInactive)] at found
    exact turning.unmarked_off found notInactive

theorem Turning.mirrors (turning : Turning devices state active inactive first second)
    {former contents : List UInt8} (firstKept : Kept (off first))
    (secondKept : Kept (on newEnv second)) (found : reload first former = off first)
    (refound : reload second contents = on newEnv second) :
    Mirrors devices
      { env := { state.env with
          mEnvDevices := (state.env.mEnvDevices.set active (off first)).set inactive
            (on newEnv second)
          mActiveEnv := some inactive
          mInactiveEnv := some active }
        flash := Function.update (Function.update state.flash first.mIndex former) second.mIndex
          contents } inactive := by
  obtain ⟨held, isHeld, agree⟩ := turning.shown
  have sameFlash : Function.update (Function.update state.flash first.mIndex former)
      second.mIndex contents =
        Function.update (Function.update held first.mIndex former) second.mIndex contents := by
    funext index
    by_cases isSecond : index = second.mIndex
    · rw [isSecond, Function.update_self, Function.update_self]
    · rw [Function.update_of_ne isSecond, Function.update_of_ne isSecond]
      by_cases isFirst : index = first.mIndex
      · rw [isFirst, Function.update_self, Function.update_self]
      · rw [Function.update_of_ne isFirst, Function.update_of_ne isFirst]
        exact agree index isFirst isSecond
  have once := loaded_update (nodup_keys devices) (isHeld ▸ turning.here) former
    (by rw [found]; exact firstKept.valid)
  rw [found, isHeld] at once
  have twice := loaded_update (nodup_keys devices) (once ▸ turning.getElem?_there) contents
    (by rw [refound]; exact secondKept.valid)
  rw [refound, once] at twice
  refine ⟨turning.flags, ⟨(by decide : 1 ≤ 2).trans turning.enough.1, ?_⟩, ?_, ?_, rfl,
    fun _ => ⟨active, rfl, ?_, turning.apart.symm⟩⟩
  · rw [List.length_set, List.length_set]
    exact turning.enough.2
  · rw [sameFlash]
    exact twice
  · exact settled_set (List.getElem?_eq_some_iff.mp turning.getElem?_there).1 rfl
      fun other device isDevice notInactive => turning.unmarked_off isDevice notInactive
  · rw [List.length_set, List.length_set]
    exact (List.getElem?_eq_some_iff.mp turning.here).1

end Written

theorem Turning.turned (turning : Turning devices state active inactive first second)
    {former contents : List UInt8} (firstKept : Kept (off first))
    (secondKept : Kept (on newEnv second)) :
    Turning devices
      { env := { state.env with
          mEnvDevices := (state.env.mEnvDevices.set active (off first)).set inactive
            (on newEnv second)
          mActiveEnv := some inactive
          mInactiveEnv := some active }
        flash := Function.update (Function.update state.flash first.mIndex former) second.mIndex
          contents }
      inactive active (on newEnv second) (off first) := by
  have still := turning.secondFailed firstKept secondKept "" former contents
  exact ⟨still.flags, still.enough, rfl, rfl, still.apart.symm, still.there, still.here,
    still.shown.symm, fun other device found notInactive notActive =>
      still.unmarked other device found notActive notInactive⟩

/-- An update fails and leaves the variables, or it succeeds and all devices hold what the
object shows. -/
theorem update_cases (turning : Turning devices state active inactive first second)
    (sized : ∀ entry ∈ devices.toList, 5 ≤ entry.2.size) (fitting : Fitting state input) :
    ((update state input).1 = false ∧ ∃ former latter,
      Turning devices (update state input).2 active inactive former latter ∧
        former.mEnv = first.mEnv) ∨
    ((update state input).1 = true ∧ ∃ former latter,
      Turning devices (update state input).2 inactive active former latter ∧
        former.mEnv = input.1.newEnv first.mEnv ∧
          Mirrors devices (update state input).2 inactive) := by
  obtain ⟨storable, light⟩ := fitting
  have vars := getVars_of_turning turning
  rw [vars] at storable light
  have lightSecond := light second (by
    rw [turning.isInactive, Option.bind_some, turning.there]
    exact rfl)
  have firstKept : Kept (off first) := (turning.kept sized turning.here).setActiveFlag false
  have secondKept : Kept (on (input.1.newEnv first.mEnv) second) :=
    ((turning.kept sized turning.there).setActiveFlag true).resetVars storable lightSecond
  rw [update_eq turning, vars]
  rcases @writeInactive_cases first second _ _ _ _ input.2 _ turning firstKept secondKept with
    ⟨error, contents, result⟩ | ⟨error, former, contents, result⟩ |
      ⟨former, contents, found, refound, result⟩
  · rw [result]
    exact Or.inl ⟨rfl, off first, second, turning.firstFailed firstKept error contents, rfl⟩
  · rw [result]
    exact Or.inl ⟨rfl, off first, on (input.1.newEnv first.mEnv) second,
      turning.secondFailed firstKept secondKept error former contents, rfl⟩
  · rw [result]
    exact Or.inr ⟨rfl, on (input.1.newEnv first.mEnv) second, off first,
      turning.turned firstKept secondKept, rfl,
      turning.mirrors firstKept secondKept found refound⟩

/-- The variables that were written by the updates that succeeded. -/
def keptVars : EnvVars → BootState → List (BootCall × (Nat → EnvDriver)) → EnvVars
  | vars, _, [] => vars
  | vars, state, input :: inputs =>
      keptVars (if (update state input).1 then input.1.newEnv vars else vars)
        (update state input).2 inputs

/-- The state behind an update. -/
def step (state : BootState) (input : BootCall × (Nat → EnvDriver)) : BootState :=
  (update state input).2

theorem turning_run (turning : Turning devices state active inactive first second)
    (sized : ∀ entry ∈ devices.toList, 5 ≤ entry.2.size)
    {inputs : List (BootCall × (Nat → EnvDriver))} (fitting : Guarded Fitting step state inputs) :
    ∃ active inactive former latter,
      Turning devices (inputs.foldl step state) active inactive former latter ∧
        former.mEnv = keptVars first.mEnv state inputs := by
  induction inputs generalizing state active inactive first second with
  | nil => exact ⟨active, inactive, first, second, turning, rfl⟩
  | cons input inputs ih =>
      rcases update_cases turning sized fitting.1 with
        ⟨failed, former, latter, next, same⟩ | ⟨wrote, former, latter, next, changed, -⟩
      · obtain ⟨lastActive, lastInactive, lastFormer, lastLatter, last, vars⟩ :=
          ih next fitting.2
        refine ⟨lastActive, lastInactive, lastFormer, lastLatter, last, vars.trans ?_⟩
        rw [keptVars, failed, same]
        rfl
      · obtain ⟨lastActive, lastInactive, lastFormer, lastLatter, last, vars⟩ :=
          ih next fitting.2
        refine ⟨lastActive, lastInactive, lastFormer, lastLatter, last, vars.trans ?_⟩
        rw [keptVars, wrote, changed]
        rfl

/-- From the start on, the object shows what the last update wrote that succeeded, whatever the
drivers did to the others; and behind an update that succeeded a new object shows the same,
with the same active bank. -/
theorem updates_are_kept (working : Working drivers)
    (sized : ∀ entry ∈ devices.toList, 5 ≤ entry.2.size)
    (enough : 2 ≤ (loaded flash devices.toList).length)
    (inputs : List (BootCall × (Nat → EnvDriver)))
    (fitting : Guarded Fitting step (construct true 2 drivers devices flash) inputs) :
    let start := construct true 2 drivers devices flash
    getVars (inputs.foldl step start).env = keptVars (getVars start.env) start inputs ∧
      ∀ earlier last, inputs = earlier ++ [last] →
        (update (earlier.foldl step start) last).1 = true → ∀ later, Working later →
          let again := construct true 2 later devices (inputs.foldl step start).flash
          getVars again.env = getVars (inputs.foldl step start).env ∧
            again.env.mActiveEnv = (inputs.foldl step start).env.mActiveEnv ∧
              again.env.mEnvDevices = (inputs.foldl step start).env.mEnvDevices := by
  dsimp only
  have mirrors := ((construct_settles working flash sized (by decide : 1 ≤ 2)).1 enough).1
  have minimum : 2 ≤ (construct true 2 drivers devices flash).env.mMinNumBanks :=
    (mMinNumBanks_construct working flash sized (by decide) enough).ge
  obtain ⟨inactive, first, second, turning⟩ := turning_of_mirrors mirrors minimum
  constructor
  · obtain ⟨_, _, former, _, last, vars⟩ := turning_run turning sized fitting
    rw [getVars_of_turning last, vars, getVars_of_turning turning]
  · rintro earlier last rfl wrote later laterWorks
    obtain ⟨_, _, former, latter, before, -⟩ := turning_run turning sized fitting.of_append
    have lastFits := (fitting.rest_of_append).1
    rw [List.foldl_append]
    rcases update_cases before sized lastFits with ⟨failed, -⟩ | ⟨-, _, _, next, -, shown⟩
    · exact absurd (wrote.symm.trans failed) (by decide)
    · exact construct_of_mirrors laterWorks sized (by decide) shown
        (next.enough.1.trans next.enough.2)

/-- Three updates, the second of which the drivers refuse. -/
def refusedOnce : List (BootCall × (Nat → EnvDriver)) :=
  [(.setVar ((∅ : EnvVars).insert [0x61] [0x62]), fun _ => obedient),
    (.setVar ((∅ : EnvVars).insert [0x63] [0x64]), fun _ => locked),
    (.setVar ((∅ : EnvVars).insert [0x65] [0x66]), fun _ => obedient)]

theorem updates_are_kept_refusedOnce :
    let start := construct true 2 obedientDrivers twoBanks fun _ => List.replicate 16 0
    let final := refusedOnce.foldl step start
    getVars final.env = ((∅ : EnvVars).insert [0x61] [0x62]).insert [0x65] [0x66] ∧
      getVars (construct true 2 obedientDrivers twoBanks final.flash).env = getVars final.env := by
  have enough : 2 ≤ (loaded (fun _ => List.replicate 16 0) twoBanks.toList).length := by
    rw [length_loaded (by decide)]
    decide
  obtain ⟨vars, again⟩ := updates_are_kept working_obedient (by decide) enough refusedOnce
    (by decide +kernel)
  refine ⟨vars.trans (by decide +kernel), ?_⟩
  exact (again (refusedOnce.take 2) _ rfl (by decide +kernel) obedientDrivers working_obedient).1

end Updates

section Cuts

/-- What the flash holds when the power is cut in an update: the active bank was erased, or
written, or it was written and the inactive one was erased. -/
inductive Cut
  | firstErased
  | between
  | secondErased

def erased (device : BootEnvDevice) : List UInt8 := List.replicate device.mEnvSize 0xff

/-- The flash behind the first write of an update. -/
def behindFirst (writes : Nat → EnvDriver) (flash : EnvFlash) (first : BootEnvDevice) : EnvFlash :=
  Function.update flash first.mIndex
    ((off first).write (writes first.mIndex) (flash first.mIndex)).contents

def Cut.contents (cut : Cut) (writes : Nat → EnvDriver) (flash : EnvFlash)
    (first second : BootEnvDevice) : EnvFlash :=
  match cut with
  | .firstErased => Function.update flash first.mIndex (erased first)
  | .between => behindFirst writes flash first
  | .secondErased => Function.update (behindFirst writes flash first) second.mIndex (erased second)

theorem foldl_addVar_erased (size : Nat) :
    (TerminatedStrings.readStrings 0 (List.replicate size (0xff : UInt8))).foldl addVar ∅ = ∅ := by
  have unmarked : (0 : UInt8) ∉ List.replicate size (0xff : UInt8) := fun member =>
    absurd (List.eq_of_mem_replicate member) (by decide)
  have plain : (0x3d : UInt8) ∉ List.replicate size (0xff : UInt8) := fun member =>
    absurd (List.eq_of_mem_replicate member) (by decide)
  rw [TerminatedStrings.readStrings_step, TerminatedStrings.readString_end unmarked]
  split
  · rfl
  · rw [TerminatedStrings.readStrings_nil, List.foldl_cons, List.foldl_nil, addVar,
      ListCut.cutFirst_eq_none.mpr plain]

/-- An erased bank is valid and active, and it has no variables. -/
theorem reload_erased (kept : Kept device) :
    (reload device (erased device)).mValid = true ∧
      (reload device (erased device)).mActive = true ∧
        (reload device (erased device)).mEnv = ∅ := by
  have sized : 5 ≤ device.mEnvSize := by
    have sized := kept.sized
    rw [dataOffset, kept.flags] at sized
    exact sized
  obtain ⟨rest, isRest⟩ := Nat.exists_eq_add_of_le sized
  have data : erased device = 0xff :: 0xff :: 0xff :: 0xff :: 0xff :: List.replicate rest 0xff := by
    rw [erased, isRest, Nat.add_comm]
    rfl
  have notShort : ¬ (erased device).length < device.mEnvSize := by
    rw [erased, List.length_replicate]
    omega
  have whole : (erased device).take device.mEnvSize = erased device := by
    refine List.take_of_length_le ?_
    rw [erased, List.length_replicate]
  unfold reload BootEnvDevice.new BootEnvDevice.read
  simp only [notShort, ↓reduceIte, whole]
  refine ⟨trivial, ?_, ?_⟩
  · rw [data]
    rfl
  · rw [mEnv_readData rfl, data]
    exact foldl_addVar_erased rest

theorem getVars_construct (working : Working drivers)
    (sized : ∀ entry ∈ devices.toList, 5 ≤ entry.2.size) (flash : EnvFlash)
    (enough : 2 ≤ (loaded flash devices.toList).length) :
    ((loaded flash devices.toList)[chosen flagMarking (loaded flash devices.toList)]?).map
      BootEnvDevice.mEnv = some (getVars (construct true 2 drivers devices flash).env) := by
  obtain ⟨mirrors, same, -⟩ :=
    (construct_settles working flash sized (by decide : 1 ≤ 2)).1 enough
  have vars := getVars_of_mirrors mirrors
  rw [same, getElem?_settle, Option.map_map] at vars
  exact vars

/-- When the only bank that may carry a flag is erased, it counts, and there are no variables. -/
theorem getVars_erased (working : Working drivers)
    (sized : ∀ entry ∈ devices.toList, 5 ≤ entry.2.size)
    (here : (loaded flash devices.toList)[place]? = some device)
    (enough : 2 ≤ (loaded flash devices.toList).length)
    (unmarked : ∀ other found, (loaded flash devices.toList)[other]? = some found →
      other ≠ place → found.mActive = false) :
    getVars (construct true 2 drivers devices
      (Function.update flash device.mIndex (erased device))).env = ∅ := by
  have inside := (List.getElem?_eq_some_iff.mp here).1
  obtain ⟨valid, isActive, empty⟩ := reload_erased (kept_of_mem sized (List.mem_of_getElem? here))
  have banks := loaded_update (nodup_keys devices) here (erased device) valid
  have settled : BankChoice.Settled flagMarking
      ((loaded flash devices.toList).set place (reload device (erased device))) place :=
    settled_set inside isActive unmarked
  have vars := getVars_construct working sized
    (Function.update flash device.mIndex (erased device))
    (by rw [banks, List.length_set]; exact enough)
  rw [banks, settled.chosen_eq, List.getElem?_set_self inside, Option.map_some, empty] at vars
  exact (Option.some.inj vars).symm

/-- Behind the first write the former bank is shown without its flag. -/
theorem loaded_behindFirst (sized : ∀ entry ∈ devices.toList, 5 ≤ entry.2.size)
    (mirrors : Mirrors devices state active)
    (turning : Turning devices state active inactive first second)
    (wrote : ((off first).write (writes first.mIndex) (state.flash first.mIndex)).returned = true) :
    loaded (behindFirst writes state.flash first) devices.toList =
      state.env.mEnvDevices.set active (off first) := by
  have kept := turning.kept sized turning.here
  have found : reload first ((off first).write (writes first.mIndex)
      (state.flash first.mIndex)).contents = off first :=
    (kept.setActiveFlag false).reload_write wrote
  have once := loaded_update (nodup_keys devices) (mirrors.shown ▸ turning.here)
    ((off first).write (writes first.mIndex) (state.flash first.mIndex)).contents
    (by rw [found]; exact kept.valid)
  rw [found, mirrors.shown] at once
  exact once

theorem Mirrors.unmarked (mirrors : Mirrors devices state active) {other : Nat}
    (isDevice : state.env.mEnvDevices[other]? = some device) (notActive : other ≠ active) :
    device.mActive = false :=
  Bool.eq_false_iff.mpr fun marked =>
    notActive ((mirrors.settled.marked_iff other device isDevice).mp marked)

theorem Mirrors.unmarked_off (mirrors : Mirrors devices state active) {other : Nat}
    (isDevice : (state.env.mEnvDevices.set active (off first))[other]? = some device) :
    device.mActive = false :=
  @unmarked_set _ flagMarking _ _ _ _ rfl _ isDevice fun notActive found =>
    mirrors.unmarked found notActive

/-- A start while an update is under way.  Between the two writes the first bank counts; when a
bank was erased for either write, this bank counts, and there are no variables. -/
theorem start_after_cut (working : Working drivers)
    (sized : ∀ entry ∈ devices.toList, 5 ≤ entry.2.size) (mirrors : Mirrors devices state active)
    (turning : Turning devices state active inactive first second)
    (wrote : ((off first).write (writes first.mIndex) (state.flash first.mIndex)).returned = true) :
    let start := fun cut : Cut =>
      construct true 2 drivers devices (cut.contents writes state.flash first second)
    getVars (start .firstErased).env = ∅ ∧
      (state.env.mEnvDevices[0]?).map BootEnvDevice.mEnv = some (getVars (start .between).env) ∧
      getVars (start .secondErased).env = ∅ := by
  have enough := turning.enough.1.trans turning.enough.2
  have without := loaded_behindFirst sized mirrors turning wrote
  have stillEnough : 2 ≤ (loaded (behindFirst writes state.flash first) devices.toList).length := by
    rw [without, List.length_set]
    exact enough
  dsimp only
  refine ⟨?_, ?_, ?_⟩
  · refine getVars_erased working sized (mirrors.shown ▸ turning.here) (mirrors.shown ▸ enough)
      fun other device isDevice notActive => ?_
    rw [mirrors.shown] at isDevice
    exact mirrors.unmarked isDevice notActive
  · have vars := getVars_construct working sized (behindFirst writes state.flash first) stillEnough
    have isChosen : chosen flagMarking (state.env.mEnvDevices.set active (off first)) = 0 := by
      refine chosen_of_unmarked fun device member => ?_
      obtain ⟨other, isDevice⟩ := List.mem_iff_getElem?.mp member
      exact mirrors.unmarked_off isDevice
    rw [without, isChosen] at vars
    refine Eq.trans ?_ vars
    by_cases isFirst : active = 0
    · subst isFirst
      rw [List.getElem?_set_self (List.getElem?_eq_some_iff.mp turning.here).1, turning.here]
      rfl
    · rw [List.getElem?_set_ne isFirst]
  · refine getVars_erased working sized (without ▸ turning.getElem?_there) stillEnough
      fun other device isDevice _ => ?_
    rw [without] at isDevice
    exact mirrors.unmarked_off isDevice

theorem start_after_cut_of_zeros :
    let state := construct true 2 obedientDrivers twoBanks fun _ => List.replicate 16 0
    ∃ first second,
      let start := fun cut : Cut => construct true 2 obedientDrivers twoBanks
        (cut.contents (fun _ => obedient) state.flash first second)
      getVars (start .firstErased).env = ∅ ∧
        (state.env.mEnvDevices[0]?).map BootEnvDevice.mEnv = some (getVars (start .between).env) ∧
        getVars (start .secondErased).env = ∅ := by
  have enough : 2 ≤ (loaded (fun _ => List.replicate 16 0) twoBanks.toList).length := by
    rw [length_loaded (by decide)]
    decide
  have sized : ∀ entry ∈ twoBanks.toList, 5 ≤ entry.2.size := by decide
  obtain ⟨mirrors, -⟩ := (construct_settles working_obedient _ sized (by decide)).1 enough
  obtain ⟨inactive, first, second, turning⟩ := turning_of_mirrors mirrors
    (mMinNumBanks_construct working_obedient _ sized (by decide) enough).ge
  exact ⟨first, second, start_after_cut working_obedient sized mirrors turning
    (write_obedient _ _)⟩

end Cuts

end BootState

end OpenMplane
