import OpenMplane.BootEnv

/-!
# Starting a boot environment

What `init` leaves on the devices and in the object.  The banks that can be read are settled:
the one that counts carries the flag, on its device too, and no other does.  A new object on
the same devices then finds the same banks with the same flags.
-/

namespace OpenMplane

open BankChoice BootEnvDevice

namespace BootState

variable {flash : EnvFlash} {drivers : EnvDrivers} {device : BootEnvDevice}
  {contents : List UInt8} {entry : Nat × PartitionInfo} {entries : List (Nat × PartitionInfo)}
  {state : BootState} {place : Nat}

section Loop

/-- A valid device behind the active one, which has no flag from now on. -/
def pushed (state : BootState) (device : BootEnvDevice) (contents : List UInt8) : BootState :=
  { env := { state.env with
      mEnvDevices := state.env.mEnvDevices ++ [device.setActiveFlag false]
      mInactiveEnv := some state.env.mEnvDevices.length }
    flash := Function.update state.flash device.mIndex contents }

/-- A write that succeeds changes what the device holds, and not the object. -/
theorem writeDevice_of_returned {writes : Nat → EnvDriver}
    (here : state.env.mEnvDevices[place]? = some device)
    (wrote : (device.write (writes device.mIndex) (state.flash device.mIndex)).returned = true) :
    writeDevice writes place state =
      (true, { state with
        flash := Function.update state.flash device.mIndex
          (device.write (writes device.mIndex) (state.flash device.mIndex)).contents }) := by
  have unchanged := (write_stores wrote).2
  unfold writeDevice
  rw [here]
  dsimp only
  rw [wrote, unchanged]
  refine congrArg (Prod.mk true) ?_
  have same : state.env.mEnvDevices.set place device = state.env.mEnvDevices := by
    refine List.ext_getElem? fun other => ?_
    rw [List.getElem?_set]
    split
    · next equal =>
        subst equal
        rw [here]
        exact if_pos (List.getElem?_eq_some_iff.mp here).1
    · rfl
  rw [same]

theorem writeDevice_changeDevice {writes : Nat → EnvDriver}
    {change : BootEnvDevice → BootEnvDevice} (here : state.env.mEnvDevices[place]? = some device)
    (wrote : ((change device).write (writes (change device).mIndex)
      (state.flash (change device).mIndex)).returned = true) :
    writeDevice writes place (state.changeDevice place change) =
      (true,
        { env := { state.env with mEnvDevices := state.env.mEnvDevices.modify place change }
          flash := Function.update state.flash (change device).mIndex
            ((change device).write (writes (change device).mIndex)
              (state.flash (change device).mIndex)).contents }) := by
  have changed : (state.changeDevice place change).env.mEnvDevices[place]? =
      some (change device) := by
    rw [changeDevice, List.getElem?_modify_eq, here]
    rfl
  exact writeDevice_of_returned changed wrote

theorem modify_concat {α : Type} (front : List α) (last : α) (change : α → α) :
    (front ++ [last]).modify front.length change = front ++ [change last] := by
  induction front with
  | nil => rfl
  | cons first front ih => exact congrArg (first :: ·) ih

theorem modify_of_getElem? {α : Type} {row : List α} {bank : α} (here : row[place]? = some bank)
    (change : α → α) : row.modify place change = row.set place (change bank) := by
  refine List.ext_getElem? fun other => ?_
  rw [List.getElem?_modify, List.getElem?_set]
  by_cases same : place = other
  · subst same
    rw [if_pos rfl, if_pos (List.getElem?_eq_some_iff.mp here).1, here]
    simp
  · simp [same]

theorem initDevice_cases (working : Working drivers) (flags : state.env.mFlagSupported = true)
    (sized : 5 ≤ entry.2.size) :
    ((load state.flash entry).mValid = false ∧ initDevice drivers state entry = state) ∨
    ((load state.flash entry).mValid = true ∧ (load state.flash entry).mActive = true ∧
      state.env.mActiveEnv = none ∧ initDevice drivers state entry =
        { state with
          env := { state.env with
            mEnvDevices := state.env.mEnvDevices ++ [load state.flash entry]
            mActiveEnv := some state.env.mEnvDevices.length } }) ∨
    ((load state.flash entry).mValid = true ∧
      ((load state.flash entry).mActive = true → state.env.mActiveEnv ≠ none) ∧
      ∃ contents, initDevice drivers state entry = state.pushed (load state.flash entry) contents ∧
        reload (load state.flash entry) contents =
          (load state.flash entry).setActiveFlag false) := by
  have answer : BootEnvDevice.new entry.1 entry.2.name state.env.mFlagSupported entry.2.size
      (drivers.reads entry.1 (state.flash entry.1)) = load state.flash entry := by
    rw [working.reads, flags, load]
  unfold initDevice
  rw [answer]
  cases valid : (load state.flash entry).mValid with
  | false => exact Or.inl ⟨rfl, by simp only [valid, ↓reduceIte]⟩
  | true =>
      refine Or.inr ?_
      have kept : Kept (load state.flash entry) := kept_of_valid sized valid
      cases isActive : (load state.flash entry).mActive with
      | true =>
          cases chosen : state.env.mActiveEnv with
          | none =>
              refine Or.inl ⟨rfl, rfl, rfl, ?_⟩
              simp only [valid, isActive, chosen, ↓reduceIte, Bool.true_eq_false, and_self]
          | some first =>
              refine Or.inr ⟨rfl, fun _ => Option.some_ne_none _, ?_⟩
              have wrote := working.writes (load state.flash entry).mIndex
                ((load state.flash entry).setActiveFlag false)
                (state.flash (load state.flash entry).mIndex)
              refine ⟨_, ?_, (kept.setActiveFlag false).reload_write wrote⟩
              have written := @writeDevice_changeDevice _
                { state with env := { state.env with
                    mEnvDevices := state.env.mEnvDevices ++ [load state.flash entry] } }
                state.env.mEnvDevices.length drivers.writes
                (fun device => device.setActiveFlag false)
                List.getElem?_concat_length wrote
              rw [modify_concat] at written
              simp only [valid, isActive, chosen, ↓reduceIte, Bool.true_eq_false, reduceCtorEq,
                and_false] at written ⊢
              rw [written]
              simp only [pushed, chosen]
              rfl
      | false =>
          refine Or.inr ⟨rfl, fun impossible => absurd impossible Bool.false_ne_true,
            state.flash entry.1, ?_, ?_⟩
          · simp only [valid, isActive, pushed, ↓reduceIte, Bool.true_eq_false, reduceCtorEq,
              false_and, mIndex_load, Function.update_eq_self, setActiveFlag_of_mActive isActive]
          · rw [reload_load, Function.update_eq_self, setActiveFlag_of_mActive isActive]

/-- What the loop of `init` makes of the partitions it goes through. -/
structure Looped (entries : List (Nat × PartitionInfo)) (state final : BootState) : Prop where
  flags : final.env.mFlagSupported = state.env.mFlagSupported
  minimum : final.env.mMinNumBanks = state.env.mMinNumBanks
  devices : final.env.mEnvDevices = state.env.mEnvDevices ++
    clearBehind flagMarking state.env.mActiveEnv.isSome (loaded state.flash entries)
  active : final.env.mActiveEnv = state.env.mActiveEnv.or
    (((loaded state.flash entries).findIdx? BootEnvDevice.mActive).map
      fun place => place + state.env.mEnvDevices.length)
  reloaded : loaded final.flash entries =
    clearBehind flagMarking state.env.mActiveEnv.isSome (loaded state.flash entries)
  others : ∀ index, index ∉ entries.map Prod.fst → final.flash index = state.flash index

/-- A partition that cannot be read adds nothing. -/
theorem Looped.skip {final : BootState} (loop : Looped entries state final)
    (fresh : entry.1 ∉ entries.map Prod.fst) (invalid : (load state.flash entry).mValid = false) :
    Looped (entry :: entries) state final := by
  have unread : load final.flash entry = load state.flash entry :=
    load_congr (loop.others _ fresh)
  have skipped : loaded state.flash (entry :: entries) = loaded state.flash entries := by
    rw [loaded_cons, invalid]
    rfl
  refine ⟨loop.flags, loop.minimum, ?_, ?_, ?_, fun index outside => ?_⟩
  · rw [skipped]
    exact loop.devices
  · rw [skipped]
    exact loop.active
  · rw [skipped, loaded_cons, unread, invalid]
    exact loop.reloaded
  · exact loop.others index fun inside => outside (List.mem_cons_of_mem _ inside)

/-- The first bank with a flag becomes the active one. -/
theorem Looped.first {final : BootState}
    (loop : Looped entries { state with
      env := { state.env with
        mEnvDevices := state.env.mEnvDevices ++ [load state.flash entry]
        mActiveEnv := some state.env.mEnvDevices.length } } final)
    (fresh : entry.1 ∉ entries.map Prod.fst) (valid : (load state.flash entry).mValid = true)
    (isActive : (load state.flash entry).mActive = true)
    (noActive : state.env.mActiveEnv = none) : Looped (entry :: entries) state final := by
  have taken : loaded state.flash (entry :: entries) =
      load state.flash entry :: loaded state.flash entries := by
    rw [loaded_cons, valid]
    rfl
  have unread : load final.flash entry = load state.flash entry :=
    load_congr (loop.others _ fresh)
  have cleared : clearBehind flagMarking state.env.mActiveEnv.isSome
      (load state.flash entry :: loaded state.flash entries) =
        load state.flash entry :: clearBehind flagMarking true (loaded state.flash entries) := by
    rw [noActive, clearBehind]
    change _ :: clearBehind flagMarking (load state.flash entry).mActive _ = _
    rw [isActive]
    rfl
  refine ⟨loop.flags, loop.minimum, ?_, ?_, ?_, fun index outside => ?_⟩
  · rw [taken, cleared, loop.devices]
    simp
  · rw [taken, loop.active, noActive, List.findIdx?_cons, isActive]
    simp
  · rw [taken, cleared, loaded_cons, unread, valid, loop.reloaded]
    rfl
  · exact loop.others index fun inside => outside (List.mem_cons_of_mem _ inside)

/-- Any other bank is kept without a flag. -/
theorem Looped.push {final : BootState} {contents : List UInt8}
    (loop : Looped entries (state.pushed (load state.flash entry) contents) final)
    (fresh : entry.1 ∉ entries.map Prod.fst) (valid : (load state.flash entry).mValid = true)
    (behind : (load state.flash entry).mActive = true → state.env.mActiveEnv ≠ none)
    (found : reload (load state.flash entry) contents =
      (load state.flash entry).setActiveFlag false) :
    Looped (entry :: entries) state final := by
  have taken : loaded state.flash (entry :: entries) =
      load state.flash entry :: loaded state.flash entries := by
    rw [loaded_cons, valid]
    rfl
  have unread : load final.flash entry = (load state.flash entry).setActiveFlag false := by
    rw [← found, reload_load]
    refine load_congr ((loop.others _ fresh).trans ?_)
    rw [pushed, mIndex_load]
  have sameRest : loaded (state.pushed (load state.flash entry) contents).flash entries =
      loaded state.flash entries := by
    rw [pushed, mIndex_load]
    exact loaded_update_other fresh
  have sameActive : (state.pushed (load state.flash entry) contents).env.mActiveEnv =
      state.env.mActiveEnv := rfl
  have started : state.env.mActiveEnv.isSome = true ∨
      (load state.flash entry).mActive = false := by
    cases isActive : (load state.flash entry).mActive with
    | false => exact Or.inr rfl
    | true => exact Or.inl (Option.isSome_iff_ne_none.mpr (behind isActive))
  have cleared : clearBehind flagMarking state.env.mActiveEnv.isSome
      (load state.flash entry :: loaded state.flash entries) =
        (load state.flash entry).setActiveFlag false ::
          clearBehind flagMarking state.env.mActiveEnv.isSome (loaded state.flash entries) := by
    rw [clearBehind]
    rcases started with before | unmarked
    · rw [before]
      rfl
    · change (if _ then _ else _) ::
        clearBehind flagMarking (_ || (load state.flash entry).mActive) _ = _
      rw [unmarked, Bool.or_false, setActiveFlag_of_mActive unmarked]
      refine congrArg (· :: _) ?_
      split
      · exact setActiveFlag_of_mActive unmarked
      · rfl
  refine ⟨loop.flags, loop.minimum, ?_, ?_, ?_, fun index outside => ?_⟩
  · rw [taken, cleared, loop.devices, sameRest, sameActive, pushed]
    simp
  · rw [taken, loop.active, sameRest, sameActive, pushed, List.findIdx?_cons]
    rcases started with before | unmarked
    · obtain ⟨first, isFirst⟩ := Option.isSome_iff_exists.mp before
      simp [isFirst]
    · rw [unmarked]
      simp [Option.map_map, Function.comp_def, Nat.add_assoc, Nat.add_comm 1]
  · rw [taken, cleared, loaded_cons, unread, loop.reloaded, sameRest, sameActive]
    change (if (load state.flash entry).mValid = true then _ else _) ++ _ = _
    rw [valid]
    rfl
  · rw [loop.others index fun inside => outside (List.mem_cons_of_mem _ inside), pushed,
      mIndex_load]
    refine Function.update_of_ne ?_ _ _
    rintro rfl
    exact outside List.mem_cons_self

theorem looped_foldl (working : Working drivers) (flags : state.env.mFlagSupported = true)
    (sized : ∀ entry ∈ entries, 5 ≤ entry.2.size) (distinct : (entries.map Prod.fst).Nodup) :
    Looped entries state (entries.foldl (initDevice drivers) state) := by
  induction entries generalizing state with
  | nil => exact ⟨rfl, rfl, by simp [loaded, clearBehind], by simp [loaded], rfl, fun _ _ => rfl⟩
  | cons entry entries ih =>
      rw [List.map_cons, List.nodup_cons] at distinct
      have rest : ∀ {next : BootState}, next.env.mFlagSupported = true →
          Looped entries next (entries.foldl (initDevice drivers) next) := fun nextFlags =>
        ih nextFlags (fun other member => sized other (List.mem_cons_of_mem entry member))
          distinct.2
      rw [List.foldl_cons]
      rcases initDevice_cases working flags (sized entry List.mem_cons_self) with
        ⟨invalid, same⟩ | ⟨valid, isActive, noActive, next⟩ | ⟨valid, behind, contents, next, found⟩
      · rw [same]
        exact (rest flags).skip distinct.1 invalid
      · rw [next]
        refine Looped.first (rest ?_) distinct.1 valid isActive noActive
        exact flags
      · rw [next]
        refine Looped.push (rest ?_) distinct.1 valid behind found
        exact flags

end Loop

section Start

/-- Where the pointers of an object lead while `init` goes through the partitions. -/
structure Pointers (env : BootEnv) : Prop where
  active : ∀ first, env.mActiveEnv = some first → first < env.mEnvDevices.length
  inactive : ∀ last, env.mInactiveEnv = some last → last < env.mEnvDevices.length ∧
    env.mActiveEnv ≠ some last ∧ (env.mActiveEnv = none → last + 1 = env.mEnvDevices.length)
  neither : env.mInactiveEnv = none → ∀ other < env.mEnvDevices.length,
    env.mActiveEnv = some other

theorem pointers_initDevice (working : Working drivers) (flags : state.env.mFlagSupported = true)
    (sized : 5 ≤ entry.2.size) (pointers : Pointers state.env) :
    Pointers (initDevice drivers state entry).env := by
  rcases initDevice_cases working flags sized with
    ⟨-, same⟩ | ⟨-, -, noActive, next⟩ | ⟨-, -, contents, next, -⟩
  · rwa [same]
  · rw [next]
    have empty : state.env.mInactiveEnv = none → state.env.mEnvDevices.length = 0 := by
      intro noInactive
      by_contra nonempty
      have impossible := pointers.neither noInactive 0 (by omega)
      rw [noActive] at impossible
      cases impossible
    refine ⟨fun first isFirst => ?_, fun last isLast => ?_, fun noInactive other inside => ?_⟩
    · cases isFirst
      simp
    · obtain ⟨inside, -, -⟩ := pointers.inactive last isLast
      simp only [List.length_append, List.length_singleton]
      refine ⟨by omega, fun same => ?_, fun impossible => by cases impossible⟩
      cases same
      omega
    · have none := empty noInactive
      simp only [List.length_append, List.length_singleton, none] at inside ⊢
      congr 1
      omega
  · rw [next, pushed]
    refine ⟨fun first isFirst => ?_, fun last isLast => ?_, fun impossible => by cases impossible⟩
    · have inside := pointers.active first isFirst
      simp only [List.length_append, List.length_singleton]
      omega
    · cases isLast
      simp only [List.length_append, List.length_singleton]
      refine ⟨by omega, fun same => ?_, fun _ => trivial⟩
      have inside := pointers.active _ same
      omega

theorem pointers_foldl (working : Working drivers) (flags : state.env.mFlagSupported = true)
    (sized : ∀ entry ∈ entries, 5 ≤ entry.2.size) (pointers : Pointers state.env) :
    Pointers (entries.foldl (initDevice drivers) state).env := by
  induction entries generalizing state with
  | nil => exact pointers
  | cons entry entries ih =>
      have entrySized := sized entry List.mem_cons_self
      have nextFlags : (initDevice drivers state entry).env.mFlagSupported = true := by
        rcases initDevice_cases working flags entrySized with
          ⟨-, same⟩ | ⟨-, -, -, next⟩ | ⟨-, -, contents, next, -⟩
        · rwa [same]
        · rwa [next]
        · rwa [next, pushed]
      exact ih nextFlags (fun other member => sized other (List.mem_cons_of_mem entry member))
        (pointers_initDevice working flags entrySized pointers)

/-- The object shows what the devices hold, and one of them carries the flag. -/
structure Mirrors (devices : PartitionMap) (state : BootState) (active : Nat) : Prop where
  flags : state.env.mFlagSupported = true
  enough : 1 ≤ state.env.mMinNumBanks ∧
    state.env.mMinNumBanks ≤ state.env.mEnvDevices.length
  shown : loaded state.flash devices.toList = state.env.mEnvDevices
  settled : BankChoice.Settled flagMarking state.env.mEnvDevices active
  isActive : state.env.mActiveEnv = some active
  isInactive : 2 ≤ state.env.mEnvDevices.length → ∃ inactive,
    state.env.mInactiveEnv = some inactive ∧ inactive < state.env.mEnvDevices.length ∧
      inactive ≠ active

variable {devices : PartitionMap}

theorem initDevices_eq (drivers : EnvDrivers) (devices : PartitionMap) (state : BootState) :
    ∃ cleared : BootState, initDevices drivers devices state =
        devices.toList.foldl (initDevice drivers) cleared ∧ cleared.flash = state.flash ∧
      cleared.env = { state.env with
        mEnvDevices := [], mActiveEnv := none, mInactiveEnv := none, mError := "" } :=
  ⟨_, rfl, rfl, rfl⟩

theorem looped_initDevices (working : Working drivers) (flags : state.env.mFlagSupported = true)
    (sized : ∀ entry ∈ devices.toList, 5 ≤ entry.2.size) :
    let final := initDevices drivers devices state
    let banks := loaded state.flash devices.toList
    final.env.mFlagSupported = true ∧ final.env.mMinNumBanks = state.env.mMinNumBanks ∧
      final.env.mEnvDevices = clearBehind flagMarking false banks ∧
      final.env.mActiveEnv = banks.findIdx? BootEnvDevice.mActive ∧
      loaded final.flash devices.toList = clearBehind flagMarking false banks := by
  obtain ⟨cleared, eq, sameFlash, sameEnv⟩ := initDevices_eq drivers devices state
  have loop := @looped_foldl _ _ cleared working (by rw [sameEnv]; exact flags) sized
    (nodup_keys devices)
  dsimp only
  rw [eq]
  rw [← sameFlash]
  refine ⟨loop.flags.trans (by rw [sameEnv]; exact flags), loop.minimum.trans (by rw [sameEnv]),
    loop.devices.trans (by rw [sameEnv]; rfl), loop.active.trans ?_,
    loop.reloaded.trans (by rw [sameEnv]; rfl)⟩
  rw [sameEnv]
  simp

theorem pointers_initDevices (working : Working drivers) (flags : state.env.mFlagSupported = true)
    (sized : ∀ entry ∈ devices.toList, 5 ≤ entry.2.size) :
    Pointers (initDevices drivers devices state).env := by
  refine pointers_foldl working flags sized ⟨?_, ?_, ?_⟩
  · exact fun first impossible => by cases impossible
  · exact fun last impossible => by cases impossible
  · exact fun _ other impossible => absurd impossible (Nat.not_lt_zero other)

theorem init_of_isSome
    (enough : ¬ (initDevices drivers devices state).env.mEnvDevices.length <
      (initDevices drivers devices state).env.mMinNumBanks)
    (isSome : (initDevices drivers devices state).env.mActiveEnv.isSome = true) :
    init drivers devices state = (false, initDevices drivers devices state) := by
  simp only [init, enough, isSome, ↓reduceIte]

theorem init_of_none
    (enough : ¬ (initDevices drivers devices state).env.mEnvDevices.length <
      (initDevices drivers devices state).env.mMinNumBanks)
    (isNone : (initDevices drivers devices state).env.mActiveEnv = none) :
    init drivers devices state = (true, (writeDevice drivers.writes 0
      (changeDevice 0 (fun device => device.setActiveFlag true)
        { initDevices drivers devices state with
          env := { (initDevices drivers devices state).env with mActiveEnv := some 0 } })).2) := by
  simp only [init, enough, isNone, Option.isSome_none, Bool.false_eq_true, ↓reduceIte]

theorem mirrors_of_marked {final : BootState} {first : Nat}
    (flags : final.env.mFlagSupported = true) (minimum : 1 ≤ final.env.mMinNumBanks)
    (enough : final.env.mMinNumBanks ≤ final.env.mEnvDevices.length)
    (shown : loaded final.flash devices.toList = final.env.mEnvDevices)
    (settled : BankChoice.Settled flagMarking final.env.mEnvDevices first)
    (isActive : final.env.mActiveEnv = some first) (pointers : Pointers final.env) :
    Mirrors devices final first := by
  refine ⟨flags, ⟨minimum, enough⟩, shown, settled, isActive, fun several => ?_⟩
  cases isInactive : final.env.mInactiveEnv with
  | none =>
      have both := pointers.neither isInactive
      have impossible := (both 0 (by omega)).symm.trans (both 1 (by omega))
      cases impossible
  | some last =>
      obtain ⟨inside, apart, -⟩ := pointers.inactive last isInactive
      refine ⟨last, rfl, inside, fun same => apart ?_⟩
      rw [isActive, same]

/-- Without any flag the first bank gets one, in the object and on its device. -/
theorem mirrors_of_unmarked {final : BootState} (working : Working drivers)
    (sized : ∀ entry ∈ devices.toList, 5 ≤ entry.2.size)
    (flags : final.env.mFlagSupported = true) (minimum : 1 ≤ final.env.mMinNumBanks)
    (enough : final.env.mMinNumBanks ≤ final.env.mEnvDevices.length)
    (shown : loaded final.flash devices.toList = final.env.mEnvDevices)
    (noActive : final.env.mActiveEnv = none) (pointers : Pointers final.env)
    (settled : BankChoice.Settled flagMarking
      (final.env.mEnvDevices.modify 0 fun device => device.setActiveFlag true) 0) :
    let started := (writeDevice drivers.writes 0
      (changeDevice 0 (fun device => device.setActiveFlag true)
        { final with env := { final.env with mActiveEnv := some 0 } })).2
    Mirrors devices started 0 ∧
      (started.env.mEnvDevices =
        final.env.mEnvDevices.modify 0 fun device => device.setActiveFlag true) ∧
      started.env.mMinNumBanks = final.env.mMinNumBanks := by
  obtain ⟨device, here⟩ : ∃ device, final.env.mEnvDevices[0]? = some device :=
    ⟨_, List.getElem?_eq_getElem (minimum.trans enough)⟩
  have member : device ∈ loaded final.flash devices.toList := by
    rw [shown]
    exact List.mem_of_getElem? here
  have kept : Kept (device.setActiveFlag true) := (kept_of_mem sized member).setActiveFlag true
  have wrote := working.writes device.mIndex (device.setActiveFlag true)
    (final.flash device.mIndex)
  have written := @writeDevice_changeDevice device
    { final with env := { final.env with mActiveEnv := some 0 } } 0 drivers.writes
    (fun device => device.setActiveFlag true) here wrote
  have reloaded := kept.reload_write wrote
  have updated := loaded_update (nodup_keys devices) (shown ▸ here) _
    (show (reload device _).mValid = true by
      rw [show reload device _ = _ from reloaded]
      exact kept.valid)
  dsimp only
  rw [written]
  refine ⟨⟨flags, ⟨minimum, ?_⟩, updated.trans ?_, settled, rfl, fun several => ?_⟩, rfl, rfl⟩
  · rw [List.length_modify]
    exact enough
  · rw [shown, modify_of_getElem? here]
    exact congrArg (List.set _ 0) reloaded
  · dsimp only at several ⊢
    rw [List.length_modify] at several ⊢
    cases isInactive : final.env.mInactiveEnv with
    | none =>
        have impossible := pointers.neither isInactive 0 (by omega)
        rw [noActive] at impossible
        cases impossible
    | some last =>
        obtain ⟨inside, -, atEnd⟩ := pointers.inactive last isInactive
        have isLast := atEnd noActive
        exact ⟨last, rfl, inside, by omega⟩

theorem init_settles (working : Working drivers) (flags : state.env.mFlagSupported = true)
    (sized : ∀ entry ∈ devices.toList, 5 ≤ entry.2.size)
    (minimum : 1 ≤ state.env.mMinNumBanks)
    (enough : state.env.mMinNumBanks ≤ (loaded state.flash devices.toList).length) :
    Mirrors devices (init drivers devices state).2
        (chosen flagMarking (loaded state.flash devices.toList)) ∧
      (init drivers devices state).2.env.mEnvDevices =
        BankChoice.settle flagMarking (loaded state.flash devices.toList) ∧
      (init drivers devices state).2.env.mMinNumBanks = state.env.mMinNumBanks ∧
      ((init drivers devices state).1 = true ↔
        ∀ device ∈ loaded state.flash devices.toList, device.mActive = false) := by
  obtain ⟨sameFlags, minimumSame, sameDevices, sameActive, shown⟩ :=
    @looped_initDevices _ state devices working flags sized
  have pointers := @pointers_initDevices _ state devices working flags sized
  have whenActive := @init_of_isSome drivers state devices
  have whenNone := @init_of_none drivers state devices
  generalize loaded state.flash devices.toList = banks at *
  generalize initDevices drivers devices state = final at *
  have length : final.env.mEnvDevices.length = banks.length := by
    rw [sameDevices, length_clearBehind]
  have notFew : ¬ final.env.mEnvDevices.length < final.env.mMinNumBanks := by
    rw [length, minimumSame]
    omega
  have nonempty : banks ≠ [] := by
    rintro isEmpty
    rw [isEmpty] at enough
    exact absurd (minimum.trans enough) (by decide)
  have positive : 1 ≤ final.env.mMinNumBanks := minimum.trans_eq minimumSame.symm
  have settled := @settled_settle _ flagMarking _ nonempty
  cases found : banks.findIdx? BootEnvDevice.mActive with
  | some first =>
      have isFound : banks.findIdx? flagMarking.marked = some first := found
      have isSettled : BankChoice.settle flagMarking banks = final.env.mEnvDevices := by
        rw [sameDevices, BankChoice.settle, isFound]
      have isChosen : chosen flagMarking banks = first := by
        rw [chosen, isFound]
        rfl
      rw [isSettled, isChosen] at settled
      rw [isSettled, isChosen, whenActive notFew (by rw [sameActive, found]; rfl)]
      refine ⟨mirrors_of_marked sameFlags positive (not_lt.mp notFew)
        (shown.trans sameDevices.symm) settled (sameActive.trans found) pointers, rfl,
        minimumSame, fun impossible => absurd impossible Bool.false_ne_true, fun unmarked => ?_⟩
      obtain ⟨inside, isMarked, -⟩ := List.findIdx?_eq_some_iff_getElem.mp found
      rw [unmarked _ (List.getElem_mem inside)] at isMarked
      cases isMarked
  | none =>
      have unmarked := List.findIdx?_eq_none_iff.mp found
      have isFound : banks.findIdx? flagMarking.marked = none := found
      have isSettled : BankChoice.settle flagMarking banks =
          final.env.mEnvDevices.modify 0 fun device => device.setActiveFlag true := by
        rw [sameDevices, clearBehind_of_unmarked unmarked, BankChoice.settle, isFound]
        rfl
      rw [isSettled, chosen_of_unmarked unmarked] at settled
      rw [isSettled, chosen_of_unmarked unmarked, whenNone notFew (sameActive.trans found)]
      obtain ⟨mirrors, settles, sameMinimum⟩ := mirrors_of_unmarked working sized sameFlags
        positive (not_lt.mp notFew) (shown.trans sameDevices.symm) (sameActive.trans found) pointers
        settled
      exact ⟨mirrors, settles, sameMinimum.trans minimumSame, fun _ => unmarked, fun _ => rfl⟩

theorem init_of_mirrors {active : Nat} (working : Working drivers)
    (sized : ∀ entry ∈ devices.toList, 5 ≤ entry.2.size)
    (mirrors : Mirrors devices state active) :
    (init drivers devices state).1 = false ∧
      Mirrors devices (init drivers devices state).2 active ∧
      (init drivers devices state).2.env.mEnvDevices = state.env.mEnvDevices := by
  have again := @init_settles drivers state devices working mirrors.flags sized
    mirrors.enough.1 (by rw [mirrors.shown]; exact mirrors.enough.2)
  rw [mirrors.shown, mirrors.settled.settle_eq, mirrors.settled.chosen_eq] at again
  refine ⟨?_, again.1, again.2.1⟩
  rw [← Bool.not_eq_true, again.2.2.2]
  intro unmarked
  have isMarked := (mirrors.settled.marked_iff active _
    (List.getElem?_eq_getElem mirrors.settled.inside)).mpr rfl
  exact absurd ((unmarked _ (List.getElem_mem mirrors.settled.inside)).symm.trans isMarked)
    (by decide)

theorem stateError_of_mirrors {active : Nat} (mirrors : Mirrors devices state active) :
    stateError state.env = none := by
  unfold stateError
  rw [if_neg (not_lt.mpr mirrors.enough.2), mirrors.isActive, if_neg (Option.some_ne_none active)]
  by_cases single : state.env.mMinNumBanks < 2
  · rw [if_pos single]
  · obtain ⟨inactive, isInactive, -⟩ :=
      mirrors.isInactive ((not_lt.mp single).trans mirrors.enough.2)
    rw [if_neg single, isInactive, if_neg (Option.some_ne_none inactive)]

theorem getVars_of_mirrors {active : Nat} (mirrors : Mirrors devices state active) :
    (state.env.mEnvDevices[active]?).map BootEnvDevice.mEnv = some (getVars state.env) := by
  have here := List.getElem?_eq_getElem mirrors.settled.inside
  rw [getVars, stateError_of_mirrors mirrors, BootState.active, mirrors.isActive, Option.bind_some,
    here]
  rfl

/-- A new object on any devices.  When enough of them can be read, the first bank with a flag
or else the first of all becomes the only active one, in the object and on the devices, and
calling `init` again changes nothing; when there are too few, there is no environment. -/
theorem construct_settles (working : Working drivers) (flash : EnvFlash)
    (sized : ∀ entry ∈ devices.toList, 5 ≤ entry.2.size) {minimum : Nat}
    (positive : 1 ≤ minimum) :
    let banks := loaded flash devices.toList
    let state := construct true minimum drivers devices flash
    (minimum ≤ banks.length → Mirrors devices state (chosen flagMarking banks) ∧
      state.env.mEnvDevices = BankChoice.settle flagMarking banks ∧
      ∀ later, Working later → (init later devices state).1 = false ∧
        Mirrors devices (init later devices state).2 (chosen flagMarking banks) ∧
        (init later devices state).2.env.mEnvDevices = state.env.mEnvDevices) ∧
    (banks.length < minimum →
      stateError state.env ≠ none ∧ getVars state.env = ∅ ∧ state.env.mError ≠ "") := by
  dsimp only
  constructor
  · intro enough
    have settles := @init_settles drivers
      ⟨⟨true, minimum, [], none, none, ""⟩, flash⟩ devices working rfl sized positive enough
    refine ⟨settles.1, settles.2.1, fun later laterWorks => ?_⟩
    exact init_of_mirrors laterWorks sized settles.1
  · intro few
    obtain ⟨-, minimumSame, sameDevices, -, -⟩ := @looped_initDevices drivers
      ⟨⟨true, minimum, [], none, none, ""⟩, flash⟩ devices working rfl sized
    dsimp only at minimumSame sameDevices
    unfold construct init
    generalize initDevices drivers devices _ = final at minimumSame sameDevices ⊢
    have short : final.env.mEnvDevices.length < final.env.mMinNumBanks := by
      rw [sameDevices, length_clearBehind, minimumSame]
      exact few
    have error : stateError final.env ≠ none := by
      rw [stateError, if_pos short]
      exact Option.some_ne_none _
    simp only [short, ↓reduceIte, setError]
    refine ⟨error, ?_, ?_⟩
    · unfold getVars
      cases found : stateError _ with
      | some text => rfl
      | none => exact absurd found error
    · intro isEmpty
      have letters := congrArg String.toList isEmpty
      simp at letters

/-- Two banks of zeros: none has a flag, so the first becomes the active one. -/
theorem construct_settles_zeros :
    Mirrors twoBanks (construct true 2 obedientDrivers twoBanks fun _ => List.replicate 16 0)
      (chosen flagMarking (loaded (fun _ => List.replicate 16 0) twoBanks.toList)) := by
  refine ((construct_settles working_obedient _ (by decide) (by decide : 1 ≤ 2)).1 ?_).1
  rw [length_loaded (by decide)]
  decide

theorem mMinNumBanks_construct (working : Working drivers) (flash : EnvFlash)
    (sized : ∀ entry ∈ devices.toList, 5 ≤ entry.2.size) {minimum : Nat} (positive : 1 ≤ minimum)
    (enough : minimum ≤ (loaded flash devices.toList).length) :
    (construct true minimum drivers devices flash).env.mMinNumBanks = minimum :=
  (@init_settles drivers ⟨⟨true, minimum, [], none, none, ""⟩, flash⟩ devices working rfl sized
    positive enough).2.2.1

/-- A new object on settled devices shows what the former one did. -/
theorem construct_of_mirrors {active minimum : Nat} (working : Working drivers)
    (sized : ∀ entry ∈ devices.toList, 5 ≤ entry.2.size) (positive : 1 ≤ minimum)
    (mirrors : Mirrors devices state active) (enough : minimum ≤ state.env.mEnvDevices.length) :
    let again := construct true minimum drivers devices state.flash
    getVars again.env = getVars state.env ∧ again.env.mActiveEnv = state.env.mActiveEnv ∧
      again.env.mEnvDevices = state.env.mEnvDevices := by
  obtain ⟨shown, same, -⟩ := (@construct_settles drivers devices working state.flash sized minimum
    positive).1 (by rw [mirrors.shown]; exact enough)
  rw [mirrors.shown, mirrors.settled.chosen_eq] at shown
  rw [mirrors.shown, mirrors.settled.settle_eq] at same
  have vars := getVars_of_mirrors shown
  rw [same, getVars_of_mirrors mirrors] at vars
  exact ⟨(Option.some.inj vars).symm, shown.isActive.trans mirrors.isActive.symm, same⟩

end Start

end BootState

end OpenMplane
