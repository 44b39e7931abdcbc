import OpenMplane.RadioDatastore
import OpenMplane.StdString

/-!
# Installing the modules

`YangModuleMgr::installModules` looks each module up with an operator that adds
what it does not find, keeps the result of the last module whose features were
enabled, and tells no module of its features.  This file says for which lists of
modules none of this shows.
-/

namespace OpenMplane

open StatePrograms

/-- A module object; `addModule` keeps it under its own name. -/
structure YangModule where
  mFilename : String
  mActive : Bool
  mFeatures : StdMap Bool

/-- A call of the datastore. -/
inductive InstallCall
  | installModule (name path filename : String) (features : List String)
  | enableFeature (name feature : String)
  deriving DecidableEq

/-- The module that a call is about. -/
def InstallCall.name : InstallCall → String
  | .installModule name _ _ _ => name
  | .enableFeature name _ => name

/-- The manager, with the calls it has made of the datastore. -/
structure YangModuleMgr where
  mSearchPath : String
  mModNames : List String
  mModMapName : StdMap (Option YangModule)
  calls : List InstallCall

/-- What ends `installModules` other than a return. -/
inductive InstallException
  | thrown (exception : DatastoreException)
  | nullPointer
  deriving DecidableEq

/-- How a call of the datastore ends. -/
abbrev Answer := Except DatastoreException YangResult

/-- A module of the list, with how the calls of the datastore for it end. -/
structure ListedModule where
  name : String
  installs : Answer
  enables : String → Answer

abbrev InstallM := EStateM InstallException YangModuleMgr

namespace YangModuleMgr

section Source

/-- `stat` on the search path and on the files below it. -/
structure Files where
  isDirectory : String → Bool
  isFile : String → Bool

variable (files : Files) (listModuleFeatures : String → StdMap Bool)

def datastoreCall (made : InstallCall) (answer : Answer) : InstallM YangResult := do
  modify fun mgr => { mgr with calls := mgr.calls ++ [made] }
  match answer with
  | .ok result => pure result
  | .error exception => throw (.thrown exception)

def getModuleNamesAvailable (mgr : YangModuleMgr) : StdMap String :=
  if files.isDirectory mgr.mSearchPath then
    mgr.mModNames.foldl (fun modFileMap name =>
      match mgr.mModMapName[name]? with
      | some (some mod) =>
          if files.isFile (mgr.mSearchPath ++ "/" ++ mod.mFilename) then
            modFileMap.insert name mod.mFilename
          else modFileMap
      | _ => modFileMap) ∅
  else ∅

/-- One pass of the loop of `enableFeatures`, with the result that it carries. -/
def enableFeature (name : String) (enables : String → Answer) (result : YangResult)
    (feature : String × Bool) : InstallM YangResult :=
  if feature.2 then do
    let enabled ← datastoreCall (.enableFeature name feature.1) (enables feature.1)
    return if enabled ≠ .OK then .FAIL else result
  else pure result

def enableFeatures (name : String) (enables : String → Answer) : InstallM YangResult :=
  let featureList := listModuleFeatures name
  if featureList.isEmpty then pure .OK
  else featureList.toList.foldlM (enableFeature name enables) .OK

/-- `mModMapName[name]->activate()`. -/
def activateModule (name : String) : InstallM Unit := do
  match (← get).mModMapName[name]? with
  | some (some mod) =>
      modify fun mgr => { mgr with
        mModMapName := mgr.mModMapName.insert name (some { mod with mActive := true }) }
  | _ =>
      modify fun mgr => { mgr with mModMapName := mgr.mModMapName.insert name none }
      throw .nullPointer

/-- The loop of `installModules`, with the map of available modules, the result and
the count that it carries. -/
def installLoop : List ListedModule → StdMap String → YangResult → Nat →
    InstallM (YangResult × Nat)
  | [], _, result, successCount => pure (result, successCount)
  | listed :: modules, modsAvailable, result, successCount => do
      -- `modsAvailable[name]` puts an empty file name where there is none
      let filename := (modsAvailable[listed.name]?).getD ""
      let modsAvailable := modsAvailable.insert listed.name filename
      if modsAvailable[listed.name]? = none then
        installLoop modules modsAvailable result successCount
      else
        let installed ← datastoreCall
          (.installModule listed.name (← get).mSearchPath filename []) listed.installs
        if installed ≠ .OK then
          installLoop modules modsAvailable result successCount
        else
          activateModule listed.name
          let result ← enableFeatures listModuleFeatures listed.name listed.enables
          if result ≠ .OK then
            pure (result, successCount)
          else
            installLoop modules modsAvailable result (successCount + 1)

/-- `YangModuleMgr::installModules` on a list of modules. -/
def installModules (modules : List ListedModule) : InstallM YangResult := do
  let modsAvailable := getModuleNamesAvailable files (← get)
  let (result, successCount) ← installLoop listModuleFeatures modules modsAvailable .FAIL 0
  return if successCount = modules.length then .OK else result

/-- `YangModuleMgr::isFeatureEnabled` by name; a feature that is asked for stays in
the module's map as one that is not enabled. -/
def isFeatureEnabled (mgr : YangModuleMgr) (moduleName feature : String) : Bool :=
  match mgr.mModMapName[moduleName]? with
  | some (some mod) => (mod.mFeatures[feature]?).getD false
  | _ => false

end Source

section Runs

variable (files : Files) (listModuleFeatures : String → StdMap Bool)

/-- The module is registered and has its file. -/
def Available (mgr : YangModuleMgr) (name : String) : Prop :=
  (getModuleNamesAvailable files mgr)[name]? ≠ none

def Registered (mgr : YangModuleMgr) (name : String) : Prop :=
  ∃ mod, mgr.mModMapName[name]? = some (some mod)

def Installed (listed : ListedModule) : Prop := listed.installs = .ok .OK

/-- All features that the configuration enables are enabled. -/
def Enabled (listed : ListedModule) : Prop :=
  ∀ feature, (listModuleFeatures listed.name)[feature]? = some true →
    listed.enables feature = .ok .OK

/-- The module is the last one that is looked at. -/
def Stops (listed : ListedModule) : Prop :=
  (∃ exception, listed.installs = .error exception) ∨
    Installed listed ∧ ¬ Enabled listModuleFeatures listed

/-- The loop gets to the module. -/
def Reached (modules : List ListedModule) (listed : ListedModule) : Prop :=
  ∃ earlier later, modules = earlier ++ listed :: later ∧
    ∀ other ∈ earlier, ¬ Stops listModuleFeatures other

theorem registered_of_available {mgr : YangModuleMgr} {name : String}
    (available : Available files mgr name) : Registered mgr name := by
  have searched : ∀ (names : List String) (modFileMap : StdMap String),
      (modFileMap[name]? ≠ none → Registered mgr name) →
      (names.foldl (fun modFileMap name =>
        match mgr.mModMapName[name]? with
        | some (some mod) =>
            if files.isFile (mgr.mSearchPath ++ "/" ++ mod.mFilename) then
              modFileMap.insert name mod.mFilename
            else modFileMap
        | _ => modFileMap) modFileMap)[name]? ≠ none → Registered mgr name := by
    intro names
    induction names with
    | nil => exact fun _ known => known
    | cons first names ih =>
        intro modFileMap known
        rw [List.foldl_cons]
        refine ih _ ?_
        split
        · next mod found =>
            split
            · rw [Std.ExtTreeMap.getElem?_insert]
              by_cases here : first = name
              · exact fun _ => ⟨mod, here ▸ found⟩
              · simpa [Std.LawfulEqCmp.compare_eq_iff_eq, here] using known
            · exact known
        · exact known
  unfold Available getModuleNamesAvailable at available
  split at available
  · exact searched mgr.mModNames ∅ (by simp) available
  · simp at available

/-- The features that the modules know of. -/
def features (mgr : YangModuleMgr) (name : String) : Option (StdMap Bool) :=
  (mgr.mModMapName[name]?).join.map YangModule.mFeatures

/-- More calls of the datastore are made, all about modules with the property, and no
module is told of a feature. -/
def Grows (property : String → Prop) (before after : YangModuleMgr) : Prop :=
  (∃ more, after.calls = before.calls ++ more ∧ ∀ made ∈ more, property made.name) ∧
    after.features = before.features

instance (property : String → Prop) : IsPreorder YangModuleMgr (Grows property) where
  refl _ := ⟨⟨[], by simp⟩, rfl⟩
  trans := by
    rintro first middle last ⟨⟨some, here, these⟩, kept⟩ ⟨⟨more, there, those⟩, same⟩
    refine ⟨⟨some ++ more, by rw [there, here, List.append_assoc], ?_⟩, same.trans kept⟩
    intro made member
    rcases List.mem_append.mp member with early | late
    · exact these made early
    · exact those made late

theorem registered_iff (mgr : YangModuleMgr) (name : String) :
    Registered mgr name ↔ (mgr.features name).isSome = true := by
  unfold Registered features
  rcases mgr.mModMapName[name]? with _ | _ | mod <;> simp

theorem isFeatureEnabled_eq (mgr : YangModuleMgr) (name feature : String) :
    mgr.isFeatureEnabled name feature =
      (((mgr.features name).bind fun features => features[feature]?).getD false) := by
  unfold isFeatureEnabled features
  rcases mgr.mModMapName[name]? with _ | _ | mod <;> rfl

theorem datastoreCall_grows {property : String → Prop} {made : InstallCall}
    (about : property made.name) (answer : Answer) :
    Within (Grows property) (datastoreCall made answer) := by
  refine Within.bind (Within.modify fun mgr => ⟨⟨[made], rfl, by simpa using about⟩, rfl⟩)
    fun _ => ?_
  cases answer with
  | ok result => exact Within.pure _
  | error exception => exact Within.throw _

theorem activateModule_grows (property : String → Prop) (name : String) :
    Within (Grows property) (activateModule name) := by
  intro mgr
  rw [activateModule, bind_ok (get_apply mgr)]
  have kept : ∀ entry : Option YangModule,
      (entry.map YangModule.mFeatures = mgr.features name) →
        ({ mgr with mModMapName := mgr.mModMapName.insert name entry }).features =
          mgr.features := by
    intro entry same
    funext other
    unfold features at same ⊢
    rw [Std.ExtTreeMap.getElem?_insert]
    by_cases here : name = other
    · subst here
      simpa using same
    · simp [Std.LawfulEqCmp.compare_eq_iff_eq, here]
  rcases found : mgr.mModMapName[name]? with _ | _ | mod
  · exact ⟨⟨[], (List.append_nil mgr.calls).symm, by simp⟩,
      kept none (by simp [features, found])⟩
  · exact ⟨⟨[], (List.append_nil mgr.calls).symm, by simp⟩,
      kept none (by simp [features, found])⟩
  · exact ⟨⟨[], (List.append_nil mgr.calls).symm, by simp⟩,
      kept (some { mod with mActive := true }) (by simp [features, found])⟩

theorem enableFeatures_grows {property : String → Prop} {name : String} (about : property name)
    (enables : String → Answer) :
    Within (Grows property) (enableFeatures listModuleFeatures name enables) := by
  refine Within.ite (fun _ => Within.pure _) fun _ => Within.foldlM (fun result feature _ => ?_) _
  refine Within.ite (fun _ => ?_) fun _ => Within.pure _
  have call : property (InstallCall.enableFeature name feature.1).name := about
  exact Within.bind (datastoreCall_grows call _) fun _ => Within.pure _

theorem activateModule_of_registered {mgr : YangModuleMgr} {name : String}
    (registered : Registered mgr name) : ∃ after, activateModule name mgr = .ok () after := by
  obtain ⟨mod, found⟩ := registered
  rw [activateModule, bind_ok (get_apply mgr), found]
  exact ⟨_, rfl⟩

theorem datastoreCall_ok (made : InstallCall) (result : YangResult) (mgr : YangModuleMgr) :
    datastoreCall made (.ok result) mgr =
      .ok result { mgr with calls := mgr.calls ++ [made] } := rfl

theorem datastoreCall_error (made : InstallCall) (exception : DatastoreException)
    (mgr : YangModuleMgr) :
    datastoreCall made (.error exception) mgr =
      .error (.thrown exception) { mgr with calls := mgr.calls ++ [made] } := rfl

theorem enableFeature_of_ok {name : String} {enables : String → Answer}
    {feature : String × Bool} (accepted : feature.2 = true → enables feature.1 = .ok .OK)
    (result : YangResult) (mgr : YangModuleMgr) :
    ∃ after, enableFeature name enables result feature mgr = .ok result after := by
  unfold enableFeature
  by_cases wanted : feature.2 = true
  · rw [if_pos wanted, accepted wanted, bind_ok (datastoreCall_ok _ _ mgr)]
    exact ⟨_, rfl⟩
  · rw [if_neg wanted]
    exact ⟨mgr, rfl⟩

/-- The program throws what the datastore throws, or returns this value. -/
def ThrowsOr {α : Type} (value : α) : EStateM.Result InstallException YangModuleMgr α → Prop
  | .ok returned _ => returned = value
  | .error exception _ => ∃ cause, exception = .thrown cause

theorem enableFeature_of_refused {name : String} {enables : String → Answer}
    {feature : String × Bool} {result : YangResult}
    (refused : feature.2 = true ∧ enables feature.1 ≠ .ok .OK ∨ result = .FAIL)
    (mgr : YangModuleMgr) :
    ThrowsOr .FAIL (enableFeature name enables result feature mgr) := by
  unfold enableFeature
  by_cases wanted : feature.2 = true
  · rw [if_pos wanted]
    cases answer : enables feature.1 with
    | error exception =>
        rw [bind_error (datastoreCall_error _ _ mgr)]
        exact ⟨exception, rfl⟩
    | ok enabled =>
        rw [bind_ok (datastoreCall_ok _ _ mgr)]
        change (if enabled ≠ .OK then YangResult.FAIL else result) = .FAIL
        by_cases ok : enabled = .OK
        · rw [if_neg (not_not.mpr ok)]
          exact refused.resolve_left fun refused => refused.2 (ok ▸ answer)
        · rw [if_pos ok]
  · rw [if_neg wanted]
    exact refused.resolve_left fun refused => wanted refused.1

theorem foldlM_enableFeature_of_ok {name : String} {enables : String → Answer}
    {entries : List (String × Bool)}
    (accepted : ∀ feature ∈ entries, feature.2 = true → enables feature.1 = .ok .OK)
    (result : YangResult) (mgr : YangModuleMgr) :
    ∃ after, entries.foldlM (enableFeature name enables) result mgr = .ok result after := by
  induction entries generalizing mgr with
  | nil => exact ⟨mgr, rfl⟩
  | cons feature entries ih =>
      obtain ⟨middle, first⟩ := enableFeature_of_ok (accepted feature (by simp)) result mgr
      rw [List.foldlM_cons, bind_ok first]
      exact ih (fun other member => accepted other (by simp [member])) middle

theorem foldlM_enableFeature_of_refused {name : String} {enables : String → Answer}
    {entries : List (String × Bool)} {result : YangResult}
    (refused : (∃ feature ∈ entries, feature.2 = true ∧ enables feature.1 ≠ .ok .OK) ∨
      result = .FAIL) (mgr : YangModuleMgr) :
    ThrowsOr .FAIL (entries.foldlM (enableFeature name enables) result mgr) := by
  induction entries generalizing result mgr with
  | nil =>
      have failed : result = .FAIL := by simpa using refused
      exact failed
  | cons feature entries ih =>
      rw [List.foldlM_cons]
      by_cases here : feature.2 = true ∧ enables feature.1 ≠ .ok .OK ∨ result = .FAIL
      · have first : ThrowsOr .FAIL (enableFeature name enables result feature mgr) :=
          enableFeature_of_refused here mgr
        rw [bind_apply]
        cases run : enableFeature name enables result feature mgr with
        | ok value middle =>
            rw [run] at first
            exact ih (Or.inr first) middle
        | error exception middle =>
            rw [run] at first
            exact first
      · have accepted : feature.2 = true → enables feature.1 = .ok .OK := by
          intro wanted
          by_contra refuses
          exact here (Or.inl ⟨wanted, refuses⟩)
        obtain ⟨middle, first⟩ : ∃ after, enableFeature name enables result feature mgr =
            .ok result after := enableFeature_of_ok accepted result mgr
        rw [bind_ok first]
        refine ih (Or.inl ?_) middle
        rcases refused with ⟨other, member, refuses⟩ | failed
        · rcases List.mem_cons.mp member with rfl | later
          · exact absurd (Or.inl refuses) here
          · exact ⟨other, later, refuses⟩
        · exact absurd (Or.inr failed) here

theorem enableFeatures_of_enabled {listed : ListedModule}
    (enabled : Enabled listModuleFeatures listed) (mgr : YangModuleMgr) :
    ∃ after, enableFeatures listModuleFeatures listed.name listed.enables mgr =
      .ok .OK after := by
  unfold enableFeatures
  split
  · exact ⟨mgr, rfl⟩
  · refine foldlM_enableFeature_of_ok (fun feature member wanted => ?_) _ mgr
    have found := Std.ExtTreeMap.mem_toList_iff_getElem?_eq_some.mp member
    exact enabled feature.1 (wanted ▸ found)

theorem enableFeatures_of_refused {listed : ListedModule}
    (refused : ¬ Enabled listModuleFeatures listed) (mgr : YangModuleMgr) :
    ThrowsOr .FAIL (enableFeatures listModuleFeatures listed.name listed.enables mgr) := by
  unfold Enabled at refused
  push Not at refused
  obtain ⟨feature, wanted, refuses⟩ := refused
  have member := Std.ExtTreeMap.mem_toList_iff_getElem?_eq_some.mpr wanted
  unfold enableFeatures
  split
  · next empty =>
      rw [Std.ExtTreeMap.isEmpty_iff.mp empty] at wanted
      simp at wanted
  · exact foldlM_enableFeature_of_refused (Or.inl ⟨(feature, true), member, rfl, refuses⟩) mgr

section Loop

variable {listModuleFeatures} {listed : ListedModule} {modules : List ListedModule}
  {modsAvailable : StdMap String} {result : YangResult} {successCount : Nat}
  {mgr : YangModuleMgr}

/-- The map of available modules after one was looked up. -/
def lookedUp (modsAvailable : StdMap String) (name : String) : StdMap String :=
  modsAvailable.insert name ((modsAvailable[name]?).getD "")

/-- The manager when it has asked the datastore to install a module. -/
def asked (modsAvailable : StdMap String) (name : String) (mgr : YangModuleMgr) :
    YangModuleMgr :=
  { mgr with calls := mgr.calls ++
      [.installModule name mgr.mSearchPath ((modsAvailable[name]?).getD "") []] }

theorem asked_grows {property : String → Prop} {name : String} (about : property name)
    (modsAvailable : StdMap String) (mgr : YangModuleMgr) :
    Grows property mgr (asked modsAvailable name mgr) := by
  refine ⟨⟨_, rfl, ?_⟩, rfl⟩
  intro made member
  rw [List.mem_singleton.mp member]
  exact about

/-- What was looked up is always found, so the datastore is asked for every module. -/
theorem installLoop_cons (listed : ListedModule) (modules : List ListedModule)
    (modsAvailable : StdMap String) (result : YangResult) (successCount : Nat)
    (mgr : YangModuleMgr) :
    installLoop listModuleFeatures (listed :: modules) modsAvailable result successCount mgr =
      (datastoreCall (.installModule listed.name mgr.mSearchPath
          ((modsAvailable[listed.name]?).getD "") []) listed.installs >>= fun installed =>
        if installed ≠ .OK then
          installLoop listModuleFeatures modules (lookedUp modsAvailable listed.name) result
            successCount
        else
          activateModule listed.name >>= fun _ =>
            enableFeatures listModuleFeatures listed.name listed.enables >>= fun result =>
              if result ≠ .OK then pure (result, successCount)
              else installLoop listModuleFeatures modules (lookedUp modsAvailable listed.name)
                result (successCount + 1)) mgr := by
  have found : (modsAvailable.insert listed.name
      ((modsAvailable[listed.name]?).getD ""))[listed.name]? ≠ none := by simp
  rw [installLoop]
  simp only [found, ↓reduceIte]
  rfl

theorem installLoop_of_thrown {exception : DatastoreException}
    (thrown : listed.installs = .error exception) :
    installLoop listModuleFeatures (listed :: modules) modsAvailable result successCount mgr =
      .error (.thrown exception) (asked modsAvailable listed.name mgr) := by
  rw [installLoop_cons, thrown, bind_error (datastoreCall_error _ _ mgr)]
  rfl

theorem installLoop_of_refused {answer : YangResult} (answered : listed.installs = .ok answer)
    (refused : answer ≠ .OK) :
    installLoop listModuleFeatures (listed :: modules) modsAvailable result successCount mgr =
      installLoop listModuleFeatures modules (lookedUp modsAvailable listed.name) result
        successCount (asked modsAvailable listed.name mgr) := by
  rw [installLoop_cons, answered, bind_ok (datastoreCall_ok _ _ mgr), if_pos refused]
  rfl

theorem installLoop_of_installed (installed : Installed listed) :
    installLoop listModuleFeatures (listed :: modules) modsAvailable result successCount mgr =
      (activateModule listed.name >>= fun _ =>
        enableFeatures listModuleFeatures listed.name listed.enables >>= fun result =>
          if result ≠ .OK then pure (result, successCount)
          else installLoop listModuleFeatures modules (lookedUp modsAvailable listed.name)
            result (successCount + 1)) (asked modsAvailable listed.name mgr) := by
  rw [installLoop_cons, show listed.installs = .ok .OK from installed,
    bind_ok (datastoreCall_ok _ _ mgr), if_neg (not_not.mpr rfl)]
  rfl

/-- How the loop ends, over modules that are registered. -/
inductive Ends (listModuleFeatures : String → StdMap Bool) (modules : List ListedModule)
    (result : YangResult) (successCount : Nat) :
    EStateM.Result InstallException YangModuleMgr (YangResult × Nat) → Prop
  | through (after : YangModuleMgr) (last : YangResult) (added : Nat)
      (none : ∀ listed ∈ modules, ¬ Stops listModuleFeatures listed)
      (most : added ≤ modules.length)
      (all : added = modules.length ↔ ∀ listed ∈ modules, Installed listed)
      (some : (∃ listed ∈ modules, Installed listed) → last = .OK)
      (kept : (∀ listed ∈ modules, ¬ Installed listed) → last = result) :
      Ends listModuleFeatures modules result successCount (.ok (last, successCount + added) after)
  | stopped (after : YangModuleMgr) (added : Nat)
      (stops : ∃ listed ∈ modules, Stops listModuleFeatures listed)
      (fewer : added < modules.length) :
      Ends listModuleFeatures modules result successCount
        (.ok (.FAIL, successCount + added) after)
  | thrown (after : YangModuleMgr) (exception : DatastoreException)
      (stops : ∃ listed ∈ modules, Stops listModuleFeatures listed) :
      Ends listModuleFeatures modules result successCount (.error (.thrown exception) after)

theorem not_installed_of_refused {answer : YangResult} (answered : listed.installs = .ok answer)
    (refused : answer ≠ .OK) : ¬ Installed listed :=
  fun installed => refused (Except.ok.inj (answered.symm.trans installed))

theorem not_stops_of_refused {answer : YangResult} (answered : listed.installs = .ok answer)
    (refused : answer ≠ .OK) : ¬ Stops listModuleFeatures listed := by
  rintro (⟨exception, thrown⟩ | ⟨installed, -⟩)
  · rw [answered] at thrown
    contradiction
  · exact not_installed_of_refused answered refused installed

theorem not_stops_of_enabled (installed : Installed listed)
    (enabled : Enabled listModuleFeatures listed) : ¬ Stops listModuleFeatures listed := by
  rintro (⟨exception, thrown⟩ | ⟨-, refuses⟩)
  · rw [show listed.installs = .ok .OK from installed] at thrown
    contradiction
  · exact refuses enabled

theorem Ends.of_refused {run : EStateM.Result InstallException YangModuleMgr (YangResult × Nat)}
    (refused : ∃ answer, listed.installs = .ok answer ∧ answer ≠ .OK)
    (ends : Ends listModuleFeatures modules result successCount run) :
    Ends listModuleFeatures (listed :: modules) result successCount run := by
  obtain ⟨answer, answered, refuses⟩ := refused
  have uninstalled := not_installed_of_refused answered refuses
  have passes : ¬ Stops listModuleFeatures listed := not_stops_of_refused answered refuses
  cases ends with
  | through after last added none most all some kept =>
      refine .through after last added ?_ ?_ ?_ ?_ ?_
      · exact List.forall_mem_cons.mpr ⟨passes, none⟩
      · exact Nat.le_succ_of_le most
      · rw [List.forall_mem_cons, List.length_cons]
        exact ⟨fun too => by omega, fun every => absurd every.1 uninstalled⟩
      · rintro ⟨other, member, installed⟩
        rcases List.mem_cons.mp member with rfl | later
        · exact absurd installed uninstalled
        · exact some ⟨other, later, installed⟩
      · exact fun none => kept (List.forall_mem_cons.mp none).2
  | stopped after added stops fewer =>
      obtain ⟨other, later, stops⟩ := stops
      exact .stopped after added ⟨other, by simp [later], stops⟩ (Nat.lt_succ_of_lt fewer)
  | thrown after exception stops =>
      obtain ⟨other, later, stops⟩ := stops
      exact .thrown after exception ⟨other, by simp [later], stops⟩

theorem Ends.of_installed {run : EStateM.Result InstallException YangModuleMgr (YangResult × Nat)}
    (installed : Installed listed) (enabled : Enabled listModuleFeatures listed)
    (ends : Ends listModuleFeatures modules .OK (successCount + 1) run) :
    Ends listModuleFeatures (listed :: modules) result successCount run := by
  have passes := not_stops_of_enabled installed enabled
  have shift : ∀ added, successCount + 1 + added = successCount + (added + 1) := by
    intro added
    omega
  cases ends with
  | through after last added none most all some kept =>
      rw [shift]
      refine .through after last (added + 1) ?_ ?_ ?_ ?_ ?_
      · exact List.forall_mem_cons.mpr ⟨passes, none⟩
      · exact Nat.succ_le_succ most
      · rw [List.forall_mem_cons, List.length_cons, Nat.add_right_cancel_iff, all]
        exact ⟨fun every => ⟨installed, every⟩, And.right⟩
      · intro _
        by_cases later : ∃ other ∈ modules, Installed other
        · exact some later
        · push Not at later
          exact kept later
      · exact fun none => absurd installed (List.forall_mem_cons.mp none).1
  | stopped after added stops fewer =>
      obtain ⟨other, later, stops⟩ := stops
      rw [shift]
      exact .stopped after (added + 1) ⟨other, by simp [later], stops⟩
        (Nat.succ_lt_succ fewer)
  | thrown after exception stops =>
      obtain ⟨other, later, stops⟩ := stops
      exact .thrown after exception ⟨other, by simp [later], stops⟩

theorem reached_head (listed : ListedModule) (modules : List ListedModule) :
    Reached listModuleFeatures (listed :: modules) listed :=
  ⟨[], modules, rfl, by simp⟩

theorem Reached.later {other : ListedModule} (passes : ¬ Stops listModuleFeatures listed)
    (reached : Reached listModuleFeatures modules other) :
    Reached listModuleFeatures (listed :: modules) other := by
  obtain ⟨earlier, later, rfl, none⟩ := reached
  exact ⟨listed :: earlier, later, rfl, List.forall_mem_cons.mpr ⟨passes, none⟩⟩

theorem Grows.registered {property : String → Prop} {before after : YangModuleMgr}
    (grows : Grows property before after) {name : String} (registered : Registered before name) :
    Registered after name := by
  rw [registered_iff, grows.2, ← registered_iff]
  exact registered

theorem installLoop_of_passes (property : String → Prop) (modules : List ListedModule)
    (modsAvailable : StdMap String) (result : YangResult) (successCount : Nat)
    (about : property listed.name) (registered : Registered mgr listed.name) (passes : ¬ Stops listModuleFeatures listed) :
    ∃ after nextResult nextCount, Grows property mgr after ∧
      installLoop listModuleFeatures (listed :: modules) modsAvailable result successCount mgr =
        installLoop listModuleFeatures modules (lookedUp modsAvailable listed.name) nextResult
          nextCount after ∧
      (Installed listed ∧ Enabled listModuleFeatures listed ∧ nextResult = .OK ∧
          nextCount = successCount + 1 ∨
        (∃ answer, listed.installs = .ok answer ∧ answer ≠ .OK) ∧ nextResult = result ∧
          nextCount = successCount) := by
  have grown := asked_grows about modsAvailable mgr
  cases answer : listed.installs with
  | error exception => exact absurd (Or.inl ⟨exception, answer⟩) passes
  | ok answered =>
      by_cases accepted : answered = .OK
      · have installed : Installed listed := answer.trans (congrArg Except.ok accepted)
        have enabled : Enabled listModuleFeatures listed := by
          by_contra refuses
          exact passes (Or.inr ⟨installed, refuses⟩)
        obtain ⟨active, activated⟩ := activateModule_of_registered (grown.registered registered)
        obtain ⟨after, enabling⟩ := enableFeatures_of_enabled listModuleFeatures enabled active
        have activates := activateModule_grows property listed.name
          (asked modsAvailable listed.name mgr)
        have enables := enableFeatures_grows listModuleFeatures about listed.enables active
        rw [activated] at activates
        rw [enabling] at enables
        refine ⟨after, .OK, successCount + 1,
          IsTrans.trans _ _ _ (IsTrans.trans _ _ _ grown activates) enables, ?_,
          Or.inl ⟨installed, enabled, rfl, rfl⟩⟩
        rw [installLoop_of_installed installed, bind_ok activated, bind_ok enabling,
          if_neg (not_not.mpr rfl)]
      · exact ⟨asked modsAvailable listed.name mgr, result, successCount, grown,
          installLoop_of_refused answer accepted,
          Or.inr ⟨⟨answered, rfl, accepted⟩, rfl, rfl⟩⟩

theorem installLoop_of_stops {property : String → Prop} (about : property listed.name)
    (registered : Registered mgr listed.name) (stops : Stops listModuleFeatures listed) :
    Ends listModuleFeatures (listed :: modules) result successCount
        (installLoop listModuleFeatures (listed :: modules) modsAvailable result successCount
          mgr) ∧
      Grows property mgr (finalState (installLoop listModuleFeatures (listed :: modules)
        modsAvailable result successCount mgr)) := by
  have grown := asked_grows about modsAvailable mgr
  have some_stops : ∃ other ∈ listed :: modules, Stops listModuleFeatures other :=
    ⟨listed, by simp, stops⟩
  rcases stops with ⟨exception, thrown⟩ | ⟨installed, refuses⟩
  · rw [installLoop_of_thrown thrown]
    exact ⟨.thrown _ exception some_stops, grown⟩
  · obtain ⟨active, activated⟩ := activateModule_of_registered (grown.registered registered)
    have activates := activateModule_grows property listed.name
      (asked modsAvailable listed.name mgr)
    have enables := enableFeatures_grows listModuleFeatures about listed.enables active
    have ended := enableFeatures_of_refused listModuleFeatures refuses active
    rw [installLoop_of_installed installed, bind_ok activated]
    rw [activated] at activates
    have grown : Grows property mgr active := IsTrans.trans _ _ _ grown activates
    cases enabling : enableFeatures listModuleFeatures listed.name listed.enables active with
    | ok value after =>
        rw [enabling] at ended enables
        obtain rfl : value = .FAIL := ended
        rw [bind_ok enabling, if_pos (by decide)]
        exact ⟨.stopped after 0 some_stops (by simp), IsTrans.trans _ _ _ grown enables⟩
    | error exception after =>
        rw [enabling] at ended enables
        obtain ⟨cause, rfl⟩ := ended
        rw [bind_error enabling]
        exact ⟨.thrown after cause some_stops, IsTrans.trans _ _ _ grown enables⟩

/-- The loop over modules that are registered as far as it gets. -/
theorem installLoop_spec {property : String → Prop}
    (reached : ∀ listed, Reached listModuleFeatures modules listed → property listed.name)
    (registered : ∀ name, property name → Registered mgr name) :
    Ends listModuleFeatures modules result successCount
        (installLoop listModuleFeatures modules modsAvailable result successCount mgr) ∧
      Grows property mgr (finalState
        (installLoop listModuleFeatures modules modsAvailable result successCount mgr)) := by
  induction modules generalizing modsAvailable result successCount mgr with
  | nil =>
      refine ⟨?_, refl mgr⟩
      exact .through mgr result 0 (by simp) (Nat.le_refl _) (by simp) (by simp) (by simp)
  | cons listed modules ih =>
      have about := reached listed (reached_head listed modules)
      by_cases stops : Stops listModuleFeatures listed
      · exact installLoop_of_stops about (registered _ about) stops
      · obtain ⟨after, nextResult, nextCount, grown, run, outcome⟩ :=
          installLoop_of_passes property modules modsAvailable result successCount about
            (registered _ about) stops
        obtain ⟨ends, grows⟩ := ih (fun other later => reached other (later.later stops))
          (fun name has => grown.registered (registered name has))
        rw [run]
        refine ⟨?_, IsTrans.trans _ _ _ grown grows⟩
        rcases outcome with ⟨installed, enabled, rfl, rfl⟩ | ⟨refused, rfl, rfl⟩
        · exact ends.of_installed installed enabled
        · exact ends.of_refused refused

theorem installLoop_grows (modules : List ListedModule) (modsAvailable : StdMap String)
    (result : YangResult) (successCount : Nat) :
    Within (Grows fun _ => True)
      (installLoop listModuleFeatures modules modsAvailable result successCount) := by
  induction modules generalizing modsAvailable result successCount with
  | nil => exact Within.pure _
  | cons listed modules ih =>
      intro mgr
      rw [installLoop_cons]
      refine Within.bind (datastoreCall_grows trivial _) (fun installed => ?_) mgr
      refine Within.ite (fun _ => ih _ _ _) fun _ => ?_
      refine Within.bind (activateModule_grows _ _) fun _ => ?_
      refine Within.bind (enableFeatures_grows listModuleFeatures trivial _) fun _ => ?_
      exact Within.ite (fun _ => Within.pure _) fun _ => ih _ _ _

/-- Among the calls that are new is one about the module. -/
def Asks (name : String) (before after : YangModuleMgr) : Prop :=
  ∃ more, after.calls = before.calls ++ more ∧ ∃ made ∈ more, made.name = name

theorem Asks.of_grows {property : String → Prop} {name : String}
    {before middle after : YangModuleMgr} (grows : Grows property before middle)
    (asks : Asks name middle after) : Asks name before after := by
  obtain ⟨⟨some, here, -⟩, -⟩ := grows
  obtain ⟨more, there, made, member, about⟩ := asks
  exact ⟨some ++ more, by rw [there, here, List.append_assoc], made, by simp [member], about⟩

theorem asks_of_asked {name : String} {after : YangModuleMgr}
    (grows : Grows (fun _ => True) (asked modsAvailable name mgr) after) :
    Asks name mgr after := by
  obtain ⟨⟨more, calls, -⟩, -⟩ := grows
  refine ⟨.installModule name mgr.mSearchPath ((modsAvailable[name]?).getD "") [] :: more, ?_,
    .installModule name mgr.mSearchPath ((modsAvailable[name]?).getD "") [], by simp, rfl⟩
  rw [calls, asked, List.append_assoc]
  rfl

/-- A module that the loop gets to is handed to the datastore. -/
theorem installLoop_asks {earlier later : List ListedModule}
    (passes : ∀ other ∈ earlier, ¬ Stops listModuleFeatures other)
    (registered : ∀ other ∈ earlier, Registered mgr other.name) :
    Asks listed.name mgr (finalState (installLoop listModuleFeatures
      (earlier ++ listed :: later) modsAvailable result successCount mgr)) := by
  induction earlier generalizing modsAvailable result successCount mgr with
  | nil =>
      rw [List.nil_append]
      cases answer : listed.installs with
      | error exception =>
          rw [installLoop_of_thrown answer]
          exact asks_of_asked (refl _)
      | ok answered =>
          by_cases accepted : answered = .OK
          · rw [installLoop_of_installed (answer.trans (congrArg Except.ok accepted))]
            refine asks_of_asked (Within.bind (activateModule_grows _ _) (fun _ => ?_) _)
            refine Within.bind (enableFeatures_grows listModuleFeatures trivial _) fun _ => ?_
            exact Within.ite (fun _ => Within.pure _) fun _ => installLoop_grows _ _ _ _
          · rw [installLoop_of_refused answer accepted]
            exact asks_of_asked (installLoop_grows _ _ _ _ _)
  | cons first earlier ih =>
      rw [List.forall_mem_cons] at passes registered
      obtain ⟨after, nextResult, nextCount, grown, run, -⟩ :=
        installLoop_of_passes (fun _ => True) (earlier ++ listed :: later) modsAvailable
          result successCount trivial registered.1 passes.1
      rw [List.cons_append, run]
      exact Asks.of_grows grown
        (ih passes.2 fun other member => grown.registered (registered.2 other member))

end Loop

section Installing

variable (mgr : YangModuleMgr) (modules : List ListedModule)

/-- The modules are installed as the caller is told, the datastore gets available
modules only, no null pointer is followed, and the features are known. -/
structure Right : Prop where
  result : (∃ after, installModules files listModuleFeatures modules mgr = .ok .OK after) ↔
    ∀ listed ∈ modules, Available files mgr listed.name ∧ Installed listed ∧
      Enabled listModuleFeatures listed
  calls : ∃ more, (finalState (installModules files listModuleFeatures modules mgr)).calls =
    mgr.calls ++ more ∧ ∀ made ∈ more, Available files mgr made.name
  pointers : ∀ after,
    installModules files listModuleFeatures modules mgr ≠ .error .nullPointer after
  features : ∀ after, installModules files listModuleFeatures modules mgr = .ok .OK after →
    ∀ listed ∈ modules, ∀ feature, after.isFeatureEnabled listed.name feature = true ↔
      (listModuleFeatures listed.name)[feature]? = some true

/-- What the loop gets to is available, all or none of the modules are installed
unless one stops the loop, and where all are installed the modules knew their features
before. -/
structure Uneventful : Prop where
  available : ∀ listed, Reached listModuleFeatures modules listed →
    Available files mgr listed.name
  together : (∀ listed ∈ modules, ¬ Stops listModuleFeatures listed) →
    (∀ listed ∈ modules, Installed listed) ∨ ∀ listed ∈ modules, ¬ Installed listed
  features : (∀ listed ∈ modules, Installed listed ∧ Enabled listModuleFeatures listed) →
    ∀ listed ∈ modules, ∀ feature, mgr.isFeatureEnabled listed.name feature = true ↔
      (listModuleFeatures listed.name)[feature]? = some true

theorem installModules_apply :
    installModules files listModuleFeatures modules mgr =
      match installLoop listModuleFeatures modules (getModuleNamesAvailable files mgr) .FAIL 0
          mgr with
      | .ok (result, successCount) after =>
          .ok (if successCount = modules.length then .OK else result) after
      | .error exception after => .error exception after := by
  rw [installModules, bind_ok (get_apply mgr), bind_apply]
  rcases installLoop listModuleFeatures modules (getModuleNamesAvailable files mgr) .FAIL 0 mgr
    with ⟨⟨result, successCount⟩, after⟩ | ⟨exception, after⟩ <;> rfl

theorem finalState_installModules :
    finalState (installModules files listModuleFeatures modules mgr) =
      finalState (installLoop listModuleFeatures modules (getModuleNamesAvailable files mgr)
        .FAIL 0 mgr) := by
  rw [installModules_apply]
  rcases installLoop listModuleFeatures modules (getModuleNamesAvailable files mgr) .FAIL 0 mgr
    with ⟨⟨result, successCount⟩, after⟩ | ⟨exception, after⟩ <;> rfl

variable {files listModuleFeatures mgr modules}

/-- Where the datastore gets available modules only, the loop got to no other. -/
theorem available_of_calls
    (calls : ∃ more, (finalState (installModules files listModuleFeatures modules mgr)).calls =
      mgr.calls ++ more ∧ ∀ made ∈ more, Available files mgr made.name) :
    ∀ listed, Reached listModuleFeatures modules listed → Available files mgr listed.name := by
  obtain ⟨more, new, about⟩ := calls
  rw [finalState_installModules] at new
  -- the modules before one that was reached were reached, too
  have upTo : ∀ length earlier listed later, earlier.length = length →
      modules = earlier ++ listed :: later →
      (∀ other ∈ earlier, ¬ Stops listModuleFeatures other) →
        Available files mgr listed.name := by
    intro length
    induction length using Nat.strong_induction_on with
    | _ length ih =>
        intro earlier listed later measured cut passes
        have registered : ∀ other ∈ earlier, Registered mgr other.name := by
          intro other member
          obtain ⟨first, second, rfl⟩ := List.append_of_mem member
          refine registered_of_available files (ih first.length ?_ first other
            (second ++ listed :: later) rfl (by simpa using cut)
            fun before place => passes before (by simp [place]))
          rw [← measured, List.length_append, List.length_cons]
          omega
        subst cut
        obtain ⟨asks, calls, made, member, named⟩ := installLoop_asks passes registered
        have same : more = asks := List.append_cancel_left (new.symm.trans calls)
        exact named ▸ about made (same ▸ member)
  rintro listed ⟨earlier, later, cut, passes⟩
  exact upTo _ earlier listed later rfl cut passes

theorem reached_of_none (none : ∀ listed ∈ modules, ¬ Stops listModuleFeatures listed)
    {listed : ListedModule} (member : listed ∈ modules) :
    Reached listModuleFeatures modules listed := by
  obtain ⟨earlier, later, rfl⟩ := List.append_of_mem member
  exact ⟨earlier, later, rfl, fun other place => none other (by simp [place])⟩

theorem enabled_of_passes {listed : ListedModule} (passes : ¬ Stops listModuleFeatures listed)
    (installed : Installed listed) : Enabled listModuleFeatures listed := by
  by_contra refuses
  exact passes (Or.inr ⟨installed, refuses⟩)

theorem not_good_of_stops {listed : ListedModule} (stops : Stops listModuleFeatures listed) :
    ¬ (Installed listed ∧ Enabled listModuleFeatures listed) := by
  rintro ⟨installed, enabled⟩
  exact not_stops_of_enabled installed enabled stops

theorem isFeatureEnabled_of_grows {property : String → Prop} {after : YangModuleMgr}
    (grows : Grows property mgr after) (name feature : String) :
    after.isFeatureEnabled name feature = mgr.isFeatureEnabled name feature := by
  rw [isFeatureEnabled_eq, isFeatureEnabled_eq, grows.2]

/-- How the installation ends where the loop gets to available modules only. -/
theorem installModules_spec
    (available : ∀ listed, Reached listModuleFeatures modules listed →
      Available files mgr listed.name) :
    Grows (Available files mgr) mgr
        (finalState (installModules files listModuleFeatures modules mgr)) ∧
      ((∃ after, installModules files listModuleFeatures modules mgr = .ok .OK after) ↔
        (∀ listed ∈ modules, ¬ Stops listModuleFeatures listed) ∧
          (modules = [] ∨ ∃ listed ∈ modules, Installed listed)) ∧
      ∀ after, installModules files listModuleFeatures modules mgr ≠ .error .nullPointer after := by
  have spec : Ends listModuleFeatures modules .FAIL 0 (installLoop listModuleFeatures modules
      (getModuleNamesAvailable files mgr) .FAIL 0 mgr) ∧
    Grows (Available files mgr) mgr (finalState (installLoop listModuleFeatures modules
      (getModuleNamesAvailable files mgr) .FAIL 0 mgr)) :=
    installLoop_spec available fun name => registered_of_available files
  obtain ⟨ends, grows⟩ := spec
  rw [finalState_installModules, installModules_apply]
  refine ⟨grows, ?_⟩
  generalize installLoop listModuleFeatures modules (getModuleNamesAvailable files mgr) .FAIL 0
    mgr = run at ends
  cases ends with
  | through after last added none most all some kept =>
      have returned : (if 0 + added = modules.length then YangResult.OK else last) = .OK ↔
          modules = [] ∨ ∃ listed ∈ modules, Installed listed := by
        rw [Nat.zero_add]
        by_cases every : added = modules.length
        · refine iff_of_true (if_pos every) ?_
          rcases modules with _ | ⟨listed, modules⟩
          · exact Or.inl rfl
          · exact Or.inr ⟨listed, by simp, all.mp every listed (by simp)⟩
        · rw [if_neg every]
          constructor
          · intro ok
            right
            by_contra uninstalled
            push Not at uninstalled
            exact absurd ((kept uninstalled).symm.trans ok) (by decide)
          · rintro (rfl | installed)
            · exact absurd (Nat.le_zero.mp most) every
            · exact some installed
      refine ⟨?_, by simp⟩
      rw [and_iff_right none, ← returned]
      simp
  | stopped after added stops fewer =>
      obtain ⟨listed, member, stops⟩ := stops
      have short : added ≠ modules.length := by omega
      refine ⟨iff_of_false ?_ fun every => every.1 listed member stops, by simp⟩
      simp [short]
  | thrown after exception stops =>
      obtain ⟨listed, member, stops⟩ := stops
      exact ⟨iff_of_false (by simp) fun every => every.1 listed member stops, by simp⟩

theorem right_of_uneventful (uneventful : Uneventful files listModuleFeatures mgr modules) :
    Right files listModuleFeatures mgr modules := by
  obtain ⟨grows, returns, pointers⟩ := installModules_spec uneventful.available
  have good : (∃ after, installModules files listModuleFeatures modules mgr = .ok .OK after) →
      ∀ listed ∈ modules, Installed listed ∧ Enabled listModuleFeatures listed := by
    intro returned
    obtain ⟨none, some⟩ := returns.mp returned
    rcases uneventful.together none with every | uninstalled
    · exact fun listed member => ⟨every listed member,
        enabled_of_passes (none listed member) (every listed member)⟩
    · rcases some with rfl | ⟨listed, member, installed⟩
      · simp
      · exact absurd installed (uninstalled listed member)
  refine ⟨⟨fun returned listed member => ?_, fun every => ?_⟩, grows.1, pointers, ?_⟩
  · obtain ⟨none, -⟩ := returns.mp returned
    exact ⟨uneventful.available listed (reached_of_none none member), good returned listed member⟩
  · refine returns.mpr ⟨fun listed member stops =>
      not_good_of_stops stops (every listed member).2, ?_⟩
    rcases modules with _ | ⟨listed, modules⟩
    · exact Or.inl rfl
    · exact Or.inr ⟨listed, by simp, (every listed (by simp)).2.1⟩
  · intro after returned listed member feature
    rw [returned, finalState_ok] at grows
    rw [isFeatureEnabled_of_grows grows]
    exact uneventful.features (good ⟨after, returned⟩) listed member feature

theorem uneventful_of_right (right : Right files listModuleFeatures mgr modules) :
    Uneventful files listModuleFeatures mgr modules := by
  have available := available_of_calls right.calls
  obtain ⟨grows, returns, -⟩ := installModules_spec available
  refine ⟨available, fun none => ?_, fun good => ?_⟩
  · by_cases some : ∃ listed ∈ modules, Installed listed
    · left
      have returned := returns.mpr ⟨none, Or.inr some⟩
      exact fun listed member => (right.result.mp returned listed member).2.1
    · right
      push Not at some
      exact some
  · obtain ⟨after, returned⟩ := right.result.mpr fun listed member =>
      ⟨available listed (reached_of_none (fun other place stops =>
        not_good_of_stops stops (good other place)) member), good listed member⟩
    intro listed member feature
    rw [returned, finalState_ok] at grows
    rw [← isFeatureEnabled_of_grows grows]
    exact right.features after returned listed member feature

end Installing

section Result

variable (files : Files) (listModuleFeatures : String → StdMap Bool)

/-- The modules are installed as the caller is told in exactly the uneventful cases. -/
theorem right_iff_uneventful (mgr : YangModuleMgr) (modules : List ListedModule) :
    Right files listModuleFeatures mgr modules ↔
      Uneventful files listModuleFeatures mgr modules :=
  ⟨uneventful_of_right, right_of_uneventful⟩

end Result

/-- A manager with two modules whose files are there. -/
def twoModules : YangModuleMgr :=
  ⟨"/yang", ["ietf-ip", "ietf-hardware"],
    (∅ : StdMap (Option YangModule)).insert "ietf-ip" (some ⟨"ietf-ip.yang", false, ∅⟩)
      |>.insert "ietf-hardware" (some ⟨"ietf-hardware.yang", false, ∅⟩), []⟩

def allFiles : Files := ⟨fun _ => true, fun _ => true⟩

/-- The first module is installed, and the second one is not. -/
def secondRefused : List ListedModule :=
  [⟨"ietf-ip", .ok .OK, fun _ => .ok .OK⟩, ⟨"ietf-hardware", .ok .FAIL, fun _ => .ok .OK⟩]

/-- A refused module goes unnoticed behind one that is installed. -/
theorem refused_module_goes_unnoticed :
    ¬ Right allFiles (fun _ => ∅) twoModules secondRefused := by
  intro right
  have result : (match installModules allFiles (fun _ => ∅) secondRefused twoModules with
      | .ok result _ => some result
      | .error _ _ => none) = some .OK := by decide +kernel
  have returned : ∃ after, installModules allFiles (fun _ => ∅) secondRefused twoModules =
      .ok .OK after := by
    cases run : installModules allFiles (fun _ => ∅) secondRefused twoModules with
    | ok value after =>
        rw [run] at result
        exact ⟨after, by rw [Option.some.inj result]⟩
    | error exception after =>
        rw [run] at result
        contradiction
  have installed := (right.result.mp returned ⟨"ietf-hardware", .ok .FAIL, fun _ => .ok .OK⟩
    (by simp [secondRefused])).2.1
  exact absurd (Except.ok.inj installed) (by decide)

end Runs

end YangModuleMgr

end OpenMplane
