import OpenMplane.FileConfigBase

/-!
# Cleaning a configuration and setting its variables

`clean` removes what the defaults do not name while its loops stand on it: the loop over the
global variables and the loop over the sections go on from an entry that has just been
erased.  Only the loop over the variables of one section goes through a copy.  Setting a
variable changes that variable alone.
-/

namespace OpenMplane

open ListCut

namespace FileConfigBase

/-- The variables of a section that the defaults name. -/
def kept (defaults : StdMap String) (sect : String) (entries : StdMap String) : StdMap String :=
  entries.filter fun name _ => decide (toPath sect name ∈ defaults)

/-- What `clean` is to do: the global variables and those of the sections that the defaults
name remain with their values, and so do the sections that still have some. -/
structure CleanedTo (config cleaned : FileConfigBase) : Prop where
  globals : ∀ name, cleaned.mGlobals[name]? =
    if name ∈ config.mDefaults then config.mGlobals[name]? else none
  sections : ∀ sect, cleaned.mSections[sect]? = (config.mSections[sect]?).bind fun entries =>
    if (kept config.mDefaults sect entries).isEmpty then none
    else some (kept config.mDefaults sect entries)

/-- The value that a variable has in its own scope, the global one or a section. -/
def own (config : FileConfigBase) (scope : Option String) (name : String) : Option String :=
  match scope with
  | none => config.mGlobals[name]?
  | some sect => (config.mSections[sect]?).bind fun entries => entries[name]?

/-- The scope and the variable that a name is for. -/
def scopeAndName (varname : String) : Option String × String :=
  match nameIsPath varname with
  | some (sect, sectionVarname) => (some sect, sectionVarname)
  | none => (none, varname)

/-- All variables but one are the same in their own scopes. -/
def SameOthers (config after : FileConfigBase) (changed : Option String × String) : Prop :=
  ∀ scope name, (scope, name) ≠ changed → after.own scope name = config.own scope name

/-- What is expected of a configuration. -/
structure Handles (config : FileConfigBase) : Prop where
  cleans : ∃ cleaned, config.clean = some (true, cleaned) ∧ CleanedTo config cleaned
  sets : ∀ varname v, (config.setValue varname v).value varname = v ∧
    SameOthers config (config.setValue varname v) (scopeAndName varname)
  setsIn : ∀ sect varname v, (config.setValueIn sect varname v).valueIn sect varname = v ∧
    SameOthers config (config.setValueIn sect varname v) (some sect, varname)
  modifies : ∀ varname v after, config.modifyValue varname v = (true, after) →
    after.value varname = v ∧ SameOthers config after (scopeAndName varname)
  modifiesIn : ∀ sect varname v after, config.modifyValueIn sect varname v = (true, after) →
    after.valueIn sect varname = v ∧ SameOthers config after (some sect, varname)

/-- Nothing that a loop stands on is to be removed. -/
structure NothingToErase (config : FileConfigBase) : Prop where
  globals : ∀ name ∈ config.mGlobals, name ∈ config.mDefaults
  sections : ∀ sect entries, config.mSections[sect]? = some entries →
    ∃ name ∈ entries, toPath sect name ∈ config.mDefaults

variable {config : FileConfigBase} {sect varname name : String} {entries : StdMap String}
variable {defaults : StdMap String}

section Globals

/-- The loop over the global variables gets through when all are named. -/
theorem forEntries_cleanGlobal {list : List (String × String)}
    (held : ∀ entry ∈ list, entry.1 ∈ config.mGlobals) :
    forEntries mGlobals cleanGlobal list config =
      if ∀ entry ∈ list, entry.1 ∈ config.mDefaults then some config else none := by
  induction list with
  | nil => simp [forEntries]
  | cons entry list ih =>
      have here := held entry (by simp)
      have later := ih fun other member => held other (List.mem_cons_of_mem entry member)
      by_cases named : entry.1 ∈ config.mDefaults
      · have same : cleanGlobal config entry = config := if_pos named
        rw [forEntries, same, if_pos here, later]
        exact if_congr (by rw [List.forall_mem_cons, and_iff_right named]) rfl rfl
      · have erased : cleanGlobal config entry =
            { config with mGlobals := config.mGlobals.erase entry.1 } := if_neg named
        have gone : entry.1 ∉ (cleanGlobal config entry).mGlobals := by
          rw [erased]
          exact fun member => (Std.ExtTreeMap.mem_erase.mp member).1 Std.ReflCmp.compare_self
        rw [forEntries, if_neg gone, if_neg fun all => named (all entry (by simp))]

end Globals

section Sections

/-- What is left of a section when the variables of a list are looked at. -/
def keptFrom (defaults : StdMap String) (sect : String) (entries : StdMap String)
    (list : List (String × String)) : StdMap String :=
  list.foldl (fun left entry =>
    if toPath sect entry.1 ∈ defaults then left else left.erase entry.1) entries

theorem getElem?_keptFrom {list : List (String × String)} :
    (keptFrom defaults sect entries list)[name]? =
      if toPath sect name ∉ defaults ∧ ∃ entry ∈ list, entry.1 = name then none
      else entries[name]? := by
  induction list generalizing entries with
  | nil => simp [keptFrom]
  | cons entry list ih =>
      rw [keptFrom, List.foldl_cons, ← keptFrom, ih]
      by_cases same : entry.1 = name
      · by_cases named : toPath sect name ∈ defaults
        · simp [same, named]
        · simp [same, named]
      · have others : (∃ other ∈ entry :: list, other.1 = name) ↔
            ∃ other ∈ list, other.1 = name := by simp [same]
        have left : (if toPath sect entry.1 ∈ defaults then entries
            else entries.erase entry.1)[name]? = entries[name]? := by
          split
          · rfl
          · rw [Std.ExtTreeMap.getElem?_erase, if_neg fun equal =>
              same (Std.LawfulEqCmp.eq_of_compare equal)]
        rw [left]
        exact if_congr (and_congr_right fun _ => others.symm) rfl rfl

theorem keptFrom_toList : keptFrom defaults sect entries entries.toList =
    kept defaults sect entries := by
  refine Std.ExtTreeMap.ext_getElem? fun name => ?_
  rw [getElem?_keptFrom, kept, Std.ExtTreeMap.getElem?_filter']
  cases held : entries[name]? with
  | none => simp
  | some value =>
      have member := Std.ExtTreeMap.mem_toList_iff_getElem?_eq_some.mpr held
      by_cases named : toPath sect name ∈ defaults
      · simp [named, Option.filter]
      · rw [if_pos ⟨named, (name, value), member, rfl⟩]
        simp [named, Option.filter]

/-- The loop over the variables of a section removes those that are not named. -/
theorem foldl_cleanEntry {list : List (String × String)}
    (held : config.mSections[sect]? = some entries) :
    list.foldl (cleanEntry sect) config =
      { config with
        mSections := config.mSections.insert sect
          (keptFrom config.mDefaults sect entries list) } := by
  induction list generalizing config entries with
  | nil =>
      have same := OrderedEntries.insert_of_getElem? config.mSections held
      rw [keptFrom, List.foldl_nil, List.foldl_nil, same]
  | cons entry list ih =>
      rw [List.foldl_cons, keptFrom, List.foldl_cons, ← keptFrom]
      by_cases named : toPath sect entry.1 ∈ config.mDefaults
      · have same : cleanEntry sect config entry = config := if_pos named
        rw [same, ih held, if_pos named]
      · have erased : cleanEntry sect config entry =
            { config with
              mSections := config.mSections.insert sect (entries.erase entry.1) } := by
          rw [cleanEntry, if_neg named, held, Option.getD_some]
        have now : (cleanEntry sect config entry).mSections[sect]? =
            some (entries.erase entry.1) := by
          rw [erased, Std.ExtTreeMap.getElem?_insert_self]
        rw [ih now, erased, if_neg named]
        simp only [OrderedEntries.insert_insert]

/-- A section in which something is named keeps that, and any other is removed. -/
theorem cleanSection_eq (held : config.mSections[sect]? = some entries) :
    cleanSection config (sect, entries) =
      if (kept config.mDefaults sect entries).isEmpty then
        { config with mSections := config.mSections.erase sect }
      else
        { config with
          mSections := config.mSections.insert sect (kept config.mDefaults sect entries) } := by
  rw [cleanSection, foldl_cleanEntry held, keptFrom_toList]
  simp only [Std.ExtTreeMap.getElem?_insert_self, Option.getD_some]
  refine if_congr Iff.rfl ?_ rfl
  have same : (config.mSections.insert sect (kept config.mDefaults sect entries)).erase sect =
      config.mSections.erase sect := by
    refine Std.ExtTreeMap.ext_getElem? fun other => ?_
    simp only [Std.ExtTreeMap.getElem?_erase, Std.ExtTreeMap.getElem?_insert]
    split <;> rfl
  rw [same]

/-- The loop over the sections gets through when something is named in each of them. -/
theorem forEntries_cleanSection {list : List (String × StdMap String)}
    (distinct : list.Pairwise fun first second => ¬compare first.1 second.1 = .eq)
    (held : ∀ group ∈ list, config.mSections[group.1]? = some group.2) :
    forEntries mSections cleanSection list config =
      if ∀ group ∈ list, (kept config.mDefaults group.1 group.2).isEmpty = false then
        some { config with
          mSections := config.mSections.insertMany
            (list.map fun group => (group.1, kept config.mDefaults group.1 group.2)) }
      else none := by
  induction list generalizing config with
  | nil => simp [forEntries]
  | cons group list ih =>
      obtain ⟨apart, distinct⟩ := List.pairwise_cons.mp distinct
      have here := cleanSection_eq (held group (by simp))
      rw [forEntries]
      cases empty : (kept config.mDefaults group.1 group.2).isEmpty with
      | true =>
          rw [empty, if_pos rfl] at here
          have gone : group.1 ∉ (cleanSection config group).mSections := by
            rw [here]
            exact fun member => (Std.ExtTreeMap.mem_erase.mp member).1 Std.ReflCmp.compare_self
          rw [if_neg gone, if_neg fun all => by simpa [empty] using all group (by simp)]
      | false =>
          rw [empty, if_neg (by simp)] at here
          have stays : group.1 ∈ (cleanSection config group).mSections := by
            rw [here]
            exact Std.ExtTreeMap.mem_insert_self
          have later : ∀ other ∈ list,
              (cleanSection config group).mSections[other.1]? = some other.2 := by
            intro other member
            rw [here, Std.ExtTreeMap.getElem?_insert, if_neg (apart other member)]
            exact held other (List.mem_cons_of_mem group member)
          have all : (∀ other ∈ group :: list,
              (kept config.mDefaults other.1 other.2).isEmpty = false) ↔
              ∀ other ∈ list, (kept config.mDefaults other.1 other.2).isEmpty = false := by
            rw [List.forall_mem_cons, and_iff_right empty]
          rw [if_pos stays, ih distinct later, here]
          refine if_congr all.symm ?_ rfl
          rw [List.map_cons, Std.ExtTreeMap.insertMany_cons]

theorem getElem?_insertMany_kept (sections : StdMap (StdMap String)) :
    (sections.insertMany
      (sections.toList.map fun group => (group.1, kept defaults group.1 group.2)))[sect]? =
      (sections[sect]?).map (kept defaults sect) := by
  cases held : sections[sect]? with
  | none =>
      rw [Std.ExtTreeMap.getElem?_insertMany_list_of_contains_eq_false, held]
      · rfl
      · have keys : (sections.toList.map fun group =>
            (group.1, kept defaults group.1 group.2)).map Prod.fst = sections.keys := by
          rw [List.map_map, ← Std.ExtTreeMap.map_fst_toList_eq_keys]
          rfl
        rw [keys]
        simpa [← Std.ExtTreeMap.contains_iff_mem] using held
  | some entries =>
      have member := Std.ExtTreeMap.mem_toList_iff_getElem?_eq_some.mpr held
      refine Std.ExtTreeMap.getElem?_insertMany_list_of_mem Std.ReflCmp.compare_self ?_
        (List.mem_map.mpr ⟨(sect, entries), member, rfl⟩)
      exact List.pairwise_map.mpr sections.distinct_keys_toList

end Sections

section Clean

/-- All that a loop of `clean` stands on is named. -/
theorem nothingToErase_iff : NothingToErase config ↔
    (∀ entry ∈ config.mGlobals.toList, entry.1 ∈ config.mDefaults) ∧
      ∀ group ∈ config.mSections.toList,
        (kept config.mDefaults group.1 group.2).isEmpty = false := by
  have some_kept : ∀ sect (entries : StdMap String),
      (kept config.mDefaults sect entries).isEmpty = false ↔
        ∃ name ∈ entries, toPath sect name ∈ config.mDefaults := by
    intro sect entries
    rw [← Std.ExtTreeMap.isEmpty_toList, kept, Std.ExtTreeMap.toList_filter,
      List.isEmpty_eq_false_iff_exists_mem]
    constructor
    · rintro ⟨entry, member⟩
      obtain ⟨inList, named⟩ := List.mem_filter.mp member
      exact ⟨entry.1, OrderedEntries.mem_of_mem_toList entries inList, of_decide_eq_true named⟩
    · rintro ⟨name, member, named⟩
      obtain ⟨value, inList⟩ := OrderedEntries.exists_mem_toList entries member
      exact ⟨(name, value), List.mem_filter.mpr ⟨inList, decide_eq_true named⟩⟩
  constructor
  · intro nothing
    refine ⟨fun entry member => nothing.globals entry.1 ?_, fun group member => ?_⟩
    · exact OrderedEntries.mem_of_mem_toList config.mGlobals member
    · exact (some_kept _ _).mpr
        (nothing.sections _ _ (Std.ExtTreeMap.mem_toList_iff_getElem?_eq_some.mp member))
  · rintro ⟨globals, sections⟩
    refine ⟨fun name member => ?_, fun sect entries held => ?_⟩
    · obtain ⟨value, inList⟩ := OrderedEntries.exists_mem_toList config.mGlobals member
      exact globals (name, value) inList
    · exact (some_kept _ _).mp
        (sections (sect, entries) (Std.ExtTreeMap.mem_toList_iff_getElem?_eq_some.mpr held))

/-- `clean` comes to its end exactly when nothing that a loop stands on is to be removed. -/
theorem clean_eq (hasDefaults : config.mDefaults ≠ ∅) :
    (NothingToErase config → config.clean = some (true, { config with
      mSections := config.mSections.insertMany (config.mSections.toList.map fun group =>
        (group.1, kept config.mDefaults group.1 group.2)) })) ∧
      (config.clean.isSome = true → NothingToErase config) := by
  have nonempty : ¬config.mDefaults.isEmpty = true := by
    rw [Std.ExtTreeMap.isEmpty_iff]
    exact hasDefaults
  have heldGlobals : ∀ entry ∈ config.mGlobals.toList, entry.1 ∈ config.mGlobals :=
    fun entry member => OrderedEntries.mem_of_mem_toList config.mGlobals member
  have heldSections : ∀ group ∈ config.mSections.toList,
      config.mSections[group.1]? = some group.2 := fun group member =>
    Std.ExtTreeMap.mem_toList_iff_getElem?_eq_some.mp member
  rw [nothingToErase_iff, clean, if_neg nonempty, forEntries_cleanGlobal heldGlobals]
  by_cases globals : ∀ entry ∈ config.mGlobals.toList, entry.1 ∈ config.mDefaults
  · rw [if_pos globals, Option.bind_some,
      forEntries_cleanSection config.mSections.distinct_keys_toList heldSections]
    refine ⟨fun nothing => by rw [if_pos nothing.2]; rfl, fun defined => ⟨globals, ?_⟩⟩
    by_contra removed
    rw [if_neg removed] at defined
    cases defined
  · rw [if_neg globals]
    exact ⟨fun nothing => absurd nothing.1 globals, fun defined => by cases defined⟩

/-- When nothing is to be removed where a loop stands, all else that is to be removed is. -/
theorem cleanedTo_of_nothingToErase (nothing : NothingToErase config) :
    CleanedTo config { config with
      mSections := config.mSections.insertMany (config.mSections.toList.map fun group =>
        (group.1, kept config.mDefaults group.1 group.2)) } := by
  refine ⟨fun name => ?_, fun sect => ?_⟩
  · by_cases named : name ∈ config.mDefaults
    · rw [if_pos named]
    · rw [if_neg named]
      have absent : name ∉ config.mGlobals := fun member => named (nothing.globals name member)
      exact Std.ExtTreeMap.getElem?_eq_none absent
  · rw [getElem?_insertMany_kept]
    cases held : config.mSections[sect]? with
    | none => rfl
    | some entries =>
        have member := Std.ExtTreeMap.mem_toList_iff_getElem?_eq_some.mpr held
        have some_kept := (nothingToErase_iff.mp nothing).2 (sect, entries) member
        rw [Option.map_some, Option.bind_some, if_neg (by rw [some_kept]; simp)]

end Clean

section Setting

variable {v : String}

theorem findIn_setValueIn :
    (config.setValueIn sect varname v).findIn sect varname = some v := by
  rw [findIn, setValueIn]
  simp

theorem own_setValueIn : SameOthers config (config.setValueIn sect varname v)
    (some sect, varname) := by
  intro scope name different
  cases scope with
  | none => rfl
  | some other =>
      simp only [own, setValueIn, Std.ExtTreeMap.getElem?_insert]
      split
      · next same =>
          obtain rfl := Std.LawfulEqCmp.eq_of_compare same
          have apart : ¬compare varname name = .eq := by
            intro equal
            rw [Std.LawfulEqCmp.eq_of_compare equal] at different
            exact different rfl
          rw [Option.bind_some, Std.ExtTreeMap.getElem?_insert, if_neg apart]
          cases config.mSections[sect]? with
          | none => simp
          | some entries => rfl
      · rfl

theorem find_setValue : (config.setValue varname v).find varname = some v := by
  rw [find, setValue]
  cases nameIsPath varname with
  | none => simp
  | some split => exact findIn_setValueIn

theorem own_setValue : SameOthers config (config.setValue varname v) (scopeAndName varname) := by
  rw [setValue, scopeAndName]
  cases nameIsPath varname with
  | some split => exact own_setValueIn
  | none =>
      intro scope name different
      cases scope with
      | some sect => rfl
      | none =>
          have apart : ¬compare varname name = .eq := by
            intro equal
            rw [Std.LawfulEqCmp.eq_of_compare equal] at different
            exact different rfl
          simp only [own, Std.ExtTreeMap.getElem?_insert, if_neg apart]

/-- A change that succeeds is the setting of the value. -/
theorem eq_of_modified {condition : Bool} {changed after : FileConfigBase}
    (modified : (if condition = true then (true, changed) else (false, config)) = (true, after)) :
    after = changed := by
  cases condition with
  | true => exact (Prod.mk.inj modified).2.symm
  | false => cases modified

end Setting

/-- A configuration with defaults is cleaned, and its variables are set, as expected exactly
when `clean` has nothing to remove that one of its loops stands on. -/
theorem handles_iff (config : FileConfigBase) (hasDefaults : config.mDefaults ≠ ∅) :
    Handles config ↔ NothingToErase config := by
  have cleaned := clean_eq hasDefaults
  constructor
  · intro handles
    obtain ⟨after, defined, -⟩ := handles.cleans
    exact cleaned.2 (by rw [defined]; rfl)
  · intro nothing
    have setsAll : ∀ varname v, (config.setValue varname v).value varname = v ∧
        SameOthers config (config.setValue varname v) (scopeAndName varname) := by
      intro varname v
      exact ⟨by rw [value, find_setValue, Option.getD_some], own_setValue⟩
    have setsAllIn : ∀ sect varname v,
        (config.setValueIn sect varname v).valueIn sect varname = v ∧
          SameOthers config (config.setValueIn sect varname v) (some sect, varname) := by
      intro sect varname v
      exact ⟨by rw [valueIn, findIn_setValueIn, Option.getD_some], own_setValueIn⟩
    refine ⟨⟨_, cleaned.1 nothing, cleanedTo_of_nothingToErase nothing⟩, setsAll, setsAllIn, ?_, ?_⟩
    · intro varname v after modified
      rw [eq_of_modified modified]
      exact setsAll varname v
    · intro sect varname v after modified
      rw [eq_of_modified modified]
      exact setsAllIn sect varname v

/-- A configuration whose defaults name its global variable and one of the two variables
of its section. -/
def networked : FileConfigBase :=
  ⟨"config", true, "", (∅ : StdMap String).insert "a" "1",
    (∅ : StdMap (StdMap String)).insert "net"
      (((∅ : StdMap String).insert "ip" "10.0.0.1").insert "old" "x"),
    ((∅ : StdMap String).insert "a" "0").insert "net/ip" ""⟩

theorem handles_networked : networked.mDefaults ≠ ∅ ∧ Handles networked := by
  have hasDefaults : networked.mDefaults ≠ ∅ := by
    intro none
    have member : "net/ip" ∈ networked.mDefaults := Std.ExtTreeMap.mem_insert_self
    rw [none] at member
    exact Std.ExtTreeMap.not_mem_empty member
  have nothing : NothingToErase networked := nothingToErase_iff.mpr (by decide +kernel)
  exact ⟨hasDefaults, (handles_iff networked hasDefaults).mpr nothing⟩

/-- A configuration with a variable that the defaults do not name. -/
def unnamed : FileConfigBase :=
  ⟨"config", true, "", (∅ : StdMap String).insert "b" "1", ∅, (∅ : StdMap String).insert "a" "0"⟩

/-- The loop over the global variables goes on from one that it has erased. -/
theorem clean_erases_where_it_stands :
    ¬ ∀ config : FileConfigBase, config.mDefaults ≠ ∅ → Handles config := by
  intro always
  have hasDefaults : unnamed.mDefaults ≠ ∅ := by
    intro none
    have member : "a" ∈ unnamed.mDefaults := Std.ExtTreeMap.mem_insert_self
    rw [none] at member
    exact Std.ExtTreeMap.not_mem_empty member
  obtain ⟨after, defined, -⟩ := (always unnamed hasDefaults).cleans
  have nothing := (clean_eq hasDefaults).2 (by rw [defined]; rfl)
  have isDefault := nothing.globals "b" Std.ExtTreeMap.mem_insert_self
  rcases Std.ExtTreeMap.mem_insert.mp isDefault with same | member
  · exact absurd same (by decide)
  · exact Std.ExtTreeMap.not_mem_empty member

end FileConfigBase

end OpenMplane
