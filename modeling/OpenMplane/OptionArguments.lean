import Mathlib.Data.List.Nodup
import OpenMplane.AppOptions

/-!
# Arguments of an application

How the arguments of the program are read for options of the three types, and what the options
are worth in the end.  Every row of arguments is either parted into the occurrences of options,
each of them with the value it takes, or it stops the program at the first argument that is at
fault.  An option is worth what the last of its occurrences made of it; when this leaves it
unset, its variable of the environment counts, and then its default.
-/

namespace OpenMplane

open NumeralText

/-- An option of the server. -/
structure OptionEntry where
  name : String
  type : OptionType
  defaultValue : List Char
  useEnvVar : List Char

/-- An option where it occurs among the arguments, and the value that it takes. -/
abbrev Occurrence := String × Option (List Char)

namespace OptionEntry

/-- The default that counts: a truth value has one. -/
def default (entry : OptionEntry) : List Char :=
  if entry.defaultValue = [] ∧ entry.type = .bool then "false".toList else entry.defaultValue

/-- A truth value that is named is the opposite of its default. -/
def opposite (entry : OptionEntry) : Bool :=
  if strIsBool entry.default then !strToBool entry.default else true

/-- What an occurrence makes of the option. -/
def take (entry : OptionEntry) (held : Held) (occurrence : Occurrence) : Held :=
  if occurrence.1 = entry.name then
    match occurrence.2 with
    | none => ⟨some (.bool entry.opposite), []⟩
    | some text => held.give entry.type text
  else held

/-- What the environment makes of an option that is not set. -/
def takeEnv (getenv : List Char → Option (List Char)) (entry : OptionEntry) (held : Held) : Held :=
  if held.value.isSome ∨ entry.useEnvVar = [] then held
  else match getenv entry.useEnvVar with
    | some env => held.give entry.type env
    | none => held

/-- What the default makes of an option that is still not set. -/
def takeDefault (entry : OptionEntry) (held : Held) : Held :=
  if held.value.isSome ∨ entry.default = [] then held else held.give entry.type entry.default

/-- What the option is worth in the end. -/
def worth (getenv : List Char → Option (List Char)) (entry : OptionEntry)
    (occurrences : List Occurrence) : Option OptionValue :=
  (entry.takeDefault (entry.takeEnv getenv (occurrences.foldl entry.take .unset))).value

end OptionEntry

/-- Options with names of their own. -/
structure OptionList where
  entries : List OptionEntry
  distinct : (entries.map OptionEntry.name).Nodup

namespace OptionList

/-- An argument with a name behind its dashes. -/
def Names (arg : List Char) (name : String) : Prop :=
  ∃ dashes letters, arg = '-' :: (dashes ++ letters) ∧ (∀ dash ∈ dashes, dash = '-') ∧
    letters ≠ [] ∧ letters.head? ≠ some '-' ∧ name = String.ofList letters

/-- The arguments are read: each option takes its value with it, if it is no truth value. -/
inductive Parsed (options : OptionList) : List (List Char) → List Occurrence → Prop
  | nil : Parsed options [] []
  | plain {arg : List Char} {rest : List (List Char)} {occurrences : List Occurrence}
      (noDash : arg.head? ≠ some '-') (later : Parsed options rest occurrences) :
      Parsed options (arg :: rest) occurrences
  | flag {arg : List Char} {rest : List (List Char)} {occurrences : List Occurrence}
      {entry : OptionEntry} (names : Names arg entry.name) (noHelp : entry.name ≠ "help")
      (member : entry ∈ options.entries) (isBool : entry.type = .bool)
      (later : Parsed options rest occurrences) :
      Parsed options (arg :: rest) ((entry.name, none) :: occurrences)
  | valued {arg value : List Char} {rest : List (List Char)} {occurrences : List Occurrence}
      {entry : OptionEntry} (names : Names arg entry.name) (noHelp : entry.name ≠ "help")
      (member : entry ∈ options.entries) (noBool : entry.type ≠ .bool)
      (later : Parsed options rest occurrences) :
      Parsed options (arg :: value :: rest) ((entry.name, some value) :: occurrences)

/-- The arguments stop the program. -/
inductive Stops (options : OptionList) : List (List Char) → OptionsEnd → Prop
  | dashes {arg : List Char} {rest : List (List Char)} (nonempty : arg ≠ [])
      (only : ∀ letter ∈ arg, letter = '-') : Stops options (arg :: rest) .out_of_range
  | help {arg : List Char} {rest : List (List Char)} (names : Names arg "help") :
      Stops options (arg :: rest) (.exit 0)
  | unknown {arg : List Char} {rest : List (List Char)} {name : String} (names : Names arg name)
      (noHelp : name ≠ "help") (unknown : ∀ entry ∈ options.entries, entry.name ≠ name) :
      Stops options (arg :: rest) (.exit 1)
  | missing {arg : List Char} {entry : OptionEntry} (names : Names arg entry.name)
      (noHelp : entry.name ≠ "help") (member : entry ∈ options.entries)
      (noBool : entry.type ≠ .bool) : Stops options [arg] (.exit 1)
  | plain {arg : List Char} {rest : List (List Char)} {reason : OptionsEnd}
      (noDash : arg.head? ≠ some '-') (later : Stops options rest reason) :
      Stops options (arg :: rest) reason
  | flag {arg : List Char} {rest : List (List Char)} {reason : OptionsEnd} {entry : OptionEntry}
      (names : Names arg entry.name) (noHelp : entry.name ≠ "help")
      (member : entry ∈ options.entries) (isBool : entry.type = .bool)
      (later : Stops options rest reason) : Stops options (arg :: rest) reason
  | valued {arg value : List Char} {rest : List (List Char)} {reason : OptionsEnd}
      {entry : OptionEntry} (names : Names arg entry.name) (noHelp : entry.name ≠ "help")
      (member : entry ∈ options.entries) (noBool : entry.type ≠ .bool)
      (later : Stops options rest reason) : Stops options (arg :: value :: rest) reason

variable {options : OptionList} {args : List (List Char)} {arg : List Char} {name : String}

theorem eq_of_name {first second : OptionEntry} (inFirst : first ∈ options.entries)
    (inSecond : second ∈ options.entries) (same : first.name = second.name) : first = second :=
  List.inj_on_of_nodup_map options.distinct inFirst inSecond same

theorem dropWhile_of_names (names : Names arg name) :
    arg.head? = some '-' ∧ arg.all (· = '-') = false ∧
      String.ofList (arg.dropWhile (· = '-')) = name := by
  obtain ⟨dashes, letters, rfl, only, nonempty, first, rfl⟩ := names
  have passes : ∀ dash ∈ '-' :: dashes, decide (dash = '-') = true := by
    intro dash member
    rcases List.mem_cons.mp member with rfl | inside
    · rfl
    · exact decide_eq_true (only dash inside)
  obtain ⟨letter, rest, rfl⟩ := List.exists_cons_of_ne_nil nonempty
  have other : letter ≠ '-' := fun same => first (congrArg some same)
  refine ⟨rfl, ?_, ?_⟩
  · have fails : (letter :: rest).all (· = '-') = false := by
      rw [List.all_cons, decide_eq_false other, Bool.false_and]
    rw [← List.cons_append, List.all_append, fails, Bool.and_false]
  · rw [← List.cons_append, List.dropWhile_append_of_pos passes,
      List.dropWhile_cons_of_neg (by simpa using other)]

/-- An argument that begins with a dash has only dashes or names something. -/
theorem dashes_or_names (dash : arg.head? = some '-') :
    (∀ letter ∈ arg, letter = '-') ∨ ∃ name, Names arg name := by
  cases arg with
  | nil => cases dash
  | cons first tail =>
      cases dash
      have parts : tail = tail.takeWhile (· = '-') ++ tail.dropWhile (· = '-') :=
        List.takeWhile_append_dropWhile.symm
      by_cases nothing : tail.dropWhile (· = '-') = []
      · refine Or.inl fun letter member => ?_
        rcases List.mem_cons.mp member with rfl | inside
        · rfl
        · exact of_decide_eq_true (List.dropWhile_eq_nil_iff.mp nothing letter inside)
      · refine Or.inr ⟨_, tail.takeWhile (· = '-'), tail.dropWhile (· = '-'),
          congrArg ('-' :: ·) parts, fun letter member => ?_, nothing, fun first => ?_, rfl⟩
        · have passes := @List.mem_takeWhile_imp _ (fun letter => decide (letter = '-')) _ _ member
          exact of_decide_eq_true passes
        · have stops := List.head?_dropWhile_not (· = '-') tail
          rw [first] at stops
          exact absurd stops (by decide)

/-- Every row of arguments is read, or it stops the program. -/
theorem parsed_or_stops (options : OptionList) (args : List (List Char)) :
    (∃ occurrences, Parsed options args occurrences) ∨ ∃ reason, Stops options args reason := by
  induction length : args.length using Nat.strongRecOn generalizing args with
  | ind size ih =>
      subst length
      cases args with
      | nil => exact Or.inl ⟨[], .nil⟩
      | cons arg rest =>
          have later := ih rest.length (Nat.lt_succ_self _) rest rfl
          by_cases dash : arg.head? = some '-'
          · rcases dashes_or_names dash with only | ⟨name, names⟩
            · have nonempty : arg ≠ [] := by
                rintro rfl
                cases dash
              exact Or.inr ⟨_, .dashes nonempty only⟩
            · by_cases isHelp : name = "help"
              · subst isHelp
                exact Or.inr ⟨_, .help names⟩
              · by_cases known : ∃ entry ∈ options.entries, entry.name = name
                · obtain ⟨entry, member, rfl⟩ := known
                  by_cases isBool : entry.type = .bool
                  · rcases later with ⟨occurrences, parsed⟩ | ⟨reason, stops⟩
                    · exact Or.inl ⟨_, .flag names isHelp member isBool parsed⟩
                    · exact Or.inr ⟨_, .flag names isHelp member isBool stops⟩
                  · cases rest with
                    | nil => exact Or.inr ⟨_, .missing names isHelp member isBool⟩
                    | cons value rest =>
                        have behind := ih rest.length (by simp only [List.length_cons]; omega) rest rfl
                        rcases behind with ⟨occurrences, parsed⟩ | ⟨reason, stops⟩
                        · exact Or.inl ⟨_, .valued names isHelp member isBool parsed⟩
                        · exact Or.inr ⟨_, .valued names isHelp member isBool stops⟩
                · exact Or.inr ⟨_, .unknown names isHelp fun entry member same =>
                    known ⟨entry, member, same⟩⟩
          · rcases later with ⟨occurrences, parsed⟩ | ⟨reason, stops⟩
            · exact Or.inl ⟨_, .plain dash parsed⟩
            · exact Or.inr ⟨_, .plain dash stops⟩

end OptionList

variable [FloatLib]

namespace OptionEntry

/-- The specification object of an option. -/
def spec (entry : OptionEntry) : AppOptionSpec where
  mUseEnvVar := entry.useEnvVar
  mDefault := entry.default
  mDataVariant :=
    { toDataVariantBase :=
        { DataVariantBase.construct entry.name.toList with
          mDv := DvTypeFactory.construct entry.type.dataType [] }
      mSet := false
      mIsVector := false
      mValues := []
      mNames := [] }

theorem construct_eq_spec (entry : OptionEntry) :
    AppOptionSpec.construct entry.name.toList entry.type.dataType entry.defaultValue
      entry.useEnvVar = some entry.spec := by
  obtain ⟨name, type, defaultValue, useEnvVar⟩ := entry
  have made : DataVariant.constructTyped type.dataType name.toList [] =
      some (spec ⟨name, type, defaultValue, useEnvVar⟩).mDataVariant := by
    cases type with
    | bool => rfl
    | int => rfl
    | string => rfl
  have isBool : (DvTypeFactory.construct type.dataType []).getType = .bool ↔ type = .bool := by
    rw [(Displays.construct type).getType]
    cases type with
    | bool => decide
    | int => decide
    | string => decide
  have counts : (if defaultValue = [] ∧ (DvTypeFactory.construct type.dataType []).getType = .bool
      then "false".toList else defaultValue) = default ⟨name, type, defaultValue, useEnvVar⟩ :=
    if_congr (and_congr_right fun _ => isBool) rfl rfl
  rw [AppOptionSpec.construct, made, spec, ← counts]
  rfl

/-- What an object keeps of an option that holds so much. -/
structure Keeps (entry : OptionEntry) (held : Held) (spec : AppOptionSpec) : Prop where
  mDefault : spec.mDefault = entry.default
  mUseEnvVar : spec.mUseEnvVar = entry.useEnvVar
  noVector : spec.mDataVariant.mSet = false
  shows : Displays entry.type held spec.mDataVariant.mDv

variable {entry : OptionEntry} {held : Held} {spec : AppOptionSpec}

theorem keeps_spec (entry : OptionEntry) : entry.Keeps .unset entry.spec :=
  ⟨rfl, rfl, rfl, Displays.construct entry.type⟩

namespace Keeps

theorem isSet (keeps : entry.Keeps held spec) : spec.mDataVariant.isSet = held.value.isSome := by
  rw [DataVariant.isSet, keeps.noVector, Bool.false_or]
  exact keeps.shows.isSet

theorem typed (keeps : entry.Keeps held spec) : spec.mDataVariant.mDv.getType ≠ .none := by
  rw [keeps.shows.getType]
  cases entry.type with
  | bool => decide
  | int => decide
  | string => decide

theorem set (keeps : entry.Keeps held spec) (text : List Char) :
    entry.Keeps (held.give entry.type text) (spec.set text) := by
  refine ⟨keeps.mDefault, keeps.mUseEnvVar, keeps.noVector, ?_⟩
  rw [AppOptionSpec.set, DataVariantBase.set, DataVariantBase.determineType, if_neg keeps.typed]
  exact keeps.shows.give text

theorem opposite (keeps : entry.Keeps held spec) : spec.opposite = entry.opposite := by
  rw [AppOptionSpec.opposite, keeps.mDefault, OptionEntry.opposite]
  by_cases noText : entry.default = []
  · rw [noText]
    rfl
  · have made : DataVariantBase.constructTyped .bool "default".toList entry.default =
        some (({ DataVariantBase.construct "default".toList with
          mDv := DvTypeFactory.construct .bool [] } : DataVariantBase).set entry.default) := by
      rw [DataVariantBase.constructTyped, if_neg (by decide)]
      exact congrArg some (if_neg noText)
    rw [DataVariant.constructTyped, made]
    generalize reads : ({ DataVariantBase.construct "default".toList with
      mDv := DvTypeFactory.construct .bool [] } : DataVariantBase).set entry.default = base
    have shows : Displays .bool (Held.unset.give .bool entry.default) base.mDv := by
      rw [← reads]
      exact (Displays.construct .bool).give entry.default
    change (if (base.isSet || base.isSet) = true then !base.toBool else true) = _
    rw [Bool.or_self, DataVariantBase.isSet, shows.isSet]
    have worth := shows.valueOf_eq
    rw [valueOf, DataVariantBase.isSet, shows.isSet, shows.getType] at worth
    rw [Held.give] at worth ⊢
    cases isTruth : strIsBool entry.default with
    | true =>
        rw [isTruth] at worth
        have same : base.toBool = strToBool entry.default :=
          OptionValue.bool.inj (Option.some.inj worth)
        exact congrArg not same
    | false => rfl

theorem setBool (keeps : entry.Keeps held spec) (isBool : entry.type = .bool) :
    entry.Keeps ⟨some (.bool entry.opposite), []⟩ (spec.setBool spec.opposite) := by
  refine ⟨keeps.mDefault, keeps.mUseEnvVar, keeps.noVector, ?_⟩
  have shows := keeps.shows
  rw [isBool] at shows ⊢
  rw [AppOptionSpec.setBool, DataVariantBase.setInt, DataVariantBase.updateType,
    if_neg keeps.typed, keeps.opposite]
  exact shows.flag entry.opposite

theorem processEnv (keeps : entry.Keeps held spec) (getenv : List Char → Option (List Char)) :
    entry.Keeps (entry.takeEnv getenv held) (AppOptions.processEnv getenv spec) := by
  rw [AppOptions.processEnv, takeEnv, keeps.isSet, keeps.mUseEnvVar]
  by_cases isSet : held.value.isSome = true
  · rw [if_pos isSet, if_pos (Or.inl isSet)]
    exact keeps
  · rw [if_neg isSet]
    by_cases noName : entry.useEnvVar = []
    · rw [if_pos noName, if_pos (Or.inr noName)]
      exact keeps
    · rw [if_neg noName, if_neg fun either => either.elim isSet noName]
      cases getenv entry.useEnvVar with
      | none => exact keeps
      | some env => exact keeps.set env

theorem processDefaults (keeps : entry.Keeps held spec) :
    entry.Keeps (entry.takeDefault held) (AppOptions.processDefaults spec) := by
  rw [AppOptions.processDefaults, takeDefault, keeps.isSet, keeps.mDefault]
  by_cases isSet : held.value.isSome = true
  · rw [if_pos isSet, if_pos (Or.inl isSet)]
    exact keeps
  · rw [if_neg isSet]
    by_cases noText : entry.default = []
    · rw [if_pos noText, if_pos (Or.inr noText)]
      exact keeps
    · rw [if_neg noText, if_neg fun either => either.elim isSet noText]
      exact keeps.set entry.default

end Keeps

end OptionEntry

namespace OptionList

open AppOptions

/-- The map has an object for each option, and no other. -/
structure Tracks (options : OptionList) (helds : OptionEntry → Held) (mOptions : Options) :
    Prop where
  known : ∀ entry ∈ options.entries,
    ∃ spec, mOptions[entry.name]? = some spec ∧ entry.Keeps (helds entry) spec
  unknown : ∀ name, (∀ entry ∈ options.entries, entry.name ≠ name) → mOptions[name]? = none

variable {options : OptionList} {helds : OptionEntry → Held} {mOptions : Options}
variable {arg : List Char} {args rest : List (List Char)} {entry : OptionEntry}

/-- An option takes what an occurrence gives it; the others stay as they are. -/
theorem Tracks.insert (tracks : Tracks options helds mOptions) {spec : AppOptionSpec}
    {value : Option (List Char)} (member : entry ∈ options.entries)
    (keeps : entry.Keeps (entry.take (helds entry) (entry.name, value)) spec) :
    Tracks options (fun other => other.take (helds other) (entry.name, value))
      (mOptions.insert entry.name spec) where
  known other inside := by
    rw [Std.ExtTreeMap.getElem?_insert]
    by_cases same : entry.name = other.name
    · obtain rfl := eq_of_name member inside same
      rw [if_pos Std.ReflCmp.compare_self]
      exact ⟨spec, rfl, keeps⟩
    · rw [if_neg fun equal => same (Std.LawfulEqCmp.eq_of_compare equal), OptionEntry.take,
        if_neg same]
      exact tracks.known other inside
  unknown name absent := by
    rw [Std.ExtTreeMap.getElem?_insert,
      if_neg fun equal => absent entry member (Std.LawfulEqCmp.eq_of_compare equal)]
    exact tracks.unknown name absent

theorem processCmdline_plain (noDash : arg.head? ≠ some '-') :
    processCmdline mOptions (arg :: rest) = processCmdline mOptions rest := by
  rw [processCmdline, if_pos noDash]

theorem processCmdline_dashes (nonempty : arg ≠ []) (only : ∀ letter ∈ arg, letter = '-') :
    processCmdline mOptions (arg :: rest) = .error .out_of_range := by
  have first : arg.head? = some '-' := by
    cases arg with
    | nil => exact absurd rfl nonempty
    | cons letter tail => exact congrArg some (only letter List.mem_cons_self)
  rw [processCmdline, if_neg fun noDash => noDash first,
    if_pos (List.all_eq_true.mpr fun letter member => decide_eq_true (only letter member))]

theorem processCmdline_help (names : Names arg "help") :
    processCmdline mOptions (arg :: rest) = .error (.exit 0) := by
  obtain ⟨first, notOnly, name⟩ := dropWhile_of_names names
  rw [processCmdline, if_neg fun noDash => noDash first, notOnly, name]
  rfl

theorem processCmdline_unknown {name : String} (names : Names arg name) (noHelp : name ≠ "help")
    (unknown : mOptions[name]? = none) :
    processCmdline mOptions (arg :: rest) = .error (.exit 1) := by
  obtain ⟨first, notOnly, name⟩ := dropWhile_of_names names
  rw [processCmdline, if_neg fun noDash => noDash first, notOnly, name]
  rw [if_neg Bool.false_ne_true, if_neg noHelp, unknown]

/-- A truth value that is named becomes the opposite of its default. -/
theorem processCmdline_flag (tracks : Tracks options helds mOptions)
    (names : Names arg entry.name) (noHelp : entry.name ≠ "help")
    (member : entry ∈ options.entries) (isBool : entry.type = .bool) :
    ∃ changed, (∀ rest, processCmdline mOptions (arg :: rest) = processCmdline changed rest) ∧
      Tracks options (fun other => other.take (helds other) (entry.name, none)) changed := by
  obtain ⟨spec, found, keeps⟩ := tracks.known entry member
  refine ⟨mOptions.insert entry.name (spec.setBool spec.opposite), fun rest => ?_,
    tracks.insert member ?_⟩
  · obtain ⟨first, notOnly, name⟩ := dropWhile_of_names names
    rw [processCmdline, if_neg fun noDash => noDash first, notOnly, name]
    rw [if_neg Bool.false_ne_true, if_neg noHelp, found]
    dsimp only
    rw [keeps.shows.getType, isBool]
    rfl
  · rw [OptionEntry.take, if_pos rfl]
    exact keeps.setBool isBool

/-- Another option takes the next argument as its value. -/
theorem processCmdline_valued (tracks : Tracks options helds mOptions)
    (names : Names arg entry.name) (noHelp : entry.name ≠ "help")
    (member : entry ∈ options.entries) (noBool : entry.type ≠ .bool) :
    processCmdline mOptions [arg] = .error (.exit 1) ∧
      ∀ value, ∃ changed,
        (∀ rest, processCmdline mOptions (arg :: value :: rest) = processCmdline changed rest) ∧
          Tracks options (fun other => other.take (helds other) (entry.name, some value))
            changed := by
  obtain ⟨spec, found, keeps⟩ := tracks.known entry member
  obtain ⟨first, notOnly, name⟩ := dropWhile_of_names names
  have takes : processCmdline mOptions [arg] = .error (.exit 1) ∧
      ∀ value rest, processCmdline mOptions (arg :: value :: rest) =
        processCmdline (mOptions.insert entry.name (spec.set value)) rest := by
    refine ⟨?_, fun value rest => ?_⟩
    all_goals
      rw [processCmdline, if_neg fun noDash => noDash first, notOnly, name]
      rw [if_neg Bool.false_ne_true, if_neg noHelp, found]
      dsimp only
      rw [keeps.shows.getType]
      cases type : entry.type with
      | bool => exact absurd type noBool
      | int => rfl
      | string => rfl
  refine ⟨takes.1, fun value => ⟨_, takes.2 value, tracks.insert member ?_⟩⟩
  rw [OptionEntry.take, if_pos rfl]
  exact keeps.set value

theorem processCmdline_of_parsed {occurrences : List Occurrence}
    (parsed : Parsed options args occurrences) (tracks : Tracks options helds mOptions) :
    ∃ changed, processCmdline mOptions args = .ok changed ∧
      Tracks options (fun entry => occurrences.foldl entry.take (helds entry)) changed := by
  induction parsed generalizing helds mOptions with
  | nil => exact ⟨mOptions, rfl, tracks⟩
  | plain noDash later ih =>
      rw [processCmdline_plain noDash]
      exact ih tracks
  | flag names noHelp member isBool later ih =>
      obtain ⟨changed, goesOn, after⟩ := processCmdline_flag tracks names noHelp member isBool
      rw [goesOn]
      exact ih after
  | valued names noHelp member noBool later ih =>
      obtain ⟨changed, goesOn, after⟩ :=
        (processCmdline_valued tracks names noHelp member noBool).2 _
      rw [goesOn]
      exact ih after

theorem processCmdline_of_stops {reason : OptionsEnd} (stops : Stops options args reason)
    (tracks : Tracks options helds mOptions) : processCmdline mOptions args = .error reason := by
  induction stops generalizing helds mOptions with
  | dashes nonempty only => exact processCmdline_dashes nonempty only
  | help names => exact processCmdline_help names
  | unknown names noHelp unknown =>
      exact processCmdline_unknown names noHelp (tracks.unknown _ unknown)
  | missing names noHelp member noBool =>
      exact (processCmdline_valued tracks names noHelp member noBool).1
  | plain noDash later ih =>
      rw [processCmdline_plain noDash]
      exact ih tracks
  | flag names noHelp member isBool later ih =>
      obtain ⟨changed, goesOn, after⟩ := processCmdline_flag tracks names noHelp member isBool
      rw [goesOn]
      exact ih after
  | valued names noHelp member noBool later ih =>
      obtain ⟨changed, goesOn, after⟩ :=
        (processCmdline_valued tracks names noHelp member noBool).2 _
      rw [goesOn]
      exact ih after

theorem tracks_byName (options : OptionList) :
    Tracks options (fun _ => .unset) (byName (options.entries.map OptionEntry.spec)) := by
  obtain ⟨entries, distinct⟩ := options
  induction entries using List.reverseRecOn with
  | nil =>
      exact ⟨fun _ impossible => absurd impossible List.not_mem_nil,
        fun _ _ => Std.ExtTreeMap.getElem?_empty⟩
  | append_singleton earlier last ih =>
      rw [List.map_append, List.nodup_append] at distinct
      obtain ⟨distinct, -, apart⟩ := distinct
      have before := ih distinct
      have made : byName ((earlier ++ [last]).map OptionEntry.spec) =
          (byName (earlier.map OptionEntry.spec)).insert last.name last.spec := by
        rw [byName, List.map_append, List.foldl_append, ← byName]
        change (byName (earlier.map OptionEntry.spec)).insert (String.ofList last.name.toList) _ = _
        rw [String.ofList_toList]
      refine ⟨?_, ?_⟩
      · intro entry member
        change ∃ spec, (byName ((earlier ++ [last]).map OptionEntry.spec))[entry.name]? = some spec ∧ _
        rw [made, Std.ExtTreeMap.getElem?_insert]
        rcases List.mem_append.mp member with inEarlier | isLast
        · have other : last.name ≠ entry.name := fun same =>
            apart _ (List.mem_map_of_mem inEarlier) _ List.mem_cons_self same.symm
          rw [if_neg fun equal => other (Std.LawfulEqCmp.eq_of_compare equal)]
          exact before.known entry inEarlier
        · obtain rfl := List.mem_singleton.mp isLast
          rw [if_pos Std.ReflCmp.compare_self]
          exact ⟨entry.spec, rfl, entry.keeps_spec⟩
      · intro name absent
        change (byName ((earlier ++ [last]).map OptionEntry.spec))[name]? = none
        rw [made, Std.ExtTreeMap.getElem?_insert, if_neg fun equal =>
          absent last (List.mem_append_right _ List.mem_cons_self)
            (Std.LawfulEqCmp.eq_of_compare equal)]
        exact before.unknown name fun entry member => absent entry (List.mem_append_left _ member)

/-- The arguments stop the program with the first fault, or each option is worth what the last
of its occurrences, its variable of the environment and its default make of it. -/
theorem options_are_worth (options : OptionList) (getenv : List Char → Option (List Char))
    (args : List (List Char)) :
    ∃ specification, options.entries.mapM (fun entry => AppOptionSpec.construct entry.name.toList
        entry.type.dataType entry.defaultValue entry.useEnvVar) = some specification ∧
      ((∃ reason, Stops options args reason ∧
          AppOptions.construct getenv specification (some args) = .error reason) ∨
        ∃ occurrences mOptions, Parsed options args occurrences ∧
          AppOptions.construct getenv specification (some args) = .ok mOptions ∧
            ∀ entry ∈ options.entries, ∃ dv, getOption mOptions entry.name = .ok dv ∧
              valueOf dv.toDataVariantBase = entry.worth getenv occurrences) := by
  have each : (fun entry : OptionEntry => AppOptionSpec.construct entry.name.toList
      entry.type.dataType entry.defaultValue entry.useEnvVar) = fun entry => pure entry.spec :=
    funext OptionEntry.construct_eq_spec
  refine ⟨options.entries.map OptionEntry.spec, ?_, ?_⟩
  · rw [each, List.mapM_pure]
    rfl
  have start := tracks_byName options
  rcases parsed_or_stops options args with ⟨occurrences, parsed⟩ | ⟨reason, stops⟩
  · obtain ⟨changed, ran, tracks⟩ := processCmdline_of_parsed parsed start
    refine Or.inr ⟨occurrences, (changed.map fun _ => processEnv getenv).map fun _ =>
      processDefaults, parsed, ?_, fun entry member => ?_⟩
    · rw [AppOptions.construct, processOptions, ran]
      rfl
    · obtain ⟨spec, found, keeps⟩ := tracks.known entry member
      have last := (keeps.processEnv getenv).processDefaults
      obtain ⟨copied, shows, same⟩ := last.shows.copy
      refine ⟨DataVariant.copy (processDefaults (processEnv getenv spec)).mDataVariant.toDataVariantBase,
        ?_, ?_⟩
      · rw [getOption, Std.ExtTreeMap.getElem?_map, Std.ExtTreeMap.getElem?_map, found]
        rfl
      · rw [OptionEntry.worth, ← same]
        exact Displays.valueOf_eq shows
  · refine Or.inl ⟨reason, stops, ?_⟩
    rw [AppOptions.construct, processOptions, processCmdline_of_stops stops start]
    rfl

end OptionList

end OpenMplane
