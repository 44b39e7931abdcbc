import OpenMplane.FileConfigBase
import Mathlib.Data.List.DropRight

/-!
# Reading a configuration file back

What `_save` writes is read back by `_read` line by line: the line of a variable is never
taken for a comment or for a section.  The line of a section is only recognised when it is
longer than three characters, so a section with a name of one character is lost, and its
variables go to the section before it.
-/

namespace OpenMplane

open ListCut

namespace FileConfigBase

/-- A text without line breaks, and without blanks at its ends. -/
structure PlainText (text : String) : Prop where
  oneLine : '\n' ∉ text.toList
  startsPlain : ∀ letter, text.toList.head? = some letter → letter ∉ WHITESPACE
  endsPlain : ∀ letter, text.toList.getLast? = some letter → letter ∉ WHITESPACE

/-- A name for a variable. -/
structure PlainName (name : String) : Prop extends PlainText name where
  nonempty : name ≠ ""
  noAssignment : '=' ∉ name.toList
  noMark : ∀ letter, name.toList.head? = some letter → letter ≠ '#' ∧ letter ≠ '['

structure PlainSection (name : String) : Prop extends PlainText name where
  nonempty : name ≠ ""
  noBracket : ']' ∉ name.toList
  notGlobal : name.toList.map Char.toUpper ≠ "GLOBAL".toList

/-- A configuration whose names and values can stand in a file. -/
structure PlainConfig where
  config : FileConfigBase
  globals : ∀ name value, config.mGlobals[name]? = some value →
    PlainName name ∧ PlainText value
  sections : ∀ sect entries, config.mSections[sect]? = some entries →
    PlainSection sect ∧ ∀ name value, entries[name]? = some value →
      PlainName name ∧ PlainText value

/-- A new object reads the file that `_save` wrote. -/
def savedAndRead (config : FileConfigBase) : Bool × FileConfigBase :=
  (construct config.mPath ∅).read (config.save true none).2.2

/-- The reader takes the line of the section for one: the name has two characters or more,
and what `toUpper` leaves of it is not the word for the global variables. -/
def Recognised (sect : String) : Prop :=
  2 ≤ sect.toList.length ∧ toUpper sect.toList ≠ "GLOBAL".toList

instance (sect : String) : Decidable (Recognised sect) :=
  inferInstanceAs (Decidable (_ ∧ _))

variable {text name value sect : String} {entry : String × String} {reading : Reading}
variable {entries : StdMap String} {letter : Char} {before after : List Char}

section Trimming

/-- Nothing is cut off at the right behind a character that stays. -/
theorem trimOf_append_cons {t : List Char} (stays : letter ∉ t)
    (starts : ∀ first, before.head? = some first → first ∉ t) :
    trimOf t (before ++ letter :: after) =
      before ++ letter :: (after.reverse.dropWhile (· ∈ t)).reverse := by
  have stop : (letter :: before.reverse).dropWhile (· ∈ t) = letter :: before.reverse := by
    simp [stays]
  have right : ((before ++ letter :: after).reverse.dropWhile (· ∈ t)).reverse =
      before ++ letter :: (after.reverse.dropWhile (· ∈ t)).reverse := by
    rw [List.reverse_append, List.reverse_cons, List.append_assoc, List.singleton_append,
      List.dropWhile_append, stop]
    split
    · next none =>
        rw [List.isEmpty_iff.mp none]
        simp
    · simp
  rw [trimOf, right]
  cases before with
  | nil => simp [stays]
  | cons first before =>
      have kept := starts first rfl
      simp [kept]

theorem dropWhile_of_head {t list : List Char}
    (starts : ∀ first, list.head? = some first → first ∉ t) :
    list.dropWhile (· ∈ t) = list := by
  cases list with
  | nil => rfl
  | cons first list =>
      have kept := starts first rfl
      simp [kept]

theorem trimOf_plain (plain : PlainText text) : trimOf WHITESPACE text.toList = text.toList := by
  have right : text.toList.reverse.dropWhile (· ∈ WHITESPACE) = text.toList.reverse := by
    refine dropWhile_of_head fun last isLast => plain.endsPlain last ?_
    rwa [List.head?_reverse] at isLast
  rw [trimOf, right, List.reverse_reverse, dropWhile_of_head plain.startsPlain]

/-- A blank behind a text is cut off. -/
theorem trimOf_append_blank {t list : List Char} (blank : letter ∈ t) :
    trimOf t (list ++ [letter]) = trimOf t list := by
  simp [trimOf, blank]

/-- What is cut off at the right first makes no difference, and neither does a blank
before it. -/
theorem trimOf_trimRight (value : List Char) :
    trimOf WHITESPACE ((' ' :: value).reverse.dropWhile (· ∈ WHITESPACE)).reverse =
      trimOf WHITESPACE value := by
  have blank : ' ' ∈ WHITESPACE := by decide
  rw [trimOf, List.reverse_reverse, List.dropWhile_idempotent, List.reverse_cons,
    List.dropWhile_append]
  split
  · next none =>
      rw [trimOf, List.isEmpty_iff.mp none]
      simp [blank]
  · rw [List.reverse_append, List.reverse_singleton, List.singleton_append,
      List.dropWhile_cons_of_pos (by simp [blank]), trimOf]

end Trimming

section Lines

theorem readLine_entryLine (plainName : PlainName name) (plainValue : PlainText value) :
    readLine reading (entryLine (name, value)) = reading.put name value := by
  have ends : trimOf WHITESPACE (name.toList ++ [' ']) = name.toList := by
    rw [trimOf_append_blank (by decide), trimOf_plain plainName.toPlainText]
  have starts : ∀ first, (name.toList ++ [' ']).head? = some first → first ∉ WHITESPACE := by
    intro first isFirst
    refine plainName.startsPlain first ?_
    cases letters : name.toList with
    | nil => exact absurd (String.toList_eq_nil_iff.mp letters) plainName.nonempty
    | cons letter rest => simpa [letters] using isFirst
  have line : trimOf WHITESPACE (entryLine (name, value)) = (name.toList ++ [' ']) ++
      '=' :: ((' ' :: value.toList).reverse.dropWhile (· ∈ WHITESPACE)).reverse := by
    rw [← trimOf_append_cons (by decide) starts]
    simp [entryLine]
  have cut := cutFirst_append
    ((' ' :: value.toList).reverse.dropWhile (· ∈ WHITESPACE)).reverse
    (show '=' ∉ name.toList ++ [' '] by simp [plainName.noAssignment])
  have mark : ∀ letter, ((name.toList ++ [' ']) ++
      '=' :: ((' ' :: value.toList).reverse.dropWhile (· ∈ WHITESPACE)).reverse).head? =
        some letter → letter ≠ '#' ∧ letter ≠ '[' := by
    intro letter isFirst
    refine plainName.noMark letter ?_
    cases letters : name.toList with
    | nil => exact absurd (String.toList_eq_nil_iff.mp letters) plainName.nonempty
    | cons letter rest => simpa [letters] using isFirst
  rw [readLine, line, if_neg (by simp), if_neg fun isMark => (mark _ isMark).1 rfl,
    if_neg fun isSection => (mark _ isSection.2.1).2 rfl, cut]
  dsimp only
  rw [ends, trimOf_trimRight, trimOf_plain plainValue, String.ofList_toList, String.ofList_toList]

theorem readLine_nil : readLine reading [] = reading := by
  rw [readLine]
  simp [trimOf]

/-- The line of a section is read as that when its name has two characters or more. -/
theorem readLine_sectionLine (long : 2 ≤ sect.toList.length) :
    readLine reading ('[' :: sect.toList ++ [']']) = reading.enter sect := by
  have line : trimOf WHITESPACE ('[' :: sect.toList ++ [']']) = '[' :: sect.toList ++ [']'] := by
    rw [trimOf_append_cons (by decide) (by simp; decide)]
    simp
  have middle : (('[' :: sect.toList ++ [']']).drop 1).take
      (('[' :: sect.toList ++ [']']).length - 2) = sect.toList := by
    simp
  rw [readLine, line, if_neg (by simp), if_neg (by simp),
    if_pos ⟨by simp; omega, by simp, by rw [List.getLast?_concat]⟩, middle,
    String.ofList_toList]

end Lines

section Sections

/-- The variables of a section that is in the configuration. -/
def Reading.withSection (reading : Reading) (sect : String) (entries : StdMap String) :
    Reading :=
  { reading with
    config.mSections := reading.config.mSections.insert sect entries
    store := some sect }

theorem put_withSection (sect : String) (entries : StdMap String) :
    (reading.withSection sect entries).put name value =
      reading.withSection sect (entries.insert name value) := by
  simp only [Reading.withSection, Reading.put, setValueIn, Std.ExtTreeMap.getElem?_insert_self,
    Option.getD_some, OrderedEntries.insert_insert]

/-- The lines of the variables of a section fill the section. -/
theorem foldl_entryLine_section {list : List (String × String)}
    (plain : ∀ entry ∈ list, PlainName entry.1 ∧ PlainText entry.2) :
    (list.map entryLine).foldl readLine (reading.withSection sect entries) =
      reading.withSection sect
        (list.foldl (fun copy entry => copy.insert entry.1 entry.2) entries) := by
  induction list generalizing entries with
  | nil => rfl
  | cons entry list ih =>
      have first := plain entry (by simp)
      have others := fun other member => plain other (List.mem_cons_of_mem entry member)
      rw [List.map_cons, List.foldl_cons, List.foldl_cons,
        readLine_entryLine first.1 first.2, put_withSection, ih others]

/-- The global variables of the configuration, to which more are stored. -/
def Reading.withGlobals (reading : Reading) (entries : StdMap String) : Reading :=
  { reading with config.mGlobals := entries, store := none }

/-- The lines of the global variables fill the globals. -/
theorem foldl_entryLine_global {list : List (String × String)}
    (plain : ∀ entry ∈ list, PlainName entry.1 ∧ PlainText entry.2) :
    (list.map entryLine).foldl readLine (reading.withGlobals entries) =
      reading.withGlobals
        (list.foldl (fun copy entry => copy.insert entry.1 entry.2) entries) := by
  induction list generalizing entries with
  | nil => rfl
  | cons entry list ih =>
      have first := plain entry (by simp)
      have others := fun other member => plain other (List.mem_cons_of_mem entry member)
      have step : (reading.withGlobals entries).put entry.1 entry.2 =
          reading.withGlobals (entries.insert entry.1 entry.2) := rfl
      rw [List.map_cons, List.foldl_cons, List.foldl_cons,
        readLine_entryLine first.1 first.2, step, ih others]

/-- A section that is not there yet begins without variables. -/
theorem enter_of_recognised (recognised : Recognised sect)
    (isNew : sect ∉ reading.config.mSections) :
    reading.enter sect = reading.withSection sect ∅ := by
  have named : ¬(toUpper sect.toList = "GLOBAL".toList ∨ sect = "") := by
    rintro (isGlobal | rfl)
    · exact recognised.2 isGlobal
    · exact absurd recognised.1 (by decide)
  rw [Reading.enter, if_neg named, if_neg isNew, Reading.withSection]

theorem foldl_sectionLines (recognised : Recognised sect)
    (isNew : sect ∉ reading.config.mSections)
    (plain : ∀ name value, entries[name]? = some value → PlainName name ∧ PlainText value) :
    (sectionLines (sect, entries)).foldl readLine reading =
      reading.withSection sect entries := by
  have plainEntries : ∀ entry ∈ entries.toList, PlainName entry.1 ∧ PlainText entry.2 :=
    fun entry member =>
      plain entry.1 entry.2 (Std.ExtTreeMap.mem_toList_iff_getElem?_eq_some.mp member)
  rw [sectionLines, List.foldl_cons, List.foldl_cons, readLine_nil,
    readLine_sectionLine recognised.1, enter_of_recognised recognised isNew,
    foldl_entryLine_section plainEntries, OrderedEntries.foldl_insert_toList]

/-- The lines of different sections add these with their variables. -/
theorem foldl_sections {list : List (String × StdMap String)}
    (distinct : list.Pairwise fun first second => ¬compare first.1 second.1 = .eq)
    (isNew : ∀ group ∈ list, group.1 ∉ reading.config.mSections)
    (plain : ∀ group ∈ list, Recognised group.1 ∧ ∀ name value,
      group.2[name]? = some value → PlainName name ∧ PlainText value) :
    ((list.flatMap sectionLines).foldl readLine reading).config =
      { reading.config with
        mSections := list.foldl (fun copy group => copy.insert group.1 group.2)
          reading.config.mSections } := by
  induction list generalizing reading with
  | nil => rfl
  | cons first list ih =>
      obtain ⟨apart, distinct⟩ := List.pairwise_cons.mp distinct
      obtain ⟨recognised, plainFirst⟩ := plain first (by simp)
      have stillNew : ∀ group ∈ list,
          group.1 ∉ (reading.withSection first.1 first.2).config.mSections := by
        intro group member
        have before := isNew group (by simp [member])
        simp only [Reading.withSection, Std.ExtTreeMap.mem_insert, not_or]
        exact ⟨apart group member, before⟩
      have others := fun group member => plain group (List.mem_cons_of_mem first member)
      rw [List.flatMap_cons, List.foldl_append,
        foldl_sectionLines recognised (isNew first (by simp)) plainFirst,
        ih distinct stillNew others]
      rfl

end Sections

section Whole

theorem oneLine_entryLine (plainName : PlainName name) (plainValue : PlainText value) :
    '\n' ∉ entryLine (name, value) := by
  simp [entryLine, plainName.oneLine, plainValue.oneLine]

theorem pieces_fileText (plain : PlainConfig) :
    pieces '\n' plain.config.fileText =
      (plain.config.mGlobals.toList.map entryLine ++
        plain.config.mSections.toList.flatMap sectionLines) ++ [[]] := by
  refine pieces_flatMap _ fun line member => ?_
  rcases List.mem_append.mp member with inGlobals | inSections
  · obtain ⟨entry, isEntry, rfl⟩ := List.mem_map.mp inGlobals
    obtain ⟨plainName, plainValue⟩ :=
      plain.globals _ _ (Std.ExtTreeMap.mem_toList_iff_getElem?_eq_some.mp isEntry)
    exact oneLine_entryLine plainName plainValue
  · obtain ⟨group, member, inGroup⟩ := List.mem_flatMap.mp inSections
    obtain ⟨plainSection, plainEntries⟩ :=
      plain.sections _ _ (Std.ExtTreeMap.mem_toList_iff_getElem?_eq_some.mp member)
    rcases List.mem_cons.mp inGroup with rfl | inGroup
    · exact List.not_mem_nil
    · rcases List.mem_cons.mp inGroup with rfl | inEntries
      · simp [plainSection.oneLine]
      · obtain ⟨entry, isEntry, rfl⟩ := List.mem_map.mp inEntries
        obtain ⟨plainName, plainValue⟩ :=
          plainEntries _ _ (Std.ExtTreeMap.mem_toList_iff_getElem?_eq_some.mp isEntry)
        exact oneLine_entryLine plainName plainValue

theorem construct_empty (path : String) : construct path ∅ = ⟨path, false, "", ∅, ∅, ∅⟩ := rfl

/-- When the line of every section is recognised, all is read back. -/
theorem savedAndRead_of_recognised (plain : PlainConfig)
    (recognised : ∀ sect ∈ plain.config.mSections, Recognised sect) :
    savedAndRead plain.config = (true, ⟨plain.config.mPath, true, "", plain.config.mGlobals,
      plain.config.mSections, ∅⟩) := by
  have plainGlobals : ∀ entry ∈ plain.config.mGlobals.toList,
      PlainName entry.1 ∧ PlainText entry.2 := fun entry member =>
    plain.globals entry.1 entry.2 (Std.ExtTreeMap.mem_toList_iff_getElem?_eq_some.mp member)
  have plainSections : ∀ group ∈ plain.config.mSections.toList,
      Recognised group.1 ∧ ∀ name value, group.2[name]? = some value →
        PlainName name ∧ PlainText value := by
    intro group member
    have held := Std.ExtTreeMap.mem_toList_iff_getElem?_eq_some.mp member
    have isKey := OrderedEntries.mem_of_mem_toList plain.config.mSections member
    exact ⟨recognised group.1 isKey, (plain.sections group.1 group.2 held).2⟩
  have start : (⟨construct plain.config.mPath ∅, none⟩ : Reading) =
      (⟨construct plain.config.mPath ∅, none⟩ : Reading).withGlobals ∅ := rfl
  have written : (plain.config.save true none).2.2 = some plain.config.fileText := rfl
  rw [savedAndRead, written, read, pieces_fileText, List.foldl_append, List.foldl_append,
    start, foldl_entryLine_global plainGlobals, OrderedEntries.foldl_insert_toList,
    List.foldl_cons, readLine_nil, List.foldl_nil,
    foldl_sections plain.config.mSections.distinct_keys_toList
      (fun group _ => Std.ExtTreeMap.not_mem_empty) plainSections]
  have sections := OrderedEntries.foldl_insert_toList plain.config.mSections
  simp only [Reading.withGlobals, construct_empty, sections]

/-- The sections that were read were recognised. -/
structure AllRecognised (reading : Reading) : Prop where
  sections : ∀ sect ∈ reading.config.mSections, Recognised sect
  store : ∀ sect, reading.store = some sect → Recognised sect

theorem allRecognised_put (kept : AllRecognised reading) :
    AllRecognised (reading.put name value) := by
  unfold Reading.put
  split
  · exact ⟨kept.sections, kept.store⟩
  · next sect stored =>
      refine ⟨fun other member => ?_, kept.store⟩
      rcases Std.ExtTreeMap.mem_insert.mp member with same | member
      · rw [← Std.LawfulEqCmp.eq_of_compare same]
        exact kept.store sect stored
      · exact kept.sections other member

theorem allRecognised_enter (kept : AllRecognised reading) (long : 2 ≤ sect.toList.length) :
    AllRecognised (reading.enter sect) := by
  unfold Reading.enter
  split
  · exact ⟨kept.sections, by simp⟩
  · next named =>
      have recognised : Recognised sect := ⟨long, fun isGlobal => named (Or.inl isGlobal)⟩
      have store : ∀ other, some sect = some other → Recognised other := by
        rintro other ⟨⟩
        exact recognised
      split
      · exact ⟨kept.sections, store⟩
      · refine ⟨fun other member => ?_, store⟩
        rcases Std.ExtTreeMap.mem_insert.mp member with same | member
        · rw [← Std.LawfulEqCmp.eq_of_compare same]
          exact recognised
        · exact kept.sections other member

theorem allRecognised_readLine (kept : AllRecognised reading) (line : List Char) :
    AllRecognised (readLine reading line) := by
  unfold readLine
  dsimp only
  split
  · exact kept
  · split
    · exact kept
    · split
      · next isSection =>
          refine allRecognised_enter kept ?_
          have long := isSection.1
          rw [String.toList_ofList, List.length_take, List.length_drop]
          omega
      · split
        · exact kept
        · exact allRecognised_put kept

theorem allRecognised_foldl {lines : List (List Char)} (kept : AllRecognised reading) :
    AllRecognised (lines.foldl readLine reading) := by
  induction lines generalizing reading with
  | nil => exact kept
  | cons line lines ih => exact ih (allRecognised_readLine kept line)

/-- A new object has recognised all its sections when it has read a file. -/
theorem recognised_of_read (path : String) (file : List Char) :
    ∀ sect ∈ ((construct path ∅).read (some file)).2.mSections, Recognised sect := by
  have start : AllRecognised ⟨construct path ∅, none⟩ :=
    ⟨fun sect member => absurd member Std.ExtTreeMap.not_mem_empty, by simp⟩
  exact (allRecognised_foldl start).sections

theorem isEqual_of_same {config rhs : FileConfigBase} (globals : rhs.mGlobals = config.mGlobals)
    (sections : rhs.mSections = config.mSections) : config.isEqual rhs = true := by
  simp [isEqual, values, FileConfigBase.sections, globals, sections]

end Whole

/-- What is expected of a configuration that is saved and read. -/
structure RoundTrips (config : FileConfigBase) : Prop where
  isRead : (savedAndRead config).1 = true
  globals : (savedAndRead config).2.mGlobals = config.mGlobals
  sections : (savedAndRead config).2.mSections = config.mSections
  equal : config.isEqual (savedAndRead config).2 = true

/-- A configuration is read back exactly when every section has a name that the reader
recognises. -/
theorem roundTrips_iff_recognised (plain : PlainConfig) :
    RoundTrips plain.config ↔ ∀ sect ∈ plain.config.mSections, Recognised sect := by
  constructor
  · intro roundTrips sect member
    rw [← roundTrips.sections] at member
    exact recognised_of_read _ _ sect member
  · intro recognised
    have back := savedAndRead_of_recognised plain recognised
    exact ⟨by rw [back], by rw [back], by rw [back], isEqual_of_same (by rw [back]) (by rw [back])⟩

/-- A configuration with one section, whose name has one character. -/
def oneLetterSection : PlainConfig where
  config := ⟨"config", false, "", ∅, (∅ : StdMap (StdMap String)).insert "a" ∅, ∅⟩
  globals name value held := by simp at held
  sections sect entries held := by
    simp only [Std.ExtTreeMap.getElem?_insert, Std.ExtTreeMap.getElem?_empty] at held
    split at held
    · next same =>
        obtain rfl := Std.LawfulEqCmp.eq_of_compare same
        obtain rfl := Option.some.inj held
        have visible : 'a' ∉ WHITESPACE := by decide
        refine ⟨⟨⟨by decide, ?_, ?_⟩, by decide, by decide, by decide⟩, by simp⟩
        · intro letter first
          obtain rfl : 'a' = letter := Option.some.inj first
          exact visible
        · intro letter last
          obtain rfl : 'a' = letter := Option.some.inj last
          exact visible
    · cases held

/-- A section whose name has one character is not read back. -/
theorem one_letter_section_is_lost : ¬ ∀ plain : PlainConfig, RoundTrips plain.config := by
  intro always
  have same := (always oneLetterSection).sections
  have member : "a" ∈ (savedAndRead oneLetterSection.config).2.mSections := by
    rw [same]
    exact Std.ExtTreeMap.mem_insert_self
  have recognised := recognised_of_read _ _ "a" member
  exact absurd recognised (by decide)

end FileConfigBase

end OpenMplane
