import OpenMplane.StdString
import OpenMplane.OrderedEntries
import Mathlib.Data.List.TakeWhile

/-!
# Persistent YANG values

`YangPersist` keeps the values of a handler's persistent paths in a map and
saves them as lines `"xpath"="value"`.  This file models the map, the writer
and the reader, and settles when the reader restores what the writer was
given: a key or a value that is empty, that holds a `#`, or a key whose ends
look like the separator, does not survive.
-/

namespace OpenMplane

open ListCut

/-- The name of a YANG module: an identifier, so without a line break. -/
structure ModuleName where
  text : String
  oneLine : '\n' ∉ text.toList
  deriving DecidableEq

structure YangPersist where
  mYangModelName : ModuleName
  mDirty : Bool
  mValues : StdMap String
  mPersistPaths : List String
  deriving DecidableEq

namespace YangPersist

/-- The separator the reader looks for: quote, equals sign, quote. -/
def separator : List Char := ['"', '=', '"']

def xpathMatchesPersist (persist : YangPersist) (xpath : String) : Bool :=
  persist.mPersistPaths.any fun path => startsWith xpath path

/-- `YangPersist::set` of one value. -/
def set (persist : YangPersist) (xpath value : String) : YangPersist :=
  if persist.xpathMatchesPersist xpath then
    if persist.mValues[xpath]? = some value then persist
    else { persist with mValues := persist.mValues.insert xpath value, mDirty := true }
  else persist

/-- `YangPersist::set` of a row of values. -/
def setPairs (persist : YangPersist) (pairs : List (String × String)) : YangPersist :=
  pairs.foldl (fun persist pair => persist.set pair.1 pair.2) persist

def setPersist (persist : YangPersist) (xpaths : List String) : YangPersist :=
  { persist with mPersistPaths := persist.mPersistPaths ++ xpaths }

/-- The line written for one value, without its line break. -/
def valueLine (xpath value : List Char) : List Char :=
  '"' :: xpath ++ separator ++ value ++ ['"']

/-- The first line of the file. -/
def headerLine (name : ModuleName) : List Char :=
  '#' :: " Persistent values for YANG model ".toList ++ name.text.toList

/-- The text `write` puts into the file. -/
def fileText (persist : YangPersist) : String :=
  String.ofList <|
    (headerLine persist.mYangModelName ::
      persist.mValues.toList.map fun entry => valueLine entry.1.toList entry.2.toList).flatMap
        fun line => line ++ ['\n']

/-- `YangPersist::write`: its result and the file after it.  `opens` says
whether the file can be opened for writing. -/
def write (persist : YangPersist) (opens : Bool) (file : Option String) :
    Bool × Option String :=
  if !persist.mDirty then (true, file)
  else if !opens then (false, file)
  else (true, some persist.fileText)

/-- A text without the quotes around it. -/
def unquote (text : List Char) : List Char :=
  if text.head? = some '"' ∧ text.getLast? = some '"' then (text.drop 1).dropLast else text

/-- The xpath and the value that `read` takes from a line, if any. -/
def parseLine (line : List Char) : Option (List Char × List Char) :=
  let line := trim (line.takeWhile (· ≠ '#'))
  if line = [] then none
  else match cutWord separator line with
    | none => none
    | some (before, after) =>
        let xpath := trim (before ++ ['"'])
        let value := trim ('"' :: after)
        if xpath.length < 3 ∨ value.length < 3 then none
        else some (unquote xpath, unquote value)

/-- One pass of the loop in `read`. -/
def readLine (values : StdMap String) (line : List Char) : StdMap String :=
  match parseLine line with
  | none => values
  | some (xpath, value) => values.insert (String.ofList xpath) (String.ofList value)

/-- `YangPersist::read`; no file when it cannot be opened. -/
def read (persist : YangPersist) (file : Option String) : YangPersist :=
  { persist with
    mValues := match file with
      | none => ∅
      | some text => (pieces '\n' text.toList).foldl readLine ∅ }

/-- The key of a line that the reader finds its separator behind: it is not
empty and neither end of it completes a separator. -/
structure KeyReadable (xpath : List Char) : Prop where
  nonempty : xpath ≠ []
  notEquals : xpath ≠ ['=']
  start : ¬ ['=', '"'] <+: xpath
  stop : ¬ ['"', '='] <:+ xpath

/-- A saved value that the reader restores. -/
structure Restorable (xpath value : List Char) : Prop where
  key : KeyReadable xpath
  valueNonempty : value ≠ []
  keyUncommented : '#' ∉ xpath
  valueUncommented : '#' ∉ value

instance (xpath : List Char) : Decidable (KeyReadable xpath) :=
  decidable_of_iff (xpath ≠ [] ∧ xpath ≠ ['='] ∧ ¬ ['=', '"'] <+: xpath ∧
      ¬ ['"', '='] <:+ xpath)
    ⟨fun ⟨a, b, c, d⟩ => ⟨a, b, c, d⟩, fun ⟨a, b, c, d⟩ => ⟨a, b, c, d⟩⟩

instance (xpath value : List Char) : Decidable (Restorable xpath value) :=
  decidable_of_iff (KeyReadable xpath ∧ value ≠ [] ∧ '#' ∉ xpath ∧ '#' ∉ value)
    ⟨fun ⟨a, b, c, d⟩ => ⟨a, b, c, d⟩, fun ⟨a, b, c, d⟩ => ⟨a, b, c, d⟩⟩

/-- Values outside the persistent paths are not saved. -/
theorem setPairs_of_unmatched {persist : YangPersist} {pairs : List (String × String)}
    (unmatched : ∀ pair ∈ pairs, ¬ persist.xpathMatchesPersist pair.1) :
    persist.setPairs pairs = persist := by
  induction pairs with
  | nil => rfl
  | cons pair pairs ih =>
      have head : persist.set pair.1 pair.2 = persist := by
        rw [set, if_neg (unmatched pair (by simp))]
      rw [setPairs, List.foldl_cons, head]
      exact ih fun other member => unmatched other (by simp [member])

section Lines

theorem unquote_quoted (inside : List Char) :
    unquote ('"' :: inside ++ ['"']) = inside := by
  have last : ('"' :: inside ++ ['"']).getLast? = some '"' := by
    rw [List.getLast?_concat]
  rw [unquote, if_pos ⟨rfl, last⟩]
  simp

/-- Behind an opening quote, no separator overlaps a key whose ends and inside
are clear of it. -/
theorem no_earlier_separator {xpath tail start rest : List Char}
    (split : '"' :: xpath = start ++ rest) (nonempty : rest ≠ [])
    (notEquals : xpath ≠ ['=']) (startClear : ¬ ['=', '"'] <+: xpath)
    (insideClear : ¬ separator <:+: xpath) (stopClear : ¬ ['"', '='] <:+ xpath) :
    ¬ separator <+: rest ++ separator ++ tail := by
  have suffix : rest = '"' :: xpath ∨ rest <:+ xpath := by
    cases start with
    | nil => exact Or.inl split.symm
    | cons head start =>
        simp only [List.cons_append, List.cons.injEq] at split
        exact Or.inr ⟨start, split.2.symm⟩
  rcases rest with _ | ⟨first, _ | ⟨second, _ | ⟨third, rest⟩⟩⟩
  · exact absurd rfl nonempty
  · simp [separator]
  · rintro ⟨behind, equal⟩
    simp only [separator, List.cons_append, List.nil_append, List.cons.injEq] at equal
    obtain ⟨rfl, rfl, -, -⟩ := equal
    rcases suffix with whole | part
    · exact notEquals (by simpa using whole.symm)
    · exact stopClear part
  · rintro ⟨behind, equal⟩
    simp only [separator, List.cons_append, List.nil_append, List.cons.injEq] at equal
    obtain ⟨rfl, rfl, rfl, -⟩ := equal
    rcases suffix with whole | part
    · simp only [List.cons.injEq, true_and] at whole
      exact startClear (by rw [← whole]; exact ⟨rest, rfl⟩)
    · exact insideClear (List.IsInfix.trans ⟨[], rest, rfl⟩ part.isInfix)

variable {xpath value : List Char}

theorem trim_valueLine (xpath value : List Char) :
    trim (valueLine xpath value) = valueLine xpath value := by
  have delimited := trim_delimited (show '"' ≠ ' ' by decide) (xpath ++ separator ++ value)
  simpa [valueLine, List.append_assoc] using delimited

theorem hash_notMem_valueLine (keyUncommented : '#' ∉ xpath)
    (valueUncommented : '#' ∉ value) : '#' ∉ valueLine xpath value := by
  simp [valueLine, separator, keyUncommented, valueUncommented]

theorem unquote_ne_nil {text : List Char} (long : ¬ text.length < 3) : unquote text ≠ [] := by
  have inside : (text.drop 1).dropLast.length = text.length - 2 := by
    simp only [List.length_dropLast, List.length_drop]
    omega
  intro empty
  unfold unquote at empty
  split at empty
  · rw [empty, List.length_nil] at inside
    omega
  · rw [empty, List.length_nil] at long
    omega

theorem mem_of_mem_unquote {text : List Char} {letter : Char}
    (member : letter ∈ unquote text) : letter ∈ text := by
  unfold unquote at member
  split at member
  · exact List.mem_of_mem_drop (List.dropLast_subset _ member)
  · exact member

/-- A restorable value is read back from its line. -/
theorem parseLine_valueLine (restorable : Restorable xpath value)
    (separable : ¬ separator <:+: xpath) :
    parseLine (valueLine xpath value) = some (xpath, value) := by
  have uncommented : '#' ∉ valueLine xpath value :=
    hash_notMem_valueLine restorable.keyUncommented restorable.valueUncommented
  have whole : (valueLine xpath value).takeWhile (· ≠ '#') = valueLine xpath value := by
    rw [List.takeWhile_eq_self_iff]
    intro letter member
    exact decide_eq_true fun same => uncommented (same ▸ member)
  have nonempty : valueLine xpath value ≠ [] := by simp [valueLine]
  have found : cutWord separator (valueLine xpath value) =
      some ('"' :: xpath, value ++ ['"']) := by
    have shape : valueLine xpath value = '"' :: xpath ++ separator ++ (value ++ ['"']) := by
      simp [valueLine]
    rw [shape]
    apply cutWord_append
    intro start rest split nonempty
    exact no_earlier_separator split nonempty restorable.key.notEquals restorable.key.start
      separable restorable.key.stop
  have keyTrim : trim ('"' :: xpath ++ ['"']) = '"' :: xpath ++ ['"'] :=
    trim_delimited (by decide) xpath
  have valueTrim : trim ('"' :: value ++ ['"']) = '"' :: value ++ ['"'] :=
    trim_delimited (by decide) value
  have keyLong : ¬ ('"' :: xpath ++ ['"']).length < 3 := by
    have := List.length_pos_iff.mpr restorable.key.nonempty
    simp only [List.length_append, List.length_cons, List.length_nil]
    omega
  have valueLong : ¬ ('"' :: value ++ ['"']).length < 3 := by
    have := List.length_pos_iff.mpr restorable.valueNonempty
    simp only [List.length_append, List.length_cons, List.length_nil]
    omega
  simp only [parseLine, whole, trim_valueLine, if_neg nonempty, found]
  rw [← List.cons_append, keyTrim, valueTrim, if_neg (not_or.mpr ⟨keyLong, valueLong⟩),
    unquote_quoted, unquote_quoted]

/-- What the first separator leaves before it, behind the quote of the line,
is a readable key. -/
theorem keyReadable_of_cut {line key after : List Char} (nonempty : key ≠ [])
    (found : cutWord separator line = some ('"' :: key, after)) : KeyReadable key := by
  obtain ⟨-, earliest⟩ := cutWord_eq_some found
  have atStart := earliest [] ('"' :: key) rfl (by simp)
  refine ⟨nonempty, ?_, ?_, ?_⟩
  · rintro rfl
    exact atStart ⟨['=', '"'] ++ after, by simp [separator]⟩
  · rintro ⟨rest, rfl⟩
    exact atStart ⟨rest ++ separator ++ after, by simp [separator]⟩
  · rintro ⟨start, rfl⟩
    exact earliest ('"' :: start) ['"', '='] rfl (by simp)
      ⟨['=', '"'] ++ after, by simp [separator]⟩

/-- Whatever the reader takes from a line that begins with a quote is
restorable, whoever wrote the line. -/
theorem restorable_of_parseLine {line key rest : List Char}
    (parsed : parseLine ('"' :: line) = some (key, rest)) : Restorable key rest := by
  have opening : trim (('"' :: line).takeWhile (· ≠ '#')) =
      '"' :: trimRight (line.takeWhile (· ≠ '#')) := by
    have cut : ('"' :: line).takeWhile (· ≠ '#') = '"' :: line.takeWhile (· ≠ '#') := by
      simp
    rw [cut]
    generalize line.takeWhile (· ≠ '#') = text
    have right : trimRight ('"' :: text) = '"' :: trimRight text := by
      unfold trimRight
      rw [List.reverse_cons, List.dropWhile_append]
      split
      · next empty => simp [List.isEmpty_iff.mp empty]
      · simp
    rw [trim, right]
    simp [trimLeft]
  have uncommented : '#' ∉ trim (('"' :: line).takeWhile (· ≠ '#')) := by
    intro member
    simpa using List.mem_takeWhile_imp (mem_of_mem_trim member)
  unfold parseLine at parsed
  rw [opening] at parsed uncommented
  generalize trimRight (line.takeWhile (· ≠ '#')) = text at parsed uncommented
  rw [if_neg (by simp)] at parsed
  cases cut : cutWord separator ('"' :: text) with
  | none => simp [cut] at parsed
  | some parts =>
      obtain ⟨before, after⟩ := parts
      obtain ⟨whole, -⟩ := cutWord_eq_some cut
      rw [whole] at uncommented
      simp only [List.mem_append, not_or] at uncommented
      simp only [cut] at parsed
      split at parsed
      · contradiction
      · next long =>
          rw [not_or] at long
          simp only [Option.some.injEq, Prod.mk.injEq] at parsed
          obtain ⟨rfl, rfl⟩ := parsed
          have valueNonempty := unquote_ne_nil long.2
          have valueUncommented : '#' ∉ unquote (trim ('"' :: after)) := by
            intro member
            have inside := mem_of_mem_trim (mem_of_mem_unquote member)
            simp [uncommented.2] at inside
          cases before with
          | nil => exact absurd long.1 (by decide)
          | cons first key =>
              have quote : first = '"' := by
                simp only [List.cons_append, List.cons.injEq] at whole
                exact whole.1.symm
              subst quote
              have keyTrim : trim ('"' :: key ++ ['"']) = '"' :: key ++ ['"'] :=
                trim_delimited (by decide) key
              rw [keyTrim] at long
              rw [keyTrim, unquote_quoted]
              have nonempty : key ≠ [] := by
                rintro rfl
                exact absurd long.1 (by decide)
              have keyUncommented : '#' ∉ key := fun member =>
                uncommented.1.1 (List.mem_cons_of_mem _ member)
              exact ⟨keyReadable_of_cut nonempty cut, valueNonempty, keyUncommented,
                valueUncommented⟩

end Lines

section Files

/-- What the fold of the reader holds was held before or parsed from a line. -/
theorem mem_foldl_readLine {lines : List (List Char)} {values : StdMap String}
    {xpath value : String} (held : (lines.foldl readLine values)[xpath]? = some value) :
    values[xpath]? = some value ∨
      ∃ line ∈ lines, parseLine line = some (xpath.toList, value.toList) := by
  induction lines generalizing values with
  | nil => exact Or.inl held
  | cons line lines ih =>
      rcases ih held with before | ⟨other, member, parsed⟩
      · unfold readLine at before
        split at before
        · exact Or.inl before
        · next key rest parsed =>
            rw [Std.ExtTreeMap.getElem?_insert] at before
            split at before
            · next same =>
                have key := Std.LawfulEqCmp.compare_eq_iff_eq.mp same
                refine Or.inr ⟨line, by simp, ?_⟩
                rw [parsed, ← key, ← Option.some.inj before]
                simp
            · exact Or.inl before
      · exact Or.inr ⟨other, by simp [member], parsed⟩

/-- The lines of the file and the empty piece behind the last line break. -/
theorem pieces_fileText (persist : YangPersist)
    (oneLine : ∀ entry ∈ persist.mValues.toList,
      '\n' ∉ entry.1.toList ∧ '\n' ∉ entry.2.toList) :
    pieces '\n' persist.fileText.toList =
      (headerLine persist.mYangModelName ::
        persist.mValues.toList.map fun entry =>
          valueLine entry.1.toList entry.2.toList) ++ [[]] := by
  unfold fileText
  rw [String.toList_ofList]
  apply pieces_flatMap
  intro line member
  rw [List.mem_cons, List.mem_map] at member
  rcases member with rfl | ⟨entry, member, rfl⟩
  · have words : '\n' ∉ " Persistent values for YANG model ".toList := by decide +kernel
    have plain := persist.mYangModelName.oneLine
    simp only [headerLine, List.cons_append, List.mem_cons, List.mem_append, not_or]
    exact ⟨by decide, words, plain⟩
  · obtain ⟨key, value⟩ := oneLine entry member
    simp [valueLine, separator, key, value]

theorem readLine_headerLine (values : StdMap String) (name : ModuleName) :
    readLine values (headerLine name) = values := by
  have comment : (headerLine name).takeWhile (· ≠ '#') = [] := by
    rw [headerLine, List.cons_append, List.takeWhile_cons_of_neg (by decide)]
  have blank : parseLine (headerLine name) = none := by
    rw [parseLine, comment, show trim [] = [] from rfl, if_pos rfl]
  rw [readLine, blank]

theorem readLine_nil (values : StdMap String) : readLine values [] = values := rfl

/-- The entries the file format is meant for: no line break anywhere and no
separator in the key. -/
def SafeEntry (entry : String × String) : Prop :=
  ('\n' ∉ entry.1.toList ∧ '\n' ∉ entry.2.toList) ∧ ¬ separator <:+: entry.1.toList

instance (entry : String × String) : Decidable (SafeEntry entry) :=
  inferInstanceAs (Decidable (_ ∧ _))

def LineSafe (values : StdMap String) : Prop :=
  ∀ entry ∈ values.toList, SafeEntry entry

instance (values : StdMap String) : Decidable (LineSafe values) :=
  inferInstanceAs (Decidable (∀ entry ∈ values.toList, _))

def AllRestorable (values : StdMap String) : Prop :=
  ∀ entry ∈ values.toList, Restorable entry.1.toList entry.2.toList

instance (values : StdMap String) : Decidable (AllRestorable values) :=
  inferInstanceAs (Decidable (∀ entry ∈ values.toList, _))

/-- Reading the file of a map with restorable values gives the map. -/
theorem foldl_readLine_fileText {persist : YangPersist} (safe : LineSafe persist.mValues)
    (restorable : AllRestorable persist.mValues) :
    (pieces '\n' persist.fileText.toList).foldl readLine ∅ = persist.mValues := by
  have lineByLine : ∀ (entries : List (String × String)) (values : StdMap String),
      (∀ entry ∈ entries, entry ∈ persist.mValues.toList) →
      (entries.map fun entry => valueLine entry.1.toList entry.2.toList).foldl readLine values =
        entries.foldl (fun map entry => map.insert entry.1 entry.2) values := by
    intro entries
    induction entries with
    | nil => exact fun values _ => rfl
    | cons entry entries ih =>
        intro values within
        have member := within entry (by simp)
        have step : readLine values (valueLine entry.1.toList entry.2.toList) =
            values.insert entry.1 entry.2 := by
          rw [readLine, parseLine_valueLine (restorable entry member) (safe entry member).2]
          simp
        simp only [List.map_cons, List.foldl_cons, step]
        exact ih _ fun other later => within other (by simp [later])
  rw [pieces_fileText persist fun entry member => (safe entry member).1]
  simp only [List.cons_append, List.foldl_cons, List.foldl_append, List.foldl_nil,
    readLine_headerLine, readLine_nil]
  rw [lineByLine _ _ fun entry member => member, OrderedEntries.foldl_insert_toList]

/-- A map that its file gives back holds only restorable values. -/
theorem allRestorable_of_foldl_readLine {persist : YangPersist}
    (safe : LineSafe persist.mValues)
    (same : (pieces '\n' persist.fileText.toList).foldl readLine ∅ = persist.mValues) :
    AllRestorable persist.mValues := by
  intro entry member
  have held := Std.ExtTreeMap.mem_toList_iff_getElem?_eq_some.mp member
  rw [pieces_fileText persist fun entry member => (safe entry member).1] at same
  simp only [List.cons_append, List.foldl_cons, List.foldl_append, List.foldl_nil,
    readLine_headerLine, readLine_nil] at same
  rw [← same] at held
  rcases mem_foldl_readLine held with before | ⟨line, written, parsed⟩
  · simp at before
  · rw [List.mem_map] at written
    obtain ⟨source, -, rfl⟩ := written
    exact restorable_of_parseLine parsed

/-- The file that `write` produced is read back when every value is restorable. -/
theorem read_write_of_restorable {persist : YangPersist} {file : Option String}
    (dirty : persist.mDirty = true) (safe : LineSafe persist.mValues)
    (restorable : AllRestorable persist.mValues) :
    (persist.read (persist.write true file).2).mValues = persist.mValues := by
  have produced : (persist.write true file).2 = some persist.fileText := by
    simp [write, dirty]
  simp only [produced, read]
  exact foldl_readLine_fileText safe restorable

/-- Reading the file that `write` produced gives the map back exactly when
every value is restorable. -/
theorem read_write_eq_iff (persist : YangPersist) (file : Option String)
    (dirty : persist.mDirty = true) (safe : LineSafe persist.mValues) :
    (persist.read (persist.write true file).2).mValues = persist.mValues ↔
      AllRestorable persist.mValues := by
  constructor
  · intro same
    have produced : (persist.write true file).2 = some persist.fileText := by
      simp [write, dirty]
    simp only [produced, read] at same
    exact allRestorable_of_foldl_readLine safe same
  · exact read_write_of_restorable dirty safe

/-- A map with one entry, saved for the module `m`. -/
def savedOnce (xpath value : String) : YangPersist :=
  ⟨⟨"m", by decide⟩, true, (∅ : StdMap String).insert xpath value, ["/m:top"]⟩

theorem read_write_eq_iff_savedOnce :
    ((savedOnce "/m:top/name" "a \"b\"=\"c\" ").read
        ((savedOnce "/m:top/name" "a \"b\"=\"c\" ").write true none).2).mValues =
      (savedOnce "/m:top/name" "a \"b\"=\"c\" ").mValues :=
  (read_write_eq_iff _ none rfl (by decide +kernel)).mpr (by decide +kernel)

/-- An empty value is not restored. -/
theorem read_write_loses_empty :
    (savedOnce "/m:top/name" "").mDirty = true ∧
      LineSafe (savedOnce "/m:top/name" "").mValues ∧
      ((savedOnce "/m:top/name" "").read
        ((savedOnce "/m:top/name" "").write true none).2).mValues ≠
        (savedOnce "/m:top/name" "").mValues := by
  decide +kernel

end Files

end YangPersist

end OpenMplane
