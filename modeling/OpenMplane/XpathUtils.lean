import OpenMplane.StdString

/-!
# Reading instance paths

`XpathUtils` takes the leaf name and the list keys out of the instance paths
that sysrepo delivers.  The readers here follow the source: they look for the
first `[`, the last `/` before it and the first `]` after it, whatever stands
between quotes.  A path whose key value has none of these characters is read
back exactly; this is what `listIndex_listEntry` says.
-/

namespace OpenMplane

open ListCut

/-- `XpathUtils::leafName`: what follows the last `/`, or the whole path. -/
def leafName (xpath : String) : String :=
  match cutLast '/' xpath.toList with
  | none => xpath
  | some (_, leaf) => String.ofList leaf

/-- The results of `XpathUtils::listIndex`: the value it returns and what it
leaves in its three output arguments. -/
structure ListIndex where
  found : Bool
  listName : String
  key : String
  value : String
  deriving DecidableEq, Repr

/-- The key value without one quote at either end. -/
def stripQuotes (index : List Char) : List Char :=
  let start := if index.head? = some '\'' then 1 else 0
  let stop := index.length - if index.getLast? = some '\'' then 1 else 0
  (index.take stop).drop start

/-- `XpathUtils::listIndex`: the first index in the path. -/
def listIndex (xpath : String) : ListIndex :=
  match cutFirst '[' xpath.toList with
  | none => ⟨false, "", "", ""⟩
  | some (before, after) =>
      match cutLast '/' before with
      | none => ⟨false, "", "", ""⟩
      | some (_, listName) =>
          match cutFirst ']' after with
          | none => ⟨false, "", "", ""⟩
          | some (inside, _) =>
              let (key, index) := match cutFirst '=' inside with
                | none => ([], inside)
                | some cut => cut
              if index = [] then ⟨false, String.ofList listName, String.ofList key, ""⟩
              else ⟨true, String.ofList listName, String.ofList key,
                String.ofList (stripQuotes index)⟩

/-- The loop of `listIndexN`: what follows the `]` before the `n`th one, when
there are `n` of them. -/
def behindBrackets : Nat → List Char → Option (List Char)
  | 0, rest => some rest
  | 1, rest => if ']' ∈ rest then some rest else none
  | n + 2, rest => (cutFirst ']' rest).bind fun cut => behindBrackets (n + 1) cut.2

/-- `XpathUtils::listIndexN`: the first index behind the first `n - 1` closing
brackets.  The search starts at the second character.  The output arguments
keep what they held when the path has fewer than `n` closing brackets. -/
def listIndexN (xpath : String) (held : ListIndex) (n : Nat) : ListIndex :=
  match behindBrackets n (xpath.toList.drop 1) with
  | none => { held with found := false }
  | some rest => listIndex (String.ofList rest)

/-- The path of a leaf under an entry of a list with one key. -/
def listEntryLeaf (parent listName key value leaf : String) : String :=
  parent ++ "/" ++ listName ++ "[" ++ key ++ "='" ++ value ++ "']/" ++ leaf

theorem stripQuotes_quoted (value : List Char) :
    stripQuotes ('\'' :: value ++ ['\'']) = value := by
  have last : ('\'' :: value ++ ['\'']).getLast? = some '\'' := by
    rw [List.getLast?_concat]
  simp only [stripQuotes, last]
  simp

/-- The index of a list entry reads back as written when no part of it holds a
character the reader stops at. -/
theorem listIndex_listEntry {parent listName key value : String} (rest : String)
    (parentPlain : '[' ∉ parent.toList)
    (listPlain : '[' ∉ listName.toList ∧ '/' ∉ listName.toList)
    (keyPlain : ']' ∉ key.toList ∧ '=' ∉ key.toList) (valuePlain : ']' ∉ value.toList) :
    listIndex (listEntryLeaf parent listName key value rest) =
      ⟨true, listName, key, value⟩ := by
  have shape : (listEntryLeaf parent listName key value rest).toList =
      (parent.toList ++ '/' :: listName.toList) ++ '[' ::
        ((key.toList ++ '=' :: ('\'' :: value.toList ++ ['\''])) ++ ']' ::
          '/' :: rest.toList) := by
    simp [listEntryLeaf]
  have opens : '[' ∉ parent.toList ++ '/' :: listName.toList := by
    simp [parentPlain, listPlain.1]
  have closes : ']' ∉ key.toList ++ '=' :: ('\'' :: value.toList ++ ['\'']) := by
    simp [keyPlain.1, valuePlain]
  simp only [listIndex, shape, cutFirst_append _ opens, cutLast_append _ listPlain.2,
    cutFirst_append _ closes, cutFirst_append _ keyPlain.2, stripQuotes_quoted]
  simp

/-- The list of the first index is read whatever its key value is. -/
theorem listIndex_listName {parent listName rest : String} (parentPlain : '[' ∉ parent.toList)
    (listPlain : '[' ∉ listName.toList ∧ '/' ∉ listName.toList) (closed : ']' ∈ rest.toList) :
    (listIndex (parent ++ "/" ++ listName ++ "[" ++ rest)).listName = listName := by
  have shape : (parent ++ "/" ++ listName ++ "[" ++ rest).toList =
      (parent.toList ++ '/' :: listName.toList) ++ '[' :: rest.toList := by
    simp
  have opens : '[' ∉ parent.toList ++ '/' :: listName.toList := by
    simp [parentPlain, listPlain.1]
  simp only [listIndex, shape, cutFirst_append _ opens, cutLast_append _ listPlain.2]
  cases found : cutFirst ']' rest.toList with
  | none => exact absurd closed (cutFirst_eq_none.mp found)
  | some cut =>
      obtain ⟨inside, behind⟩ := cut
      dsimp only
      rw [apply_ite ListIndex.listName]
      simp only [String.ofList_toList, ite_self]

theorem leafName_listEntry {parent listName key value leaf : String}
    (plain : '/' ∉ leaf.toList) :
    leafName (listEntryLeaf parent listName key value leaf) = leaf := by
  have shape : (listEntryLeaf parent listName key value leaf).toList =
      (parent.toList ++ '/' :: listName.toList ++ '[' :: key.toList ++ '=' ::
        ('\'' :: value.toList ++ ['\'', ']'])) ++ '/' :: leaf.toList := by
    simp [listEntryLeaf]
  simp only [leafName, shape, cutLast_append _ plain, String.ofList_toList]

/-- A key value between quotes: apostrophes, unless it has one itself. -/
def quoted (value : String) : String :=
  if '\'' ∈ value.toList then "\"" ++ value ++ "\"" else "'" ++ value ++ "'"

theorem quoted_toList (value : String) :
    ∃ mark, (mark = '\'' ∨ mark = '"') ∧
      (quoted value).toList = mark :: (value.toList ++ [mark]) := by
  by_cases has : '\'' ∈ value.toList
  · exact ⟨'"', Or.inr rfl, by simp [quoted, has]⟩
  · exact ⟨'\'', Or.inl rfl, by simp [quoted, has]⟩

def listEntryPath (parent listName key keyValue : String) : String :=
  parent ++ "/" ++ listName ++ "[" ++ key ++ "=" ++ quoted keyValue ++ "]"

/-- The last segment of an entry's path ends with that of its key value. -/
theorem leafName_listEntryPath (parent : String) {listName key : String} (keyValue : String)
    (listPlain : '/' ∉ listName.toList) (keyPlain : '/' ∉ key.toList) :
    ∃ before mark, (mark = '\'' ∨ mark = '"') ∧
      (leafName (listEntryPath parent listName key keyValue)).toList =
        before ++ (leafName keyValue).toList ++ [mark, ']'] ∧
      (before = [] ∨ before = listName.toList ++ '[' :: (key.toList ++ ['=', mark])) := by
  obtain ⟨mark, isMark, quotes⟩ := quoted_toList keyValue
  have notSlash : '/' ≠ mark := by
    rcases isMark with rfl | rfl <;> decide
  cases cut : cutLast '/' keyValue.toList with
  | none =>
      have absent : '/' ∉ keyValue.toList := cutLast_eq_none.mp cut
      have shape : (listEntryPath parent listName key keyValue).toList =
          parent.toList ++ '/' :: (listName.toList ++ '[' :: (key.toList ++ ['=', mark]) ++
            keyValue.toList ++ [mark, ']']) := by
        simp [listEntryPath, quotes]
      refine ⟨_, mark, isMark, ?_, Or.inr rfl⟩
      have whole : leafName keyValue = keyValue := by simp [leafName, cut]
      rw [leafName, shape, cutLast_append _ (by simp [listPlain, keyPlain, absent, notSlash]),
        whole]
      exact String.toList_ofList
  | some parts =>
      obtain ⟨before, after⟩ := parts
      obtain ⟨split, absent⟩ := cutLast_eq_some.mp cut
      have shape : (listEntryPath parent listName key keyValue).toList =
          (parent.toList ++ '/' :: (listName.toList ++ '[' :: (key.toList ++ ['=', mark]) ++
            before)) ++ '/' :: (after ++ [mark, ']']) := by
        simp [listEntryPath, quotes, split]
      refine ⟨[], mark, isMark, ?_, Or.inl rfl⟩
      have last : leafName keyValue = String.ofList after := by simp [leafName, cut]
      rw [leafName, shape, cutLast_append _ (by simp [absent, notSlash]), last]
      simp

/-- A leaf below an entry of a list with one key: the value of the key, the nodes
between the entry and the leaf, and the leaf's own name. -/
structure EntryLeaf where
  keyValue : String
  above : List String
  leaf : String
  named : '/' ∉ leaf.toList
  deriving DecidableEq

namespace EntryLeaf

/-- The path of the leaf, under a list of a container. -/
def path (parent listName key : String) (entry : EntryLeaf) : String :=
  parent ++ "/" ++ listName ++ "[" ++ key ++ "=" ++ quoted entry.keyValue ++ "]/" ++
    String.join (entry.above.map fun node => node ++ "/") ++ entry.leaf

/-- The key value reads back from the path. -/
def Plain (entry : EntryLeaf) : Prop :=
  ']' ∉ entry.keyValue.toList ∧ '\'' ∉ entry.keyValue.toList

instance (entry : EntryLeaf) : Decidable entry.Plain :=
  inferInstanceAs (Decidable (_ ∧ _))

variable {parent listName key : String}

theorem leafName_path (entry : EntryLeaf) :
    leafName (entry.path parent listName key) = entry.leaf := by
  have shape : ∃ before, (entry.path parent listName key).toList =
      before ++ '/' :: entry.leaf.toList := by
    rcases List.eq_nil_or_concat entry.above with none | ⟨nodes, node, nested⟩
    · exact ⟨(parent ++ "/" ++ listName ++ "[" ++ key ++ "=" ++ quoted entry.keyValue ++
        "]").toList, by simp [path, none]⟩
    · exact ⟨(parent ++ "/" ++ listName ++ "[" ++ key ++ "=" ++ quoted entry.keyValue ++
        "]/" ++ String.join (nodes.map fun node => node ++ "/") ++ node).toList,
        by simp [path, nested]⟩
  obtain ⟨before, shape⟩ := shape
  rw [leafName, shape, cutLast_append _ entry.named]
  exact String.ofList_toList

/-- The list of the entry is read whatever its key value is. -/
theorem listIndex_path_listName (entry : EntryLeaf) (parentPlain : '[' ∉ parent.toList)
    (listPlain : '[' ∉ listName.toList ∧ '/' ∉ listName.toList) :
    (listIndex (entry.path parent listName key)).listName = listName := by
  have shape : entry.path parent listName key = parent ++ "/" ++ listName ++ "[" ++
      (key ++ "=" ++ quoted entry.keyValue ++ "]/" ++
        String.join (entry.above.map fun node => node ++ "/") ++ entry.leaf) := by
    rw [← String.toList_inj]
    simp [path]
  rw [shape]
  exact listIndex_listName parentPlain listPlain (by simp)

theorem listIndex_path {entry : EntryLeaf} (plain : entry.Plain)
    (parentPlain : '[' ∉ parent.toList)
    (listPlain : '[' ∉ listName.toList ∧ '/' ∉ listName.toList)
    (keyPlain : ']' ∉ key.toList ∧ '=' ∉ key.toList) :
    listIndex (entry.path parent listName key) = ⟨true, listName, key, entry.keyValue⟩ := by
  have shape : entry.path parent listName key = listEntryLeaf parent listName key entry.keyValue
      (String.join (entry.above.map fun node => node ++ "/") ++ entry.leaf) := by
    rw [← String.toList_inj]
    simp [path, listEntryLeaf, quoted, plain.2]
  rw [shape]
  exact listIndex_listEntry _ parentPlain listPlain keyPlain plain.1

end EntryLeaf

example : listIndex "/m:top/rx-array-carriers[name='rxcc0']/name" =
    ⟨true, "rx-array-carriers", "name", "rxcc0"⟩ := by decide

end OpenMplane
