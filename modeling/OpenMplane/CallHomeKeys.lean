import OpenMplane.KeyPredicates
import OpenMplane.RadioDatastoreEdits
import Mathlib.Data.List.Basic
import Mathlib.Data.List.Nodup
import Mathlib.Data.List.Lex
import Mathlib.Data.Char

/-!
# Keys of the call home clients

The clients of `ietf-netconf-server` are a list with the key `name`.  Their xpaths quote the
name, in double quotes where it has single ones itself, and `getListItems` cuts what is between
the brackets.  A client with no `]` in its name is listed by its key alone; any other is listed
in pieces, of which one may be the key of a client that is not there.
-/

namespace OpenMplane

open ListCut EditedDatastore

/-- The xpath of the list. -/
def clientListPath : String := "/ietf-netconf-server:netconf-server/call-home/netconf-client"

/-- The xpath of a client, as it is asked for. -/
def clientPath (name : String) : String := keyedPath clientListPath "name" name

/-- The quotes of a key in the xpath of a client that is listed. -/
def keyQuote (name : String) : Char := if '\'' ∈ name.toList then '"' else '\''

def keyText (quote : Char) (name : String) : List Char :=
  "name=".toList ++ quote :: (name.toList ++ [quote])

/-- The xpath of a client, as it is listed. -/
def instancePath (name : String) : List Char :=
  clientListPath.toList ++ '[' :: (keyText (keyQuote name) name ++ [']'])

/-- The key values that `getListItems` finds in the entries of a list, where it comes to an
end.  The position goes up in every round unless it comes back to one it had, so that a scan
that takes more rounds than there are positions goes on for ever. -/
def listKeyValues (instancePaths : List (List Char)) : Option (List (List Char)) :=
  (instancePaths.mapM fun path => keyValuePairs path (path.length + 2) 0).map List.flatten

/-- The key that is looked for is between brackets in the xpath of the client. -/
def Lists (other name : String) : Prop := Mentions (instancePath other) (keyText '\'' name)

/-- The xpath of a client fits the positions of the scanner. -/
def Short (name : String) : Prop := (instancePath name).length < 2 ^ 32

section Keys

variable {name other : String}

theorem listKeyValues_eq {names : List String} (short : ∀ name ∈ names, Short name) :
    listKeyValues (names.map instancePath) =
      some (names.flatMap fun name => pairsOf (instancePath name)) := by
  have scanned : (names.map instancePath).mapM (fun path =>
      keyValuePairs path (path.length + 2) 0) =
        some (names.map fun name => pairsOf (instancePath name)) := by
    induction names with
    | nil => rfl
    | cons name names ih =>
        have here := keyValuePairs_eq (short name List.mem_cons_self)
          (show (instancePath name).length < 0 + ((instancePath name).length + 2) by omega)
          (Nat.zero_le _)
        rw [List.drop_zero] at here
        rw [List.map_cons, List.mapM_cons, here,
          ih fun other member => short other (List.mem_cons_of_mem name member)]
        rfl
  rw [listKeyValues, scanned, Option.map_some, List.flatMap_def]

theorem notMem_clientListPath : '[' ∉ clientListPath.toList := by decide

/-- A key without a `]` is all that is listed of its client. -/
theorem pairsOf_instancePath (noClosing : ']' ∉ keyText (keyQuote name) name) :
    pairsOf (instancePath name) = [keyText (keyQuote name) name] := by
  rw [instancePath, pairsOf_append notMem_clientListPath noClosing,
    pairsOf_of_notMem List.not_mem_nil]

/-- What is listed of a client begins with a part of its key. -/
theorem exists_first_pair (name : String) :
    ∃ pair more, pairsOf (instancePath name) = pair :: more ∧
      pair <+: keyText (keyQuote name) name := by
  by_cases closing : ']' ∈ keyText (keyQuote name) name
  · obtain ⟨pair, tail, cut, noClosing⟩ := List.eq_append_cons_of_mem closing
    have shape : instancePath name =
        clientListPath.toList ++ '[' :: (pair ++ ']' :: (tail ++ [']'])) := by
      rw [instancePath, cut, List.append_assoc, List.cons_append]
    refine ⟨pair, pairsOf (tail ++ [']']), ?_, ?_⟩
    · rw [shape, pairsOf_append notMem_clientListPath noClosing]
    · rw [cut]
      exact List.prefix_append pair _
  · exact ⟨_, [], pairsOf_instancePath closing, List.prefix_rfl⟩

theorem keyQuote_of_notMem (plain : '\'' ∉ name.toList) : keyQuote name = '\'' := if_neg plain

theorem closing_mem_keyText : ']' ∈ keyText '\'' name ↔ ']' ∈ name.toList := by
  have notInText : ']' ∉ "name=".toList := by decide
  constructor
  · intro closing
    rcases List.mem_append.mp closing with early | late
    · exact absurd early notInText
    · rcases List.mem_append.mp (List.mem_of_ne_of_mem (by decide) late) with inName | last
      · exact inName
      · exact absurd (List.mem_singleton.mp last) (by decide)
  · intro inName
    exact List.mem_append_right _ (List.mem_cons_of_mem _ (List.mem_append_left _ inName))

/-- A client is listed by its own key where it has no `]`. -/
theorem lists_self_iff (plain : '\'' ∉ name.toList) : Lists name name ↔ ']' ∉ name.toList := by
  constructor
  · rintro ⟨-, -, -, noClosing, -⟩ inName
    exact noClosing (closing_mem_keyText.mpr inName)
  · intro noClosing
    have quote := keyQuote_of_notMem plain
    have listed := @pairsOf_instancePath name
    rw [quote] at listed
    refine mentions_of_mem_pairsOf ?_
    rw [listed (mt closing_mem_keyText.mp noClosing)]
    exact List.mem_cons_self

theorem eq_of_keyText_front (plain : '\'' ∉ name.toList)
    (front : keyText '\'' name <+: keyText (keyQuote other) other) : name = other := by
  have behind := (List.prefix_append_right_inj _).mp front
  obtain ⟨quote, rest, text⟩ := List.cons_prefix_cons.mp behind
  have otherPlain : '\'' ∉ other.toList := by
    intro quoted
    rw [keyQuote, if_pos quoted] at quote
    exact absurd quote (by decide)
  rw [← quote, List.append_assoc] at text
  have first := cutFirst_append ([] ++ rest) plain
  have second := cutFirst_append [] otherPlain
  rw [show name.toList ++ '\'' :: ([] ++ rest) = other.toList ++ ['\''] from text] at first
  exact String.toList_inj.mp (Prod.mk.inj (Option.some.inj (first.symm.trans second))).1

variable {names : List String}

theorem length_le_flatMap (names : List String) :
    names.length ≤ (names.flatMap fun name => pairsOf (instancePath name)).length := by
  induction names with
  | nil => exact Nat.le_refl 0
  | cons name names ih =>
      obtain ⟨pair, more, listed, -⟩ := exists_first_pair name
      rw [List.flatMap_cons, listed, List.length_append, List.length_cons, List.length_cons]
      omega

/-- Two clients give at least two keys. -/
theorem two_le_length (member : name ∈ names) (otherMember : other ∈ names)
    (different : other ≠ name) :
    1 < (names.flatMap fun name => pairsOf (instancePath name)).length := by
  refine Nat.lt_of_lt_of_le ?_ (length_le_flatMap names)
  match names, member, otherMember with
  | [_], member, otherMember =>
      rw [List.mem_singleton] at member otherMember
      exact absurd (otherMember.trans member.symm) different
  | _ :: _ :: _, _, _ => simp only [List.length_cons]; omega

/-- A client that is listed as another one gives at least two keys. -/
theorem two_le_length_of_lists (plain : '\'' ∉ name.toList) (otherMember : other ∈ names)
    (different : other ≠ name) (lists : Lists other name) :
    1 < (names.flatMap fun name => pairsOf (instancePath name)).length := by
  have part : (pairsOf (instancePath other)).length ≤
      (names.flatMap fun name => pairsOf (instancePath name)).length := by
    have inList : pairsOf (instancePath other) ∈
        names.map fun name => pairsOf (instancePath name) :=
      List.mem_map.mpr ⟨other, otherMember, rfl⟩
    rw [List.flatMap_def]
    exact (List.sublist_flatten_of_mem inList).length_le
  refine Nat.lt_of_lt_of_le ?_ part
  obtain ⟨pair, more, listed, front⟩ := exists_first_pair other
  have member := mem_pairsOf_iff.mpr lists
  rw [listed] at member ⊢
  rcases List.mem_cons.mp member with rfl | behind
  · exact absurd (eq_of_keyText_front plain front).symm different
  · rw [List.length_cons]
    exact Nat.succ_lt_succ (List.length_pos_of_mem behind)

/-- The only client, without a `]`, gives no more than one key. -/
theorem length_le_one (nodup : names.Nodup) (only : ∀ other ∈ names, other = name)
    (plain : '\'' ∉ name.toList) (noClosing : ']' ∉ name.toList) :
    (names.flatMap fun name => pairsOf (instancePath name)).length ≤ 1 := by
  match names, nodup, only with
  | [], _, _ => exact Nat.zero_le 1
  | [first], _, only =>
      obtain rfl := only first List.mem_cons_self
      have listed := @pairsOf_instancePath first
      rw [keyQuote_of_notMem plain] at listed
      rw [List.flatMap_cons, listed (mt closing_mem_keyText.mp noClosing)]
      exact Nat.le_refl 1
  | first :: second :: names, nodup, only =>
      have same : first = second := (only first List.mem_cons_self).trans
        (only second (List.mem_cons_of_mem _ List.mem_cons_self)).symm
      rw [same] at nodup
      exact absurd List.mem_cons_self (List.nodup_cons.mp nodup).1

end Keys

end OpenMplane
