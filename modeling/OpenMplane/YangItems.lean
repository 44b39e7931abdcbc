import OpenMplane.RadioDatastore

/-!
# Adding items to items

The `add` methods of `YangItems` store a copy of the item they are given, made
by the copy constructor of its class.  These constructors name what they keep.
The file says which items come out whole, one by one and for whole trees that
are built from the leaves upwards.
-/

namespace OpenMplane

/-- The members of `YangItem` but the type, which the class fixes. -/
structure YangItemMembers where
  mName : String
  mId : UInt32
  deriving DecidableEq

/-- An item, by its class. -/
inductive YangItem
  | leaf (item : YangItemMembers)
  | reference (item : YangItemMembers) (mPath : String)
  | container (item : YangItemMembers) (mItems : List YangItem)
  | group (item : YangItemMembers) (mItems : List YangItem)
  | list (item : YangItemMembers) (mItems : List YangItem) (mKeyName : String)
      (mKeys : List String)
  | choiceOption (item : YangItemMembers) (mItems : List YangItem)
  | choice (item : YangItemMembers) (mItems : List YangItem)
  | notif (item : YangItemMembers) (mItems : List YangItem)
  | feature (item : YangItemMembers)

namespace YangItem

def makeLeaf (item : YangItemMembers) : YangItem := .leaf item

/-- `makeReference`: the copy constructor takes the name and the id. -/
def makeReference (item : YangItemMembers) (_mPath : String) : YangItem := .reference item ""

def makeContainer (item : YangItemMembers) (mItems : List YangItem) : YangItem :=
  .container item mItems

def makeGroup (item : YangItemMembers) (mItems : List YangItem) : YangItem := .group item mItems

/-- `makeList`: the copy constructor takes the name, the id and the items. -/
def makeList (item : YangItemMembers) (mItems : List YangItem) (_mKeyName : String)
    (_mKeys : List String) : YangItem :=
  .list item mItems "" []

def makeChoice (item : YangItemMembers) (mItems : List YangItem) : YangItem := .choice item mItems

def makeNotification (item : YangItemMembers) (mItems : List YangItem) : YangItem :=
  .notif item mItems

def makeFeature (item : YangItemMembers) : YangItem := .feature item

/-- `YangChoice::makeOption`: a new option of the name and the id. -/
def makeOption (item : YangItemMembers) (_mItems : List YangItem) : YangItem :=
  .choiceOption item []

/-- The common body of the `add` methods of `YangItems`; `std::make_shared`
returns no null pointer. -/
def addMade (made : YangItem) (mItems : List YangItem) : YangResult × List YangItem :=
  (.OK, mItems ++ [made])

/-- `YangChoice::addOption`: the list that the option is put into is the one that
`getItemList` returned, a copy. -/
def addOption (item : YangItemMembers) (optionItems mItems : List YangItem) :
    YangResult × List YangItem :=
  let _getItemList := mItems ++ [makeOption item optionItems]
  (.OK, mItems)

/-- The `add` method for the class of an item, on the items of the parent. -/
def addItem : YangItem → List YangItem → YangResult × List YangItem
  | .leaf item => addMade (makeLeaf item)
  | .reference item mPath => addMade (makeReference item mPath)
  | .container item mItems => addMade (makeContainer item mItems)
  | .group item mItems => addMade (makeGroup item mItems)
  | .list item mItems mKeyName mKeys => addMade (makeList item mItems mKeyName mKeys)
  | .choiceOption item mItems => addOption item mItems
  | .choice item mItems => addMade (makeChoice item mItems)
  | .notif item mItems => addMade (makeNotification item mItems)
  | .feature item => addMade (makeFeature item)

mutual
/-- A tree built anew: an object of the class, with the members that are set on it,
and its items added to it one after the other. -/
def build : YangItem → YangItem
  | .leaf item => .leaf item
  | .reference item mPath => .reference item mPath
  | .container item mItems => .container item (buildItems [] mItems)
  | .group item mItems => .group item (buildItems [] mItems)
  | .list item mItems mKeyName mKeys => .list item (buildItems [] mItems) mKeyName mKeys
  | .choiceOption item mItems => .choiceOption item (buildItems [] mItems)
  | .choice item mItems => .choice item (buildItems [] mItems)
  | .notif item mItems => .notif item (buildItems [] mItems)
  | .feature item => .feature item

def buildItems (added : List YangItem) : List YangItem → List YangItem
  | [] => added
  | item :: items => buildItems (addItem (build item) added).2 items
end

mutual
/-- Every item below the root of a tree. -/
def nested : YangItem → List YangItem
  | .leaf _ | .reference _ _ | .feature _ => []
  | .container _ mItems | .group _ mItems | .list _ mItems _ _ | .choiceOption _ mItems
  | .choice _ mItems | .notif _ mItems => nestedAll mItems

def nestedAll : List YangItem → List YangItem
  | [] => []
  | item :: items => item :: (nested item ++ nestedAll items)
end

/-- The item has nothing that its `add` method drops. -/
def Kept : YangItem → Prop
  | .reference _ mPath => mPath = ""
  | .list _ _ mKeyName mKeys => mKeyName = "" ∧ mKeys = []
  | .choiceOption _ _ => False
  | _ => True

/-- What an `add` method puts behind the items of the parent. -/
def stored (item : YangItem) : List YangItem := (addItem item []).2

theorem addItem_eq (item : YangItem) (mItems : List YangItem) :
    (addItem item mItems).2 = mItems ++ item.stored := by
  cases item <;> simp [stored, addItem, addMade, addOption]

theorem stored_eq_iff (item : YangItem) : item.stored = [item] ↔ item.Kept := by
  cases item <;>
    simp [stored, addItem, addMade, addOption, makeLeaf, makeReference, makeContainer, makeGroup,
      makeList, makeChoice, makeNotification, makeFeature, Kept, eq_comm]

theorem length_stored_le (item : YangItem) : item.stored.length ≤ 1 := by
  cases item <;> simp [stored, addItem, addMade, addOption]

theorem buildItems_eq (added items : List YangItem) :
    buildItems added items = added ++ items.flatMap fun item => (build item).stored := by
  induction items generalizing added with
  | nil => simp [buildItems]
  | cons item items ih => rw [buildItems, ih, addItem_eq, List.append_assoc, List.flatMap_cons]

/-- A built item comes out whole when nothing of it is dropped and it was built
whole. -/
theorem stored_build_iff (item : YangItem) :
    (build item).stored = [item] ↔ item.Kept ∧ build item = item := by
  cases item <;>
    simp [build, stored, addItem, addMade, addOption, makeLeaf, makeReference, makeContainer,
      makeGroup, makeList, makeChoice, makeNotification, makeFeature, Kept, eq_comm, and_comm,
      and_assoc]

theorem length_buildItems_le (items : List YangItem) :
    (buildItems [] items).length ≤ items.length := by
  rw [buildItems_eq, List.nil_append]
  induction items with
  | nil => exact Nat.le_refl _
  | cons item items ih =>
      have one := length_stored_le (build item)
      rw [List.flatMap_cons, List.length_append, List.length_cons]
      omega

theorem buildItems_cons_iff (item : YangItem) (items : List YangItem) :
    buildItems [] (item :: items) = item :: items ↔
      (build item).stored = [item] ∧ buildItems [] items = items := by
  have fewer := length_buildItems_le items
  have split : buildItems [] (item :: items) = (build item).stored ++ buildItems [] items := by
    simp [buildItems_eq]
  have one := length_stored_le (build item)
  rw [split]
  cases kept : (build item).stored with
  | nil =>
      have shorter : buildItems [] items ≠ item :: items := by
        intro same
        rw [same, List.length_cons] at fewer
        omega
      simp [shorter]
  | cons first rest =>
      rw [kept, List.length_cons] at one
      have none : rest = [] := List.eq_nil_of_length_eq_zero (by omega)
      subst none
      simp

mutual
theorem build_eq_iff : ∀ tree : YangItem, build tree = tree ↔ ∀ item ∈ nested tree, item.Kept
  | .leaf _ => by simp [build, nested]
  | .reference _ _ => by simp [build, nested]
  | .feature _ => by simp [build, nested]
  | .container _ mItems => by simp [build, nested, buildItems_eq_iff mItems]
  | .group _ mItems => by simp [build, nested, buildItems_eq_iff mItems]
  | .list _ mItems _ _ => by simp [build, nested, buildItems_eq_iff mItems]
  | .choiceOption _ mItems => by simp [build, nested, buildItems_eq_iff mItems]
  | .choice _ mItems => by simp [build, nested, buildItems_eq_iff mItems]
  | .notif _ mItems => by simp [build, nested, buildItems_eq_iff mItems]

theorem buildItems_eq_iff : ∀ items : List YangItem,
    buildItems [] items = items ↔ ∀ item ∈ nestedAll items, item.Kept
  | [] => by simp [buildItems, nestedAll]
  | item :: items => by
      have whole := build_eq_iff item
      have others := buildItems_eq_iff items
      rw [buildItems_cons_iff, stored_build_iff, whole, others, nestedAll, List.forall_mem_cons,
        List.forall_mem_append, and_assoc]
end

/-- An `add` method puts the whole item behind the items of the parent exactly
when it drops nothing of it, and a tree comes out of its building whole exactly
when this is so for every item below its root. -/
theorem complete_iff (item : YangItem) (mItems : List YangItem) :
    ((addItem item mItems).2 = mItems ++ [item] ↔ item.Kept) ∧
      (build item = item ↔ ∀ inner ∈ item.nested, inner.Kept) := by
  refine ⟨?_, build_eq_iff item⟩
  rw [addItem_eq, List.append_cancel_left_eq, stored_eq_iff]

/-- The path of a reference is not copied. -/
theorem reference_path_is_dropped : ¬ ∀ (item : YangItem) (mItems : List YangItem),
    (addItem item mItems).2 = mItems ++ [item] := by
  intro claim
  have whole := claim (.reference ⟨"interface", 3⟩ "/if:interfaces/if:interface") []
  simp [addItem, addMade, makeReference] at whole

end YangItem

end OpenMplane
