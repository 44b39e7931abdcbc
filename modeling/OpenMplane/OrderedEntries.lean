import Std.Data.ExtTreeMap

/-!
# The entries of an ordered map

An ordered map is written out entry by entry in the order of its keys, and built again by
inserting the entries.  The lemmas here say that this gives the map back, and that
inserting under one key twice keeps the second value only.
-/

universe u v

namespace OrderedEntries

variable {α : Type u} {β : Type v} {cmp : α → α → Ordering} [Std.TransCmp cmp]
variable (map : Std.ExtTreeMap α β cmp)

/-- A map has what is put into an empty one from its own list. -/
theorem insertMany_toList [Std.LawfulEqCmp cmp] [BEq α] [Std.LawfulBEqCmp cmp] :
    (∅ : Std.ExtTreeMap α β cmp).insertMany map.toList = map := by
  refine Std.ExtTreeMap.ext_getElem? fun key => ?_
  cases held : map[key]? with
  | none =>
      rw [Std.ExtTreeMap.getElem?_insertMany_list_of_contains_eq_false]
      · simp
      · rw [Std.ExtTreeMap.map_fst_toList_eq_keys]
        simpa [← Std.ExtTreeMap.contains_iff_mem] using held
  | some value =>
      have member := Std.ExtTreeMap.mem_toList_iff_getElem?_eq_some.mpr held
      exact Std.ExtTreeMap.getElem?_insertMany_list_of_mem
        Std.ReflCmp.compare_self map.distinct_keys_toList member

/-- Folding the entries of a map back gives the map. -/
theorem foldl_insert_toList [Std.LawfulEqCmp cmp] [BEq α] [Std.LawfulBEqCmp cmp] :
    map.toList.foldl (fun copy entry => copy.insert entry.1 entry.2) ∅ = map := by
  rw [← Std.ExtTreeMap.insertMany_list_eq_foldl, insertMany_toList]

theorem insert_insert [Std.LawfulEqCmp cmp] (key : α) (first second : β) :
    (map.insert key first).insert key second = map.insert key second := by
  refine Std.ExtTreeMap.ext_getElem? fun other => ?_
  simp only [Std.ExtTreeMap.getElem?_insert]
  split <;> rfl

theorem insert_of_getElem? [Std.LawfulEqCmp cmp] {key : α} {value : β}
    (held : map[key]? = some value) : map.insert key value = map := by
  refine Std.ExtTreeMap.ext_getElem? fun other => ?_
  rw [Std.ExtTreeMap.getElem?_insert]
  split
  · next same => rw [← Std.LawfulEqCmp.eq_of_compare same, held]
  · rfl

theorem mem_of_mem_toList [Std.LawfulEqCmp cmp] {entry : α × β} (member : entry ∈ map.toList) :
    entry.1 ∈ map := by
  have held := Std.ExtTreeMap.mem_toList_iff_getElem?_eq_some.mp member
  exact Std.ExtTreeMap.isSome_getElem?_iff_mem.mp (by rw [held]; rfl)

theorem exists_mem_toList [Std.LawfulEqCmp cmp] {key : α} (member : key ∈ map) :
    ∃ value, (key, value) ∈ map.toList := by
  have isSome := Std.ExtTreeMap.isSome_getElem?_iff_mem.mpr member
  obtain ⟨value, held⟩ := Option.isSome_iff_exists.mp isSome
  exact ⟨value, Std.ExtTreeMap.mem_toList_iff_getElem?_eq_some.mpr held⟩

end OrderedEntries
