import OpenMplane.VectorCalls

/-!
# How a vector grows

The elements of a vector before and after one of them is set.  A new element is not set
and has no limits; it is like the variant itself, as long as that is not set.
-/

namespace OpenMplane

variable [FloatLib]

namespace DataVariant

variable {dv : DataVariant}

/-- The element at an index, made if the vector does not reach there. -/
def elementAt (dv : DataVariant) (index : Nat) : DataVariantBase :=
  dv.mValues.getD index dv.newElement

theorem newElement_spec (dv : DataVariant) :
    dv.newElement.isSet = false ∧ dv.newElement.mDv.Unbounded := by
  have copied : (DvTypeFactory.copy dv.mDv).Unbounded := by
    have typed (other : DvType) : ((((DvTypeFactory.construct other.getType other.getTypeStr).setUnits
        other.getUnits).set other.toString).2).Unbounded := by
      rw [DvType.Unbounded, (DvType.set_keeps _ _).2, (DvType.setUnits_keeps _ _).2.1]
      exact (DvType.settled_construct other.getType other.getTypeStr).2.2
    cases found : dv.mDv with
    | none other => exact trivial
    | integer type other => exact typed (.integer type other)
    | real type other => exact typed (.real type other)
    | complex other => exact typed (.complex other)
    | enum other => exact typed (.enum other)
    | bool other => exact typed (.bool other)
    | string other => exact typed (.string other)
  obtain ⟨-, bounds, unset⟩ := DvType.clear_keeps (DvTypeFactory.copy dv.mDv)
  have cleared : (DvTypeFactory.copy dv.mDv).clear.Unbounded := by
    rw [DvType.Unbounded, bounds]
    exact copied
  rw [newElement]
  split
  · obtain ⟨-, bounds', set', -⟩ :=
      DvType.setUnits_keeps (DvTypeFactory.copy dv.mDv).clear dv.getUnits
    refine ⟨set'.trans unset, ?_⟩
    show ((DvTypeFactory.copy dv.mDv).clear.setUnits dv.getUnits).Unbounded
    rw [DvType.Unbounded, bounds']
    exact cleared
  · exact ⟨unset, cleared⟩

/-- A new element is like the variant itself, if that is not set. -/
theorem alike_newElement (unset : dv.mDv.isSet = false) (settled : dv.mDv.Settled) :
    dv.mDv.Alike dv.newElement.mDv := by
  have alike := settled unset
  have empty : dv.mDv.toString = [] := by
    rw [alike.toString_eq]
    cases dv.mDv <;> rfl
  have copied : dv.mDv.clear.Alike (DvTypeFactory.copy dv.mDv).clear := by
    have typed (other : DvType) (empty : other.toString = [])
        (fresh : other.clear.Alike (((DvTypeFactory.construct other.getType
          other.getTypeStr).setUnits other.getUnits).clear)) :
        other.clear.Alike ((((DvTypeFactory.construct other.getType other.getTypeStr).setUnits
          other.getUnits).set other.toString).2).clear := by
      rw [empty]
      exact fresh.trans (DvType.alike_set_nil _).symm
    cases found : dv.mDv with
    | none other => rfl
    | integer type other => exact typed (.integer type other) (found ▸ empty) rfl
    | real type other =>
        refine typed (.real type other) (found ▸ empty) ?_
        cases type <;> rfl
    | complex other => exact typed (.complex other) (found ▸ empty) rfl
    | enum other => exact typed (.enum other) (found ▸ empty) rfl
    | bool other => exact typed (.bool other) (found ▸ empty) rfl
    | string other => exact typed (.string other) (found ▸ empty) rfl
  have whole : dv.mDv.Alike (DvTypeFactory.copy dv.mDv).clear := alike.trans copied
  rw [newElement]
  split
  · show dv.mDv.Alike ((DvTypeFactory.copy dv.mDv).clear.setUnits dv.getUnits)
    have again : (dv.mDv.setUnits dv.getUnits).Alike dv.mDv := DvType.alike_setUnits_self unset
    exact again.symm.trans (whole.setUnits dv.getUnits)
  · exact whole

@[simp]
theorem mSet_setName (index : Nat) (name : List Char) : (dv.setName index name).mSet = dv.mSet := by
  rw [setName]
  split <;> rfl

@[simp]
theorem mSet_getIndexedValue (index : Nat) : (dv.getIndexedValue index).mSet = dv.mSet := by
  rw [getIndexedValue]
  split <;> rfl

@[simp]
theorem length_mNames_setName (index : Nat) (name : List Char) :
    (dv.setName index name).mNames.length = dv.mNames.length := by
  rw [setName]
  split
  · exact List.length_set
  · rfl

section SetIndexed

variable (vector : dv.mIsVector = true) (index : Nat)
  (assign : DataVariantBase → DataVariantBase) (name : List Char)

include vector

theorem getElem?_getIndexedValue (other : Nat) :
    (dv.getIndexedValue index).mValues[other]? =
      if other < dv.mValues.length then dv.mValues[other]?
      else if other ≤ index then some dv.newElement else none := by
  rw [mValues_getIndexedValue vector]
  by_cases inside : other < dv.mValues.length
  · rw [if_pos inside, List.getElem?_append_left inside]
  · rw [if_neg inside, List.getElem?_append_right (by omega), List.getElem?_replicate]
    split <;> split <;> first | rfl | omega

theorem getElem?_getIndexedValue_self :
    (dv.getIndexedValue index).mValues[index]? = some (dv.elementAt index) := by
  rw [getElem?_getIndexedValue vector, elementAt, List.getD_eq_getElem?_getD]
  by_cases inside : index < dv.mValues.length
  · rw [if_pos inside, List.getElem?_eq_getElem inside]
    rfl
  · rw [if_neg inside, if_pos (le_refl index), List.getElem?_eq_none (by omega)]
    rfl

theorem getElem?_setIndexed_self :
    (dv.setIndexed index assign name).mValues[index]? = some (assign (dv.elementAt index)) := by
  rw [(setIndexed_spec vector index assign name).1, List.getElem?_modify_eq,
    getElem?_getIndexedValue_self vector]
  rfl

/-- Any other element stays, or is new. -/
theorem getElem?_setIndexed_other {other : Nat} (different : other ≠ index) :
    (dv.setIndexed index assign name).mValues[other]? =
      (dv.getIndexedValue index).mValues[other]? := by
  rw [(setIndexed_spec vector index assign name).1, List.getElem?_modify_ne _ _ (Ne.symm different)]

theorem mSet_setIndexed : (dv.setIndexed index assign name).mSet =
    (dv.mSet || (assign (dv.elementAt index)).isSet) := by
  have written := getElem?_getIndexedValue_self vector index
  have value : (((dv.getIndexedValue index).mValues.modify index assign)[index]?) =
      some (assign (dv.elementAt index)) := by
    rw [List.getElem?_modify_eq, written]
    rfl
  rw [setIndexed, if_pos vector]
  simp only [value, Option.any_some]
  cases set : (assign (dv.elementAt index)).isSet with
  | true => by_cases first : index = 0 <;> simp [first]
  | false => by_cases first : index = 0 <;> simp [first]

theorem length_setIndexed :
    (dv.setIndexed index assign name).mNames.length = dv.mNames.length +
      (index + 1 - dv.mValues.length) ∧
    (dv.setIndexed index assign name).mValues.length = dv.mValues.length +
      (index + 1 - dv.mValues.length) := by
  refine ⟨?_, ?_⟩
  · have grown : (dv.getIndexedValue index).mNames.length = dv.mNames.length +
        (index + 1 - dv.mValues.length) := by
      rw [getIndexedValue, if_pos vector]
      simp
    rw [setIndexed, if_pos vector, ← grown]
    by_cases first : index = 0
    · simp only [first, if_true]
      split <;> simp
    · simp only [first, if_false]
      split <;> simp
  · rw [(setIndexed_spec vector index assign name).1, List.length_modify,
      mValues_getIndexedValue vector, List.length_append, List.length_replicate]

end SetIndexed

end DataVariant

end OpenMplane
