import Mathlib.Data.List.Forall2
import OpenMplane.DataVariant
import OpenMplane.VectorElements

/-!
# Vectors written to a variant and read back

`DataVariantVector`: the elements of a vector variant are set from the values of a
`std::vector` one after the other, and are read from copies of them.  Nothing makes the
variant shorter, so that it has the values that were written only if it was not longer.
-/

namespace OpenMplane

open NumeralText

variable [FloatLib]

namespace DataVariantVector

/-- `isVectorComplete`, and the error that it sets. -/
def isVectorComplete (dv : DataVariant) : Bool × List Char :=
  match dv.getList.find? fun pair => !pair.2.isSet with
  | some pair => (false, "Value ".toList ++ pair.1 ++ " is unset".toList)
  | none => (true, [])

/-- What `toIntVector` and its kin have in common. -/
def toTypeVector {α : Type} (read : DataVariant → α) (dv : DataVariant) : List α × List Char :=
  let (complete, error) := isVectorComplete dv
  if complete then (dv.getList.map fun pair => read pair.2, error) else ([], error)

def fromTypeVector {α : Type} (set : DataVariant → Nat → α → DataVariant) (vec : List α)
    (dv : DataVariant) : Bool × DataVariant :=
  (true, vec.zipIdx.foldl (fun dv (val, idx) => set dv idx val) dv)

def toIntVector := toTypeVector fun dv => dv.toInt

def toUnsignedVector := toTypeVector fun dv => toUint32 dv.toInt

def toBoolVector := toTypeVector fun dv => dv.toBool

def toStringVector := toTypeVector fun dv => dv.toString

def fromIntVector := fromTypeVector fun dv idx (val : Int) => dv.setIndexedInt idx val []

def fromUnsignedVector :=
  fromTypeVector fun dv idx (val : Int) => dv.setIndexedInt idx (toInt32 val) []

/-- `fromBoolVector`, whose values are promoted to `int`. -/
def fromBoolVector :=
  fromTypeVector fun dv idx (val : Bool) => dv.setIndexedInt idx (if val then 1 else 0) []

def fromStringVector :=
  fromTypeVector fun dv idx (val : List Char) => dv.setIndexedStr idx val []

end DataVariantVector

namespace VectorType

/-- `fromIntVector` and its kin by the type of the elements. -/
def fromVector : (type : VectorType) → List type.Value → DataVariant → Bool × DataVariant
  | int => DataVariantVector.fromIntVector
  | unsigned => DataVariantVector.fromUnsignedVector
  | bool _ => DataVariantVector.fromBoolVector
  | string => DataVariantVector.fromStringVector

/-- `toIntVector` and its kin by the type of the elements. -/
def toVector : (type : VectorType) → DataVariant → List type.Value × List Char
  | int => DataVariantVector.toIntVector
  | unsigned => DataVariantVector.toUnsignedVector
  | bool _ => DataVariantVector.toBoolVector
  | string => DataVariantVector.toStringVector

end VectorType

/-- A vector of elements of a type, whatever they hold. -/
structure VectorOf (type : VectorType) extends DataVariant where
  isVector : mIsVector = true
  mirror : type.Holds mDv
  elements : ∀ value ∈ mValues, type.Holds value.mDv

/-- A `std::vector` of values of the type. -/
structure ValuesOf (type : VectorType) where
  values : List type.Value
  fits : ∀ value ∈ values, type.Fits value

section Vectors

variable {type : VectorType} {dv : DataVariant}

theorem VectorType.fromVector_eq (type : VectorType) (values : List type.Value) (dv : DataVariant) :
    type.fromVector values dv =
      (true, values.zipIdx.foldl
        (fun dv (value, idx) => dv.setIndexed idx (type.assign value) []) dv) := by
  cases type <;> rfl

theorem VectorType.toVector_eq (type : VectorType) (dv : DataVariant) :
    type.toVector dv = DataVariantVector.toTypeVector (fun dv => type.read dv.mDv) dv := by
  cases type <;> rfl

/-- An element that a value has been written to. -/
def KeepsValue (type : VectorType) (value : type.Value) (element : DataVariantBase) : Prop :=
  type.Holds element.mDv ∧ element.mDv.isSet = true ∧
    type.read (DvTypeFactory.copy element.mDv) = type.readBack value

theorem holds_newElement (mirror : type.Holds dv.mDv) : type.Holds dv.newElement.mDv := by
  have fresh := VectorType.holds_clear (VectorType.holds_copy mirror).1
  rw [DataVariant.newElement]
  split
  · exact VectorType.holds_setUnits fresh _
  · exact fresh

theorem setIndexed_next (vector : dv.mIsVector = true) (mirror : type.Holds dv.mDv)
    (elements : ∀ element ∈ dv.mValues, type.Holds element.mDv) {index : Nat}
    (reached : index ≤ dv.mValues.length) {value : type.Value} (fits : type.Fits value) :
    ∃ element, KeepsValue type value element ∧
      (dv.setIndexed index (type.assign value) []).mValues =
        dv.mValues.take index ++ element :: dv.mValues.drop (index + 1) := by
  obtain ⟨values, -, -⟩ := DataVariant.setIndexed_spec vector index (type.assign value) []
  rw [values, DataVariant.mValues_getIndexedValue vector]
  rcases Nat.lt_or_eq_of_le reached with inside | next
  · have none : index + 1 - dv.mValues.length = 0 := by omega
    have holds := elements _ (List.getElem_mem inside)
    refine ⟨_, VectorType.assign_spec holds fits, ?_⟩
    rw [none, List.replicate_zero, List.append_nil, List.modify_eq_take_cons_drop inside]
  · have one : index + 1 - dv.mValues.length = 1 := by omega
    have holds := holds_newElement mirror
    refine ⟨_, VectorType.assign_spec holds fits, ?_⟩
    have longer : index < (dv.mValues ++ [dv.newElement]).length := by
      rw [List.length_append, List.length_singleton]
      omega
    rw [one, List.replicate_one, List.modify_eq_take_cons_drop longer]
    subst next
    simp

theorem holds_setIndexed (vector : dv.mIsVector = true) (mirror : type.Holds dv.mDv) (index : Nat)
    {value : type.Value} (fits : type.Fits value) :
    type.Holds (dv.setIndexed index (type.assign value) []).mDv := by
  obtain ⟨-, base, -⟩ := DataVariant.setIndexed_spec vector index (type.assign value) []
  rw [base]
  split
  · exact (VectorType.assign_spec mirror fits).1
  · exact mirror

/-- The elements from a position on are set to the values in turn. -/
theorem foldl_setIndexed (values : List type.Value) (fits : ∀ value ∈ values, type.Fits value)
    (vector : dv.mIsVector = true) (mirror : type.Holds dv.mDv)
    (elements : ∀ element ∈ dv.mValues, type.Holds element.mDv) {index : Nat}
    (reached : index ≤ dv.mValues.length) :
    ((values.zipIdx index).foldl
        (fun dv (value, idx) => dv.setIndexed idx (type.assign value) []) dv).mIsVector = true ∧
      ∃ written, List.Forall₂ (KeepsValue type) values written ∧
        ((values.zipIdx index).foldl
          (fun dv (value, idx) => dv.setIndexed idx (type.assign value) []) dv).mValues =
            dv.mValues.take index ++ written ++ dv.mValues.drop (index + values.length) := by
  induction values generalizing dv index with
  | nil =>
      refine ⟨vector, [], .nil, ?_⟩
      simp
  | cons value rest ih =>
      have fitsFirst := fits value List.mem_cons_self
      obtain ⟨element, keeps, next⟩ := setIndexed_next vector mirror elements reached fitsFirst
      have vector' := (DataVariant.setIndexed_spec vector index (type.assign value) []).2.2
      have mirror' := holds_setIndexed vector mirror index fitsFirst
      have elements' : ∀ other ∈ (dv.setIndexed index (type.assign value) []).mValues,
          type.Holds other.mDv := by
        intro other member
        rw [next, List.mem_append, List.mem_cons] at member
        rcases member with before | rfl | behind
        · exact elements other (List.mem_of_mem_take before)
        · exact keeps.1
        · exact elements other (List.mem_of_mem_drop behind)
      have front : (dv.mValues.take index).length = index := List.length_take_of_le reached
      have reached' : index + 1 ≤ (dv.setIndexed index (type.assign value) []).mValues.length := by
        rw [next, List.length_append, front, List.length_cons]
        omega
      obtain ⟨vector'', written, wrote, result⟩ :=
        ih (fun value member => fits value (List.mem_cons_of_mem _ member)) vector' mirror'
          elements' reached'
      refine ⟨vector'', element :: written, .cons keeps wrote, ?_⟩
      rw [List.zipIdx_cons, List.foldl_cons, result, next]
      have taken : (dv.mValues.take index ++ element :: dv.mValues.drop (index + 1)).take
          (index + 1) = dv.mValues.take index ++ [element] := by
        rw [List.take_append, front, List.take_of_length_le (by omega),
          Nat.add_sub_cancel_left, List.take_succ_cons, List.take_zero]
      have dropped : (dv.mValues.take index ++ element :: dv.mValues.drop (index + 1)).drop
          (index + 1 + rest.length) = dv.mValues.drop (index + (value :: rest).length) := by
        rw [List.drop_append, front, List.drop_of_length_le (by omega), List.nil_append,
          show index + 1 + rest.length - index = rest.length + 1 by omega, List.drop_succ_cons,
          List.drop_drop, List.length_cons]
        congr 1
        omega
      rw [taken, dropped]
      simp

theorem getList_of_vector (vector : dv.mIsVector = true) :
    dv.getList = dv.mValues.zipIdx.map fun (value, idx) =>
      (dv.mNames.getD idx [], DataVariant.copy value) := by
  rw [DataVariant.getList, if_pos vector]

theorem toVector_of_set (vector : dv.mIsVector = true)
    (set : ∀ element ∈ dv.mValues, (DvTypeFactory.copy element.mDv).isSet = true) :
    type.toVector dv =
      (dv.mValues.map fun element => type.read (DvTypeFactory.copy element.mDv), []) := by
  have list := getList_of_vector vector
  have complete : DataVariantVector.isVectorComplete dv = (true, []) := by
    have none : dv.getList.find? (fun pair => !pair.2.isSet) = none := by
      rw [List.find?_eq_none, list]
      intro pair member
      obtain ⟨⟨value, idx⟩, tagged, rfl⟩ := List.mem_map.mp member
      have copied : (DataVariant.copy value).isSet = true :=
        set value (List.fst_mem_of_mem_zipIdx tagged)
      rw [copied]
      decide
    rw [DataVariantVector.isVectorComplete, none]
  rw [VectorType.toVector_eq, DataVariantVector.toTypeVector, complete]
  dsimp only
  rw [if_pos rfl, list, List.map_map]
  congr 1
  have firsts : dv.mValues = dv.mValues.zipIdx.map Prod.fst := (List.zipIdx_map_fst 0 _).symm
  conv_rhs => rw [firsts, List.map_map]
  rfl

/-- Nothing is read, with an error, if the copy of an element is not set. -/
theorem toVector_of_unset (vector : dv.mIsVector = true)
    (unset : ∃ element ∈ dv.mValues, (DvTypeFactory.copy element.mDv).isSet = false) :
    (type.toVector dv).1 = [] ∧ (type.toVector dv).2 ≠ [] := by
  obtain ⟨element, member, notSet⟩ := unset
  have list := getList_of_vector vector
  have found : ∃ pair, dv.getList.find? (fun pair => !pair.2.isSet) = some pair := by
    rw [← Option.isSome_iff_exists, List.find?_isSome, list]
    obtain ⟨idx, inside, rfl⟩ := List.mem_iff_getElem.mp member
    have tagged := List.mk_mem_zipIdx_iff_getElem?.mpr (List.getElem?_eq_getElem inside)
    refine ⟨_, List.mem_map_of_mem tagged, ?_⟩
    have copied : (DataVariant.copy dv.mValues[idx]).isSet = false := notSet
    rw [copied]
    rfl
  obtain ⟨pair, first⟩ := found
  have incomplete : DataVariantVector.isVectorComplete dv =
      (false, "Value ".toList ++ pair.1 ++ " is unset".toList) := by
    rw [DataVariantVector.isVectorComplete, first]
  rw [VectorType.toVector_eq, DataVariantVector.toTypeVector, incomplete]
  refine ⟨rfl, fun empty => ?_⟩
  have letters := congrArg List.length empty
  simp at letters

/-- An error is reported when the copy of an element that is not set is not set either. -/
theorem toVector_error_iff (vector : dv.mIsVector = true)
    (elements : ∀ element ∈ dv.mValues, type.Holds element.mDv) :
    (type.toVector dv).2 ≠ [] ↔
      (∃ element ∈ dv.mValues, element.isSet = false) ∧ type.StaysUnset := by
  constructor
  · intro error
    by_cases set : ∀ element ∈ dv.mValues, (DvTypeFactory.copy element.mDv).isSet = true
    · rw [toVector_of_set vector set] at error
      exact absurd rfl error
    · obtain ⟨element, notAll⟩ := Classical.not_forall.mp set
      obtain ⟨member, notSet⟩ := Classical.not_imp.mp notAll
      rw [(VectorType.holds_copy (elements element member)).2] at notSet
      obtain ⟨unset, stays⟩ := Classical.not_imp.mp notSet
      exact ⟨⟨element, member, unset⟩, Classical.not_not.mp stays⟩
  · rintro ⟨⟨element, member, unset⟩, stays⟩
    have copied := (VectorType.holds_copy (elements element member)).2
    refine (toVector_of_unset vector ⟨element, member, ?_⟩).2
    rw [← Bool.not_eq_true, copied]
    exact fun leaves => leaves unset stays

theorem read_written {values : List type.Value} {written : List DataVariantBase}
    (wrote : List.Forall₂ (KeepsValue type) values written) :
    (∀ element ∈ written, (DvTypeFactory.copy element.mDv).isSet = true) ∧
      written.map (fun element => type.read (DvTypeFactory.copy element.mDv)) =
        values.map type.readBack := by
  induction wrote with
  | nil => exact ⟨fun element member => absurd member List.not_mem_nil, rfl⟩
  | cons keeps _ ih =>
      obtain ⟨holds, set, read⟩ := keeps
      refine ⟨fun element member => ?_, ?_⟩
      · rcases List.mem_cons.mp member with rfl | behind
        · refine (VectorType.holds_copy holds).2.mpr fun unset => ?_
          rw [set] at unset
          cases unset
        · exact ih.1 element behind
      · rw [List.map_cons, List.map_cons, read, ih.2]

/-- The values are read after they have been written, if no element is behind them. -/
theorem toVector_fromVector_iff (values : List type.Value)
    (fits : ∀ value ∈ values, type.Fits value) (vector : dv.mIsVector = true)
    (mirror : type.Holds dv.mDv) (elements : ∀ element ∈ dv.mValues, type.Holds element.mDv) :
    type.toVector (type.fromVector values dv).2 = (values, []) ↔
      dv.mValues.length ≤ values.length ∧ ∀ value ∈ values, type.Distinct value := by
  obtain ⟨vector', written, wrote, result⟩ :=
    foldl_setIndexed values fits vector mirror elements (Nat.zero_le _)
  rw [List.take_zero, List.nil_append, Nat.zero_add] at result
  rw [VectorType.fromVector_eq]
  dsimp only
  have same := wrote.length_eq
  obtain ⟨set, read⟩ := read_written wrote
  constructor
  · intro back
    by_cases all : ∀ element ∈ ((values.zipIdx 0).foldl (fun dv (value, idx) =>
        dv.setIndexed idx (type.assign value) []) dv).mValues,
        (DvTypeFactory.copy element.mDv).isSet = true
    · rw [toVector_of_set vector' all, result, List.map_append, read] at back
      have lists := congrArg Prod.fst back
      dsimp only at lists
      have lengths := congrArg List.length lists
      rw [List.length_append, List.length_map, List.length_map, List.length_drop] at lengths
      have none : dv.mValues.drop values.length = [] := List.drop_of_length_le (by omega)
      rw [none, List.map_nil, List.append_nil] at lists
      rw [← List.map_id values, List.map_map] at lists
      refine ⟨by omega, fun value member => ?_⟩
      exact (VectorType.readBack_eq_iff type value).mp (List.map_inj_left.mp lists value member)
    · obtain ⟨element, notAll⟩ := Classical.not_forall.mp all
      obtain ⟨member, unset⟩ := Classical.not_imp.mp notAll
      have error := (@toVector_of_unset _ type _ vector'
        ⟨element, member, Bool.not_eq_true _ |>.mp unset⟩).2
      exact absurd (congrArg Prod.snd back) error
  · rintro ⟨shorter, distinct⟩
    rw [List.drop_of_length_le shorter, List.append_nil] at result
    rw [toVector_of_set vector' (by rw [result]; exact set), result, read]
    have same (value : type.Value) (member : value ∈ values) : type.readBack value = id value :=
      (VectorType.readBack_eq_iff type value).mpr (distinct value member)
    rw [List.map_congr_left same, List.map_id]

end Vectors

/-- `fromXVector` writes the values so that `toXVector` reads them, and `toXVector` reports
an error for the elements that are not set. -/
structure Rewrites (type : VectorType) (vec : ValuesOf type) (dv : VectorOf type) : Prop where
  back : (type.fromVector vec.values dv.toDataVariant).1 = true →
    type.toVector (type.fromVector vec.values dv.toDataVariant).2 = (vec.values, [])
  reports : (type.toVector dv.toDataVariant).2 ≠ [] ↔
    ∃ element ∈ dv.mValues, element.isSet = false

/-- The vector must not be longer than the values, which must be told apart; and an
element without a value must not be taken for an empty enumeration. -/
theorem rewrites_iff {type : VectorType} (vec : ValuesOf type) (dv : VectorOf type) :
    Rewrites type vec dv ↔
      dv.mValues.length ≤ vec.values.length ∧ (∀ value ∈ vec.values, type.Distinct value) ∧
        ((∃ element ∈ dv.mValues, element.isSet = false) → type.StaysUnset) := by
  have back := toVector_fromVector_iff vec.values vec.fits dv.isVector dv.mirror dv.elements
  have error := @toVector_error_iff _ type _ dv.isVector dv.elements
  have always : (type.fromVector vec.values dv.toDataVariant).1 = true := by
    rw [VectorType.fromVector_eq]
  constructor
  · intro rewrites
    obtain ⟨shorter, distinct⟩ := back.mp (rewrites.back always)
    exact ⟨shorter, distinct, fun unset => (error.mp (rewrites.reports.mpr unset)).2⟩
  · rintro ⟨shorter, distinct, stays⟩
    refine ⟨fun _ => back.mpr ⟨shorter, distinct⟩, ?_⟩
    rw [error]
    exact ⟨And.left, fun unset => ⟨unset, stays unset⟩⟩

omit [FloatLib] in
/-- Two elements of which one is written. -/
theorem longer_vector_is_not_complete : ¬ ∀ (lib : FloatLib) (type : VectorType)
    (vec : ValuesOf type) (dv : @VectorOf lib type), @Rewrites lib type vec dv := by
  intro rewrites
  let _ : FloatLib := FloatLib.whole
  let unset : DvType := .integer .int (DvTypeInteger.construct .int "INT".toList)
  have holds : VectorType.Holds .int unset := .int _ (fun set => by cases set) fun _ => rfl
  have made : (DataVariant.construct ['v'] "INT[1]".toList).mDv = unset := by rfl
  have values : (DataVariant.construct ['v'] "INT[1]".toList).mValues.map DataVariantBase.mDv =
      List.replicate 2 unset := by rfl
  let vec : ValuesOf .int :=
    { values := [7]
      fits := fun value member => by
        obtain rfl := List.mem_singleton.mp member
        exact ⟨by decide, by decide⟩ }
  let dv : VectorOf .int :=
    { DataVariant.construct ['v'] "INT[1]".toList with
      isVector := rfl
      mirror := made ▸ holds
      elements := fun value member => by
        have tagged : value.mDv ∈ _ := List.mem_map_of_mem member
        rw [values] at tagged
        rw [List.eq_of_mem_replicate tagged]
        exact holds }
  have back := (rewrites FloatLib.whole .int vec dv).back (by rfl)
  obtain ⟨shorter, -⟩ :=
    (toVector_fromVector_iff vec.values vec.fits dv.isVector dv.mirror dv.elements).mp back
  have longer : dv.mValues.length = 2 := by
    rw [← List.length_map DataVariantBase.mDv, values, List.length_replicate]
  have single : vec.values.length = 1 := rfl
  omega

end OpenMplane
