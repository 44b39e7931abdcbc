import OpenMplane.DataVariantBase
import OpenMplane.DvTypeIntegerRuns

/-!
# Copies of a value

A value is copied through its text.  What the text of a value has to be for that, and that
the operations on a value keep it so.
-/

namespace OpenMplane

open NumeralText Hexadecimal

namespace DvTypeInteger

variable {type : IntegerType} {value : Int}

theorem strIsUnsigned_intText (positive : 0 ≤ value) : strIsUnsigned (intText value) = true := by
  obtain ⟨nonempty, digits⟩ := digits_repr value.natAbs
  rw [intText, if_neg (by omega)]
  cases text : (Nat.repr value.natAbs).toList with
  | nil => exact absurd text nonempty
  | cons first rest =>
      rw [text] at digits
      have digit := digits first List.mem_cons_self
      refine decide_eq_true ?_
      rintro rfl
      cases digit

/-- The text of a number is let through. -/
theorem isValid_valueText (isHex : Bool) (fits : type.Represents value) :
    type.isValid (valueText type isHex value) = true := by
  have decimal := strIsInt_iff.mpr (isDecimal_intText value).1
  have hex : strIsHex ('0' :: 'x' :: hexText (toUint32 value).toNat) = true :=
    strIsHex_iff.mpr ⟨'x', _, rfl, .inl rfl, hexText_ne_nil _, (hexValue_hexText _).1⟩
  cases type with
  | int =>
      rw [IntegerType.isValid_int, valueText, intToStr_eq]
      split
      · exact .inr hex
      · exact .inl decimal
  | unsigned =>
      rw [IntegerType.isValid_unsigned, valueText]
      split
      · exact ⟨.inr hex, rfl⟩
      · exact ⟨.inl decimal, strIsUnsigned_intText fits.1⟩
  | longLong => exact strIsNumber_of_strIsInt decimal

theorem scanHex_hexText {number : Nat} (small : number < 2 ^ 32) :
    scanHex (hexText number) = number := by
  obtain ⟨letters, whole⟩ := hexValue_hexText number
  rw [scanHex_digits letters, List.take_of_length_le (length_hexText small), whole]

theorem not_strIsHex_intText (value : Int) : ¬ strIsHex (intText value) = true := by
  intro hex
  have decimal := strIsInt_iff.mpr (isDecimal_intText value).1
  rw [not_strIsInt_of_strIsHex hex] at decimal
  cases decimal

theorem readValue_valueText (isHex : Bool) (fits : type.Represents value) :
    readValue type (valueText type isHex value) = value := by
  have hex : strIsHex ('0' :: 'x' :: hexText (toUint32 value).toNat) = true :=
    strIsHex_iff.mpr ⟨'x', _, rfl, .inl rfl, hexText_ne_nil _, (hexValue_hexText _).1⟩
  have noHex := not_strIsHex_intText value
  have small : (toUint32 value).toNat < 2 ^ 32 := by
    rw [toUint32]
    omega
  have scanned := scanHex_hexText small
  obtain ⟨decimal, same⟩ := isDecimal_intText value
  have read := strtol_decimal decimal
  rw [same] at read
  cases type with
  | int =>
      simp only [IntegerType.Represents] at fits
      rw [valueText]
      split
      · rw [readValue, if_pos hex, List.drop_succ_cons, List.drop_succ_cons, List.drop_zero,
          scanned, toInt32, toUint32]
        omega
      · rw [intToStr_eq, readValue, if_neg noHex, atoi, read, toInt32]
        omega
  | unsigned =>
      simp only [IntegerType.Represents] at fits
      rw [valueText]
      split
      · rw [readValue, if_pos hex, List.drop_succ_cons, List.drop_succ_cons, List.drop_zero,
          scanned, toUint32, toUint32]
        omega
      · rw [readValue, if_neg noHex, atoi, read, toInt32, toUint32]
        omega
  | longLong =>
      simp only [IntegerType.Represents] at fits
      rw [valueText, readValue, atoll, read]
      omega

/-- A text that `DvTypeInt` or `DvTypeUint` lets through has no units. -/
theorem splitUnits_of_valid (known : type ≠ .longLong) {valueStr : List Char}
    (valid : type.isValid valueStr = true) : splitUnits valueStr = (valueStr, []) := by
  have numeral : strIsInt valueStr = true ∨ strIsHex valueStr = true := by
    cases type with
    | int => exact IntegerType.isValid_int.mp valid
    | unsigned => exact (IntegerType.isValid_unsigned.mp valid).1
    | longLong => exact absurd rfl known
  rcases numeral with integer | hex
  · obtain ⟨-, digits⟩ := strIsInt_iff.mp integer
    refine splitUnits_of_number fun letter member => ?_
    have cases : letter = '-' ∨ letter ∈ unsignedPart valueStr := by
      unfold unsignedPart
      split
      · exact List.mem_cons.mp member
      · exact .inr member
    rcases cases with rfl | digit
    · rfl
    · rw [isNumberLetter, digits letter digit]
      rfl
  · rw [splitUnits, if_pos hex]

theorem splitUnits_valueText (isHex : Bool) (fits : type.Represents value) :
    splitUnits (valueText type isHex value) = (valueText type isHex value, []) := by
  by_cases known : type = .longLong
  · subst known
    have decimal := strIsInt_iff.mpr (isDecimal_intText value).1
    exact @splitUnits_of_valid .int (by decide) _ (IntegerType.isValid_int.mpr (.inl decimal))
  · exact splitUnits_of_valid known (isValid_valueText isHex fits)

theorem unitsFromStr_of_no_units (dv : DvTypeInteger type) {value : List Char}
    (none : splitUnits value = (value, [])) : dv.unitsFromStr value = (value, dv) := by
  rw [unitsFromStr, none]
  rfl

theorem isValid_nil (type : IntegerType) : type.isValid [] = false := by
  cases type <;> rfl

/-- An integer is copied with its text, if that is let through and has no units. -/
theorem set_str (dv : DvTypeInteger type) {valueStr : List Char}
    (valid : type.isValid valueStr = true) (none : splitUnits valueStr = (valueStr, [])) :
    dv.set valueStr = (true, { dv with
      mVal := readValue type valueStr
      mIsHex := readsHex type valueStr }.setStr valueStr) := by
  have units := dv.unitsFromStr_of_no_units none
  have valid' : type.isValid (dv.unitsFromStr valueStr).1 = true := by
    rw [units]
    exact valid
  rw [dv.set_of_valid valid', units]

theorem set_nil (dv : DvTypeInteger type) : dv.set [] = (false, dv.clear) := by
  have units := @unitsFromStr_of_no_units type dv [] rfl
  rw [set, units]
  exact if_neg (by rw [isValid_nil]; exact Bool.false_ne_true)

end DvTypeInteger

/-- The text of a type `BOOL` and its two enumerations. -/
structure BoolLabels where
  typeStr : List Char
  falseStr : List Char
  trueStr : List Char
  items : (DvTypeBool.construct typeStr).mEnum = [falseStr, trueStr]

namespace BoolLabels

/-- The two are told apart by `findEnum`. -/
def Differ (labels : BoolLabels) : Prop := toLower labels.falseStr ≠ toLower labels.trueStr

/-- Neither is found for an empty text. -/
def Nonempty (labels : BoolLabels) : Prop :=
  toLower labels.falseStr ≠ [] ∧ toLower labels.trueStr ≠ []

instance (labels : BoolLabels) : Decidable labels.Differ := inferInstanceAs (Decidable (_ ≠ _))

instance (labels : BoolLabels) : Decidable labels.Nonempty :=
  inferInstanceAs (Decidable (_ ∧ _))

end BoolLabels

namespace DvTypeBool

variable {labels : BoolLabels} {dv : DvTypeEnum}

theorem findEnum_labels (items : dv.mEnum = [labels.falseStr, labels.trueStr])
    (value : List Char) : dv.findEnum value =
      if toLower labels.falseStr = toLower value then some 0
      else if toLower labels.trueStr = toLower value then some 1 else none := by
  rw [DvTypeEnum.findEnum, items]
  simp only [List.findIdx?_cons, List.findIdx?_nil, decide_eq_true_eq]
  split
  · rfl
  · split <;> rfl

/-- Each enumeration is found, the first before the second. -/
theorem set_falseStr (items : dv.mEnum = [labels.falseStr, labels.trueStr]) :
    set dv labels.falseStr = (true, dv.choose 0) := by
  rw [set, DvTypeEnum.set, findEnum_labels items, if_pos rfl]
  rfl

theorem set_trueStr (items : dv.mEnum = [labels.falseStr, labels.trueStr]) :
    set dv labels.trueStr = (true, dv.choose (if labels.Differ then 1 else 0)) := by
  rw [set, DvTypeEnum.set, findEnum_labels items]
  by_cases same : toLower labels.falseStr = toLower labels.trueStr
  · rw [if_pos same, if_neg (show ¬ labels.Differ from fun differ => differ same)]
    rfl
  · rw [if_neg same, if_pos rfl, if_pos (show labels.Differ from same)]
    rfl

/-- An empty text unsets the value, if it is none of the enumerations. -/
theorem set_nil (items : dv.mEnum = [labels.falseStr, labels.trueStr]) :
    (set dv []).2 = dv.clear.clear ∧ labels.Nonempty ∨
      (∃ idx < 2, (set dv []).2 = dv.choose idx) ∧ ¬ labels.Nonempty := by
  rw [set, DvTypeEnum.set, findEnum_labels items]
  by_cases first : toLower labels.falseStr = toLower []
  · rw [if_pos first]
    exact .inr ⟨⟨0, by decide, rfl⟩, fun nonempty => nonempty.1 first⟩
  · rw [if_neg first]
    by_cases second : toLower labels.trueStr = toLower []
    · rw [if_pos second]
      exact .inr ⟨⟨1, by decide, rfl⟩, fun nonempty => nonempty.2 second⟩
    · rw [if_neg second]
      exact .inl ⟨rfl, first, second⟩

theorem mTypeStr_construct (typeStr : List Char) : (construct typeStr).mTypeStr =
    if typeStr = [] ∨ typeStr = "BOOL".toList then boolTypeStr else typeStr := rfl

theorem construct_getTypeStr (typeStr : dv.mTypeStr = (construct labels.typeStr).mTypeStr) :
    construct (getTypeStr dv) = construct labels.typeStr := by
  rw [getTypeStr, typeStr, mTypeStr_construct]
  by_cases default : labels.typeStr = [] ∨ labels.typeStr = "BOOL".toList
  · rw [if_pos default, if_pos rfl, construct, construct, if_pos default, if_pos (.inr rfl)]
  · rw [if_neg default]
    by_cases same : labels.typeStr = boolTypeStr
    · rw [if_pos same, construct, construct, if_pos (.inr rfl), if_neg default, same]
    · rw [if_neg same]

end DvTypeBool

section Copies

variable [FloatLib]

theorem copy_integer {type : IntegerType} (dv : DvTypeInteger type)
    (valid : type.isValid dv.mStr = true) (none : splitUnits dv.mStr = (dv.mStr, [])) :
    DvTypeFactory.copy (.integer type dv) = .integer type
      ({ (DvTypeInteger.construct type dv.getTypeStr).setUnits dv.mUnits with
        mVal := DvTypeInteger.readValue type dv.mStr
        mIsHex := DvTypeInteger.readsHex type dv.mStr }.setStr dv.mStr) := by
  have set := ((DvTypeInteger.construct type dv.getTypeStr).setUnits dv.mUnits).set_str valid none
  exact congrArg (fun result => DvType.integer type result.2) set

theorem copy_integer_of_empty {type : IntegerType} (dv : DvTypeInteger type)
    (empty : dv.mStr = []) : DvTypeFactory.copy (.integer type dv) = .integer type
      ((DvTypeInteger.construct type dv.getTypeStr).setUnits dv.mUnits).clear := by
  have set := ((DvTypeInteger.construct type dv.getTypeStr).setUnits dv.mUnits).set_nil
  rw [← empty] at set
  exact congrArg (fun result => DvType.integer type result.2) set

theorem copy_string (dv : DvTypeBase) : DvTypeFactory.copy (.string dv) = .string
    (DvTypeString.set { DvTypeBase.construct "STRING".toList with mUnits := dv.mUnits } dv.mStr).2 :=
  rfl

theorem copy_bool {labels : BoolLabels} (dv : DvTypeEnum)
    (typeStr : dv.mTypeStr = (DvTypeBool.construct labels.typeStr).mTypeStr) :
    DvTypeFactory.copy (.bool dv) = .bool
      (DvTypeBool.set { DvTypeBool.construct labels.typeStr with mUnits := dv.mUnits }
        dv.mStr).2 := by
  show DvType.bool (DvTypeBool.set { DvTypeBool.construct (DvTypeBool.getTypeStr dv) with
    mUnits := dv.mUnits } dv.mStr).2 = _
  rw [DvTypeBool.construct_getTypeStr typeStr]

end Copies

end OpenMplane
