import OpenMplane.YangParam

/-!
# Integer parameters

`YangParamUtils` converts a parameter to every integer type and to its text.
All conversions go through `toUint64`, which casts every type but the widest
unsigned one to `uint32_t`.  This file says which values survive that.
-/

namespace OpenMplane

/-- `std::to_string` of a `double`: six digits behind the point. -/
def Double.toStringFixed (value : Double) : String :=
  let number := value.bits.toNat
  let biased := number / 2 ^ 52 % 2 ^ 11
  let fraction := number % 2 ^ 52
  let unsigned : List Char :=
    if biased = 2 ^ 11 - 1 then (if fraction = 0 then "inf" else "nan").toList
    else
      let mantissa := if biased = 0 then fraction else fraction + 2 ^ 52
      let millionths := roundHalfEven (mantissa * 2 ^ (max biased 1 - 1075) * 10 ^ 6)
        (2 ^ (1075 - max biased 1))
      let digits := (Nat.repr (millionths % 10 ^ 6)).toList
      (Nat.repr (millionths / 10 ^ 6)).toList ++ '.' ::
        (List.replicate (6 - digits.length) '0' ++ digits)
  String.ofList (if 2 ^ 63 ≤ number then '-' :: unsigned else unsigned)

namespace YangParam

def getText (param : YangParam) : String :=
  match param.data with
  | .bool value => if value then "true" else "false"
  | .string value => value
  | .int8 value => value.toInt.repr
  | .int16 value => value.toInt.repr
  | .int32 value => value.toInt.repr
  | .int64 value => value.toInt.repr
  | .uint8 value => value.toNat.repr
  | .uint16 value => value.toNat.repr
  | .uint32 value => value.toNat.repr
  | .uint64 value => value.toNat.repr
  | .decimal64 value => value.toStringFixed
  | .binary encoded => encoded
  | .unknown => ""

/-- The value of a parameter of one of the integer types. -/
def intValue (param : YangParam) : Option Int :=
  match param.data with
  | .int8 value => some value.toInt
  | .int16 value => some value.toInt
  | .int32 value => some value.toInt
  | .int64 value => some value.toInt
  | .uint8 value => some value.toNat
  | .uint16 value => some value.toNat
  | .uint32 value => some value.toNat
  | .uint64 value => some value.toNat
  | .unknown | .bool _ | .string _ | .binary _ | .decimal64 _ => none

/-- The one type that `toUint64` does not cast to `uint32_t`. -/
def isUint64 (param : YangParam) : Bool :=
  match param.data with
  | .uint64 _ => true
  | _ => false

end YangParam

/-- The integer types of C++ that parameters are converted to. -/
inductive IntTarget
  | int8
  | int16
  | int32
  | int64
  | uint8
  | uint16
  | uint32
  | uint64
  deriving DecidableEq

namespace IntTarget

/-- `std::numeric_limits<T>::max()`. -/
def max : IntTarget → Nat
  | .int8 => 2 ^ 7 - 1
  | .int16 => 2 ^ 15 - 1
  | .int32 => 2 ^ 31 - 1
  | .int64 => 2 ^ 63 - 1
  | .uint8 => 2 ^ 8 - 1
  | .uint16 => 2 ^ 16 - 1
  | .uint32 => 2 ^ 32 - 1
  | .uint64 => 2 ^ 64 - 1

/-- `std::numeric_limits<T>::min()`. -/
def min : IntTarget → Int
  | .int8 => -2 ^ 7
  | .int16 => -2 ^ 15
  | .int32 => -2 ^ 31
  | .int64 => -2 ^ 63
  | .uint8 | .uint16 | .uint32 | .uint64 => 0

def Represents (target : IntTarget) (value : Int) : Prop :=
  target.min ≤ value ∧ value ≤ target.max

instance (target : IntTarget) (value : Int) : Decidable (target.Represents value) :=
  inferInstanceAs (Decidable (_ ∧ _))

end IntTarget

namespace YangParamUtils

section Conversions

/-- `typeConvert`: the result and the error string, which is cleared first. -/
def typeConvert (target : IntTarget) (param : YangParam) (_error : String) : Int × String :=
  match toUint64 param with
  | .error error => (0, error)
  | .ok value =>
      if target.max < value.toNat then (0, "Value out of range") else (value.toNat, "")

def toInt64 := typeConvert .int64
def toUint32 := typeConvert .uint32
def toInt32 := typeConvert .int32
def toUint16 := typeConvert .uint16
def toInt16 := typeConvert .int16
def toUint8 := typeConvert .uint8
def toInt8 := typeConvert .int8
def toUnsigned := toUint32
def toInt := toInt32

/-- A call of `toUint64`, which leaves the error string alone when it succeeds. -/
def callUint64 (param : YangParam) (error : String) : Int × String :=
  match toUint64 param with
  | .error error => (0, error)
  | .ok value => (value.toNat, error)

/-- The integer conversions that `YangParamUtils` offers. -/
inductive Conversion
  | toUint64
  | toInt64
  | toUint32
  | toInt32
  | toUint16
  | toInt16
  | toUint8
  | toInt8
  | toUnsigned
  | toInt
  deriving DecidableEq

def Conversion.call : Conversion → YangParam → String → Int × String
  | .toUint64 => callUint64
  | .toInt64 => YangParamUtils.toInt64
  | .toUint32 => YangParamUtils.toUint32
  | .toInt32 => YangParamUtils.toInt32
  | .toUint16 => YangParamUtils.toUint16
  | .toInt16 => YangParamUtils.toInt16
  | .toUint8 => YangParamUtils.toUint8
  | .toInt8 => YangParamUtils.toInt8
  | .toUnsigned => YangParamUtils.toUnsigned
  | .toInt => YangParamUtils.toInt

def Conversion.target : Conversion → IntTarget
  | .toUint64 => .uint64
  | .toInt64 => .int64
  | .toUint32 | .toUnsigned => .uint32
  | .toInt32 | .toInt => .int32
  | .toUint16 => .uint16
  | .toInt16 => .int16
  | .toUint8 => .uint8
  | .toInt8 => .int8

/-- A conversion of a value as it should be. -/
def Converts (conversion : Conversion) (value : Int) (result : Int × String) : Prop :=
  if conversion.target.Represents value then result = (value, "") else result.2 ≠ ""

instance (conversion : Conversion) (value : Int) (result : Int × String) :
    Decidable (Converts conversion value result) := by
  unfold Converts
  infer_instance

end Conversions

section Reading

variable {param : YangParam} {value : Int}

theorem castUInt32_toNat (value : Int) : (castUInt32 value).toNat = value % 2 ^ 32 := by
  have bounds := Int.emod_nonneg value (show (2 ^ 32 : Int) ≠ 0 by decide)
  have below := Int.emod_lt_of_pos value (show (0 : Int) < 2 ^ 32 by decide)
  rw [castUInt32, UInt64.toNat_ofNat_of_lt' (by change _ < 2 ^ 64; omega)]
  omega

theorem toUint64_of_intValue (integer : param.intValue = some value) :
    ∃ read, toUint64 param = .ok read ∧
      (read.toNat : Int) = if param.isUint64 then value else value % 2 ^ 32 := by
  unfold YangParam.intValue at integer
  unfold toUint64 YangParam.isUint64
  cases data : param.data <;> rw [data] at integer <;>
    simp only [Option.some.injEq, reduceCtorEq] at integer <;> subst integer
  case uint64 number => exact ⟨number, rfl, by simp⟩
  all_goals exact ⟨_, rfl, by simp [castUInt32_toNat]⟩

theorem toString_of_intValue (integer : param.intValue = some value) {read : UInt64}
    (reads : toUint64 param = .ok read)
    (narrow : param.isUint64 = false → (read.toNat : Int) < 2 ^ 32) :
    toString param = (read.toNat : Int).repr := by
  have number : uint64Of param = read := by rw [uint64Of, reads]
  have signed : (read.toNat : Int) < 2 ^ 32 → read.toInt64.toInt = read.toNat := by
    intro below
    change read.toBitVec.toInt = _
    refine BitVec.toInt_eq_toNat_of_lt ?_
    change 2 * read.toNat < 2 ^ 64
    omega
  unfold YangParam.intValue at integer
  unfold YangParam.isUint64 at narrow
  unfold toString
  cases data : param.data <;> rw [data] at integer narrow <;>
    simp only [reduceCtorEq] at integer
  case int8 | int16 | int32 | int64 => exact congrArg Int.repr (number ▸ signed (narrow rfl))
  all_goals exact congrArg Nat.repr (congrArg UInt64.toNat number)

theorem toString_uint16 (name : String) (number : UInt16) :
    toString ⟨name, .uint16 number⟩ = number.toNat.repr := by
  have small := number.toNat_lt
  have integer : YangParam.intValue ⟨name, .uint16 number⟩ = some number.toNat := rfl
  obtain ⟨read, reads, number⟩ := toUint64_of_intValue integer
  rw [if_neg (by simp [YangParam.isUint64]), Int.emod_eq_of_lt (by omega) (by omega)] at number
  rw [toString_of_intValue integer reads (by omega), number]
  rfl

theorem getText_of_intValue (integer : param.intValue = some value) :
    param.getText = value.repr := by
  unfold YangParam.intValue at integer
  unfold YangParam.getText
  cases data : param.data <;> rw [data] at integer <;>
    simp only [Option.some.injEq, reduceCtorEq] at integer <;> subst integer <;> rfl

/-- A numeral without a sign is that of no negative number. -/
theorem eq_of_repr_eq {number : Nat} {value : Int}
    (same : (number : Int).repr = value.repr) : (number : Int) = value := by
  rw [Int.repr_eq_if, if_pos (Int.natCast_nonneg number), Int.toNat_natCast,
    Int.repr_eq_if] at same
  split at same
  · next nonnegative =>
      have digits := natRepr_injective same
      omega
  · have inside : '-' ∈ number.repr.toList := by simp [same]
    rw [Nat.toList_repr] at inside
    exact absurd (Nat.isDigit_of_mem_toDigits (by decide) (by decide) inside) (by decide)

/-- A value that is read as it is comes out of every conversion as it should. -/
theorem converts_of_reads {read : UInt64} (reads : toUint64 param = .ok read)
    (conversion : Conversion) {error : String}
    (fresh : conversion = .toUint64 → error = "") :
    Converts conversion read.toNat (conversion.call param error) := by
  have converts : ∀ target : IntTarget, (typeConvert target param error).2 ≠ "" ∧
        ¬ target.Represents read.toNat ∨
      typeConvert target param error = ((read.toNat : Int), "") ∧ target.Represents read.toNat := by
    intro target
    have starts : target.min ≤ (read.toNat : Int) := by
      have zero : target.min ≤ 0 := by cases target <;> decide
      omega
    unfold typeConvert
    rw [reads]
    dsimp only
    by_cases above : target.max < read.toNat
    · rw [if_pos above]
      exact Or.inl ⟨by decide, fun inside => by have := inside.2; omega⟩
    · rw [if_neg above]
      exact Or.inr ⟨rfl, starts, by omega⟩
  unfold Converts
  by_cases wide : conversion = .toUint64
  · have below := read.toNat_lt
    have inside : IntTarget.Represents .uint64 read.toNat :=
      ⟨Int.natCast_nonneg _, by change (read.toNat : Int) ≤ ((2 ^ 64 - 1 : Nat) : Int); omega⟩
    have call : callUint64 param error = ((read.toNat : Int), error) := by rw [callUint64, reads]
    subst wide
    exact (if_pos inside).mpr (call.trans (by rw [fresh rfl]))
  · have call : conversion.call param error = typeConvert conversion.target param error := by
      cases conversion <;> first | rfl | exact absurd rfl wide
    rw [call]
    rcases converts conversion.target with ⟨failed, outside⟩ | ⟨converted, inside⟩
    · rw [if_neg outside]
      exact failed
    · rw [if_pos inside]
      exact converted

/-- A conversion and the text are right for exactly the values that `toUint64`
reads as they are. -/
theorem converts_and_shows_iff (conversion : Conversion) (error : String)
    (integer : param.intValue = some value) :
    (Converts conversion value (conversion.call param error) ∧
        toString param = value.repr ∧ toString param = param.getText) ↔
      (param.isUint64 = true ∨ 0 ≤ value ∧ value < 2 ^ 32) ∧
        (conversion = .toUint64 → error = "") := by
  obtain ⟨read, reads, number⟩ := toUint64_of_intValue integer
  have below := read.toNat_lt
  have bounds := Int.emod_nonneg value (show (2 ^ 32 : Int) ≠ 0 by decide)
  have above := Int.emod_lt_of_pos value (show (0 : Int) < 2 ^ 32 by decide)
  have shows := toString_of_intValue integer reads fun cast => by
    rw [number, cast]
    exact above
  rw [getText_of_intValue integer, and_self, shows]
  constructor
  · rintro ⟨converts, text⟩
    have same := eq_of_repr_eq text
    have kept : param.isUint64 = true ∨ 0 ≤ value ∧ value < 2 ^ 32 := by
      by_cases wide : param.isUint64 = true
      · exact Or.inl wide
      · rw [if_neg wide] at number
        exact Or.inr ⟨by omega, by omega⟩
    refine ⟨kept, ?_⟩
    rintro rfl
    have inside : IntTarget.Represents .uint64 value :=
      ⟨by change 0 ≤ value; omega, by change value ≤ ((2 ^ 64 - 1 : Nat) : Int); omega⟩
    have converted := (if_pos inside).mp converts
    have call : callUint64 param error = ((read.toNat : Int), error) := by rw [callUint64, reads]
    exact congrArg Prod.snd (call.symm.trans converted)
  · rintro ⟨kept, fresh⟩
    have same : (read.toNat : Int) = value := by
      rw [number]
      rcases kept with wide | ⟨nonnegative, small⟩
      · rw [if_pos wide]
      · split
        · rfl
        · omega
    rw [← same]
    exact ⟨converts_of_reads reads conversion fresh, rfl⟩

theorem converts_and_shows_iff_vlan :
    (Converts .toInt32 4094 (Conversion.call .toInt32 ⟨"/m:vlan-id", .uint16 4094⟩ "") ∧
        toString ⟨"/m:vlan-id", .uint16 4094⟩ = (4094 : Int).repr ∧
        toString ⟨"/m:vlan-id", .uint16 4094⟩ =
          YangParam.getText ⟨"/m:vlan-id", .uint16 4094⟩) ↔
      (YangParam.isUint64 ⟨"/m:vlan-id", .uint16 4094⟩ = true ∨
          (0 : Int) ≤ 4094 ∧ (4094 : Int) < 2 ^ 32) ∧
        (Conversion.toInt32 = .toUint64 → "" = "") :=
  converts_and_shows_iff .toInt32 "" (by decide)

/-- A negative number is no number of its type any more. -/
theorem negative_is_out_of_range :
    ¬ ∀ (conversion : Conversion) (param : YangParam) (value : Int),
      param.intValue = some value →
        Converts conversion value (conversion.call param "") ∧
          toString param = value.repr ∧ toString param = param.getText := by
  intro right
  have converted := (right .toInt8 ⟨"/m:offset", .int8 (-1)⟩ (-1) (by decide)).1
  exact absurd converted (by decide +kernel)

end Reading

end YangParamUtils

end OpenMplane
