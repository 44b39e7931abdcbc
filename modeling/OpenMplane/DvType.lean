import OpenMplane.DvTypeInteger

/-!
# The types of a value

The classes behind a `DataVariant` and the interface `IDvType` that they share: numbers,
enumerations, truth values and texts, and the type that is none.  Floating-point values
come from outside; the model is given what is read, converted and printed.
-/

namespace OpenMplane

open NumeralText

/-- The classes of real numbers. -/
inductive RealType
  | float
  | double
  | freq
  | power
  deriving DecidableEq, Repr

/-- Floating-point values, frequencies and powers among them, and the conversions that
depend on the units of the value. -/
class FloatLib where
  Real : Type
  Complex : Type
  less : Real → Real → Prop
  decideLess : ∀ first second, Decidable (less first second)
  zero : Real
  read : RealType → (units valueStr : List Char) → Real
  ofInt : RealType → (units : List Char) → Int → Real
  ofReal : RealType → (units : List Char) → Real → Real
  print : RealType → (units : List Char) → Real → List Char
  toInt : RealType → (units : List Char) → Real → Int
  truncate : Real → Int
  convert : RealType → (units valstr : List Char) → Option Real
  fixedStr : Real → List Char
  complexZero : Complex
  readComplex : List Char → Option Complex
  complexOfReal : Real → Complex
  complexOfInt : Int → Complex
  printComplex : Complex → List Char
  realPart : Complex → Real
  imagPart : Complex → Real

/-- Whole numbers in place of floating-point ones. -/
@[reducible]
def FloatLib.whole : FloatLib where
  Real := Int
  Complex := Int
  less first second := first < second
  decideLess first second := inferInstanceAs (Decidable (first < second))
  zero := 0
  read _ _ valueStr := atoll valueStr
  ofInt _ _ value := value
  ofReal _ _ value := value
  print _ _ value := intText value
  toInt _ _ value := value
  truncate value := value
  convert _ _ valstr := if strIsInt valstr then some (atoll valstr) else none
  fixedStr value := intText value
  complexZero := 0
  readComplex value := if strIsInt value then some (atoll value) else none
  complexOfReal value := value
  complexOfInt value := value
  printComplex value := intText value
  realPart value := value
  imagPart _ := 0

section Classes

variable [FloatLib]

instance : LT FloatLib.Real := ⟨FloatLib.less⟩

instance : DecidableLT FloatLib.Real := FloatLib.decideLess

/-- `DvTypeFloat`, `DvTypeDouble`, `DvTypeFreq` or `DvTypePower`. -/
structure DvTypeReal (type : RealType) extends DvTypeBase where
  mReal : FloatLib.Real
  mLimits : Limits FloatLib.Real

structure DvTypeComplex extends DvTypeBase where
  mComplex : FloatLib.Complex
  mLimits : Limits FloatLib.Real

end Classes

/-- `DvTypeEnum`, from which `DvTypeBool` is derived. -/
structure DvTypeEnum extends DvTypeBase where
  mEnumIdx : Nat
  mEnum : List (List Char)
  deriving DecidableEq, Repr

namespace RealType

/-- The text of the type. -/
def typeStr : RealType → List Char
  | float => "FLOAT".toList
  | double => "DOUBLE".toList
  | freq => "FREQ".toList
  | power => "POWER".toList

/-- The test that `set` of the class makes. -/
def isValid (type : RealType) (valueStr : List Char) : Bool :=
  match type with
  | freq => strIsNumber valueStr && strIsUnsigned valueStr
  | _ => strIsNumber valueStr

/-- `canSetValue` of the class. -/
def canSetValue (type : RealType) (valueStr : List Char) : Bool :=
  match type with
  | float => strIsNumber valueStr && strIsFloat valueStr
  | double => strIsNumber valueStr && strIsFloat valueStr
  | freq => strIsNumber valueStr && strIsUnsigned valueStr
  | power => strIsNumber valueStr

end RealType

namespace DvTypeReal

variable [FloatLib] {type : RealType}

/-- The constructor; `DvTypeFreq` and `DvTypePower` do not keep the type text. -/
def construct (type : RealType) (typeStr : List Char) : DvTypeReal type where
  toDvTypeBase := match type with
    | .float => DvTypeBase.construct typeStr
    | .double => DvTypeBase.construct typeStr
    | .freq => DvTypeBase.construct []
    | .power => DvTypeBase.construct []
  mReal := FloatLib.zero
  mLimits := Limits.empty

def clear (dv : DvTypeReal type) : DvTypeReal type where
  toDvTypeBase := dv.toDvTypeBase.clear
  mReal := FloatLib.zero
  mLimits := dv.mLimits

def setStr (dv : DvTypeReal type) (str : List Char) : DvTypeReal type :=
  { dv with toDvTypeBase := dv.toDvTypeBase.setStr str }

def unitsFromStr (dv : DvTypeReal type) (value : List Char) : List Char × DvTypeReal type :=
  let (valueStr, unitsStr) := splitUnits value
  if unitsStr = [] then (valueStr, dv)
  else if dv.mIsSet ∧ dv.mUnits = [] then ([], dv.clear)
  else (valueStr, { dv with mUnits := unitsStr })

/-- `set` with a text. -/
def set (dv : DvTypeReal type) (value : List Char) : Bool × DvTypeReal type :=
  let (valueStr, dv) := dv.unitsFromStr value
  if type.isValid valueStr then
    (true, { dv with mReal := FloatLib.read type dv.mUnits valueStr }.setStr valueStr)
  else (false, dv.clear)

/-- `setUnits`: a frequency or a power that is set is printed again in the new units. -/
def setUnits (dv : DvTypeReal type) (units : List Char) : DvTypeReal type :=
  let inUnits : DvTypeReal type := { dv with mUnits := units }
  if (type = .freq ∨ type = .power) ∧ dv.mIsSet then
    inUnits.setStr (FloatLib.print type units dv.mReal)
  else inUnits

def fromInterInt (dv : DvTypeReal type) (value : Int) : DvTypeReal type :=
  let mReal := FloatLib.ofInt type dv.mUnits value
  let str := match type with
    | .float => FloatLib.print type dv.mUnits mReal
    | .double => FloatLib.print type dv.mUnits mReal
    | .freq => intToStr value
    | .power => intToStr value
  { dv with mReal }.setStr str

def fromInterFloat (dv : DvTypeReal type) (value : FloatLib.Real) : DvTypeReal type :=
  let mReal := FloatLib.ofReal type dv.mUnits value
  let str := match type with
    | .float => FloatLib.print type dv.mUnits mReal
    | .double => FloatLib.print type dv.mUnits mReal
    | .freq => trimFloat (FloatLib.fixedStr value)
    | .power => trimFloat (FloatLib.fixedStr value)
  { dv with mReal }.setStr str

def setLimits (dv : DvTypeReal type) (limitsStr : List Char) : Bool × DvTypeReal type :=
  let (ok, mLimits) := (dv.mLimits.setUnits dv.mUnits).set (FloatLib.convert type dv.mUnits)
    limitsStr
  (ok, { dv with mLimits })

def checkLimits (dv : DvTypeReal type) : Option (List Char) :=
  if dv.mIsSet then dv.mLimits.check (FloatLib.print type dv.mUnits) dv.mReal else none

end DvTypeReal

namespace DvTypeComplex

variable [FloatLib]

def construct (typeStr : List Char) : DvTypeComplex where
  toDvTypeBase := DvTypeBase.construct typeStr
  mComplex := FloatLib.complexZero
  mLimits := Limits.empty

def clear (dv : DvTypeComplex) : DvTypeComplex where
  toDvTypeBase := dv.toDvTypeBase.clear
  mComplex := FloatLib.complexZero
  mLimits := dv.mLimits

def setComplex (dv : DvTypeComplex) (value : FloatLib.Complex) : DvTypeComplex :=
  { dv with
    mComplex := value
    toDvTypeBase := dv.toDvTypeBase.setStr (FloatLib.printComplex value) }

/-- `set` with a text; one that is refused leaves the variant set. -/
def set (dv : DvTypeComplex) (valueStr : List Char) : Bool × DvTypeComplex :=
  match FloatLib.readComplex valueStr with
  | none => (false, { dv with
      mComplex := FloatLib.complexZero
      toDvTypeBase := dv.toDvTypeBase.setStr [] })
  | some mComplex => (true, { dv with
      mComplex
      toDvTypeBase := dv.toDvTypeBase.setStr valueStr })

/-- `setLimits`, by the converter of `float`. -/
def setLimits (dv : DvTypeComplex) (limitsStr : List Char) : Bool × DvTypeComplex :=
  let (ok, mLimits) := (dv.mLimits.setUnits dv.mUnits).set (FloatLib.convert .float dv.mUnits)
    limitsStr
  (ok, { dv with mLimits })

/-- `checkLimits` of both parts. -/
def checkLimits (dv : DvTypeComplex) : Option (List Char) :=
  if dv.mIsSet then
    match dv.mLimits.check (FloatLib.print .float dv.mUnits) (FloatLib.realPart dv.mComplex) with
    | some error => some error
    | none =>
        dv.mLimits.check (FloatLib.print .float dv.mUnits) (FloatLib.imagPart dv.mComplex)
  else none

end DvTypeComplex

/-- `strToEnum`, behind the opening parenthesis: each part up to a `:` or a `)`. -/
def enumParts : List Char → List Char → List (List Char)
  | _, [] => []
  | part, letter :: rest =>
      if letter = ':' ∨ letter = ')' then part :: enumParts [] rest
      else enumParts (part ++ [letter]) rest

def strToEnum (str : List Char) : List (List Char) :=
  match str with
  | '(' :: rest => if str.length ≤ 2 then [] else enumParts [] rest
  | _ => []

namespace DvTypeEnum

def construct (typeStr : List Char) : DvTypeEnum where
  toDvTypeBase := DvTypeBase.construct typeStr
  mEnumIdx := 0
  mEnum := if typeStr.length > 4 then strToEnum (typeStr.drop 4) else []

def canSetType (typeStr : List Char) : Bool :=
  decide ("ENUM".toList <+: typeStr) && decide (strToEnum (typeStr.drop 4) ≠ [])

def clear (dv : DvTypeEnum) : DvTypeEnum where
  toDvTypeBase := dv.toDvTypeBase.clear
  mEnumIdx := 0
  mEnum := dv.mEnum

def findEnum (dv : DvTypeEnum) (value : List Char) : Option Nat :=
  dv.mEnum.findIdx? fun item => decide (toLower item = toLower value)

/-- The variant at one of its enumerations. -/
def choose (dv : DvTypeEnum) (idx : Nat) : DvTypeEnum :=
  { dv with
    mEnumIdx := idx
    toDvTypeBase := dv.toDvTypeBase.setStr (dv.mEnum.getD idx []) }

/-- `set` with a text, which is `setEnumValue`. -/
def set (dv : DvTypeEnum) (value : List Char) : Bool × DvTypeEnum :=
  match dv.findEnum value with
  | some idx => (true, dv.choose idx)
  | none => (false, dv.clear)

/-- `setEnumValue` with a number. -/
def setEnumValue (dv : DvTypeEnum) (value : Nat) : Bool × DvTypeEnum :=
  if value < dv.mEnum.length then (true, dv.choose value) else (false, dv)

def getEnumStr (dv : DvTypeEnum) : List Char :=
  if dv.mEnum = [] then [] else '(' :: (List.intercalate [':'] dv.mEnum ++ [')'])

def getTypeStr (dv : DvTypeEnum) : List Char := "ENUM".toList ++ dv.getEnumStr

end DvTypeEnum

namespace DvTypeBool

/-- `TYPE_STR + BOOL_ENUM_STR`. -/
def boolTypeStr : List Char := "BOOL(false:true)".toList

def construct (typeStr : List Char) : DvTypeEnum :=
  DvTypeEnum.construct (if typeStr = [] ∨ typeStr = "BOOL".toList then boolTypeStr else typeStr)

def canSetType (typeStr : List Char) : Bool :=
  decide ("BOOL".toList <+: typeStr) &&
    (decide (typeStr = "BOOL".toList) || decide ((strToEnum (typeStr.drop 4)).length = 2))

/-- `set` with a text, which may be one of the enumerations or a general truth value. -/
def set (dv : DvTypeEnum) (value : List Char) : Bool × DvTypeEnum :=
  let (ok, dv) := dv.set value
  if ok then (true, dv)
  else if strIsBool value then dv.setEnumValue (if strToBool value then 1 else 0)
  else (false, dv.clear)

def getTypeStr (dv : DvTypeEnum) : List Char :=
  if dv.mTypeStr = boolTypeStr then "BOOL".toList else dv.mTypeStr

end DvTypeBool

namespace DvTypeString

/-- `set` with a text. -/
def set (dv : DvTypeBase) (value : List Char) : Bool × DvTypeBase :=
  (true, if value = [] then dv.clear else dv.setStr value)

def getValue (dv : DvTypeBase) : List Char := ['"'] ++ dv.mStr ++ ['"']

def toInterInt (dv : DvTypeBase) : Int :=
  match stol dv.mStr with
  | .ok value => value
  | .error _ => 0

end DvTypeString

/-- The value behind a `DataVariant`. -/
inductive DvType [FloatLib]
  | none (dv : DvTypeBase)
  | integer (type : IntegerType) (dv : DvTypeInteger type)
  | real (type : RealType) (dv : DvTypeReal type)
  | complex (dv : DvTypeComplex)
  | enum (dv : DvTypeEnum)
  | bool (dv : DvTypeEnum)
  | string (dv : DvTypeBase)

/-- `DataVariantType::Type`. -/
inductive DataVariantType
  | none
  | integer (type : IntegerType)
  | real (type : RealType)
  | complex
  | enum
  | bool
  | string
  deriving DecidableEq, Repr

namespace DvType

variable [FloatLib]

/-- What all the classes have of `DvTypeBase`. -/
def base : DvType → DvTypeBase
  | none dv => dv
  | integer _ dv => dv.toDvTypeBase
  | real _ dv => dv.toDvTypeBase
  | complex dv => dv.toDvTypeBase
  | enum dv => dv.toDvTypeBase
  | bool dv => dv.toDvTypeBase
  | string dv => dv

def isSet (dv : DvType) : Bool := dv.base.mIsSet

def toString (dv : DvType) : List Char := dv.base.mStr

def getUnits (dv : DvType) : List Char := dv.base.mUnits

def getType : DvType → DataVariantType
  | none _ => .none
  | integer type _ => .integer type
  | real type _ => .real type
  | complex _ => .complex
  | enum _ => .enum
  | bool _ => .bool
  | string _ => .string

def getTypeStr : DvType → List Char
  | none _ => "NONE".toList
  | integer _ dv => dv.getTypeStr
  | real type _ => type.typeStr
  | complex _ => "COMPLEX".toList
  | enum dv => dv.getTypeStr
  | bool dv => DvTypeBool.getTypeStr dv
  | string _ => "STRING".toList

def getValue (dv : DvType) : List Char :=
  match dv with
  | string text => DvTypeString.getValue text
  | _ => dv.base.getValue

def clear : DvType → DvType
  | none dv => none dv.clear
  | integer type dv => integer type dv.clear
  | real type dv => real type dv.clear
  | complex dv => complex dv.clear
  | enum dv => enum dv.clear
  | bool dv => bool dv.clear
  | string dv => string dv.clear

/-- `set` with a text. -/
def set : DvType → List Char → Bool × DvType
  | none dv, _ => (false, none dv)
  | integer type dv, value => ((dv.set value).1, integer type (dv.set value).2)
  | real type dv, value => ((dv.set value).1, real type (dv.set value).2)
  | complex dv, value => ((dv.set value).1, complex (dv.set value).2)
  | enum dv, value => ((dv.set value).1, enum (dv.set value).2)
  | bool dv, value => ((DvTypeBool.set dv value).1, bool (DvTypeBool.set dv value).2)
  | string dv, value => ((DvTypeString.set dv value).1, string (DvTypeString.set dv value).2)

def setUnits : DvType → List Char → DvType
  | none dv, units => none { dv with mUnits := units }
  | integer type dv, units => integer type (dv.setUnits units)
  | real type dv, units => real type (dv.setUnits units)
  | complex dv, units => complex { dv with mUnits := units }
  | enum dv, units => enum { dv with mUnits := units }
  | bool dv, units => bool { dv with mUnits := units }
  | string dv, units => string { dv with mUnits := units }

def fromInterInt : DvType → Int → DvType
  | none dv, _ => none dv
  | integer type dv, value => integer type (dv.fromInterInt value)
  | real type dv, value => real type (dv.fromInterInt value)
  | complex dv, value => complex (dv.setComplex (FloatLib.complexOfInt value))
  | enum dv, value => enum (dv.setEnumValue (toUint32 value).toNat).2
  | bool dv, value => bool (dv.setEnumValue (toUint32 value).toNat).2
  | string dv, value => string (dv.setStr (intText value))

def fromInterFloat : DvType → FloatLib.Real → DvType
  | none dv, _ => none dv
  | integer type dv, value => integer type (dv.fromInterInt (FloatLib.truncate value))
  | real type dv, value => real type (dv.fromInterFloat value)
  | complex dv, value => complex (dv.setComplex (FloatLib.complexOfReal value))
  | enum dv, value => enum (dv.setEnumValue (toUint32 (FloatLib.truncate value)).toNat).2
  | bool dv, value => bool (dv.setEnumValue (toUint32 (FloatLib.truncate value)).toNat).2
  | string dv, value => string (dv.setStr (FloatLib.fixedStr value))

def toInterInt : DvType → Int
  | none _ => 0
  | integer _ dv => dv.toInterInt
  | real type dv => FloatLib.toInt type dv.mUnits dv.mReal
  | complex dv => FloatLib.truncate (FloatLib.realPart dv.mComplex)
  | enum dv => dv.mEnumIdx
  | bool dv => dv.mEnumIdx
  | string dv => DvTypeString.toInterInt dv

/-- `setLimits`, which other types than numbers accept without a use for it. -/
def setLimits : DvType → List Char → Bool × DvType
  | integer type dv, limitsStr =>
      ((dv.setLimits limitsStr).1, integer type (dv.setLimits limitsStr).2)
  | real type dv, limitsStr => ((dv.setLimits limitsStr).1, real type (dv.setLimits limitsStr).2)
  | complex dv, limitsStr => ((dv.setLimits limitsStr).1, complex (dv.setLimits limitsStr).2)
  | dv, _ => (true, dv)

/-- `checkLimits`: nothing, or the text of the error. -/
def checkLimits : DvType → Option (List Char)
  | integer _ dv => dv.checkLimits
  | real _ dv => dv.checkLimits
  | complex dv => dv.checkLimits
  | _ => Option.none

def getLimitsStr : DvType → List Char
  | integer _ dv => dv.getLimitsStr
  | real _ dv => dv.mLimits.formatLimits
  | complex dv => dv.mLimits.formatLimits
  | _ => []

end DvType

end OpenMplane
