import OpenMplane.DvType

/-!
# A variant of one value

`DataVariantBase`: a value with a name, a default and a flag, and the factory that makes
the value from the text of its type.  A value is copied by making another one of its type
and setting that from the text of the first.
-/

namespace OpenMplane

namespace DvTypeFactory

variable [FloatLib]

/-- `factory` of a type.  There is one instance only of the type that is none. -/
def construct (type : DataVariantType) (typeStr : List Char) : DvType :=
  match type with
  | .none => .none (DvTypeBase.construct [])
  | .integer type => .integer type (DvTypeInteger.construct type typeStr)
  | .real type => .real type (DvTypeReal.construct type typeStr)
  | .complex => .complex (DvTypeComplex.construct typeStr)
  | .enum => .enum (DvTypeEnum.construct typeStr)
  | .bool => .bool (DvTypeBool.construct typeStr)
  | .string => .string (DvTypeBase.construct typeStr)

/-- `TYPE_ORDER`, in which the types are tried. -/
def typeOrder : List DataVariantType :=
  [.integer .int, .integer .unsigned, .real .float, .complex, .enum, .bool, .string,
    .real .freq, .real .power, .integer .longLong, .real .double, .none]

def canSetType (typeStr : List Char) : DataVariantType → Bool
  | .none => true
  | .integer type => type.canSetType typeStr
  | .real type => decide (typeStr = type.typeStr)
  | .complex => decide (typeStr = "COMPLEX".toList)
  | .enum => DvTypeEnum.canSetType typeStr
  | .bool => DvTypeBool.canSetType typeStr
  | .string => decide (typeStr = "STRING".toList)

/-- `canSetValue` of the instances that are kept for each type; that of `DvTypeEnum` has no
enumerations. -/
def canSetValue (value : List Char) : DataVariantType → Bool
  | .none => false
  | .integer .int => strIsHex value || strIsNumber value && !strIsFloat value && strIsInt value
  | .integer .unsigned => strIsHex value ||
      strIsUnsigned value && strIsNumber value && !strIsFloat value && strIsInt value
  | .integer .longLong => strIsNumber value && !strIsFloat value && strIsInt value
  | .real type => type.canSetValue value
  | .complex => (FloatLib.readComplex value).isSome
  | .enum => false
  | .bool => strIsBool value
  | .string => true

/-- `factory` of the text of a type. -/
def factory (typeStr : List Char) : DvType :=
  match typeOrder.find? (canSetType typeStr) with
  | some type => construct type typeStr
  | none => construct .none []

def copy (rhs : DvType) : DvType :=
  match rhs with
  | .none dv => .none dv
  | rhs => (((construct rhs.getType rhs.getTypeStr).setUnits rhs.getUnits).set rhs.toString).2

end DvTypeFactory

variable [FloatLib]

structure DataVariantBase where
  mName : List Char
  mLowerName : List Char
  mDv : DvType
  mIsOptional : Bool
  mDefault : List Char

namespace DataVariantBase

/-- A variant without a type. -/
def construct (name : List Char) : DataVariantBase where
  mName := name
  mLowerName := toLower name
  mDv := DvTypeFactory.construct .none []
  mIsOptional := false
  mDefault := []

def copy (value : DataVariantBase) : DataVariantBase where
  mName := value.mName
  mLowerName := value.mLowerName
  mDv := DvTypeFactory.copy value.mDv
  mIsOptional := value.mIsOptional
  mDefault := value.mDefault

/-- `operator=`, which leaves the default as it is. -/
def assign (dv value : DataVariantBase) : DataVariantBase where
  mName := value.mName
  mLowerName := value.mLowerName
  mDv := DvTypeFactory.copy value.mDv
  mIsOptional := value.mIsOptional
  mDefault := dv.mDefault

def updateType (dv : DataVariantBase) (type : DataVariantType) : DataVariantBase :=
  if dv.mDv.getType = .none then { dv with mDv := DvTypeFactory.construct type [] } else dv

/-- The variant with a type that its text belongs to, where it has none. -/
def determineType (dv : DataVariantBase) (value : List Char) : DataVariantBase :=
  if dv.mDv.getType = .none then
    match DvTypeFactory.typeOrder.find? (DvTypeFactory.canSetValue value) with
    | some type => { dv with mDv := DvTypeFactory.construct type [] }
    | none => dv
  else dv

/-- `set` with a text. -/
def set (dv : DataVariantBase) (value : List Char) : DataVariantBase :=
  let dv := dv.determineType value
  { dv with mDv := (dv.mDv.set value).2 }

def setInt (dv : DataVariantBase) (value : Int) : DataVariantBase :=
  let dv := dv.updateType (.integer .int)
  { dv with mDv := dv.mDv.fromInterInt value }

def setFloat (dv : DataVariantBase) (value : FloatLib.Real) : DataVariantBase :=
  let dv := dv.updateType (.real .float)
  { dv with mDv := dv.mDv.fromInterFloat value }

def setComplex (dv : DataVariantBase) (value : FloatLib.Complex) : DataVariantBase :=
  let dv := dv.updateType .complex
  match dv.mDv with
  | .complex complex => { dv with mDv := .complex (complex.setComplex value) }
  | other => { dv with mDv := other.fromInterFloat (FloatLib.realPart value) }

def isSet (dv : DataVariantBase) : Bool := dv.mDv.isSet

def toString (dv : DataVariantBase) : List Char := dv.mDv.toString

def getUnits (dv : DataVariantBase) : List Char := dv.mDv.getUnits

def toInt (dv : DataVariantBase) : Int := NumeralText.toInt32 dv.mDv.toInterInt

def toBool (dv : DataVariantBase) : Bool := decide (0 < dv.mDv.toInterInt)

def clear (dv : DataVariantBase) : DataVariantBase := { dv with mDv := dv.mDv.clear }

def setUnits (dv : DataVariantBase) (units : List Char) : DataVariantBase :=
  { dv with mDv := dv.mDv.setUnits units }

def setLimits (dv : DataVariantBase) (limitsStr : List Char) : Bool × DataVariantBase :=
  ((dv.mDv.setLimits limitsStr).1, { dv with mDv := (dv.mDv.setLimits limitsStr).2 })

def checkLimits (dv : DataVariantBase) : Bool := decide (dv.mDv.checkLimits = none)

end DataVariantBase

end OpenMplane
