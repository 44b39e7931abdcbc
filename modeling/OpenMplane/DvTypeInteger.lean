import OpenMplane.DvTypeBase
import OpenMplane.Limits

/-!
# Values of the integer types

`DvTypeInt`, `DvTypeUint` and `DvTypeLong` keep a number beside its text, and remember
whether the text is hexadecimal.  The three classes are written alike; where they differ
the definitions ask for the type of the number.
-/

namespace OpenMplane

open NumeralText

/-- `DvTypeInt`, `DvTypeUint` or `DvTypeLong`, the last of which is never hexadecimal. -/
structure DvTypeInteger (type : IntegerType) extends DvTypeBase where
  mVal : Int
  mIsHex : Bool
  mLimits : Limits Int
  deriving DecidableEq, Repr

namespace IntegerType

def typeStr : IntegerType → List Char
  | int => "INT".toList
  | unsigned => "UINT".toList
  | longLong => "LONG".toList

/-- The text of the type of hexadecimal values; `long long` has none. -/
def hexTypeStr : IntegerType → Option (List Char)
  | int => some "HEXINT".toList
  | unsigned => some "HEXUINT".toList
  | longLong => none

/-- Is a type text that of hexadecimal values. -/
def isHexType (type : IntegerType) (typeStr : List Char) : Bool :=
  decide (type.hexTypeStr = some typeStr)

/-- `canSetType` of the class. -/
def canSetType (type : IntegerType) (typeStr : List Char) : Bool :=
  decide (typeStr = type.typeStr) || type.isHexType typeStr

/-- The test that `set` of the class makes. -/
def isValid (type : IntegerType) (valueStr : List Char) : Bool :=
  match type with
  | int => (strIsInt valueStr || strIsHex valueStr) && !strIsFloat valueStr
  | unsigned => (strIsInt valueStr || strIsHex valueStr) && !strIsFloat valueStr &&
      strIsUnsigned valueStr
  | longLong => strIsNumber valueStr

/-- What is a numeral has no decimal point, so that this is never looked for in vain. -/
theorem isValid_int {valueStr : List Char} :
    int.isValid valueStr = true ↔ strIsInt valueStr = true ∨ strIsHex valueStr = true := by
  rw [isValid, Bool.and_eq_true, Bool.or_eq_true, Bool.not_eq_true']
  refine ⟨And.left, fun numeral => ⟨numeral, ?_⟩⟩
  rcases numeral with integer | hex
  · exact strIsFloat_of_strIsInt integer
  · exact strIsFloat_of_strIsHex hex

theorem isValid_unsigned {valueStr : List Char} :
    unsigned.isValid valueStr = true ↔
      (strIsInt valueStr = true ∨ strIsHex valueStr = true) ∧ strIsUnsigned valueStr = true := by
  rw [← isValid_int]
  simp only [isValid, Bool.and_eq_true]

end IntegerType

namespace DvTypeInteger

variable {type : IntegerType}

/-- The constructor; that of `DvTypeUint` does not look at the type text. -/
def construct (type : IntegerType) (typeStr : List Char) : DvTypeInteger type where
  toDvTypeBase := DvTypeBase.construct typeStr
  mVal := 0
  mIsHex := match type with
    | .int => type.isHexType typeStr
    | .unsigned => false
    | .longLong => false
  mLimits := Limits.empty

def clear (dv : DvTypeInteger type) : DvTypeInteger type where
  toDvTypeBase := dv.toDvTypeBase.clear
  mVal := 0
  mIsHex := type.isHexType dv.mTypeStr
  mLimits := dv.mLimits

def setStr (dv : DvTypeInteger type) (str : List Char) : DvTypeInteger type :=
  { dv with toDvTypeBase := dv.toDvTypeBase.setStr str }

def setUnits (dv : DvTypeInteger type) (units : List Char) : DvTypeInteger type :=
  { dv with mUnits := units }

/-- `unitsFromStr`: the value without its units, which are kept unless the value is set
and has none. -/
def unitsFromStr (dv : DvTypeInteger type) (value : List Char) :
    List Char × DvTypeInteger type :=
  let (valueStr, unitsStr) := splitUnits value
  if unitsStr = [] then (valueStr, dv)
  else if dv.mIsSet ∧ dv.mUnits = [] then ([], dv.clear)
  else (valueStr, dv.setUnits unitsStr)

/-- Is a value read as hexadecimal digits. -/
def readsHex (type : IntegerType) (valueStr : List Char) : Bool :=
  match type with
  | .int => strIsHex valueStr
  | .unsigned => strIsHex valueStr
  | .longLong => false

/-- The number that `set` reads. -/
def readValue (type : IntegerType) (valueStr : List Char) : Int :=
  match type with
  | .int => if strIsHex valueStr then toInt32 (scanHex (valueStr.drop 2)) else atoi valueStr
  | .unsigned =>
      if strIsHex valueStr then toUint32 (scanHex (valueStr.drop 2))
      else toUint32 (atoi valueStr)
  | .longLong => atoll valueStr

/-- `set` with a text, and whether it is valid. -/
def set (dv : DvTypeInteger type) (value : List Char) : Bool × DvTypeInteger type :=
  let (valueStr, dv) := dv.unitsFromStr value
  if type.isValid valueStr then
    (true, { dv with mVal := readValue type valueStr, mIsHex := readsHex type valueStr }.setStr
      valueStr)
  else (false, dv.clear)

/-- The text that a number is given. -/
def valueText (type : IntegerType) (isHex : Bool) (value : Int) : List Char :=
  match type with
  | .int => if isHex then '0' :: 'x' :: hexText (toUint32 value).toNat else intToStr value
  | .unsigned => if isHex then '0' :: 'x' :: hexText (toUint32 value).toNat else intText value
  | .longLong => intText value

/-- `setInt`, `setUint` or `setLong` of the class. -/
def setValue (dv : DvTypeInteger type) (value : Int) : DvTypeInteger type :=
  { dv with mVal := value }.setStr (valueText type dv.mIsHex value)

def toInterInt (dv : DvTypeInteger type) : Int := dv.mVal

def fromInterInt (dv : DvTypeInteger type) (value : Int) : DvTypeInteger type :=
  dv.setValue (type.cast value)

def getTypeStr (dv : DvTypeInteger type) : List Char :=
  match type.hexTypeStr with
  | some hexTypeStr => if dv.mIsHex then hexTypeStr else type.typeStr
  | none => type.typeStr

def setLimits (dv : DvTypeInteger type) (limitsStr : List Char) : Bool × DvTypeInteger type :=
  let (ok, mLimits) := (dv.mLimits.setUnits dv.mUnits).set (valConvert type) limitsStr
  (ok, { dv with mLimits })

/-- `checkLimits`: nothing, or the text of the error. -/
def checkLimits (dv : DvTypeInteger type) : Option (List Char) :=
  if dv.mIsSet then dv.mLimits.check intText dv.mVal else none

def getLimitsStr (dv : DvTypeInteger type) : List Char := dv.mLimits.formatLimits

end DvTypeInteger

end OpenMplane
