import OpenMplane.DataVariantBase
import Mathlib.Data.List.Basic

/-!
# A variant of one value or of several

`DataVariant`: a variant that may be a vector.  A vector grows with the index that is set;
its elements are variants of their own, made after the variant itself, which mirrors the
first of them.
-/

namespace OpenMplane

/-! Delimiters that stand together count as one, so that no token is empty. -/

namespace Tokeniser

variable {α : Type} [DecidableEq α]

/-- The tokens that are left when a token has been read in part. -/
def tokensFrom (delimiters token : List α) : List α → List (List α)
  | [] => if token = [] then [] else [token]
  | letter :: rest =>
      if letter ∈ delimiters then
        if token = [] then tokensFrom delimiters [] rest
        else token :: tokensFrom delimiters [] rest
      else tokensFrom delimiters (token ++ [letter]) rest

/-- `getTokens`: what `nextToken` finds one after the other. -/
def getTokens (delimiters text : List α) : List (List α) := tokensFrom delimiters [] text

end Tokeniser

open NumeralText ListCut

variable [FloatLib]

/-- Units without the parentheses around them. -/
def stripUnits (units : List Char) : List Char :=
  if units.head? = some '(' ∧ units.getLast? = some ')' then
    (units.drop 1).take (units.length - 2)
  else units

/-- `DataVariantBase::setType`: a type and its units in parentheses. -/
def DataVariantBase.setType (dv : DataVariantBase) (type : List Char) : DataVariantBase :=
  let tokens := Tokeniser.getTokens [' '] type
  let mDv := DvTypeFactory.factory (tokens.getD 0 [])
  let units := stripUnits (tokens.getD 1 [])
  if units = [] then { dv with mDv } else { dv with mDv := mDv.setUnits units }

/-- The constructor from a name, behind which a value may stand. -/
def DataVariantBase.constructNamed (name : List Char) : DataVariantBase :=
  match cutFirst '=' name with
  | some (before, value) =>
      { (DataVariantBase.construct []).set value with
        mName := before
        mLowerName := toLower before }
  | none => DataVariantBase.construct name

structure DataVariant extends DataVariantBase where
  mSet : Bool
  mIsVector : Bool
  mValues : List DataVariantBase
  mNames : List (List Char)

namespace DataVariant

/-- `getIndex`: the index of a text and what stands before it. -/
def getIndex (indexedStr : List Char) : Option (Nat × List Char) :=
  if indexedStr.length < 3 then none
  else match cutFirst '[' indexedStr with
    | none => none
    | some (baseStr, rest) =>
        if baseStr = [] ∨ rest = [] then none
        else match cutFirst ']' rest with
          | none => none
          | some (idxStr, _) =>
              some (if strIsNumber idxStr then (toUint32 (atoi idxStr)).toNat else 0, baseStr)

/-- The element that a vector grows by, unset and of the same type. -/
def newElement (dv : DataVariant) : DataVariantBase :=
  let dvb := dv.toDataVariantBase.copy.clear
  if dv.getUnits ≠ [] then dvb.setUnits dv.getUnits else dvb

/-- The name of an element. -/
def indexedName (dv : DataVariant) (idx : Nat) : List Char :=
  dv.mName ++ ['['] ++ (Nat.repr idx).toList ++ [']']

/-- `getIndexedValue`: a vector with an element at the index. -/
def getIndexedValue (dv : DataVariant) (index : Nat) : DataVariant :=
  if dv.mIsVector then
    let added := List.range' dv.mValues.length (index + 1 - dv.mValues.length)
    { dv with
      mValues := dv.mValues ++ added.map fun _ => dv.newElement
      mNames := dv.mNames ++ added.map dv.indexedName }
  else dv

/-- The constructor from a name and a type. -/
def construct (name type : List Char) : DataVariant :=
  let base := DataVariantBase.constructNamed name
  match getIndex type with
  | none =>
      { toDataVariantBase := base.setType type
        mSet := false
        mIsVector := false
        mValues := []
        mNames := [] }
  | some (index, typeStr) =>
      getIndexedValue
        { toDataVariantBase := base.setType typeStr
          mSet := false
          mIsVector := true
          mValues := []
          mNames := [] } index

def setName (dv : DataVariant) (index : Nat) (name : List Char) : DataVariant :=
  if dv.mIsVector ∧ name ≠ [] then { dv with mNames := dv.mNames.set index name } else dv

/-- `set` of an element, by whichever kind of value; the variant itself mirrors the first
element. -/
def setIndexed (dv : DataVariant) (index : Nat) (assign : DataVariantBase → DataVariantBase)
    (name : List Char) : DataVariant :=
  if dv.mIsVector then
    let grown := dv.getIndexedValue index
    let values := grown.mValues.modify index assign
    let named := { grown with mValues := values }.setName index name
    let marked := if (values[index]?).any DataVariantBase.isSet then { named with mSet := true }
      else named
    if index = 0 then { marked with toDataVariantBase := assign marked.toDataVariantBase }
    else marked
  else dv

/-- `set` of an element with a text. -/
def setIndexedStr (dv : DataVariant) (index : Nat) (value name : List Char) : DataVariant :=
  dv.setIndexed index (·.set value) name

/-- `set` of an element with an integer. -/
def setIndexedInt (dv : DataVariant) (index : Nat) (value : Int) (name : List Char) :
    DataVariant :=
  dv.setIndexed index (·.setInt value) name

/-- `set` of an element with a `float`. -/
def setIndexedFloat (dv : DataVariant) (index : Nat) (value : FloatLib.Real) (name : List Char) :
    DataVariant :=
  dv.setIndexed index (·.setFloat value) name

/-- `set` of an element with a complex number. -/
def setIndexedComplex (dv : DataVariant) (index : Nat) (value : FloatLib.Complex)
    (name : List Char) : DataVariant :=
  dv.setIndexed index (·.setComplex value) name

def isSet (dv : DataVariant) : Bool := dv.mSet || dv.toDataVariantBase.isSet

def clearVector (dv : DataVariant) : DataVariant :=
  if dv.mIsVector then { dv with mValues := [], mNames := [] } else dv

def clear (dv : DataVariant) : DataVariant :=
  let unset := { dv with mSet := false }
  if dv.mIsVector then unset.clearVector
  else { unset with toDataVariantBase := dv.toDataVariantBase.clear }

/-- The loop of `setLimits`, which ends with the first element that refuses. -/
def setLimitsLoop (limitsStr : List Char) : List DataVariantBase → Bool × List DataVariantBase
  | [] => (true, [])
  | value :: rest =>
      if (value.setLimits limitsStr).1 then
        ((setLimitsLoop limitsStr rest).1,
          (value.setLimits limitsStr).2 :: (setLimitsLoop limitsStr rest).2)
      else (false, (value.setLimits limitsStr).2 :: rest)

def setLimits (dv : DataVariant) (limitsStr : List Char) : Bool × DataVariant :=
  if dv.mIsVector then
    ((setLimitsLoop limitsStr dv.mValues).1,
      { dv with mValues := (setLimitsLoop limitsStr dv.mValues).2 })
  else
    ((dv.toDataVariantBase.setLimits limitsStr).1,
      { dv with toDataVariantBase := (dv.toDataVariantBase.setLimits limitsStr).2 })

def checkLimits (dv : DataVariant) : Bool :=
  if dv.mIsVector then dv.mValues.all DataVariantBase.checkLimits
  else dv.toDataVariantBase.checkLimits

def setUnits (dv : DataVariant) (units : List Char) : DataVariant :=
  let changed := { dv with toDataVariantBase := dv.toDataVariantBase.setUnits units }
  if dv.mIsVector then
    { changed with mValues := dv.mValues.map fun value => value.setUnits units }
  else changed

def getTypeStr (dv : DataVariant) : List Char :=
  if dv.mIsVector then dv.mDv.getTypeStr ++ ['[', ']'] else dv.mDv.getTypeStr

/-- The copy constructor, and the one from a `DataVariantBase`. -/
def copy (value : DataVariantBase) : DataVariant where
  toDataVariantBase := value.copy
  mSet := false
  mIsVector := false
  mValues := []
  mNames := []

/-- `operator=`. -/
def assign (dv rhs : DataVariant) : DataVariant :=
  let cleared := dv.clearVector
  let copied : DataVariant :=
    { cleared with
      toDataVariantBase := cleared.toDataVariantBase.assign rhs.toDataVariantBase
      mIsVector := rhs.mIsVector }
  if rhs.mIsVector then
    { copied with
      mValues := copied.mValues ++ rhs.mValues.map DataVariantBase.copy
      mNames := copied.mNames ++ rhs.mNames }
  else copied

def getList (dv : DataVariant) : List (List Char × DataVariant) :=
  if dv.mIsVector then
    dv.mValues.zipIdx.map fun (value, idx) => (dv.mNames.getD idx [], copy value)
  else [(dv.mName, copy dv.toDataVariantBase)]

section Elements

variable {dv : DataVariant}

theorem mValues_getIndexedValue (vector : dv.mIsVector = true) (index : Nat) :
    (dv.getIndexedValue index).mValues =
      dv.mValues ++ List.replicate (index + 1 - dv.mValues.length) dv.newElement := by
  rw [getIndexedValue, if_pos vector]
  dsimp only
  rw [List.map_const', List.length_range']

@[simp]
theorem base_getIndexedValue (index : Nat) :
    (dv.getIndexedValue index).toDataVariantBase = dv.toDataVariantBase := by
  rw [getIndexedValue]
  split <;> rfl

@[simp]
theorem base_setName (index : Nat) (name : List Char) :
    (dv.setName index name).toDataVariantBase = dv.toDataVariantBase := by
  rw [setName]
  split <;> rfl

@[simp]
theorem mValues_setName (index : Nat) (name : List Char) :
    (dv.setName index name).mValues = dv.mValues := by
  rw [setName]
  split <;> rfl

@[simp]
theorem mIsVector_setName (index : Nat) (name : List Char) :
    (dv.setName index name).mIsVector = dv.mIsVector := by
  rw [setName]
  split <;> rfl

@[simp]
theorem mIsVector_getIndexedValue (index : Nat) :
    (dv.getIndexedValue index).mIsVector = dv.mIsVector := by
  rw [getIndexedValue]
  split <;> rfl

/-- What setting an element makes of a vector: its other elements, the variant itself, and
that it stays a vector. -/
theorem setIndexed_spec (vector : dv.mIsVector = true) (index : Nat)
    (assign : DataVariantBase → DataVariantBase) (name : List Char) :
    (dv.setIndexed index assign name).mValues =
        (dv.getIndexedValue index).mValues.modify index assign ∧
      (dv.setIndexed index assign name).toDataVariantBase =
        (if index = 0 then assign dv.toDataVariantBase else dv.toDataVariantBase) ∧
      (dv.setIndexed index assign name).mIsVector = true := by
  rw [setIndexed, if_pos vector]
  by_cases first : index = 0
  · simp only [first, if_true]
    split <;> simp [vector]
  · simp only [first, if_false]
    split <;> simp [vector]

end Elements

end DataVariant

end OpenMplane
