import OpenMplane.XpathUtils

/-!
# YANG parameters and sysrepo values

A sysrepo value reaches the handlers as a `YangParam`: a name, which is the
value's xpath, and one of twelve types of data.  This file models both, the
conversions of `YangParamUtils` that the handlers apply, and the readers of
`SysrepoUtils` that turn the items of a datastore into maps.
-/

namespace OpenMplane

/-- The data of a `YangParam`, by `YangParamType_E`. -/
inductive YangData
  | unknown
  | bool (value : Bool)
  | string (value : String)
  | binary (encoded : String)
  | int8 (value : Int8)
  | int16 (value : Int16)
  | int32 (value : Int32)
  | int64 (value : Int64)
  | uint8 (value : UInt8)
  | uint16 (value : UInt16)
  | uint32 (value : UInt32)
  | uint64 (value : UInt64)
  | decimal64 (value : Double)
  deriving DecidableEq

structure YangParam where
  name : String
  data : YangData
  deriving DecidableEq

namespace YangParam

/-- `getDecimal64`: the member starts as 0.0 and only `setDecimal64` writes it. -/
def getDecimal64 (param : YangParam) : Double :=
  match param.data with
  | .decimal64 value => value
  | _ => Double.zero

end YangParam

namespace YangParamUtils

/-- `static_cast<uint32_t>` of an integer. -/
def castUInt32 (value : Int) : UInt64 :=
  UInt64.ofNat (value % 2 ^ 32).toNat

/-- `YangParamUtils::toUint64`.  All integers but the widest unsigned one pass
through `uint32_t`. -/
def toUint64 (param : YangParam) : Except String UInt64 :=
  match param.data with
  | .bool value => .ok (if value then 1 else 0)
  | .string value => .ok (strtoull value)
  | .int8 value => .ok (castUInt32 value.toInt)
  | .int16 value => .ok (castUInt32 value.toInt)
  | .int32 value => .ok (castUInt32 value.toInt)
  | .int64 value => .ok (castUInt32 value.toInt)
  | .uint8 value => .ok (castUInt32 value.toNat)
  | .uint16 value => .ok (castUInt32 value.toNat)
  | .uint32 value => .ok (castUInt32 value.toNat)
  | .uint64 value => .ok value
  | .binary _ | .decimal64 _ | .unknown => .error "Invalid parameter"

/-- The value `toUint64` returns, 0 when it reports an error. -/
def uint64Of (param : YangParam) : UInt64 :=
  match toUint64 param with
  | .ok value => value
  | .error _ => 0

def toString (param : YangParam) : String :=
  match param.data with
  | .bool value => if value then "true" else "false"
  | .string value => value
  | .binary encoded => encoded
  | .int8 _ | .int16 _ | .int32 _ | .int64 _ => (uint64Of param).toInt64.toInt.repr
  | .uint8 _ | .uint16 _ | .uint32 _ | .uint64 _ => (uint64Of param).toNat.repr
  | .decimal64 value => value.toString
  | .unknown => ""

end YangParamUtils

/-- The data of a `sysrepo::Val`, by `sr_type_t`. -/
inductive SrData
  | unknown
  | list
  | container
  | containerPresence
  | leafEmpty
  | notification
  | anyxml
  | anydata
  | bool (value : Bool)
  | int8 (value : Int8)
  | int16 (value : Int16)
  | int32 (value : Int32)
  | int64 (value : Int64)
  | uint8 (value : UInt8)
  | uint16 (value : UInt16)
  | uint32 (value : UInt32)
  | uint64 (value : UInt64)
  | decimal64 (value : Double)
  | string (value : String)
  | binary (value : String)
  | bits (value : String)
  | enum (value : String)
  | identityref (value : String)
  | instanceid (value : String)
  deriving DecidableEq

/-- A `sysrepo::Val`: its xpath, its data, and what its `val_to_string`
returns. -/
structure SrVal where
  xpath : String
  data : SrData
  valToString : String
  deriving DecidableEq

/-- `YangParamSysrepo::setSysrepo` on the data. -/
def SrData.toYang : SrData → YangData
  | .bool value => .bool value
  | .int8 value => .int8 value
  | .int16 value => .int16 value
  | .int32 value => .int32 value
  | .int64 value => .int64 value
  | .uint8 value => .uint8 value
  | .uint16 value => .uint16 value
  | .uint32 value => .uint32 value
  | .uint64 value => .uint64 value
  | .decimal64 value => .decimal64 value
  | .binary value => .binary value
  | .string value | .bits value | .enum value | .identityref value | .instanceid value =>
      .string value
  | .unknown | .list | .container | .containerPresence | .leafEmpty | .notification
  | .anyxml | .anydata => .unknown

/-- `std::make_shared<YangParamSysrepo>(value)`. -/
def SrVal.toParam (value : SrVal) : YangParam :=
  ⟨value.xpath, value.data.toYang⟩

/-- The reading side of a running-datastore session: `get_items` on an xpath,
with nothing for a null result and for an exception. -/
structure SrSession where
  getItems : String → Option (List SrVal)

namespace RadioDatastoreSysrepo

/-- The types `getItems` passes over. -/
def skipped : SrData → Bool
  | .unknown | .container | .containerPresence | .list | .leafEmpty => true
  | _ => false

/-- `RadioDatastoreSysrepo::getItems` on an active datastore: nothing for a
result other than OK, and no parameters for a null `params`. -/
def getItems (session : SrSession) (xpath : String) : Option (List YangParam) :=
  (session.getItems xpath).map fun values =>
    (values.filter fun value => !skipped value.data).map SrVal.toParam

end RadioDatastoreSysrepo

namespace SysrepoUtils

/-- `SysrepoUtils::paramsToMap`: the parameters by leaf name, a later one over
an earlier one. -/
def paramsToMap (params : List YangParam) : StdMap YangParam :=
  params.foldl (fun values param => values.insert (leafName param.name) param) ∅

section Readers

-- what `getItems` gives of an xpath on the datastore that is read
variable (getItems : String → Option (List YangParam))

def getParams (xpath : String) : StdMap YangParam :=
  match getItems xpath with
  | none => ∅
  | some params => paramsToMap params

/-- `SysrepoUtils::getKeyParams`: the parameters by list key, then by leaf name. -/
def getKeyParams (path : String) : StdMap (StdMap YangParam) :=
  match getItems path with
  | none => ∅
  | some params => params.foldl (fun values param =>
      let key := (listIndex param.name).value
      values.insert key ((values.getD key ∅).insert (leafName param.name) param)) ∅

def getKeyValues (path : String) : StdMap (StdMap String) :=
  (getKeyParams getItems path).map fun _ entry =>
    entry.map fun _ param => YangParamUtils.toString param

end Readers

def paramValUInt64 (values : StdMap YangParam) (key : String) : UInt64 :=
  match values[key]? with
  | none => 0
  | some param => YangParamUtils.uint64Of param

def paramValDecimal64 (values : StdMap YangParam) (key : String) : Double :=
  match values[key]? with
  | none => Double.zero
  | some param => param.getDecimal64

end SysrepoUtils

end OpenMplane
