import OpenMplane.YangParam

/-!
# Parameters as sysrepo values and back

Three pieces of code write parameters into sysrepo values, `paramsToVals`,
`paramsToValsHolder` and `YangParamSysrepo::getSysrepo`, and two read values
back, `valsToParams` and the constructor of `YangParamSysrepo` from a value.
The two tables of `SysrepoUtils` agree and a list comes back from its values.
A `YangParamSysrepo` made from a parameter leaves the name behind, so its value
never gets an xpath, and what comes back has the name that sysrepo gives for a
value without one.
-/

namespace OpenMplane

/-- A `sysrepo::Val` as it is built here.  The xpath is missing until it is
set. -/
structure SysrepoVal where
  xpath : Option String
  data : SrData
  deriving DecidableEq

namespace SysrepoVal

/-- An element of a new `sysrepo::Vals`. -/
def fresh : SysrepoVal := ⟨none, .unknown⟩

def set (_value : SysrepoVal) (xpath : String) (data : SrData) : SysrepoVal :=
  ⟨some xpath, data⟩

def xpathSet (value : SysrepoVal) (xpath : String) : SysrepoVal :=
  { value with xpath := some xpath }

/-- What `Val::xpath` returns, where `unset` is its answer for a value that was
never given one, nothing being a null pointer. -/
def xpathOr (unset : Option String) (value : SysrepoVal) : Option String :=
  match value.xpath with
  | some xpath => some xpath
  | none => unset

@[simp] theorem xpathOr_some (unset : Option String) (xpath : String) (data : SrData) :
    xpathOr unset ⟨some xpath, data⟩ = some xpath := rfl

@[simp] theorem xpathOr_none (unset : Option String) (data : SrData) :
    xpathOr unset ⟨none, data⟩ = unset := rfl

end SysrepoVal

/-- A string as the library sees it through `c_str()`: up to the first NUL. -/
def cStr (text : String) : String :=
  String.ofList (text.toList.takeWhile (· ≠ '\x00'))

theorem cStr_eq_iff (text : String) : cStr text = text ↔ '\x00' ∉ text.toList := by
  have letters : cStr text = text ↔ text.toList.takeWhile (· ≠ '\x00') = text.toList := by
    rw [cStr, ← String.toList_inj, String.toList_ofList]
  rw [letters, List.takeWhile_eq_self_iff]
  constructor
  · intro all inside
    simpa using all '\x00' inside
  · intro outside letter member
    have other : letter ≠ '\x00' := fun same => outside (same ▸ member)
    simpa using other

namespace SysrepoUtils

/-- The switch in the loop of `paramsToVals`.  An unknown parameter leaves the
element as it was allocated. -/
def paramToVal (value : SysrepoVal) (param : YangParam) : SysrepoVal :=
  match param.data with
  | .bool data => value.set (cStr param.name) (.bool data)
  | .string data => value.set (cStr param.name) (.string (cStr data))
  | .binary encoded => value.set (cStr param.name) (.binary (cStr encoded))
  | .int8 data => value.set (cStr param.name) (.int8 data)
  | .int16 data => value.set (cStr param.name) (.int16 data)
  | .int32 data => value.set (cStr param.name) (.int32 data)
  | .int64 data => value.set (cStr param.name) (.int64 data)
  | .uint8 data => value.set (cStr param.name) (.uint8 data)
  | .uint16 data => value.set (cStr param.name) (.uint16 data)
  | .uint32 data => value.set (cStr param.name) (.uint32 data)
  | .uint64 data => value.set (cStr param.name) (.uint64 data)
  | .decimal64 data => value.set (cStr param.name) (.decimal64 data)
  | .unknown => value

def paramsToVals (params : List YangParam) : List SysrepoVal :=
  params.map (paramToVal .fresh)

/-- The switch in the loop of `paramsToValsHolder`, with nothing where it
returns. -/
def paramToValHolder (value : SysrepoVal) (param : YangParam) : Option SysrepoVal :=
  match param.data with
  | .bool data => some (value.set (cStr param.name) (.bool data))
  | .string data => some (value.set (cStr param.name) (.string (cStr data)))
  | .binary encoded => some (value.set (cStr param.name) (.binary (cStr encoded)))
  | .int8 data => some (value.set (cStr param.name) (.int8 data))
  | .int16 data => some (value.set (cStr param.name) (.int16 data))
  | .int32 data => some (value.set (cStr param.name) (.int32 data))
  | .int64 data => some (value.set (cStr param.name) (.int64 data))
  | .uint8 data => some (value.set (cStr param.name) (.uint8 data))
  | .uint16 data => some (value.set (cStr param.name) (.uint16 data))
  | .uint32 data => some (value.set (cStr param.name) (.uint32 data))
  | .uint64 data => some (value.set (cStr param.name) (.uint64 data))
  | .decimal64 data => some (value.set (cStr param.name) (.decimal64 data))
  | .unknown => none

/-- `SysrepoUtils::paramsToValsHolder`: its result and the allocated values.
The loop ends at the first unknown parameter and leaves the rest as they were
allocated. -/
def paramsToValsHolder : List YangParam → Bool × List SysrepoVal
  | [] => (true, [])
  | param :: rest =>
      match paramToValHolder .fresh param with
      | some value => ((paramsToValsHolder rest).1, value :: (paramsToValsHolder rest).2)
      | none => (false, .fresh :: rest.map fun _ => .fresh)

/-- The switch in the loop of `valsToParams`: what it adds to the parameters,
with nothing where a string would be made from a null xpath. -/
def valToParams (unset : Option String) (value : SysrepoVal) : Option (List YangParam) :=
  match value.data with
  | .bool data => (value.xpathOr unset).map fun xpath => [⟨xpath, .bool data⟩]
  | .decimal64 data => (value.xpathOr unset).map fun xpath => [⟨xpath, .decimal64 data⟩]
  | .int8 data => (value.xpathOr unset).map fun xpath => [⟨xpath, .int8 data⟩]
  | .int16 data => (value.xpathOr unset).map fun xpath => [⟨xpath, .int16 data⟩]
  | .int32 data => (value.xpathOr unset).map fun xpath => [⟨xpath, .int32 data⟩]
  | .int64 data => (value.xpathOr unset).map fun xpath => [⟨xpath, .int64 data⟩]
  | .string data => (value.xpathOr unset).map fun xpath => [⟨xpath, .string data⟩]
  | .uint8 data => (value.xpathOr unset).map fun xpath => [⟨xpath, .uint8 data⟩]
  | .uint16 data => (value.xpathOr unset).map fun xpath => [⟨xpath, .uint16 data⟩]
  | .uint32 data => (value.xpathOr unset).map fun xpath => [⟨xpath, .uint32 data⟩]
  | .uint64 data => (value.xpathOr unset).map fun xpath => [⟨xpath, .uint64 data⟩]
  | .binary data => (value.xpathOr unset).map fun xpath => [⟨xpath, .binary data⟩]
  | .bits data => (value.xpathOr unset).map fun xpath => [⟨xpath, .string data⟩]
  | .enum data => (value.xpathOr unset).map fun xpath => [⟨xpath, .string data⟩]
  | .identityref data => (value.xpathOr unset).map fun xpath => [⟨xpath, .string data⟩]
  | .instanceid data => (value.xpathOr unset).map fun xpath => [⟨xpath, .string data⟩]
  | .anyxml | .anydata => some []
  | .unknown | .list | .container | .containerPresence | .leafEmpty | .notification => some []

def valsToParams (unset : Option String) : List SysrepoVal → Option (List YangParam)
  | [] => some []
  | value :: rest =>
      match valToParams unset value with
      | some params => (valsToParams unset rest).map (params ++ ·)
      | none => none

end SysrepoUtils

namespace YangParamSysrepo

/-- `YangParamSysrepo::YangParamSysrepo(const YangParam&)`.  The base class
starts with an empty name and an unknown type; only the data are copied. -/
def ofParam (param : YangParam) : YangParam :=
  match param.data with
  | .bool data => ⟨"", .bool data⟩
  | .string data => ⟨"", .string data⟩
  | .binary encoded => ⟨"", .binary encoded⟩
  | .int8 data => ⟨"", .int8 data⟩
  | .int16 data => ⟨"", .int16 data⟩
  | .int32 data => ⟨"", .int32 data⟩
  | .int64 data => ⟨"", .int64 data⟩
  | .uint8 data => ⟨"", .uint8 data⟩
  | .uint16 data => ⟨"", .uint16 data⟩
  | .uint32 data => ⟨"", .uint32 data⟩
  | .uint64 data => ⟨"", .uint64 data⟩
  | .decimal64 data => ⟨"", .decimal64 data⟩
  | .unknown => ⟨"", .unknown⟩

/-- The value `getSysrepo` makes before it sets the xpath, null for an unknown
type. -/
def newVal (data : YangData) : Option SysrepoVal :=
  match data with
  | .bool data => some ⟨none, .bool data⟩
  | .int8 data => some ⟨none, .int8 data⟩
  | .int16 data => some ⟨none, .int16 data⟩
  | .int32 data => some ⟨none, .int32 data⟩
  | .int64 data => some ⟨none, .int64 data⟩
  | .uint8 data => some ⟨none, .uint8 data⟩
  | .uint16 data => some ⟨none, .uint16 data⟩
  | .uint32 data => some ⟨none, .uint32 data⟩
  | .uint64 data => some ⟨none, .uint64 data⟩
  | .string data => some ⟨none, .string (cStr data)⟩
  | .binary encoded => some ⟨none, .binary (cStr encoded)⟩
  | .decimal64 data => some ⟨none, .decimal64 data⟩
  | .unknown => none

def getSysrepo (param : YangParam) : Option SysrepoVal :=
  (newVal param.data).map fun value =>
    if param.name ≠ "" then value.xpathSet (cStr param.name) else value

/-- `YangParamSysrepo::YangParamSysrepo(sysrepo::S_Val)`: `setSysrepo`, with
nothing where the name would be made from a null xpath. -/
def ofVal (unset : Option String) (value : SysrepoVal) : Option YangParam :=
  (value.xpathOr unset).map fun xpath => ⟨xpath, value.data.toYang⟩

/-- `YangParamSysrepo(p).getSysrepo()` read back through
`YangParamSysrepo(value)`. -/
def readBack (unset : Option String) (param : YangParam) : Option YangParam :=
  (getSysrepo (ofParam param)).bind (ofVal unset)

end YangParamSysrepo

/-- The data a conversion is asked to keep: one of the twelve types, a string
or an encoded binary without NUL. -/
def YangData.Concrete : YangData → Prop
  | .unknown => False
  | .string value => '\x00' ∉ value.toList
  | .binary encoded => '\x00' ∉ encoded.toList
  | _ => True

instance (data : YangData) : Decidable data.Concrete :=
  match data with
  | .unknown => inferInstanceAs (Decidable False)
  | .string value => inferInstanceAs (Decidable ('\x00' ∉ value.toList))
  | .binary encoded => inferInstanceAs (Decidable ('\x00' ∉ encoded.toList))
  | .bool _ | .int8 _ | .int16 _ | .int32 _ | .int64 _ | .uint8 _ | .uint16 _ | .uint32 _
  | .uint64 _ | .decimal64 _ => inferInstanceAs (Decidable True)

/-- The sysrepo data that stand for the data of a parameter. -/
def YangData.toSr : YangData → SrData
  | .bool value => .bool value
  | .string value => .string value
  | .binary encoded => .binary encoded
  | .int8 value => .int8 value
  | .int16 value => .int16 value
  | .int32 value => .int32 value
  | .int64 value => .int64 value
  | .uint8 value => .uint8 value
  | .uint16 value => .uint16 value
  | .uint32 value => .uint32 value
  | .uint64 value => .uint64 value
  | .decimal64 value => .decimal64 value
  | .unknown => .unknown

theorem YangData.toYang_toSr (data : YangData) : data.toSr.toYang = data := by
  cases data <;> rfl

namespace SysrepoUtils

open YangData (Concrete)

/-- Each of the twelve cases of the first table stores the name and the data. -/
theorem paramToVal_eq {param : YangParam} (concrete : param.data.Concrete)
    (value : SysrepoVal) :
    paramToVal value param = ⟨some (cStr param.name), param.data.toSr⟩ := by
  rcases param with ⟨name, data⟩
  cases data with
  | unknown => exact absurd concrete id
  | string text => simp [paramToVal, SysrepoVal.set, YangData.toSr, (cStr_eq_iff text).mpr concrete]
  | binary text => simp [paramToVal, SysrepoVal.set, YangData.toSr, (cStr_eq_iff text).mpr concrete]
  | _ => rfl

/-- The second table is the first, but for the result at an unknown type. -/
theorem paramToValHolder_eq (value : SysrepoVal) (param : YangParam) :
    paramToValHolder value param =
      if param.data = .unknown then none else some (paramToVal value param) := by
  rcases param with ⟨name, data⟩
  cases data <;> rfl

/-- Reading takes the data of a parameter from a value that was given an
xpath. -/
theorem valToParams_eq {data : YangData} (known : data ≠ .unknown)
    (unset : Option String) (xpath : String) :
    valToParams unset ⟨some xpath, data.toSr⟩ = some [⟨xpath, data⟩] := by
  cases data with
  | unknown => exact absurd rfl known
  | _ => rfl

theorem known_of_concrete {data : YangData} (concrete : data.Concrete) : data ≠ .unknown := by
  rintro rfl
  exact concrete

/-- The values of a list are read back as the list, each name up to its first
NUL. -/
theorem valsToParams_paramsToVals (unset : Option String) {params : List YangParam}
    (concrete : ∀ param ∈ params, param.data.Concrete) :
    valsToParams unset (paramsToVals params) =
      some (params.map fun param => ⟨cStr param.name, param.data⟩) := by
  induction params with
  | nil => rfl
  | cons param params ih =>
      have first : param.data.Concrete := concrete param List.mem_cons_self
      have later := ih fun other member => concrete other (List.mem_cons_of_mem _ member)
      have head : valToParams unset (paramToVal .fresh param) =
          some [⟨cStr param.name, param.data⟩] := by
        rw [paramToVal_eq first]
        exact valToParams_eq (known_of_concrete first) unset _
      have tail : valsToParams unset (params.map (paramToVal .fresh)) =
          some (params.map fun param => ⟨cStr param.name, param.data⟩) := later
      simp [paramsToVals, valsToParams, head, tail]

/-- The holder gets the values of `paramsToVals`. -/
theorem paramsToValsHolder_eq {params : List YangParam}
    (known : ∀ param ∈ params, param.data ≠ .unknown) :
    paramsToValsHolder params = (true, paramsToVals params) := by
  induction params with
  | nil => rfl
  | cons param params ih =>
      have first : paramToValHolder .fresh param = some (paramToVal .fresh param) := by
        rw [paramToValHolder_eq, if_neg (known param List.mem_cons_self)]
      have later : paramsToValsHolder params = (true, paramsToVals params) :=
        ih fun other member => known other (List.mem_cons_of_mem _ member)
      simp [paramsToValsHolder, first, later, paramsToVals]

end SysrepoUtils

namespace YangParamSysrepo

theorem ofParam_eq (param : YangParam) : ofParam param = ⟨"", param.data⟩ := by
  rcases param with ⟨name, data⟩
  cases data <;> rfl

theorem newVal_eq {data : YangData} (concrete : data.Concrete) :
    newVal data = some ⟨none, data.toSr⟩ := by
  cases data with
  | unknown => exact absurd concrete id
  | string text => simp [newVal, YangData.toSr, (cStr_eq_iff text).mpr concrete]
  | binary text => simp [newVal, YangData.toSr, (cStr_eq_iff text).mpr concrete]
  | _ => rfl

/-- Through the constructor from a parameter the data come back, under
whatever name a value without an xpath has. -/
theorem readBack_eq (unset : Option String) {param : YangParam}
    (concrete : param.data.Concrete) :
    readBack unset param = unset.map fun xpath => ⟨xpath, param.data⟩ := by
  simp [readBack, ofParam_eq, getSysrepo, newVal_eq concrete, ofVal, YangData.toYang_toSr]

theorem readBack_eq_self_iff (unset : Option String) {param : YangParam}
    (concrete : param.data.Concrete) :
    readBack unset param = some param ↔ unset = some param.name := by
  rw [readBack_eq unset concrete]
  cases unset with
  | none => simp
  | some xpath =>
      rcases param with ⟨name, data⟩
      simp

end YangParamSysrepo

open SysrepoUtils YangParamSysrepo

/-- Nothing is lost between parameters and sysrepo values: the list comes back
from its values, the holder stores the same values, and each parameter comes
back by way of `YangParamSysrepo`. -/
def LosesNothing (unset : Option String) (params : List YangParam) : Prop :=
  valsToParams unset (paramsToVals params) = some params ∧
    paramsToValsHolder params = (true, paramsToVals params) ∧
    ∀ param ∈ params, readBack unset param = some param

theorem valsToParams_paramsToVals_iff (unset : Option String) {params : List YangParam}
    (concrete : ∀ param ∈ params, param.data.Concrete) :
    valsToParams unset (paramsToVals params) = some params ↔
      ∀ param ∈ params, '\x00' ∉ param.name.toList := by
  rw [valsToParams_paramsToVals unset concrete, Option.some_inj]
  have same : params.map (fun param => (⟨cStr param.name, param.data⟩ : YangParam)) = params ↔
      ∀ param ∈ params, (⟨cStr param.name, param.data⟩ : YangParam) = param := by
    simpa only [List.map_id, id] using
      (List.map_inj_left (l := params) (g := id)
        (f := fun param => (⟨cStr param.name, param.data⟩ : YangParam)))
  rw [same]
  refine forall₂_congr fun param _ => ?_
  rw [← cStr_eq_iff]
  rcases param with ⟨name, data⟩
  simp

/-- Nothing is lost exactly when each parameter is called what sysrepo calls a
value that was never given an xpath. -/
theorem losesNothing_iff (unset : Option String) {params : List YangParam}
    (concrete : ∀ param ∈ params, param.data.Concrete) :
    LosesNothing unset params ↔
      ∀ param ∈ params, unset = some param.name ∧ '\x00' ∉ param.name.toList := by
  have known : ∀ param ∈ params, param.data ≠ .unknown :=
    fun param member => known_of_concrete (concrete param member)
  have back : (∀ param ∈ params, readBack unset param = some param) ↔
      ∀ param ∈ params, unset = some param.name :=
    forall₂_congr fun param member => readBack_eq_self_iff unset (concrete param member)
  rw [LosesNothing, valsToParams_paramsToVals_iff unset concrete, back]
  constructor
  · rintro ⟨plain, -, unnamed⟩ param member
    exact ⟨unnamed param member, plain param member⟩
  · intro both
    exact ⟨fun param member => (both param member).2, paramsToValsHolder_eq known,
      fun param member => (both param member).1⟩

/-- The parameters of one record, by their paths. -/
def sampleParams : List YangParam :=
  [⟨"/ietf-interfaces:interfaces/interface/enabled", .bool true⟩,
    ⟨"/ietf-interfaces:interfaces/interface/description", .string "sfp"⟩]

theorem losesNothing_sampleParams :
    LosesNothing none sampleParams ↔
      ∀ param ∈ sampleParams, none = some param.name ∧ '\x00' ∉ param.name.toList :=
  losesNothing_iff none (by decide)

/-- One named parameter does not come back, with a null pointer or an empty
text for the missing xpath. -/
theorem name_is_left_behind :
    ¬ LosesNothing none [⟨"/m:interface/enabled", .bool true⟩] ∧
      ¬ LosesNothing (some "") [⟨"/m:interface/enabled", .bool true⟩] := by
  constructor
  · rintro ⟨-, -, back⟩
    have param := back _ List.mem_cons_self
    simp [readBack, ofParam, getSysrepo, newVal, ofVal] at param
  · rintro ⟨-, -, back⟩
    have param := back _ List.mem_cons_self
    simp [readBack, ofParam, getSysrepo, newVal, ofVal] at param

end OpenMplane
