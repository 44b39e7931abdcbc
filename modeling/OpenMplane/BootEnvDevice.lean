import OpenMplane.ByteTransfer
import OpenMplane.Crc
import OpenMplane.StdString
import OpenMplane.TerminatedStrings

/-!
# Boot environment devices

A `BootEnvDevice` keeps the variables of one bank of the boot environment.  The bank
starts with a checksum and, with flag support, the flag of the active bank; the rest
are the variables as terminated strings `name=value` up to an empty one.  This file
follows `read` and `write`, with the answers of the device driver as a parameter, and
says what a bank looks like that was written and what is read of one.
-/

namespace OpenMplane

open ListCut TerminatedStrings

namespace ByteTransfer

/-- A buffer of fixed size between its start and its end, and the place of the
iterator in it. -/
structure ByteIter where
  behind : List UInt8
  ahead : List UInt8

namespace ByteIter

def start (data : List UInt8) : ByteIter := ⟨[], data⟩

def data (place : ByteIter) : List UInt8 := place.behind ++ place.ahead

/-- `writeByte`; at the end of the buffer nothing is written. -/
def writeByte : ByteIter → UInt8 → ByteIter
  | ⟨behind, []⟩, _ => ⟨behind, []⟩
  | ⟨behind, _ :: ahead⟩, byteval => ⟨behind ++ [byteval], ahead⟩

def writeBytes (place : ByteIter) (bytes : List UInt8) : ByteIter :=
  bytes.foldl writeByte place

def writeWord (place : ByteIter) (word : Nat) : ByteIter :=
  place.writeBytes (valBytes 4 word)

def writeWordLE (place : ByteIter) (word : Nat) : ByteIter :=
  place.writeBytes (valBytesLE 4 word)

def writeString (place : ByteIter) (str : List UInt8) : ByteIter :=
  (place.writeBytes str).writeByte 0

/-- The bytes that are written are those that fit. -/
theorem writeBytes_eq (place : ByteIter) (bytes : List UInt8) :
    place.writeBytes bytes =
      ⟨place.behind ++ bytes.take place.ahead.length, place.ahead.drop bytes.length⟩ := by
  induction bytes generalizing place with
  | nil => simp [writeBytes]
  | cons byte bytes ih =>
      obtain ⟨behind, ahead⟩ := place
      have step : writeBytes ⟨behind, ahead⟩ (byte :: bytes) =
          writeBytes (writeByte ⟨behind, ahead⟩ byte) bytes := rfl
      rw [step, ih]
      cases ahead with
      | nil => simp [writeByte]
      | cons old ahead => simp [writeByte]

theorem writeBytes_append (place : ByteIter) (first second : List UInt8) :
    place.writeBytes (first ++ second) = (place.writeBytes first).writeBytes second :=
  List.foldl_append

theorem foldl_writeString {α : Type} (text : α → List UInt8) (entries : List α)
    (place : ByteIter) :
    entries.foldl (fun place entry => place.writeString (text entry)) place =
      place.writeBytes (layout 0 (entries.map text)) := by
  induction entries generalizing place with
  | nil => rfl
  | cons entry entries ih =>
      rw [List.foldl_cons, ih, List.map_cons, layout_cons, writeBytes_append]
      rfl

end ByteIter

end ByteTransfer

open ByteTransfer

/-- The variables of an environment: texts are rows of bytes. -/
abbrev EnvVars := Std.ExtTreeMap (List UInt8) (List UInt8)

/-- What a driver says of a flash device. -/
structure MtdInfo where
  size : Nat
  erasesize : Nat
  erasesize_pos : 0 < erasesize

/-- The answers of the driver to the calls of `write`: what a call returns, and what it
leaves of the contents of the device. -/
structure EnvDriver where
  strError : String
  opensToErase : Bool
  regionCount : Bool
  memInfo : Option MtdInfo
  eraseBlock : Nat → List UInt8 → Bool × List UInt8
  opensToWrite : Bool
  writeData : List UInt8 → List UInt8 → Int × List UInt8
  stores : ∀ data contents, (data.length : Int) ≤ (writeData data contents).1 →
    (writeData data contents).2.take data.length = data

/-- The answer to the calls of `read`. -/
inductive ReadAnswer
  | unopened (strError : String)
  | failed (strError : String)
  | bytes (data : List UInt8)

structure BootEnvDevice where
  mFlagSupported : Bool
  mEnvSize : Nat
  mValid : Bool
  mIndex : Nat
  mDevName : String
  mActive : Bool
  mEnv : EnvVars
  mError : String

namespace BootEnvDevice

def setError (device : BootEnvDevice) (error : String) : BootEnvDevice :=
  { device with
    mError := (if device.mError = "" then "" else device.mError ++ "\n") ++ error }

def setActiveFlag (device : BootEnvDevice) (active : Bool) : BootEnvDevice :=
  { device with mActive := active }

def resetVars (device : BootEnvDevice) (vars : EnvVars) : BootEnvDevice :=
  { device with mEnv := vars }

/-- Where the data starts that the checksum is of. -/
def dataOffset (device : BootEnvDevice) : Nat :=
  4 + if device.mFlagSupported then 1 else 0

/-- A string `name=value` of the environment; any other string is passed over. -/
def addVar (env : EnvVars) (envStr : List UInt8) : EnvVars :=
  match cutFirst 0x3d envStr with
  | none => env
  | some (name, value) => env.insert name value

/-- What `read` makes of all the bytes of the bank. -/
def readData (device : BootEnvDevice) (data : List UInt8) : BootEnvDevice :=
  let (crc, data') := readWordLE data
  let crcReal := Crc32.calcCrc (data.drop device.dataOffset)
  let (mActive, data'') :=
    if device.mFlagSupported then
      let (flag, data'') := readByte data'
      (decide (0 < flag), data'')
    else (true, data')
  { device with
    mValid := decide (crc = crcReal.toNat)
    mActive := mActive
    mEnv := (readStrings 0 data'').foldl addVar device.mEnv }

def read (device : BootEnvDevice) : ReadAnswer → Bool × BootEnvDevice
  | .unopened strError =>
      (false, device.setError ("Unable to open device " ++ device.mDevName ++ " " ++ strError))
  | .failed strError =>
      (false, device.setError
        ("Error reading environment from device " ++ device.mDevName ++ " " ++ strError))
  | .bytes data =>
      if data.length < device.mEnvSize then
        (false, device.setError
          ("Failed to read complete environment from device " ++ device.mDevName))
      else (true, device.readData (data.take device.mEnvSize))

/-- The constructor; what `read` returns takes the place of what it found of the
checksum. -/
def new (index : Nat) (devName : String) (flagSupported : Bool) (envSize : Nat)
    (answer : ReadAnswer) : BootEnvDevice :=
  let device : BootEnvDevice := ⟨flagSupported, envSize, false, index, devName, false, ∅, ""⟩
  let (mValid, device) := device.read answer
  { device with mValid := mValid }

/-- The string of a variable. -/
def envStr (entry : List UInt8 × List UInt8) : List UInt8 :=
  entry.1 ++ 0x3d :: entry.2

/-- The data that `write` prepares. -/
def writtenData (device : BootEnvDevice) : List UInt8 :=
  let dataStart := ByteIter.start (List.replicate device.mEnvSize 0xff)
  let dataStart := dataStart.writeWord 0xffffffff
  let dataStart :=
    if device.mFlagSupported then dataStart.writeByte (if device.mActive then 0x01 else 0x00)
    else dataStart
  let dataStart := device.mEnv.toList.foldl
    (fun place entry => place.writeString (envStr entry)) dataStart
  let dataStart := dataStart.writeByte 0x00
  let crc := Crc32.calcCrc (dataStart.data.drop device.dataOffset)
  ((ByteIter.start dataStart.data).writeWordLE crc.toNat).data

/-- How many blocks are erased; the count is an `int`. -/
def nerase (meminfo : MtdInfo) : Nat :=
  let blocks := meminfo.size / meminfo.erasesize
  if blocks < 2 ^ 31 then blocks else 0

/-- The loop of `eraseFlash`. -/
def eraseBlocks (driver : EnvDriver) : Nat → Nat → List UInt8 → Bool × List UInt8
  | 0, _, contents => (true, contents)
  | blocks + 1, pos, contents =>
      let (erased, contents) := driver.eraseBlock pos contents
      if erased then eraseBlocks driver blocks (pos + 1) contents else (false, contents)

/-- What a call leaves behind, and whether it erased or wrote any of the device. -/
structure Outcome where
  returned : Bool
  device : BootEnvDevice
  contents : List UInt8
  touched : Bool

def eraseFlash (device : BootEnvDevice) (driver : EnvDriver) (contents : List UInt8) : Outcome :=
  if driver.opensToErase = false then
    ⟨false, device.setError ("Unable to open device " ++ device.mDevName ++ " " ++
      driver.strError), contents, false⟩
  else if driver.regionCount = false then
    ⟨false, device.setError ("Failed to erase, unable to get region count " ++ driver.strError),
      contents, false⟩
  else
    match driver.memInfo with
    | none =>
        ⟨false, device.setError ("Failed to erase, unable to get region info " ++
          driver.strError), contents, false⟩
    | some meminfo =>
        let (erased, contents) := eraseBlocks driver (nerase meminfo) 0 contents
        ⟨erased, if erased then device else device.setError "Erase failed", contents,
          decide (0 < nerase meminfo)⟩

def write (device : BootEnvDevice) (driver : EnvDriver) (contents : List UInt8) : Outcome :=
  let data := device.writtenData
  let erased := device.eraseFlash driver contents
  if erased.returned = false then erased
  else if driver.opensToWrite = false then
    { erased with
      returned := false
      device := device.setError ("Unable to open device " ++ device.mDevName ++ " " ++
        driver.strError) }
  else
    let (written, contents) := driver.writeData data erased.contents
    if written < 0 then
      ⟨false, device.setError ("Error writing environment to device " ++ device.mDevName ++ " " ++
        driver.strError), contents, true⟩
    else if written < data.length then
      ⟨false, device.setError ("Failed to write complete environment to device " ++
        device.mDevName), contents, true⟩
    else ⟨true, device, contents, true⟩

/-! ## What a written bank looks like -/

/-- The room for the variables. -/
def room (device : BootEnvDevice) : Nat :=
  device.mEnvSize - device.dataOffset

def flagBytes (device : BootEnvDevice) : List UInt8 :=
  if device.mFlagSupported then [if device.mActive then 0x01 else 0x00] else []

/-- The strings of an environment. -/
def envStrs (env : EnvVars) : List (List UInt8) :=
  env.toList.map envStr

/-- What fills the room: the strings and the extra terminator as far as they fit, and
the bytes of an erased device. -/
def envData (device : BootEnvDevice) : List UInt8 :=
  (layout 0 (envStrs device.mEnv) ++ [0]).take device.room ++
    List.replicate (device.room - (weight (envStrs device.mEnv) + 1)) 0xff

section Written

variable {device : BootEnvDevice}

theorem length_flagBytes (device : BootEnvDevice) :
    (valBytesLE 4 0 ++ device.flagBytes).length = device.dataOffset := by
  cases flag : device.mFlagSupported with
  | false => simp [flagBytes, dataOffset, flag]
  | true => simp [flagBytes, dataOffset, flag]

theorem length_envData (device : BootEnvDevice) : device.envData.length = device.room := by
  rw [envData, List.length_append, List.length_take, List.length_append, length_layout,
    List.length_replicate, List.length_singleton]
  omega

theorem writtenData_eq (sized : device.dataOffset ≤ device.mEnvSize) :
    device.writtenData =
      valBytesLE 4 (Crc32.calcCrc device.envData).toNat ++ (device.flagBytes ++ device.envData) := by
  have prepared : ∀ place : ByteIter,
      (device.mEnv.toList.foldl (fun place entry => place.writeString (envStr entry))
        place).writeByte 0 = place.writeBytes (layout 0 (envStrs device.mEnv) ++ [0]) := by
    intro place
    rw [ByteIter.foldl_writeString, ByteIter.writeBytes_append]
    rfl
  have flagged : ∀ place : ByteIter,
      (if device.mFlagSupported then place.writeByte (if device.mActive then 0x01 else 0x00)
        else place) = place.writeBytes device.flagBytes := by
    intro place
    cases flag : device.mFlagSupported with
    | false => simp [flagBytes, flag, ByteIter.writeBytes]
    | true => simp [flagBytes, flag, ByteIter.writeBytes]
  have header : ((ByteIter.start (List.replicate device.mEnvSize 0xff)).writeWord
      0xffffffff).writeBytes device.flagBytes =
        ⟨valBytes 4 0xffffffff ++ device.flagBytes, List.replicate device.room 0xff⟩ := by
    have lengths := length_flagBytes device
    rw [List.length_append, length_valBytesLE] at lengths
    rw [ByteIter.writeWord, ← ByteIter.writeBytes_append, ByteIter.writeBytes_eq]
    simp only [ByteIter.start, List.nil_append, List.length_replicate, List.drop_replicate]
    rw [List.take_of_length_le (by simp; omega), List.length_append, length_valBytes, lengths,
      room]
  have data : (ByteIter.writeBytes
      ⟨valBytes 4 0xffffffff ++ device.flagBytes, List.replicate device.room 0xff⟩
        (layout 0 (envStrs device.mEnv) ++ [0])).data =
          valBytes 4 0xffffffff ++ (device.flagBytes ++ device.envData) := by
    rw [ByteIter.writeBytes_eq, ByteIter.data, envData]
    simp
  have checked : (valBytes 4 0xffffffff ++ (device.flagBytes ++ device.envData)).drop
      device.dataOffset = device.envData := by
    rw [← List.append_assoc]
    refine List.drop_left' ?_
    rw [← length_flagBytes, List.length_append, List.length_append, length_valBytes,
      length_valBytesLE]
  have summed : ∀ word : Nat, ((ByteIter.start
      (valBytes 4 0xffffffff ++ (device.flagBytes ++ device.envData))).writeWordLE word).data =
        valBytesLE 4 word ++ (device.flagBytes ++ device.envData) := by
    intro word
    rw [ByteIter.writeWordLE, ByteIter.writeBytes_eq, ByteIter.data]
    simp only [ByteIter.start, List.nil_append, length_valBytesLE]
    rw [List.take_of_length_le (by simp), List.drop_left' (by simp)]
  unfold writtenData
  simp only [flagged, prepared]
  rw [header, data, checked, summed]

end Written

end BootEnvDevice

end OpenMplane
