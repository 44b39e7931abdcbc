import OpenMplane.ByteTransfer

/-!
# Capture files

Capture files arrive as one stream of bytes, cut into packets.  Each consists
of a file header, a block header with the length of the data, and the data.
This file models the headers and `CaptureWave`, which takes the packets apart
into a list of files that is read with `endOfFile` and `next`.
-/

namespace OpenMplane

open ByteTransfer

/-- `mError += error` on a new line. -/
def addError (mError error : String) : String :=
  (if mError ≠ "" then mError ++ "\n" else mError) ++ error

/-- The branch of `if (!ok) return false` that goes on. -/
theorem accepted : ¬ true = false := by decide

namespace IWaveFile

def WAVE_MAGIC : Nat := 0x57415645

end IWaveFile

/-- "File" contents type. -/
inductive WaveType
  | UNSET
  | PLAYBACK
  | CAPTURE
  deriving DecidableEq

namespace WaveType

def byte : WaveType → Nat
  | .UNSET => 0
  | .PLAYBACK => 0x42
  | .CAPTURE => 0x43

/-- `checkType` and the cast behind it. -/
def ofByte (type : Nat) : Option WaveType :=
  if type = CAPTURE.byte then some .CAPTURE
  else if type = PLAYBACK.byte then some .PLAYBACK
  else none

end WaveType

/-- Wave block data type, by its bits. -/
structure WaveBlockType where
  compressed : Bool
  encrypted : Bool
  deriving DecidableEq

namespace WaveBlockType

def byte (type : WaveBlockType) : Nat :=
  (if type.compressed then 1 else 0) + (if type.encrypted then 2 else 0)

def ofByte (type : Nat) : WaveBlockType := ⟨type.testBit 0, type.testBit 1⟩

def RAW : WaveBlockType := ⟨false, false⟩

end WaveBlockType

/-- The members of `WaveFileHeader`; an iterator is the data from there on. -/
structure WaveFileHeader where
  mError : String
  mType : WaveType
  mBlockStart : List UInt8
  mBlockType : WaveBlockType
  mBlockLength : Nat

namespace WaveFileHeader

def HEADER_VER : Nat := 0x01

def HEAD_BYTES : Nat := 8

def BLOCK_HEAD_BYTES : Nat := 8

def new : WaveFileHeader := ⟨"", .UNSET, [], .RAW, 0⟩

def setError (header : WaveFileHeader) (error : String) : WaveFileHeader :=
  { header with mError := addError header.mError error }

/-- `WaveFileHeader::processHeader`: its result, the header and where the data
goes on.  Too few bytes are no failure. -/
def processHeader (header : WaveFileHeader) (data : List UInt8) :
    Bool × WaveFileHeader × List UInt8 :=
  if numBytes data < HEAD_BYTES then (true, header.setError "Invalid header data", data)
  else
    let (magic, data) := readWord data
    if magic ≠ IWaveFile.WAVE_MAGIC then
      (false, header.setError "Invalid wave data (not valid magic)", data)
    else
      let (dataType, data) := readByte data
      let (_headVer, data) := readByte data
      let (headLen, data) := readShort data
      match WaveType.ofByte dataType with
      | none => (false, header, data)
      | some type => (true, { header with mType := type, mBlockStart := data.drop headLen }, data)

/-- `WaveFileHeader::processBlockHeader`; every block type is accepted, and too
few bytes are no failure. -/
def processBlockHeader (header : WaveFileHeader) (data : List UInt8) :
    Bool × WaveFileHeader × List UInt8 :=
  if numBytes data < BLOCK_HEAD_BYTES then
    (true, header.setError "Invalid block header data", data)
  else
    let (type, data) := readByte data
    let (_unused, data) := read24bit data
    let (blockLength, data) := readWord data
    (true, { header with mBlockType := .ofByte type, mBlockLength := blockLength }, data)

def createHeader (data : List UInt8) (type : WaveType) (headerLenDelta : Nat) : List UInt8 :=
  appendShort (appendByte (appendByte (appendWord data IWaveFile.WAVE_MAGIC) type.byte)
    HEADER_VER) headerLenDelta

def createBlockHeader (data : List UInt8) (type : WaveBlockType) (blockLen : Nat) : List UInt8 :=
  appendWord (append24bit (appendByte data type.byte) 0) blockLen

theorem createBlockHeader_eq (data : List UInt8) (type : WaveBlockType) (blockLen : Nat) :
    createBlockHeader data type blockLen = data ++ createBlockHeader [] type blockLen := by
  simp [createBlockHeader, appendWord, append24bit, appendByte]

@[simp] theorem length_createHeader (type : WaveType) (headerLenDelta : Nat) :
    (createHeader [] type headerLenDelta).length = 8 := by
  simp [createHeader, appendWord, appendByte, appendShort]

@[simp] theorem length_createBlockHeader (type : WaveBlockType) (blockLen : Nat) :
    (createBlockHeader [] type blockLen).length = 8 := by
  simp [createBlockHeader, appendWord, append24bit, appendByte]

theorem processHeader_createHeader (header : WaveFileHeader) {type : WaveType}
    (known : type ≠ .UNSET) (headerLenDelta : Nat) {rest : List UInt8}
    (small : rest.length + 8 < 2 ^ 32) :
    header.processHeader (createHeader [] type headerLenDelta ++ rest) =
      (true, { header with mType := type, mBlockStart := rest.drop (headerLenDelta % 2 ^ 16) },
        rest) := by
  have count : ¬ numBytes (createHeader [] type headerLenDelta ++ rest) < HEAD_BYTES := by
    have size : (createHeader [] type headerLenDelta ++ rest).length = 8 + rest.length := by
      rw [List.length_append, length_createHeader]
    rw [numBytes_eq (by omega), size, HEAD_BYTES]
    omega
  have layout : createHeader [] type headerLenDelta ++ rest = valBytes 4 IWaveFile.WAVE_MAGIC ++
      (valBytes 1 type.byte ++ (valBytes 1 HEADER_VER ++ (valBytes 2 headerLenDelta ++ rest))) := by
    simp [createHeader, appendWord, appendByte, appendShort]
  have byte : WaveType.ofByte (type.byte % 256 ^ 1) = some type := by
    cases type with
    | UNSET => exact absurd rfl known
    | PLAYBACK => rfl
    | CAPTURE => rfl
  rw [processHeader, if_neg count, layout, readWord, readVal_valBytes]
  dsimp only
  rw [readByte, readVal_valBytes, readByte, readVal_valBytes, readShort, readVal_valBytes]
  have short : 256 ^ 2 = 2 ^ 16 := by decide
  dsimp only
  rw [if_neg (by decide), byte, short]

theorem processBlockHeader_createBlockHeader (header : WaveFileHeader) (type : WaveBlockType)
    (blockLen : Nat) {rest : List UInt8} (small : rest.length + 8 < 2 ^ 32) :
    header.processBlockHeader (createBlockHeader [] type blockLen ++ rest) =
      (true, { header with mBlockType := type, mBlockLength := blockLen % 2 ^ 32 }, rest) := by
  have count : ¬ numBytes (createBlockHeader [] type blockLen ++ rest) < BLOCK_HEAD_BYTES := by
    have size : (createBlockHeader [] type blockLen ++ rest).length = 8 + rest.length := by
      rw [List.length_append, length_createBlockHeader]
    rw [numBytes_eq (by omega), size, BLOCK_HEAD_BYTES]
    omega
  have layout : createBlockHeader [] type blockLen ++ rest = valBytes 1 type.byte ++
      (valBytes 3 0 ++ (valBytes 4 blockLen ++ rest)) := by
    simp [createBlockHeader, appendWord, append24bit, appendByte]
  have byte : WaveBlockType.ofByte (type.byte % 256 ^ 1) = type := by
    rcases type with ⟨_ | _, _ | _⟩ <;> rfl
  rw [processBlockHeader, if_neg count, layout, readByte, readVal_valBytes]
  dsimp only
  rw [read24bit, readVal_valBytes, readWord, readVal_valBytes, byte]
  rfl

end WaveFileHeader

structure CaptureWaveHeader extends WaveFileHeader where
  mWaveIndex : Nat
  mSampleRateKsps : Nat

namespace CaptureWaveHeader

def CAPTURE_HEAD_LEN : Nat := 4

def new : CaptureWaveHeader := ⟨.new, 0, 0⟩

def processHeader (header : CaptureWaveHeader) (data : List UInt8) :
    Bool × CaptureWaveHeader × List UInt8 :=
  let (ok, common, data) := header.toWaveFileHeader.processHeader data
  let header := { header with toWaveFileHeader := common }
  if ok = false then (false, header, data)
  else if common.mType ≠ .CAPTURE then
    (false, { header with toWaveFileHeader := common.setError "Not a capture file" }, data)
  else if numBytes data < CAPTURE_HEAD_LEN then
    (true, { header with toWaveFileHeader := common.setError "Invalid header data" }, data)
  else
    let (waveIndex, data) := readByte data
    let (sampleRateKsps, _) := read24bit data
    (true, { header with mWaveIndex := waveIndex, mSampleRateKsps := sampleRateKsps },
      common.mBlockStart)

def createHeader (data : List UInt8) (waveIndex sampleRateKsps : Nat) : List UInt8 :=
  append24bit (appendByte (WaveFileHeader.createHeader data .CAPTURE CAPTURE_HEAD_LEN) waveIndex)
    sampleRateKsps

end CaptureWaveHeader

/-- The members of `CaptureWaveData`. -/
structure CaptureWaveData where
  mError : String
  mDataLen : Nat
  mEof : Bool
  mHeader : Option CaptureWaveHeader
  mData : List UInt8

namespace CaptureWaveData

def new : CaptureWaveData := ⟨"", 0, false, none, []⟩

def setError (wave : CaptureWaveData) (error : String) : CaptureWaveData :=
  { wave with mError := addError wave.mError error }

/-- The header is kept and its error taken over, which clears it there. -/
def failed (wave : CaptureWaveData) (header : CaptureWaveHeader) : CaptureWaveData :=
  { wave with
    mHeader := some { header with mError := "" }
    mError := addError wave.mError header.mError }

/-- The first half of `CaptureWaveData::addData`: the headers. -/
def addHeader (wave : CaptureWaveData) (data : List UInt8) :
    Bool × CaptureWaveData × List UInt8 :=
  match wave.mHeader with
  | some _ => (true, wave, data)
  | none =>
      let (ok, header, data) := CaptureWaveHeader.new.processHeader data
      if ok = false then (false, wave.failed header, data)
      else
        let (ok, common, data) := header.toWaveFileHeader.processBlockHeader data
        let header := { header with toWaveFileHeader := common }
        if ok = false then (false, wave.failed header, data)
        else (true, { wave with mHeader := some header, mDataLen := common.mBlockLength }, data)

/-- The second half of `CaptureWaveData::addData`: the data behind them. -/
def insertData (wave : CaptureWaveData) (data : List UInt8) : CaptureWaveData × List UInt8 :=
  if numBytes data = 0 then (wave, data)
  else
    let (mData, rest) :=
      if wave.mData.length + numBytes data ≤ wave.mDataLen then (wave.mData ++ data, [])
      else (wave.mData ++ data.take (wave.mDataLen - wave.mData.length),
        data.drop (wave.mDataLen - wave.mData.length))
    ({ wave with mData := mData, mEof := wave.mEof || decide (wave.mDataLen ≤ mData.length) },
      rest)

/-- `CaptureWaveData::addData`: its result, the file and the data that is
left. -/
def addData (wave : CaptureWaveData) (data : List UInt8) : Bool × CaptureWaveData × List UInt8 :=
  if wave.mEof then
    (false, wave.setError "Attempt to add data when already at end of file", data)
  else
    let (ok, wave, data) := wave.addHeader data
    if ok = false then (false, wave, data)
    else
      let (wave, data) := wave.insertData data
      (true, wave, data)

def reset (_wave : CaptureWaveData) : CaptureWaveData := new

def getWaveIndex (wave : CaptureWaveData) : Nat :=
  match wave.mHeader with
  | none => 0
  | some header => header.mWaveIndex

def getSampleRateKsps (wave : CaptureWaveData) : Nat :=
  match wave.mHeader with
  | none => 0
  | some header => header.mSampleRateKsps

end CaptureWaveData

/-- `CaptureWave`: the list always has an entry, `back`, and those that came
before it. -/
structure CaptureWave where
  earlier : List CaptureWaveData
  back : CaptureWaveData

namespace CaptureWave

def new : CaptureWave := ⟨[], .new⟩

def mDataList (wave : CaptureWave) : List CaptureWaveData := wave.earlier ++ [wave.back]

/-- The first entry. -/
def mData (wave : CaptureWave) : CaptureWaveData := wave.earlier.headD wave.back

/-- The loop of `CaptureWave::addData` with a bound on its passes: its result
and the files, or nothing when it does not return. -/
def addDataLoop : Nat → CaptureWave → List UInt8 → Option (Bool × CaptureWave)
  | _, wave, [] => some (true, wave)
  | 0, _, _ :: _ => none
  | passes + 1, wave, byte :: data =>
      let (ok, current, rest) := wave.back.addData (byte :: data)
      if ok = false then some (false, ⟨wave.earlier, current⟩)
      else if current.mEof then addDataLoop passes ⟨wave.earlier ++ [current], .new⟩ rest
      else addDataLoop passes ⟨wave.earlier, current⟩ rest

/-- `CaptureWave::addData`.  A pass takes bytes, ends a file or leaves the loop
where it is for ever. -/
def addData (wave : CaptureWave) (data : List UInt8) : Option (Bool × CaptureWave) :=
  addDataLoop (2 * data.length + 2) wave data

def endOfFile (wave : CaptureWave) : Bool := wave.mData.mEof

def next (wave : CaptureWave) : CaptureWave :=
  match wave.earlier with
  | [] => ⟨[], wave.back.reset⟩
  | _ :: earlier => ⟨earlier, wave.back⟩

end CaptureWave

end OpenMplane
