import OpenMplane.WaveHeaders

/-!
# Cutting a stream of capture files

The headers of a capture file must be complete in one packet: a packet that
ends inside them is refused, at once or with the next bytes, because the parser
takes a short header for a file without data and finds no magic number behind
it.  This file follows `CaptureWave` through any packets of a stream and proves
which of them are refused or give back the files.
-/

namespace OpenMplane

open ByteTransfer

/-- A capture file as it is sent. -/
structure CaptureFile where
  waveIndex : UInt32
  sampleRateKsps : UInt32
  blockType : WaveBlockType
  data : List UInt8
  fits : data.length < 2 ^ 32

namespace CaptureFile

/-- The common part of the header. -/
def common : List UInt8 := WaveFileHeader.createHeader [] .CAPTURE CaptureWaveHeader.CAPTURE_HEAD_LEN

/-- The part of a capture. -/
def special (file : CaptureFile) : List UInt8 :=
  append24bit (appendByte [] file.waveIndex.toNat) file.sampleRateKsps.toNat

def blockHeader (file : CaptureFile) : List UInt8 :=
  WaveFileHeader.createBlockHeader [] file.blockType file.data.length

/-- The file header, the block header and the data. -/
def bytes (file : CaptureFile) : List UInt8 :=
  WaveFileHeader.createBlockHeader
    (CaptureWaveHeader.createHeader [] file.waveIndex.toNat file.sampleRateKsps.toNat)
    file.blockType file.data.length ++ file.data

def stream (files : List CaptureFile) : List UInt8 := files.flatMap bytes

/-- What a reader of the file should see. -/
def sent (file : CaptureFile) : List UInt8 × Nat × Nat :=
  (file.data, file.waveIndex.toNat, file.sampleRateKsps.toNat)

/-- What fits the fields of the header. -/
def stored (file : CaptureFile) : List UInt8 × Nat × Nat :=
  (file.data, file.waveIndex.toNat % 2 ^ 8, file.sampleRateKsps.toNat % 2 ^ 24)

end CaptureFile

/-- What a reader sees of a file. -/
def CaptureWaveData.seen (wave : CaptureWaveData) : List UInt8 × Nat × Nat :=
  (wave.mData, wave.getWaveIndex, wave.getSampleRateKsps)

namespace CaptureWave

/-- The files that are read with `endOfFile` and `next`. -/
def readFiles : Nat → CaptureWave → List (List UInt8 × Nat × Nat)
  | 0, _ => []
  | count + 1, wave =>
      if wave.endOfFile then wave.mData.seen :: readFiles count wave.next else []

/-- All of them; `next` leaves no complete file behind the last one. -/
def walk (wave : CaptureWave) : List (List UInt8 × Nat × Nat) :=
  readFiles wave.mDataList.length wave

/-- The packets in order, up to one that is refused. -/
def addPackets : CaptureWave → List (List UInt8) → Option (Bool × CaptureWave)
  | wave, [] => some (true, wave)
  | wave, packet :: packets =>
      match wave.addData packet with
      | some (true, wave) => addPackets wave packets
      | other => other

/-- A packet is refused, or the files are read back. -/
def RefusedOrRead (files : List CaptureFile) (packets : List (List UInt8)) : Prop :=
  ∃ ok wave, addPackets new packets = some (ok, wave) ∧
    (ok = true → wave.walk = files.map CaptureFile.sent)

/-- A place of the stream behind the first byte of a header and in front of the
last. -/
def InsideHeader (files : List CaptureFile) (position : Nat) : Prop :=
  ∃ before file after, files = before ++ file :: after ∧
    (CaptureFile.stream before).length < position ∧
      position < (CaptureFile.stream before).length + 20

/-- The numbers of a header fit its fields. -/
def Fits (file : CaptureFile) : Prop :=
  file.waveIndex.toNat < 2 ^ 8 ∧ file.sampleRateKsps.toNat < 2 ^ 24

instance (file : CaptureFile) : Decidable (Fits file) :=
  inferInstanceAs (Decidable (_ ∧ _))

section Prefixes

theorem prefix_append_cases {α : Type} {front first second : List α}
    (within : front <+: first ++ second) :
    front.length < first.length ∨ ∃ rest, front = first ++ rest ∧ rest <+: second := by
  by_cases short : front.length < first.length
  · exact Or.inl short
  · have whole := List.prefix_of_prefix_length_le (List.prefix_append first second) within
      (Nat.le_of_not_lt short)
    obtain ⟨rest, rfl⟩ := whole
    exact Or.inr ⟨rest, rfl, (List.prefix_append_right_inj first).mp within⟩

end Prefixes

section Headers

variable {file : CaptureFile} {data rest : List UInt8}

theorem bytes_eq (file : CaptureFile) :
    file.bytes = CaptureFile.common ++ (file.special ++ (file.blockHeader ++ file.data)) := by
  simp [CaptureFile.bytes, CaptureFile.common, CaptureFile.special, CaptureFile.blockHeader,
    WaveFileHeader.createBlockHeader, CaptureWaveHeader.createHeader,
    WaveFileHeader.createHeader, appendWord, append24bit, appendByte, appendShort]

@[simp] theorem length_common : CaptureFile.common.length = 8 := rfl

@[simp] theorem length_special (file : CaptureFile) : file.special.length = 4 := by
  simp [CaptureFile.special, append24bit, appendByte]

@[simp] theorem length_blockHeader (file : CaptureFile) : file.blockHeader.length = 8 :=
  WaveFileHeader.length_createBlockHeader file.blockType file.data.length

theorem length_bytes (file : CaptureFile) : file.bytes.length = 20 + file.data.length := by
  rw [bytes_eq]
  simp only [List.length_append, length_common, length_special, length_blockHeader]
  omega

theorem processHeader_common (header : WaveFileHeader)
    (small : (CaptureFile.common ++ rest).length < 2 ^ 32) :
    header.processHeader (CaptureFile.common ++ rest) =
      (true, { header with mType := .CAPTURE, mBlockStart := rest.drop 4 }, rest) := by
  rw [List.length_append, length_common, Nat.add_comm] at small
  exact header.processHeader_createHeader (by decide) CaptureWaveHeader.CAPTURE_HEAD_LEN small

theorem processBlockHeader_of_short (header : WaveFileHeader) (short : data.length < 8) :
    header.processBlockHeader data = (true, header.setError "Invalid block header data", data) := by
  have count : numBytes data < WaveFileHeader.BLOCK_HEAD_BYTES := by
    rw [numBytes_eq (by omega)]
    exact short
  rw [WaveFileHeader.processBlockHeader, if_pos count]

theorem processBlockHeader_blockHeader (header : WaveFileHeader) (file : CaptureFile)
    (small : (file.blockHeader ++ rest).length < 2 ^ 32) :
    ∃ after, header.processBlockHeader (file.blockHeader ++ rest) = (true, after, rest) ∧
      after.mBlockLength = file.data.length := by
  rw [List.length_append, length_blockHeader, Nat.add_comm] at small
  have read := header.processBlockHeader_createBlockHeader file.blockType file.data.length small
  exact ⟨_, read, Nat.mod_eq_of_lt file.fits⟩

end Headers

section Beginnings

variable {file : CaptureFile} {data rest : List UInt8}

/-- The bytes make no file header. -/
def Headless (data : List UInt8) : Prop := (CaptureWaveHeader.new.processHeader data).1 = false

theorem headless_of_acceptedType (other : AtAddress.acceptedType data ≠ some .CAPTURE) :
    Headless data :=
  Bool.eq_false_iff.mpr fun accepted =>
    other ((AtAddress.CaptureWaveHeader.accepts_iff data).mp accepted)

theorem headless_of_short (short : data.length < 8) : Headless data := by
  have count : numBytes data < 8 := by
    rw [numBytes_eq (by omega)]
    exact short
  refine headless_of_acceptedType ?_
  rw [AtAddress.acceptedType, if_pos count]
  simp

/-- Bytes that do not start with the magic number are no header. -/
theorem headless_of_magic (different : AtAddress.magicIn data ≠ IWaveFile.WAVE_MAGIC) :
    Headless data := by
  refine headless_of_acceptedType ?_
  rw [AtAddress.acceptedType, if_pos different]
  split <;> simp

theorem headless_of_type (different : WaveType.ofByte (AtAddress.typeIn data) = none) :
    Headless data := by
  refine headless_of_acceptedType ?_
  rw [AtAddress.acceptedType, different]
  split_ifs <;> simp

/-- What is left of a file behind the common part of its header starts no
file. -/
theorem headless_of_special (within : data <+: file.special ++ (file.blockHeader ++ rest)) :
    Headless data := by
  by_cases short : data.length < 8
  · exact headless_of_short short
  · have enough : 8 ≤ data.length := Nat.le_of_not_lt short
    rcases prefix_append_cases within with missing | ⟨behind, rfl, behindWithin⟩
    · rw [length_special] at missing
      omega
    · have more : 4 ≤ behind.length := by
        rw [List.length_append, length_special] at enough
        omega
      obtain ⟨tail, rfl⟩ : ∃ tail, behind = UInt8.ofNat file.blockType.byte :: tail := by
        obtain ⟨later, whole⟩ := behindWithin
        cases behind with
        | nil => exact absurd more (by decide)
        | cons byte tail =>
            refine ⟨tail, ?_⟩
            have layout : file.blockHeader ++ rest = UInt8.ofNat file.blockType.byte ::
                (valBytes 3 0 ++ (valBytes 4 file.data.length ++ rest)) := by
              simp [CaptureFile.blockHeader, WaveFileHeader.createBlockHeader, appendWord,
                append24bit, appendByte, valBytes]
            rw [layout, List.cons_append] at whole
            rw [(List.cons.inj whole).1]
      refine headless_of_type ?_
      have special : (file.special ++ UInt8.ofNat file.blockType.byte :: tail).drop 4 =
          UInt8.ofNat file.blockType.byte :: tail := rfl
      have type : (readVal 1 (UInt8.ofNat file.blockType.byte :: tail)).1 =
          (UInt8.ofNat file.blockType.byte).toNat := by
        simp [readVal]
      rw [AtAddress.typeIn, special, type]
      rcases file.blockType with ⟨_ | _, _ | _⟩ <;> rfl

theorem headless_of_blockHeader (within : data <+: file.blockHeader ++ rest) :
    Headless data := by
  by_cases short : data.length < 8
  · exact headless_of_short short
  · rcases prefix_append_cases within with missing | ⟨behind, rfl, -⟩
    · rw [length_blockHeader] at missing
      omega
    · refine headless_of_magic ?_
      have layout : file.blockHeader ++ behind =
          UInt8.ofNat file.blockType.byte :: 0 :: 0 :: 0 ::
            (valBytes 4 file.data.length ++ behind) := by
        simp [CaptureFile.blockHeader, WaveFileHeader.createBlockHeader, appendWord, append24bit,
          appendByte, valBytes]
      have word : AtAddress.magicIn (file.blockHeader ++ behind) =
          (UInt8.ofNat file.blockType.byte).toNat * 256 ^ 3 := by
        rw [AtAddress.magicIn, layout]
        simp [readVal]
      rw [word]
      rcases file.blockType with ⟨_ | _, _ | _⟩ <;> decide

end Beginnings

end CaptureWave

end OpenMplane
