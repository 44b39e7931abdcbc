import OpenMplane.PlaybackWave

/-!
# Wave headers in memory

The header classes read from a pair of iterators and move the first one to the
start of the blocks, by a length that stands in the header.  Here an iterator is
an address, so that it can also pass the end of the data or point into other
data.  This file has the three parsers on addresses, what they read in terms of
the bytes, and their agreement with the parsers that keep only the bytes.
-/

namespace OpenMplane
namespace AtAddress

open ByteTransfer

/-- The bytes between two iterators: where the first one points, and the bytes
from there to the end. -/
structure WaveDataRange where
  dataStart : Nat
  bytes : List UInt8

namespace WaveDataRange

/-- `ByteTransfer::readVal` moves the iterator behind the bytes it takes. -/
def readVal (count : Nat) (range : WaveDataRange) : Nat × WaveDataRange :=
  ((ByteTransfer.readVal count range.bytes).1,
    ⟨range.dataStart + min count range.bytes.length, range.bytes.drop count⟩)

/-- `count` times `push_back(readByte(..))`. -/
def readBytes : Nat → WaveDataRange → List UInt8 × WaveDataRange
  | 0, range => ([], range)
  | count + 1, range =>
      let (byte, range) := range.readVal 1
      let (bytes, range) := readBytes count range
      (UInt8.ofNat byte :: bytes, range)

theorem readVal_eq {count start : Nat} {bytes : List UInt8} (enough : count ≤ bytes.length) :
    readVal count ⟨start, bytes⟩ =
      ((ByteTransfer.readVal count bytes).1, ⟨start + count, bytes.drop count⟩) := by
  rw [readVal, Nat.min_eq_left enough]

theorem readBytes_fst {count start : Nat} {bytes : List UInt8} (enough : count ≤ bytes.length) :
    (readBytes count ⟨start, bytes⟩).1 = bytes.take count := by
  induction count generalizing start bytes with
  | zero => rfl
  | succ count ih =>
      cases bytes with
      | nil => simp at enough
      | cons byte bytes =>
          have later : count ≤ bytes.length := by
            rw [List.length_cons] at enough
            omega
          have one : readVal 1 ⟨start, byte :: bytes⟩ = (byte.toNat, ⟨start + 1, bytes⟩) := by
            rw [readVal_eq (by simp)]
            simp [ByteTransfer.readVal]
          rw [readBytes, one]
          dsimp only
          rw [ih later, UInt8.ofNat_toNat, List.take_succ_cons]

end WaveDataRange

/-- The members of `WaveFileHeader`; the block type is the byte that was cast
to it. -/
structure WaveFileHeader where
  mError : String
  mType : WaveType
  mBlockStart : Nat
  mBlockType : Nat
  mBlockLength : Nat

namespace WaveFileHeader

open OpenMplane.WaveFileHeader (HEAD_BYTES BLOCK_HEAD_BYTES)

def new : WaveFileHeader := ⟨"", .UNSET, 0, WaveBlockType.RAW.byte, 0⟩

def setError (header : WaveFileHeader) (error : String) : WaveFileHeader :=
  { header with mError := addError header.mError error }

/-- `WaveFileHeader::processHeader`: its result, the header and the iterators
behind the bytes that were read. -/
def processHeader (header : WaveFileHeader) (range : WaveDataRange) :
    Bool × WaveFileHeader × WaveDataRange :=
  if numBytes range.bytes < HEAD_BYTES then (true, header.setError "Invalid header data", range)
  else
    let (magic, range) := range.readVal 4
    if magic ≠ IWaveFile.WAVE_MAGIC then
      (false, header.setError "Invalid wave data (not valid magic)", range)
    else
      let (dataType, range) := range.readVal 1
      let (_headVer, range) := range.readVal 1
      let (headLen, range) := range.readVal 2
      match WaveType.ofByte dataType with
      | none => (false, header, range)
      | some type =>
          (true, { header with mType := type, mBlockStart := range.dataStart + headLen }, range)

/-- `WaveFileHeader::processBlockHeader`; `checkBlockType` returns true. -/
def processBlockHeader (header : WaveFileHeader) (range : WaveDataRange) :
    Bool × WaveFileHeader × WaveDataRange :=
  if numBytes range.bytes < BLOCK_HEAD_BYTES then
    (true, header.setError "Invalid block header data", range)
  else
    let (type, range) := range.readVal 1
    let (_unused, range) := range.readVal 3
    let (blockLength, range) := range.readVal 4
    (true, { header with mBlockType := type, mBlockLength := blockLength }, range)

end WaveFileHeader

/-- What a class adds to the common part: the type it is for and the error for
the others, the length of its part, and how its members are read. -/
structure Specific (σ : Type) where
  wanted : WaveType
  notWanted : String
  headLen : Nat
  read : WaveDataRange → σ

/-- `processHeader` of a class with a part of its own: its result, the common
members, its own members and where the first iterator points. -/
def Specific.processHeader {σ : Type} (kind : Specific σ) (header : WaveFileHeader) (own : σ)
    (range : WaveDataRange) : Bool × WaveFileHeader × σ × Nat :=
  let (ok, header, range) := header.processHeader range
  if ok = false then (false, header, own, range.dataStart)
  else if header.mType ≠ kind.wanted then
    (false, header.setError kind.notWanted, own, range.dataStart)
  else if numBytes range.bytes < kind.headLen then
    (true, header.setError "Invalid header data", own, range.dataStart)
  -- `skipHeader` takes the block start over as it is
  else (true, header, kind.read range, header.mBlockStart)

/-- The members `mWaveIndex` and `mSampleRateKsps`. -/
structure CaptureFields where
  mWaveIndex : Nat
  mSampleRateKsps : Nat
  deriving DecidableEq

namespace CaptureWaveHeader

open OpenMplane.CaptureWaveHeader (CAPTURE_HEAD_LEN)

/-- The part of a capture file. -/
def specific : Specific CaptureFields where
  wanted := .CAPTURE
  notWanted := "Not a capture file"
  headLen := CAPTURE_HEAD_LEN
  read := fun range =>
    let (waveIndex, range) := range.readVal 1
    let (sampleRateKsps, _) := range.readVal 3
    ⟨waveIndex, sampleRateKsps⟩

def new : CaptureFields := ⟨0, 0⟩

def processHeader (header : WaveFileHeader) (own : CaptureFields) (range : WaveDataRange) :
    Bool × WaveFileHeader × CaptureFields × Nat :=
  specific.processHeader header own range

end CaptureWaveHeader

namespace PlaybackWaveHeader

open OpenMplane.PlaybackWaveHeader (PLAYBACK_HEAD_LEN)

/-- The part of a playback file; the unused byte and the rate are read and
dropped. -/
def specific : Specific (List UInt8) where
  wanted := .PLAYBACK
  notWanted := "Not a playback file"
  headLen := PLAYBACK_HEAD_LEN
  read := fun range =>
    let (mSha1, range) := range.readBytes Sha1.SHA1_SIZE
    let (_unused, range) := range.readVal 1
    let (_rate, _) := range.readVal 3
    mSha1

def new : List UInt8 := List.replicate Sha1.SHA1_SIZE 0

def processHeader (header : WaveFileHeader) (own : List UInt8) (range : WaveDataRange) :
    Bool × WaveFileHeader × List UInt8 × Nat :=
  specific.processHeader header own range

end PlaybackWaveHeader

/-! ## What stands in the bytes -/

/-- The magic, the type and the length in the common part. -/
def magicIn (data : List UInt8) : Nat := (readVal 4 data).1

def typeIn (data : List UInt8) : Nat := (readVal 1 (data.drop 4)).1

def lenIn (data : List UInt8) : Nat := (readVal 2 (data.drop 6)).1

/-- The type of a header whose common part is accepted. -/
def acceptedType (data : List UInt8) : Option WaveType :=
  if numBytes data < 8 then none
  else if magicIn data ≠ IWaveFile.WAVE_MAGIC then none
  else WaveType.ofByte (typeIn data)

theorem le_length_of_numBytes {data : List UInt8} {count : Nat} (enough : ¬ numBytes data < count) :
    count ≤ data.length := by
  have bound : numBytes data ≤ data.length := Nat.mod_le _ _
  omega

namespace WaveFileHeader

/-- Reading the common part is looking at its bytes. -/
theorem processHeader_eq (header : WaveFileHeader) (start : Nat) {data : List UInt8}
    (enough : ¬ numBytes data < 8) :
    header.processHeader ⟨start, data⟩ =
      if magicIn data ≠ IWaveFile.WAVE_MAGIC then
        (false, header.setError "Invalid wave data (not valid magic)", ⟨start + 4, data.drop 4⟩)
      else
        match WaveType.ofByte (typeIn data) with
        | none => (false, header, ⟨start + 8, data.drop 8⟩)
        | some type =>
            (true, { header with mType := type, mBlockStart := start + 8 + lenIn data },
              ⟨start + 8, data.drop 8⟩) := by
  have length : 8 ≤ data.length := le_length_of_numBytes enough
  have magic : WaveDataRange.readVal 4 ⟨start, data⟩ =
      (magicIn data, ⟨start + 4, data.drop 4⟩) :=
    WaveDataRange.readVal_eq (by omega)
  have type : WaveDataRange.readVal 1 ⟨start + 4, data.drop 4⟩ =
      (typeIn data, ⟨start + 5, data.drop 5⟩) := by
    rw [WaveDataRange.readVal_eq (by rw [List.length_drop]; omega), List.drop_drop]
    rfl
  have version : (WaveDataRange.readVal 1 ⟨start + 5, data.drop 5⟩).2 =
      ⟨start + 6, data.drop 6⟩ := by
    rw [WaveDataRange.readVal_eq (by rw [List.length_drop]; omega), List.drop_drop]
  have len : WaveDataRange.readVal 2 ⟨start + 6, data.drop 6⟩ =
      (lenIn data, ⟨start + 8, data.drop 8⟩) := by
    rw [WaveDataRange.readVal_eq (by rw [List.length_drop]; omega), List.drop_drop]
    rfl
  simp only [processHeader, OpenMplane.WaveFileHeader.HEAD_BYTES, if_neg enough, magic, type,
    version, len]

theorem processHeader_short (header : WaveFileHeader) {range : WaveDataRange}
    (short : numBytes range.bytes < 8) :
    header.processHeader range = (true, header.setError "Invalid header data", range) :=
  if_pos short

theorem processBlockHeader_eq (header : WaveFileHeader) (start : Nat) {data : List UInt8}
    (enough : ¬ numBytes data < 8) :
    header.processBlockHeader ⟨start, data⟩ =
      (true, { header with
        mBlockType := (readVal 1 data).1
        mBlockLength := (readVal 4 (data.drop 4)).1 }, ⟨start + 8, data.drop 8⟩) := by
  have length : 8 ≤ data.length := le_length_of_numBytes enough
  have type : WaveDataRange.readVal 1 ⟨start, data⟩ =
      ((readVal 1 data).1, ⟨start + 1, data.drop 1⟩) :=
    WaveDataRange.readVal_eq (by omega)
  have unused : (WaveDataRange.readVal 3 ⟨start + 1, data.drop 1⟩).2 =
      ⟨start + 4, data.drop 4⟩ := by
    rw [WaveDataRange.readVal_eq (by rw [List.length_drop]; omega), List.drop_drop]
  have len : WaveDataRange.readVal 4 ⟨start + 4, data.drop 4⟩ =
      ((readVal 4 (data.drop 4)).1, ⟨start + 8, data.drop 8⟩) := by
    rw [WaveDataRange.readVal_eq (by rw [List.length_drop]; omega), List.drop_drop]
  simp only [processBlockHeader, OpenMplane.WaveFileHeader.BLOCK_HEAD_BYTES, if_neg enough, type,
    unused, len]

/-- The three ways through the common part. -/
theorem processHeader_cases (header : WaveFileHeader) (start : Nat) (data : List UInt8) :
    (numBytes data < 8 ∧ acceptedType data = none ∧
      header.processHeader ⟨start, data⟩ =
        (true, header.setError "Invalid header data", ⟨start, data⟩)) ∨
    (8 ≤ numBytes data ∧ acceptedType data = none ∧
      ∃ error moved, moved ≤ 8 ∧ header.processHeader ⟨start, data⟩ =
        (false, { header with mError := error }, ⟨start + moved, data.drop moved⟩)) ∨
    (8 ≤ numBytes data ∧ ∃ type, acceptedType data = some type ∧
      header.processHeader ⟨start, data⟩ =
        (true, { header with mType := type, mBlockStart := start + 8 + lenIn data },
          ⟨start + 8, data.drop 8⟩)) := by
  by_cases short : numBytes data < 8
  · exact Or.inl ⟨short, if_pos short, processHeader_short header short⟩
  · have long : 8 ≤ numBytes data := by omega
    by_cases other : magicIn data ≠ IWaveFile.WAVE_MAGIC
    · have refused : acceptedType data = none := by
        rw [acceptedType, if_neg short, if_pos other]
      refine Or.inr (Or.inl ⟨long, refused,
        addError header.mError "Invalid wave data (not valid magic)", 4, by decide, ?_⟩)
      rw [processHeader_eq header start short, if_pos other]
      rfl
    · have accepted : acceptedType data = WaveType.ofByte (typeIn data) := by
        rw [acceptedType, if_neg short, if_neg other]
      have ran := processHeader_eq header start short
      rw [if_neg other] at ran
      cases type : WaveType.ofByte (typeIn data) with
      | none =>
          rw [type] at ran accepted
          exact Or.inr (Or.inl ⟨long, accepted, header.mError, 8, Nat.le_refl 8, ran⟩)
      | some type' =>
          rw [type] at ran accepted
          exact Or.inr (Or.inr ⟨long, type', accepted, ran⟩)

end WaveFileHeader

/-- A new object accepts a header when its common part is accepted with its type. -/
theorem Specific.accepts_iff {σ : Type} {kind : Specific σ} (typed : kind.wanted ≠ .UNSET)
    (own : σ) (range : WaveDataRange) :
    (kind.processHeader .new own range).1 = true ↔
      acceptedType range.bytes = some kind.wanted := by
  rcases range with ⟨start, data⟩
  unfold processHeader
  rcases WaveFileHeader.processHeader_cases .new start data with
    ⟨-, refused, ran⟩ | ⟨-, refused, error, moved, -, ran⟩ | ⟨-, type, accepted, ran⟩
  · have unset : (WaveFileHeader.new.setError "Invalid header data").mType ≠ kind.wanted :=
      Ne.symm typed
    rw [ran, refused]
    dsimp only
    rw [if_neg Bool.noConfusion, if_pos unset]
    simp
  · rw [ran, refused]
    simp
  · rw [ran, accepted]
    dsimp only
    rw [if_neg Bool.noConfusion]
    by_cases same : type = kind.wanted
    · rw [if_neg (not_not.mpr same), same]
      split <;> simp
    · rw [if_pos same]
      simp [same]

/-! ## The packets' view

`CaptureWave` and `PlaybackWave` hand over all bytes to the end of their data;
their model keeps those bytes instead of the iterators.  Both agree on what is
returned, on the members and on the bytes that are left. -/

/-- The same members, apart from the iterator. -/
structure Agrees (header : WaveFileHeader) (plain : OpenMplane.WaveFileHeader) : Prop where
  error : header.mError = plain.mError
  type : header.mType = plain.mType
  blockType : WaveBlockType.ofByte header.mBlockType = plain.mBlockType
  blockLength : header.mBlockLength = plain.mBlockLength

theorem Agrees.setError {header : WaveFileHeader} {plain : OpenMplane.WaveFileHeader}
    (agrees : Agrees header plain) (error : String) :
    Agrees (header.setError error) (plain.setError error) := by
  rcases agrees with ⟨errors, type, blockType, blockLength⟩
  refine ⟨?_, type, blockType, blockLength⟩
  rw [WaveFileHeader.setError, OpenMplane.WaveFileHeader.setError, errors]

theorem plainHeader_eq (plain : OpenMplane.WaveFileHeader) {data : List UInt8}
    (enough : ¬ numBytes data < 8) :
    plain.processHeader data =
      if magicIn data ≠ IWaveFile.WAVE_MAGIC then
        (false, plain.setError "Invalid wave data (not valid magic)", data.drop 4)
      else
        match WaveType.ofByte (typeIn data) with
        | none => (false, plain, data.drop 8)
        | some type =>
            (true, { plain with mType := type, mBlockStart := (data.drop 8).drop (lenIn data) },
              data.drop 8) := by
  simp only [OpenMplane.WaveFileHeader.processHeader, OpenMplane.WaveFileHeader.HEAD_BYTES,
    if_neg enough, readWord, readByte, readShort, readVal_snd, List.drop_drop]
  rfl

theorem processHeader_agrees {header : WaveFileHeader} {plain : OpenMplane.WaveFileHeader}
    (agrees : Agrees header plain) (range : WaveDataRange) :
    (header.processHeader range).1 = (plain.processHeader range.bytes).1 ∧
      Agrees (header.processHeader range).2.1 (plain.processHeader range.bytes).2.1 ∧
      (header.processHeader range).2.2.bytes = (plain.processHeader range.bytes).2.2 := by
  by_cases short : numBytes range.bytes < 8
  · have plainShort : plain.processHeader range.bytes =
        (true, plain.setError "Invalid header data", range.bytes) := if_pos short
    rw [WaveFileHeader.processHeader_short header short, plainShort]
    exact ⟨rfl, agrees.setError _, rfl⟩
  · rw [WaveFileHeader.processHeader_eq header range.dataStart short, plainHeader_eq plain short]
    by_cases other : magicIn range.bytes ≠ IWaveFile.WAVE_MAGIC
    · rw [if_pos other, if_pos other]
      exact ⟨rfl, agrees.setError _, rfl⟩
    · rw [if_neg other, if_neg other]
      cases WaveType.ofByte (typeIn range.bytes) with
      | none => exact ⟨rfl, agrees, rfl⟩
      | some type =>
          exact ⟨rfl, ⟨agrees.error, rfl, agrees.blockType, agrees.blockLength⟩, rfl⟩

theorem processBlockHeader_agrees {header : WaveFileHeader} {plain : OpenMplane.WaveFileHeader}
    (agrees : Agrees header plain) (range : WaveDataRange) :
    (header.processBlockHeader range).1 = (plain.processBlockHeader range.bytes).1 ∧
      Agrees (header.processBlockHeader range).2.1 (plain.processBlockHeader range.bytes).2.1 ∧
      (header.processBlockHeader range).2.2.bytes =
        (plain.processBlockHeader range.bytes).2.2 := by
  by_cases short : numBytes range.bytes < 8
  · have plainShort : plain.processBlockHeader range.bytes =
        (true, plain.setError "Invalid block header data", range.bytes) := if_pos short
    have addressed : header.processBlockHeader range =
        (true, header.setError "Invalid block header data", range) := if_pos short
    rw [addressed, plainShort]
    exact ⟨rfl, agrees.setError _, rfl⟩
  · have plainLong : plain.processBlockHeader range.bytes =
        (true, { plain with
          mBlockType := .ofByte (readVal 1 range.bytes).1
          mBlockLength := (readVal 4 (range.bytes.drop 4)).1 }, range.bytes.drop 8) := by
      simp only [OpenMplane.WaveFileHeader.processBlockHeader,
        OpenMplane.WaveFileHeader.BLOCK_HEAD_BYTES, if_neg short, readWord, readByte, read24bit,
        readVal_snd, List.drop_drop]
    rw [WaveFileHeader.processBlockHeader_eq header range.dataStart short, plainLong]
    exact ⟨rfl, ⟨agrees.error, agrees.type, rfl, rfl⟩, rfl⟩

namespace CaptureWaveHeader

theorem processHeader_agrees {header : WaveFileHeader} {own : CaptureFields}
    {plain : OpenMplane.CaptureWaveHeader} (agrees : Agrees header plain.toWaveFileHeader)
    (waveIndex : own.mWaveIndex = plain.mWaveIndex)
    (sampleRate : own.mSampleRateKsps = plain.mSampleRateKsps) (range : WaveDataRange) :
    (processHeader header own range).1 = (plain.processHeader range.bytes).1 ∧
      Agrees (processHeader header own range).2.1
        (plain.processHeader range.bytes).2.1.toWaveFileHeader ∧
      (processHeader header own range).2.2.1.mWaveIndex =
        (plain.processHeader range.bytes).2.1.mWaveIndex ∧
      (processHeader header own range).2.2.1.mSampleRateKsps =
        (plain.processHeader range.bytes).2.1.mSampleRateKsps := by
  obtain ⟨sameOk, common, bytes⟩ := AtAddress.processHeader_agrees agrees range
  have unfolded : processHeader header own range =
      (let (ok, after, rest) := header.processHeader range
      if ok = false then (false, after, own, rest.dataStart)
      else if after.mType ≠ .CAPTURE then
        (false, after.setError "Not a capture file", own, rest.dataStart)
      else if numBytes rest.bytes < OpenMplane.CaptureWaveHeader.CAPTURE_HEAD_LEN then
        (true, after.setError "Invalid header data", own, rest.dataStart)
      else (true, after, specific.read rest, after.mBlockStart)) := rfl
  rw [unfolded, OpenMplane.CaptureWaveHeader.processHeader]
  generalize header.processHeader range = result at *
  generalize plain.toWaveFileHeader.processHeader range.bytes = plainResult at *
  rcases result with ⟨ok, after, rest⟩
  rcases plainResult with ⟨plainOk, plainAfter, plainRest⟩
  obtain rfl : ok = plainOk := sameOk
  obtain rfl : rest.bytes = plainRest := bytes
  have type : after.mType = plainAfter.mType := common.type
  dsimp only
  rw [type]
  by_cases failed : ok = false
  · rw [if_pos failed, if_pos failed]
    exact ⟨rfl, common, waveIndex, sampleRate⟩
  · rw [if_neg failed, if_neg failed]
    by_cases other : plainAfter.mType ≠ .CAPTURE
    · rw [if_pos other, if_pos other]
      exact ⟨rfl, common.setError _, waveIndex, sampleRate⟩
    · rw [if_neg other, if_neg other]
      by_cases short : numBytes rest.bytes < OpenMplane.CaptureWaveHeader.CAPTURE_HEAD_LEN
      · rw [if_pos short, if_pos short]
        exact ⟨rfl, common.setError _, waveIndex, sampleRate⟩
      · rw [if_neg short, if_neg short]
        refine ⟨rfl, common, rfl, ?_⟩
        simp only [specific, WaveDataRange.readVal, readByte, read24bit, readVal_snd]

/-- A new object of the packets' view accepts the same bytes. -/
theorem accepts_iff (data : List UInt8) :
    (OpenMplane.CaptureWaveHeader.new.processHeader data).1 = true ↔
      acceptedType data = some .CAPTURE := by
  have agree := @processHeader_agrees .new new OpenMplane.CaptureWaveHeader.new
    ⟨rfl, rfl, rfl, rfl⟩ rfl rfl ⟨0, data⟩
  rw [← agree.1]
  exact Specific.accepts_iff (by decide) new ⟨0, data⟩

end CaptureWaveHeader

namespace PlaybackWaveHeader

theorem processHeader_agrees {header : WaveFileHeader} {own : List UInt8}
    {plain : OpenMplane.PlaybackWaveHeader} (agrees : Agrees header plain.toWaveFileHeader)
    (mSha1 : own = plain.mSha1) (range : WaveDataRange) :
    (processHeader header own range).1 = (plain.processHeader range.bytes).1 ∧
      Agrees (processHeader header own range).2.1
        (plain.processHeader range.bytes).2.toWaveFileHeader ∧
      (processHeader header own range).2.2.1 = (plain.processHeader range.bytes).2.mSha1 := by
  obtain ⟨sameOk, common, bytes⟩ := AtAddress.processHeader_agrees agrees range
  have unfolded : processHeader header own range =
      (let (ok, after, rest) := header.processHeader range
      if ok = false then (false, after, own, rest.dataStart)
      else if after.mType ≠ .PLAYBACK then
        (false, after.setError "Not a playback file", own, rest.dataStart)
      else if numBytes rest.bytes < OpenMplane.PlaybackWaveHeader.PLAYBACK_HEAD_LEN then
        (true, after.setError "Invalid header data", own, rest.dataStart)
      else (true, after, (rest.readBytes Sha1.SHA1_SIZE).1, after.mBlockStart)) := rfl
  rw [unfolded, OpenMplane.PlaybackWaveHeader.processHeader]
  generalize header.processHeader range = result at *
  generalize plain.toWaveFileHeader.processHeader range.bytes = plainResult at *
  rcases result with ⟨ok, after, rest⟩
  rcases plainResult with ⟨plainOk, plainAfter, plainRest⟩
  obtain rfl : ok = plainOk := sameOk
  obtain rfl : rest.bytes = plainRest := bytes
  have type : after.mType = plainAfter.mType := common.type
  dsimp only
  rw [type]
  by_cases failed : ok = false
  · rw [if_pos failed, if_pos failed]
    exact ⟨rfl, common, mSha1⟩
  · rw [if_neg failed, if_neg failed]
    by_cases other : plainAfter.mType ≠ .PLAYBACK
    · rw [if_pos other, if_pos other]
      exact ⟨rfl, common.setError _, mSha1⟩
    · rw [if_neg other, if_neg other]
      by_cases short : numBytes rest.bytes < OpenMplane.PlaybackWaveHeader.PLAYBACK_HEAD_LEN
      · rw [if_pos short, if_pos short]
        exact ⟨rfl, common.setError _, mSha1⟩
      · rw [if_neg short, if_neg short]
        have long : OpenMplane.PlaybackWaveHeader.PLAYBACK_HEAD_LEN ≤ rest.bytes.length :=
          le_length_of_numBytes short
        have enough : Sha1.SHA1_SIZE ≤ rest.bytes.length :=
          Nat.le_trans (by decide) long
        exact ⟨rfl, common, WaveDataRange.readBytes_fst enough⟩

/-- A new object of the packets' view accepts the same bytes. -/
theorem accepts_iff (data : List UInt8) :
    (OpenMplane.PlaybackWaveHeader.new.processHeader data).1 = true ↔
      acceptedType data = some .PLAYBACK := by
  have agree := @processHeader_agrees .new new OpenMplane.PlaybackWaveHeader.new
    ⟨rfl, rfl, rfl, rfl⟩ rfl ⟨0, data⟩
  rw [← agree.1]
  exact Specific.accepts_iff (by decide) new ⟨0, data⟩

end PlaybackWaveHeader

end AtAddress
end OpenMplane
