import OpenMplane.CaptureWaveStream

/-!
# Capture files from packets

The state of `CaptureWave` between two packets of a stream: between two files,
within the data of one, or behind a header that was cut short.  Each packet
leads from one of them to the next, and only a header that was cut short is
refused.
-/

namespace OpenMplane

open ByteTransfer

namespace CaptureWave

/-- A file that was read to its end. -/
structure Complete (file : CaptureFile) (wave : CaptureWaveData) : Prop where
  ended : wave.mEof = true
  seen : wave.seen = file.stored

/-- A file of which the header was read, and the front of the data. -/
structure Partial (file : CaptureFile) (front : List UInt8) (wave : CaptureWaveData) : Prop where
  goesOn : wave.mEof = false
  headed : wave.mHeader.isSome = true
  length : wave.mDataLen = file.data.length
  data : wave.mData = front
  numbers : (wave.getWaveIndex, wave.getSampleRateKsps) = file.stored.2

/-- A file whose header was cut short. -/
structure Doomed (wave : CaptureWaveData) : Prop where
  goesOn : wave.mEof = false
  headed : wave.mHeader.isSome = true
  length : wave.mDataLen = 0
  data : wave.mData = []

section Headers

variable {file : CaptureFile} {data rest : List UInt8}

theorem addData_new_of_headless (headless : Headless data) :
    (CaptureWaveData.new.addData data).1 = false := by
  have read : (CaptureWaveHeader.new.processHeader data).1 = false := headless
  have refused : (CaptureWaveData.new.addHeader data).1 = false := by
    have none : CaptureWaveData.new.mHeader = none := rfl
    rw [CaptureWaveData.addHeader, none]
    dsimp only
    rw [if_pos read]
  have open_ : ¬ CaptureWaveData.new.mEof = true := by decide
  rw [CaptureWaveData.addData, if_neg open_]
  dsimp only
  rw [if_pos refused]

theorem processHeader_special_of_short (short : rest.length < 4) :
    ∃ header, CaptureWaveHeader.new.processHeader (CaptureFile.common ++ rest) =
        (true, header, rest) ∧ header.mBlockLength = 0 := by
  have small : (CaptureFile.common ++ rest).length < 2 ^ 32 := by
    rw [List.length_append, length_common]
    omega
  have count : numBytes rest < CaptureWaveHeader.CAPTURE_HEAD_LEN := by
    rw [numBytes_eq (by omega)]
    exact short
  have capture : ¬ WaveType.CAPTURE ≠ WaveType.CAPTURE := not_not_intro rfl
  rw [CaptureWaveHeader.processHeader, processHeader_common _ small]
  dsimp only
  rw [if_neg accepted, if_neg capture, if_pos count]
  exact ⟨_, rfl, rfl⟩

theorem processHeader_special
    (small : (CaptureFile.common ++ (file.special ++ rest)).length < 2 ^ 32) :
    ∃ header, CaptureWaveHeader.new.processHeader (CaptureFile.common ++ (file.special ++ rest)) =
        (true, header, rest) ∧
      header.mBlockLength = 0 ∧ (header.mWaveIndex, header.mSampleRateKsps) = file.stored.2 := by
  have count : ¬ numBytes (file.special ++ rest) < CaptureWaveHeader.CAPTURE_HEAD_LEN := by
    have fewer : (file.special ++ rest).length < 2 ^ 32 := by
      rw [List.length_append] at small
      omega
    rw [numBytes_eq fewer]
    simp [CaptureWaveHeader.CAPTURE_HEAD_LEN]
  have layout : file.special ++ rest = valBytes 1 file.waveIndex.toNat ++
      (valBytes 3 file.sampleRateKsps.toNat ++ rest) := by
    simp [CaptureFile.special, append24bit, appendByte]
  have behind : (file.special ++ rest).drop 4 = rest := by
    rw [List.drop_left' (length_special file)]
  have capture : ¬ WaveType.CAPTURE ≠ WaveType.CAPTURE := not_not_intro rfl
  rw [CaptureWaveHeader.processHeader, processHeader_common _ small]
  dsimp only
  rw [if_neg accepted, if_neg capture, if_neg count, behind, layout, readByte, readVal_valBytes]
  dsimp only
  rw [read24bit, readVal_valBytes]
  exact ⟨_, rfl, rfl, rfl⟩

theorem addHeader_of_short {whole : List UInt8} {header : CaptureWaveHeader}
    (read : CaptureWaveHeader.new.processHeader whole = (true, header, rest))
    (length : header.mBlockLength = 0) (short : rest.length < 8) :
    ∃ wave, CaptureWaveData.new.addHeader whole = (true, wave, rest) ∧ Doomed wave := by
  have none : CaptureWaveData.new.mHeader = none := rfl
  rw [CaptureWaveData.addHeader, none]
  dsimp only
  rw [read]
  dsimp only
  rw [if_neg accepted, processBlockHeader_of_short _ short]
  exact ⟨_, rfl, rfl, rfl, length, rfl⟩

/-- The header ends behind its common part. -/
theorem addHeader_common (short : rest.length < 4) :
    ∃ wave, CaptureWaveData.new.addHeader (CaptureFile.common ++ rest) = (true, wave, rest) ∧
      Doomed wave := by
  obtain ⟨header, read, length⟩ := processHeader_special_of_short short
  exact addHeader_of_short read length (by omega)

/-- The header ends in front of the block header or within it. -/
theorem addHeader_special (short : rest.length < 8) :
    ∃ wave, CaptureWaveData.new.addHeader (CaptureFile.common ++ (file.special ++ rest)) =
        (true, wave, rest) ∧ Doomed wave := by
  have small : (CaptureFile.common ++ (file.special ++ rest)).length < 2 ^ 32 := by
    rw [List.length_append, List.length_append, length_common, length_special]
    omega
  obtain ⟨header, read, length, -⟩ := processHeader_special small
  exact addHeader_of_short read length short

theorem addHeader_blockHeader
    (small : (CaptureFile.common ++ (file.special ++ (file.blockHeader ++ rest))).length < 2 ^ 32) :
    ∃ wave, CaptureWaveData.new.addHeader
        (CaptureFile.common ++ (file.special ++ (file.blockHeader ++ rest))) = (true, wave, rest) ∧
      Partial file [] wave := by
  have fewer : (file.blockHeader ++ rest).length < 2 ^ 32 := by
    rw [List.length_append, List.length_append] at small
    omega
  obtain ⟨header, read, -, numbers⟩ := processHeader_special small
  obtain ⟨common, block, length⟩ :=
    processBlockHeader_blockHeader header.toWaveFileHeader file fewer
  have none : CaptureWaveData.new.mHeader = none := rfl
  rw [CaptureWaveData.addHeader, none]
  dsimp only
  rw [read]
  dsimp only
  rw [if_neg accepted, block]
  exact ⟨_, rfl, rfl, rfl, length, rfl, numbers⟩

end Headers

section Data

variable {file : CaptureFile} {wave : CaptureWaveData} {front data : List UInt8}

/-- As many bytes are taken as are missing. -/
theorem insertData_eq (nonempty : data ≠ []) (small : data.length < 2 ^ 32)
    (taken : wave.mData.length ≤ wave.mDataLen) :
    wave.insertData data =
      ({ wave with
          mData := wave.mData ++ data.take (wave.mDataLen - wave.mData.length)
          mEof := wave.mEof || decide (wave.mDataLen ≤ wave.mData.length + data.length) },
        data.drop (wave.mDataLen - wave.mData.length)) := by
  have some : ¬ data.length = 0 := fun zero => nonempty (List.length_eq_zero_iff.mp zero)
  rw [CaptureWaveData.insertData, numBytes_eq small, if_neg some]
  by_cases within : wave.mData.length + data.length ≤ wave.mDataLen
  · have whole : data.length ≤ wave.mDataLen - wave.mData.length := by omega
    rw [if_pos within, List.take_of_length_le whole, List.drop_of_length_le whole]
    dsimp only
    rw [List.length_append]
  · have behind : (data.take (wave.mDataLen - wave.mData.length)).length =
        wave.mDataLen - wave.mData.length := by
      rw [List.length_take]
      omega
    rw [if_neg within]
    dsimp only
    rw [List.length_append, behind]
    have ended : wave.mDataLen ≤ wave.mData.length + (wave.mDataLen - wave.mData.length) := by omega
    have reached : wave.mDataLen ≤ wave.mData.length + data.length := by omega
    rw [decide_eq_true ended, decide_eq_true reached]

theorem addData_of_headed (goesOn : wave.mEof = false) (headed : wave.mHeader.isSome = true) :
    wave.addData data = (true, wave.insertData data) := by
  obtain ⟨header, present⟩ := Option.isSome_iff_exists.mp headed
  have reads : wave.addHeader data = (true, wave, data) := by
    rw [CaptureWaveData.addHeader, present]
  have open_ : ¬ wave.mEof = true := by
    rw [goesOn]
    decide
  rw [CaptureWaveData.addData, if_neg open_, reads]
  rfl

/-- Behind the header the bytes are added as data. -/
theorem addData_of_addHeader {whole : List UInt8}
    (reads : CaptureWaveData.new.addHeader whole = (true, wave, data))
    (goesOn : wave.mEof = false) (headed : wave.mHeader.isSome = true) :
    CaptureWaveData.new.addData whole = wave.addData data := by
  have open_ : ¬ CaptureWaveData.new.mEof = true := by decide
  rw [addData_of_headed goesOn headed, CaptureWaveData.addData, if_neg open_, reads]
  rfl

theorem addDataLoop_of_addHeader {whole : List UInt8} (nonempty : whole ≠ [])
    (reads : CaptureWaveData.new.addHeader whole = (true, wave, data))
    (goesOn : wave.mEof = false) (headed : wave.mHeader.isSome = true)
    (earlier : List CaptureWaveData) (passes : Nat) :
    addDataLoop (passes + 1) ⟨earlier, .new⟩ whole =
      addDataLoop (passes + 1) ⟨earlier, wave⟩ data := by
  have same := addData_of_addHeader reads goesOn headed
  cases whole with
  | nil => exact absurd rfl nonempty
  | cons byte tail =>
      rw [addDataLoop]
      dsimp only
      rw [same]
      cases data with
      | nil =>
          have nothing : wave.insertData [] = (wave, []) := by
            have zero : numBytes [] = 0 := rfl
            rw [CaptureWaveData.insertData, if_pos zero]
          have open_ : ¬ wave.mEof = true := by
            rw [goesOn]
            decide
          rw [addData_of_headed goesOn headed, nothing]
          dsimp only
          rw [if_neg accepted, if_neg open_, addDataLoop, addDataLoop]
      | cons other behind => rw [addDataLoop]

/-- A header that was cut short ends the file with the next bytes. -/
theorem insertData_of_doomed (doomed : Doomed wave) (nonempty : data ≠ [])
    (small : data.length < 2 ^ 32) :
    ∃ after, wave.insertData data = (after, data) ∧ after.mEof = true := by
  have reached : wave.mDataLen ≤ wave.mData.length + data.length := by
    rw [doomed.length]
    exact Nat.zero_le _
  have none : wave.mDataLen - wave.mData.length = 0 := by
    rw [doomed.length, Nat.zero_sub]
  rw [insertData_eq nonempty small (by simp [doomed.data]), none, decide_eq_true reached,
    Bool.or_true]
  exact ⟨_, rfl, rfl⟩

/-- These start no file, and are refused. -/
theorem addDataLoop_of_doomed (doomed : Doomed wave) (nonempty : data ≠ [])
    (small : data.length < 2 ^ 32) (headless : Headless data) (earlier : List CaptureWaveData)
    (passes : Nat) :
    ∃ refused, addDataLoop (passes + 2) ⟨earlier, wave⟩ data = some (false, refused) := by
  obtain ⟨after, inserted, ended⟩ := insertData_of_doomed doomed nonempty small
  have next := addData_new_of_headless headless
  cases data with
  | nil => exact absurd rfl nonempty
  | cons byte tail =>
      rw [addDataLoop]
      dsimp only
      rw [addData_of_headed doomed.goesOn doomed.headed, inserted]
      dsimp only
      rw [if_neg accepted, if_pos ended, addDataLoop]
      dsimp only
      rw [if_pos next]
      exact ⟨_, rfl⟩

/-- Fewer bytes than are missing are taken. -/
theorem insertData_front {behind : List UInt8} (reading : Partial file front wave)
    (nonempty : data ≠ []) (small : data.length < 2 ^ 32)
    (cut : front ++ (data ++ behind) = file.data) (more : behind ≠ []) :
    ∃ after, wave.insertData data = (after, []) ∧ Partial file (front ++ data) after := by
  have total := congrArg List.length cut
  have some : behind.length ≠ 0 := fun zero => more (List.length_eq_zero_iff.mp zero)
  simp only [List.length_append] at total
  have missing : data.length ≤ file.data.length - front.length := by omega
  have early : ¬ file.data.length ≤ front.length + data.length := by omega
  rw [insertData_eq nonempty small (by rw [reading.data, reading.length]; omega), reading.data,
    reading.length, List.take_of_length_le missing, List.drop_of_length_le missing,
    decide_eq_false early, Bool.or_false]
  exact ⟨_, rfl, reading.goesOn, reading.headed, rfl, rfl, reading.numbers⟩

/-- The bytes that are missing are taken, and the file ends. -/
theorem insertData_rest {missing behind : List UInt8} (reading : Partial file front wave)
    (nonempty : missing ++ behind ≠ []) (small : (missing ++ behind).length < 2 ^ 32)
    (cut : front ++ missing = file.data) :
    ∃ after, wave.insertData (missing ++ behind) = (after, behind) ∧ Complete file after := by
  have total := congrArg List.length cut
  simp only [List.length_append] at total
  have amount : file.data.length - front.length = missing.length := by omega
  have reached : file.data.length ≤ front.length + (missing ++ behind).length := by
    rw [List.length_append]
    omega
  rw [insertData_eq nonempty small (by rw [reading.data, reading.length]; omega), reading.data,
    reading.length, amount, List.take_left, List.drop_left, decide_eq_true reached, Bool.or_true,
    cut]
  refine ⟨_, rfl, rfl, ?_⟩
  have numbers := Prod.mk.inj reading.numbers
  exact Prod.ext rfl (Prod.ext numbers.1 numbers.2)

end Data

end CaptureWave

end OpenMplane
