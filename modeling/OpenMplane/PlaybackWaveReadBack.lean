import OpenMplane.PlaybackWaveRoundTrip

/-!
# Which data is read back

The header of a file is that of its name, and each block gives back the bytes
that were counted.  Data is therefore read back exactly when it and its file
have less than 4 GiB each.
-/

namespace OpenMplane

open ByteTransfer

namespace PlaybackWave

section Header

/-- The header of a file of this name. -/
def headerBytes (name : String) : List UInt8 :=
  append24bit (appendByte (WaveFileHeader.createHeader [] .PLAYBACK
    PlaybackWaveHeader.PLAYBACK_HEAD_LEN ++ Sha1.getHash (Sha1.stringBytes name)) 0x00) 0x00dead

@[simp] theorem length_headerBytes (name : String) : (headerBytes name).length = 32 := by
  have hash := Sha1.length_getHash (Sha1.stringBytes name)
  rw [Sha1.SHA1_SIZE] at hash
  simp [headerBytes, append24bit, appendByte, hash]

theorem createHeader_getHash (header : PlaybackWaveHeader) (name : String) :
    header.createHeader [] (Sha1.getHash (Sha1.stringBytes name)) =
      (true, header, headerBytes name) := by
  have hash := Sha1.length_getHash (Sha1.stringBytes name)
  rw [PlaybackWaveHeader.createHeader, if_neg (not_not_intro hash)]
  rfl

theorem processHeader_headerBytes (header : PlaybackWaveHeader) (name : String) :
    ∃ after, header.processHeader (headerBytes name) = (true, after) ∧
      after.mSha1 = Sha1.getHash (Sha1.stringBytes name) := by
  have hash := Sha1.length_getHash (Sha1.stringBytes name)
  have layout : headerBytes name = WaveFileHeader.createHeader [] .PLAYBACK
      PlaybackWaveHeader.PLAYBACK_HEAD_LEN ++
        (Sha1.getHash (Sha1.stringBytes name) ++ (valBytes 1 0x00 ++ valBytes 3 0x00dead)) := by
    simp [headerBytes, append24bit, appendByte]
  have size : (Sha1.getHash (Sha1.stringBytes name) ++
      (valBytes 1 0x00 ++ valBytes 3 0x00dead)).length = 24 := by
    rw [List.length_append, hash]
    rfl
  have known : WaveType.PLAYBACK ≠ .UNSET := by decide
  have fewer : (Sha1.getHash (Sha1.stringBytes name) ++
      (valBytes 1 0x00 ++ valBytes 3 0x00dead)).length + 8 < 2 ^ 32 := by
    rw [size]
    decide
  have common := header.toWaveFileHeader.processHeader_createHeader known
    PlaybackWaveHeader.PLAYBACK_HEAD_LEN fewer
  have playback : ¬ WaveType.PLAYBACK ≠ WaveType.PLAYBACK := not_not_intro rfl
  have enough : ¬ numBytes (Sha1.getHash (Sha1.stringBytes name) ++
      (valBytes 1 0x00 ++ valBytes 3 0x00dead)) < PlaybackWaveHeader.PLAYBACK_HEAD_LEN := by
    rw [numBytes_eq (by rw [size]; decide), size]
    decide
  rw [PlaybackWaveHeader.processHeader, layout, common]
  dsimp only
  rw [if_neg accepted, if_neg playback, if_neg enough]
  exact ⟨_, rfl, List.take_left' hash⟩

theorem removePath_of_isFileName {name : String} (isName : IsFileName name) :
    PlaybackFileInfo.removePath name = ⟨name, "", "", name⟩ := by
  have none : name.toList.reverse.findIdx? PlaybackFileInfo.isSeparator = none := by
    rw [List.findIdx?_eq_none_iff]
    intro letter member
    exact isName.2 letter (List.mem_reverse.mp member)
  rw [PlaybackFileInfo.removePath, none]

end Header

section Encapsulated

variable {miniLzo : MiniLzo} (documented : miniLzo.Documented)

include documented in
theorem encapsulateBlocks_eq (wave : PlaybackWave) {bytesLeft : Nat} {data : List UInt8}
    (count : bytesLeft = numBytes data) (outData : List UInt8) :
    encapsulateBlocks miniLzo wave bytesLeft data outData =
      some (outData ++ (blocks bytesLeft data).flatMap (blockBytes miniLzo wave.mCrypt)) := by
  have few := (blocks_counted count).1
  clear count
  induction size : bytesLeft using Nat.strongRecOn generalizing bytesLeft data outData with
  | ind left ih =>
      subst size
      have positive : 0 < BLOCK_SIZE := by decide
      rw [blocks] at few ⊢
      rw [encapsulateBlocks]
      by_cases full : BLOCK_SIZE ≤ bytesLeft
      · rw [if_pos full] at few ⊢
        rw [if_pos full, encapsulateBlock_eq documented (few _ List.mem_cons_self).2]
        dsimp only
        rw [ih (bytesLeft - BLOCK_SIZE) (by omega) _
          (fun block member => few block (List.mem_cons_of_mem _ member)) rfl, List.flatMap_cons,
          List.append_assoc]
      · rw [if_neg full] at few ⊢
        rw [if_neg full]
        by_cases some : 0 < bytesLeft
        · rw [if_pos some] at few ⊢
          rw [if_pos some, encapsulateBlock_eq documented (few _ List.mem_cons_self).2,
            List.flatMap_singleton]
        · rw [if_neg some, if_neg some, List.flatMap_nil, List.append_nil]

include documented in
theorem encapsulate_eq (licenseKey : Fin 4 → UInt32) (name : String) (data : List UInt8) :
    (new licenseKey).encapsulate miniLzo name data =
      some (true, headerBytes name ++
        (blocks (numBytes data) data).flatMap (blockBytes miniLzo ⟨licenseKey⟩),
        new licenseKey) := by
  rw [encapsulate, createHeader_getHash]
  dsimp only
  rw [encapsulateBlocks_eq documented _ rfl]
  rfl

theorem length_encapsulated (licenseKey : Fin 4 → UInt32) (name : String) (data : List UInt8) :
    (headerBytes name ++
      (blocks (numBytes data) data).flatMap (blockBytes miniLzo ⟨licenseKey⟩)).length =
        encapsulatedSize miniLzo data := by
  have sizes : (blocks (numBytes data) data).map (fun block =>
      (blockBytes miniLzo ⟨licenseKey⟩ block).length) =
        (blocks (numBytes data) data).map fun block =>
          8 + (numBytes (storedBlock miniLzo block).2 + 15) / 8 * 8 := by
    apply List.map_congr_left
    intro block member
    exact length_blockBytes ((blocks_counted rfl).1 block member).2 _
  rw [List.length_append, length_headerBytes, List.length_flatMap, sizes, encapsulatedSize]

end Encapsulated

section Reading

variable {miniLzo : MiniLzo} (documented : miniLzo.Documented)

/-- The header of an encapsulated file is read as far as the count of its bytes
allows. -/
theorem loadEncapsulated_headerBytes (licenseKey : Fin 4 → UInt32) {name : String}
    (isName : IsFileName name) {files : String → Option (List UInt8)} {rest : List UInt8}
    (there : files name = some (headerBytes name ++ rest)) (small : 32 + rest.length < 2 ^ 32) :
    ∃ header, (new licenseKey).loadEncapsulated files name =
      (true, { new licenseKey with
        mHeader := header
        mFileInfo := some ⟨name, "", "", name⟩
        mEncapFile := some (EncapFile.load name rest) }) := by
  obtain ⟨header, processed, hash⟩ :=
    processHeader_headerBytes (new licenseKey).mHeader name
  have fewer : (headerBytes name).length + rest.length < 2 ^ 32 := by
    rw [length_headerBytes]
    exact small
  have read := EncapFile.readFile_append isName.1 fewer
  rw [length_headerBytes] at read
  have size : PlaybackWaveHeader.getHeaderSize = 32 := rfl
  have same : ¬ Sha1.getHashString name ≠ Sha1.hashToString header.mSha1 := by
    rw [hash]
    exact not_not_intro rfl
  refine ⟨header, ?_⟩
  rw [loadEncapsulated, removePath_of_isFileName isName]
  dsimp only
  rw [there]
  dsimp only
  rw [size, read]
  dsimp only
  rw [if_neg accepted, processed]
  dsimp only
  rw [if_neg accepted, if_neg same]

/-- A reader that accepted the header has the rest of the file left. -/
theorem bytesLeft_of_loadEncapsulated {licenseKey : Fin 4 → UInt32} {name : String}
    (isName : IsFileName name) {files : String → Option (List UInt8)} {content : List UInt8}
    (there : files name = some content) {reader : PlaybackWave}
    (loaded : (new licenseKey).loadEncapsulated files name = (true, reader)) :
    ∃ file, reader.mEncapFile = some file ∧ file.mEncapsulatedFilepath ≠ "" ∧
      32 ≤ content.length % 2 ^ 32 ∧ file.mBytesLeft = content.length - 32 := by
  rw [loadEncapsulated, removePath_of_isFileName isName] at loaded
  dsimp only at loaded
  rw [there] at loaded
  dsimp only at loaded
  rcases headerRead : (EncapFile.load name content).readFile PlaybackWaveHeader.getHeaderSize with
    ⟨ok, bytes, file⟩
  rw [headerRead] at loaded
  dsimp only at loaded
  cases ok with
  | false =>
      rw [if_pos rfl] at loaded
      exact absurd (Prod.mk.inj loaded).1 (by decide)
  | true =>
      obtain ⟨path, enough, left⟩ := readFile_left headerRead
      rw [if_neg accepted] at loaded
      rcases processed : (new licenseKey).mHeader.processHeader bytes with ⟨ok, header⟩
      rw [processed] at loaded
      dsimp only at loaded
      cases ok with
      | false =>
          rw [if_pos rfl] at loaded
          exact absurd (Prod.mk.inj loaded).1 (by decide)
      | true =>
          rw [if_neg accepted] at loaded
          split at loaded
          next => exact absurd (Prod.mk.inj loaded).1 (by decide)
          next =>
            obtain ⟨-, rfl⟩ := Prod.mk.inj loaded
            refine ⟨file, rfl, ?_, enough, left⟩
            rw [path]
            exact isName.1

variable {wave : PlaybackWave} {path : String} {rest data : List UInt8}

include documented in
theorem loadNextBlock_blockBytes {block : List UInt8} (few : numBytes block ≤ BLOCK_SIZE)
    (sized : wave.mLzo.mDecompressionMinSize = BLOCK_SIZE) (named : path ≠ "")
    (reading : wave.mEncapFile =
      some (EncapFile.load path (blockBytes miniLzo wave.mCrypt block ++ rest)))
    (small : (blockBytes miniLzo wave.mCrypt block ++ rest).length < 2 ^ 32) :
    ∃ header, wave.loadNextBlock miniLzo data false =
      some (true, data ++ block.take (numBytes block), decide (rest = []),
        { wave with mHeader := header, mEncapFile := some (EncapFile.load path rest) }) := by
  have stored := @numBytes_storedBlock_le miniLzo block few
  rw [BLOCK_SIZE] at stored
  have size : (wave.mCrypt.encryptData (storedBlock miniLzo block).2).length =
      (numBytes (storedBlock miniLzo block).2 + 15) / 8 * 8 :=
    wave.mCrypt.length_encryptData (by omega)
  have more : ¬ (EncapFile.load path (blockBytes miniLzo wave.mCrypt block ++ rest)).eof = true := by
    rw [EncapFile.eof_load_iff named]
    intro empty
    have none := congrArg List.length empty
    rw [List.length_append, length_blockBytes few, List.length_nil] at none
    omega
  rw [List.length_append, length_blockBytes few] at small
  rw [loadNextBlock, reading]
  dsimp only
  rw [if_neg more, blockBytes, List.append_assoc]
  generalize encryptedEq : wave.mCrypt.encryptData (storedBlock miniLzo block).2 = encryptedData
  generalize typeEq : (storedBlock miniLzo block).1 = compressed
  rw [encryptedEq] at size
  have headerSize : (WaveFileHeader.createBlockHeader [] ⟨compressed, true⟩
      encryptedData.length).length = PlaybackWaveHeader.getBlockHeaderSize :=
    WaveFileHeader.length_createBlockHeader _ _
  have fewer : (WaveFileHeader.createBlockHeader [] ⟨compressed, true⟩
      encryptedData.length).length + (encryptedData ++ rest).length < 2 ^ 32 := by
    rw [WaveFileHeader.length_createBlockHeader, List.length_append]
    omega
  have headerRead := EncapFile.readFile_append named fewer
  have blockRead := EncapFile.readFile_append named (show encryptedData.length + rest.length < 2 ^ 32
    by omega)
  have processed := wave.mHeader.toWaveFileHeader.processBlockHeader_createBlockHeader
    ⟨compressed, true⟩ encryptedData.length (show ([] : List UInt8).length + 8 < 2 ^ 32 by decide)
  have length : encryptedData.length % 2 ^ 32 = encryptedData.length :=
    Nat.mod_eq_of_lt (by omega)
  rw [List.append_nil, length] at processed
  rw [headerSize] at headerRead
  rw [headerRead]
  dsimp only
  rw [if_neg accepted, processed]
  dsimp only
  rw [blockRead]
  dsimp only
  rw [if_neg accepted, if_neg accepted, ← encryptedEq, ← typeEq]
  have restored : ∀ mHeader, restoreBlock miniLzo
      { wave with mHeader := mHeader, mEncapFile := some (EncapFile.load path rest) }
      ⟨(storedBlock miniLzo block).1, true⟩
      (wave.mCrypt.encryptData (storedBlock miniLzo block).2) =
        some (.ok (block.take (numBytes block))) :=
    fun mHeader => restoreBlock_encryptData documented few sized
  rw [restored]
  dsimp only
  have ended : (EncapFile.load path rest).eof = decide (rest = []) := by
    rw [Bool.eq_iff_iff, EncapFile.eof_load_iff named, decide_eq_true_iff]
  rw [Bool.false_or, ended]
  exact ⟨_, rfl⟩

include documented in
/-- The run lemma: the blocks are read to the end of the file. -/
theorem loadsUntilEof_of_blocks {blocks : List (List UInt8)}
    (few : ∀ block ∈ blocks, 0 < numBytes block ∧ numBytes block ≤ BLOCK_SIZE)
    (sized : wave.mLzo.mDecompressionMinSize = BLOCK_SIZE) (named : path ≠ "")
    (reading : wave.mEncapFile =
      some (EncapFile.load path (blocks.flatMap (blockBytes miniLzo wave.mCrypt))))
    (small : (blocks.flatMap (blockBytes miniLzo wave.mCrypt)).length < 2 ^ 32) :
    ∃ final, LoadsUntilEof miniLzo wave data
        (data ++ blocks.flatMap fun block => block.take (numBytes block)) final ∧
      final.mError = wave.mError := by
  induction blocks generalizing wave data with
  | nil =>
      have ended : (EncapFile.load path []).eof = true := (EncapFile.eof_load_iff named).mpr rfl
      refine ⟨wave, .last ?_, rfl⟩
      rw [List.flatMap_nil] at reading
      rw [loadNextBlock, reading]
      dsimp only
      rw [if_pos ended, List.flatMap_nil, List.append_nil]
  | cons block blocks ih =>
      obtain ⟨header, step⟩ := @loadNextBlock_blockBytes miniLzo documented wave path
        (blocks.flatMap (blockBytes miniLzo wave.mCrypt)) data block
        (few block List.mem_cons_self).2 sized named reading small
      rw [List.flatMap_cons]
      by_cases last : blocks.flatMap (blockBytes miniLzo wave.mCrypt) = []
      · have none : blocks = [] := by
          cases blocks with
          | nil => rfl
          | cons other blocks =>
              have size := congrArg List.length last
              have otherFew := few other (List.mem_cons_of_mem _ List.mem_cons_self)
              rw [List.flatMap_cons, List.length_append, length_blockBytes otherFew.2,
                List.length_nil] at size
              omega
        rw [decide_eq_true last] at step
        rw [none, List.flatMap_nil, List.append_nil]
        exact ⟨_, .last step, rfl⟩
      · rw [decide_eq_false last] at step
        rw [List.flatMap_cons, List.length_append,
          length_blockBytes (few block List.mem_cons_self).2] at small
        have fewer : (blocks.flatMap (blockBytes miniLzo wave.mCrypt)).length < 2 ^ 32 := by
          omega
        obtain ⟨final, loads, error⟩ := @ih { wave with
            mHeader := header
            mEncapFile :=
              some (EncapFile.load path (blocks.flatMap (blockBytes miniLzo wave.mCrypt))) }
          (data ++ block.take (numBytes block))
          (fun other member => few other (List.mem_cons_of_mem _ member)) sized rfl fewer
        rw [List.append_assoc] at loads
        refine ⟨final, .next step ?_ loads, error⟩
        have now : wave.bytesLeft = 8 + (numBytes (storedBlock miniLzo block).2 + 15) / 8 * 8 +
            (blocks.flatMap (blockBytes miniLzo wave.mCrypt)).length := by
          rw [bytesLeft, reading, Option.elim_some, EncapFile.load, List.flatMap_cons,
            List.length_append, length_blockBytes (few block List.mem_cons_self).2]
        have later : (PlaybackWave.bytesLeft { wave with
            mHeader := header
            mEncapFile :=
              some (EncapFile.load path (blocks.flatMap (blockBytes miniLzo wave.mCrypt))) }) =
                (blocks.flatMap (blockBytes miniLzo wave.mCrypt)).length := rfl
        rw [now, later]
        omega

end Reading

theorem loads_of_small {miniLzo : MiniLzo} (documented : miniLzo.Documented)
    (licenseKey : Fin 4 → UInt32) {name : String} (isName : IsFileName name) {data : List UInt8}
    (small : encapsulatedSize miniLzo data < 2 ^ 32) {files : String → Option (List UInt8)}
    (there : files name = some (headerBytes name ++
      (blocks (numBytes data) data).flatMap (blockBytes miniLzo ⟨licenseKey⟩))) :
    ∃ reader final, (new licenseKey).loadEncapsulated files name = (true, reader) ∧
      LoadsUntilEof miniLzo reader [] (data.take (numBytes data)) final ∧ final.mError = "" := by
  obtain ⟨few, joined⟩ := @blocks_counted (numBytes data) data rfl
  have size := @length_encapsulated miniLzo licenseKey name data
  rw [List.length_append, length_headerBytes] at size
  have fewer : ((blocks (numBytes data) data).flatMap
      (blockBytes miniLzo ⟨licenseKey⟩)).length < 2 ^ 32 := by
    omega
  obtain ⟨header, loaded⟩ :=
    loadEncapsulated_headerBytes licenseKey isName there (by rw [size]; exact small)
  obtain ⟨final, loads, error⟩ := @loadsUntilEof_of_blocks miniLzo documented
    { new licenseKey with
      mHeader := header
      mFileInfo := some ⟨name, "", "", name⟩
      mEncapFile := some (EncapFile.load name
        ((blocks (numBytes data) data).flatMap (blockBytes miniLzo ⟨licenseKey⟩))) }
    name [] (blocks (numBytes data) data) few rfl isName.1 rfl fewer
  rw [joined, List.nil_append] at loads
  exact ⟨_, final, loaded, loads, error⟩

/-- Data that is read back has less than 4 GiB, and so has its file. -/
theorem small_of_readsBack {miniLzo : MiniLzo} (documented : miniLzo.Documented)
    {licenseKey : Fin 4 → UInt32} {name : String} (isName : IsFileName name) {data : List UInt8}
    (readsBack : ReadsBack miniLzo licenseKey name data) :
    data.length < 2 ^ 32 ∧ encapsulatedSize miniLzo data < 2 ^ 32 := by
  have written := encapsulate_eq documented licenseKey name data
  have size := @length_encapsulated miniLzo licenseKey name data
  obtain ⟨⟨outData, writer, encapsulated, -, reads⟩, -⟩ := readsBack
  obtain ⟨-, rest⟩ := Prod.mk.inj (Option.some.inj (written.symm.trans encapsulated))
  obtain ⟨rfl, -⟩ := Prod.mk.inj rest
  obtain ⟨reader, final, loaded, loads, -⟩ := reads (fun _ => some _) rfl
  have small : encapsulatedSize miniLzo data < 2 ^ 32 := by
    obtain ⟨file, reading, named, header, left⟩ :=
      bytesLeft_of_loadEncapsulated isName rfl loaded
    have below := loads.small reading named
    rw [left, size] at below
    rw [size] at header
    omega
  obtain ⟨other, otherFinal, otherLoaded, otherLoads, -⟩ :=
    @loads_of_small miniLzo documented licenseKey name isName data small (fun _ => some _) rfl
  obtain ⟨-, rfl⟩ := Prod.mk.inj (loaded.symm.trans otherLoaded)
  have whole := congrArg List.length (loads.unique otherLoads)
  have counted : numBytes data < 2 ^ 32 := Nat.mod_lt _ (by decide)
  rw [List.length_take] at whole
  exact ⟨by omega, small⟩

/-- Any data is read back exactly when it and its file have less than 4 GiB
each. -/
theorem readsBack_iff {miniLzo : MiniLzo} (documented : miniLzo.Documented)
    (licenseKey : Fin 4 → UInt32) {name : String} (isName : IsFileName name)
    (data : List UInt8) :
    ReadsBack miniLzo licenseKey name data ↔
      data.length < 2 ^ 32 ∧ encapsulatedSize miniLzo data < 2 ^ 32 := by
  refine ⟨small_of_readsBack documented isName, ?_⟩
  rintro ⟨few, small⟩
  refine ⟨⟨_, _, encapsulate_eq documented licenseKey name data, rfl, ?_⟩, ?_⟩
  · intro files there
    have reads := loads_of_small documented licenseKey isName small there
    rw [numBytes_eq few, List.take_length] at reads
    exact reads
  · intro block member
    exact Nat.le_trans ((blocks_counted rfl).1 block member).2 (Lzo.le_uncompressedSize _ _)

section Short

/-- The library on short data, which it stores as one run of literals in front
of the end marker. -/
def literalRuns : MiniLzo where
  lzo1x_1_compress data :=
    if data.length ≤ 20 then
      (LZO_E_OK, (if data = [] then [] else UInt8.ofNat (17 + data.length) :: data) ++ [17, 0, 0])
    else (-1, [])
  lzo1x_decompress data := (LZO_E_OK, (data.take (data.length - 3)).tail)

theorem literalRuns_documented : literalRuns.Documented where
  restores := by
    intro data out compressed
    by_cases short : data.length ≤ 20
    · rw [literalRuns] at compressed ⊢
      dsimp only at compressed ⊢
      rw [if_pos short] at compressed
      obtain ⟨-, rfl⟩ := Prod.mk.inj compressed
      by_cases empty : data = []
      · rw [empty]
        rfl
      · rw [if_neg empty]
        simp
    · rw [literalRuns] at compressed
      dsimp only at compressed
      rw [if_neg short] at compressed
      exact absurd (Prod.mk.inj compressed).1 (by decide)
  expands := by
    intro data
    rw [literalRuns]
    dsimp only
    split
    next =>
      split
      next => simp
      next =>
        rw [List.length_append, List.length_cons, List.length_cons, List.length_cons,
          List.length_cons, List.length_nil]
        omega
    next => simp

theorem isFileName_tone : IsFileName "tone.art" :=
  ⟨by decide, List.forall_iff_forall_mem.mp (by decide)⟩

theorem readsBack_tone : ReadsBack literalRuns (fun _ => 0) "tone.art" [1, 2, 3] := by
  refine (readsBack_iff literalRuns_documented _ isFileName_tone _).mpr ⟨by decide, ?_⟩
  have one : blocks (numBytes [1, 2, 3]) [1, 2, 3] = [[1, 2, 3]] := by
    rw [blocks, if_neg (by decide), if_pos (by decide)]
  rw [encapsulatedSize, one]
  decide

/-- Of 4 GiB no block is packed. -/
theorem four_gib_are_not_read_back :
    ¬ ReadsBack literalRuns (fun _ => 0) "tone.art" (List.replicate (2 ^ 32) 0) := by
  intro readsBack
  have few := (small_of_readsBack literalRuns_documented isFileName_tone readsBack).1
  rw [List.length_replicate] at few
  exact Nat.lt_irrefl _ few

end Short

end PlaybackWave

end OpenMplane
