import OpenMplane.PlaybackWave

/-!
# The blocks of a playback file

Each block is written as a header and enciphered bytes and is read back as the
bytes that were counted, which are all of them unless there are 4 GiB or more.
A decompressed block never exceeds the smallest buffer that is asked for.
-/

namespace OpenMplane

open ByteTransfer

/-- What the compression library documents: a compressed block is restored, and
it is hardly longer than the block. -/
structure MiniLzo.Documented (miniLzo : MiniLzo) : Prop where
  restores : ∀ data out, miniLzo.lzo1x_1_compress data = (LZO_E_OK, out) →
    miniLzo.lzo1x_decompress out = (LZO_E_OK, data)
  expands : ∀ data,
    (miniLzo.lzo1x_1_compress data).2.length ≤ data.length + data.length / 16 + 64 + 3

theorem Lzo.le_uncompressedSize (lzo : Lzo) (compressedSize : Nat) :
    lzo.mDecompressionMinSize ≤ lzo.uncompressedSize compressedSize := by
  have least : ∀ size, lzo.mDecompressionMinSize ≤
      if size < lzo.mDecompressionMinSize then lzo.mDecompressionMinSize else size := by
    intro size
    split <;> omega
  exact least _

theorem Lzo.decompress_eq {miniLzo : MiniLzo} {lzo : Lzo} {inData outData : List UInt8}
    (small : inData.length < 2 ^ 32)
    (restored : miniLzo.lzo1x_decompress inData = (LZO_E_OK, outData))
    (fits : outData.length ≤ lzo.uncompressedSize inData.length) :
    lzo.decompress miniLzo inData = some (true, outData) := by
  have within : ¬ lzo.uncompressedSize inData.length < outData.length := Nat.not_lt.mpr fits
  have unfolded : lzo.decompress miniLzo inData =
      if lzo.uncompressedSize (numBytes inData) <
          (miniLzo.lzo1x_decompress (inData.take (numBytes inData))).2.length then none
      else
        some (decide ((miniLzo.lzo1x_decompress (inData.take (numBytes inData))).1 = LZO_E_OK),
          (miniLzo.lzo1x_decompress (inData.take (numBytes inData))).2) := rfl
  rw [unfolded, numBytes_eq small, List.take_length, restored, if_neg within]
  rfl

namespace EncapFile

variable {path : String} {front rest : List UInt8}

theorem readFile_append (named : path ≠ "") (small : front.length + rest.length < 2 ^ 32) :
    (load path (front ++ rest)).readFile front.length = (true, front, load path rest) := by
  have enough : ¬ (front ++ rest).length % 2 ^ 32 < front.length := by
    rw [List.length_append, Nat.mod_eq_of_lt small]
    omega
  have there : front.length ≤ (front ++ rest).length := by
    rw [List.length_append]
    omega
  have left : (front ++ rest).length - front.length = rest.length := by
    rw [List.length_append]
    omega
  rw [load, readFile, if_neg named, if_neg enough]
  dsimp only
  rw [decide_eq_true there, List.take_left, List.drop_left, left, load]

theorem eof_load_iff (named : path ≠ "") : (load path rest).eof = true ↔ rest = [] := by
  rw [eof, load, decide_eq_false named, Bool.false_or, decide_eq_true_iff, List.length_eq_zero_iff]

end EncapFile

namespace PlaybackWave

section Blocks

variable (miniLzo : MiniLzo)

/-- Whether a block is compressed, and the bytes that are enciphered. -/
def storedBlock (block : List UInt8) : Bool × List UInt8 :=
  let (rc, compressedData) := miniLzo.lzo1x_1_compress (block.take (numBytes block))
  let compressed := decide (rc = LZO_E_OK) && decide (compressedData.length < numBytes block)
  (compressed, if compressed then compressedData else block)

/-- What is written for a block. -/
def blockBytes (crypt : Crypt) (block : List UInt8) : List UInt8 :=
  let encryptedData := crypt.encryptData (storedBlock miniLzo block).2
  WaveFileHeader.createBlockHeader [] ⟨(storedBlock miniLzo block).1, true⟩ encryptedData.length ++
    encryptedData

/-- The full blocks of the data, and what is left. -/
def blocks (bytesLeft : Nat) (data : List UInt8) : List (List UInt8) :=
  if BLOCK_SIZE ≤ bytesLeft then
    data.take BLOCK_SIZE :: blocks (bytesLeft - BLOCK_SIZE) (data.drop BLOCK_SIZE)
  else if 0 < bytesLeft then [data]
  else []
termination_by bytesLeft
decreasing_by
  rw [BLOCK_SIZE] at *
  omega

end Blocks

section Counts

variable {bytesLeft : Nat} {data block : List UInt8}

/-- Data of any length counts its blocks and gives as many bytes. -/
theorem blocks_counted (count : bytesLeft = numBytes data) :
    (∀ block ∈ blocks bytesLeft data, 0 < numBytes block ∧ numBytes block ≤ BLOCK_SIZE) ∧
      (blocks bytesLeft data).flatMap (fun block => block.take (numBytes block)) =
        data.take bytesLeft := by
  induction size : bytesLeft using Nat.strongRecOn generalizing bytesLeft data with
  | ind left ih =>
      subst size
      have fewer : numBytes data ≤ data.length := Nat.mod_le _ _
      rw [blocks]
      by_cases full : BLOCK_SIZE ≤ bytesLeft
      · have front : (data.take BLOCK_SIZE).length = BLOCK_SIZE := by
          rw [List.length_take]
          omega
        have counted : numBytes (data.take BLOCK_SIZE) = BLOCK_SIZE := by
          rw [numBytes_eq (by rw [front, BLOCK_SIZE]; decide), front]
        have next : bytesLeft - BLOCK_SIZE = numBytes (data.drop BLOCK_SIZE) := by
          rw [count, numBytes, numBytes, List.length_drop]
          rw [count, numBytes, BLOCK_SIZE] at full
          rw [BLOCK_SIZE]
          omega
        have positive : 0 < BLOCK_SIZE := by decide
        obtain ⟨bounds, joined⟩ := ih (bytesLeft - BLOCK_SIZE) (by omega) next rfl
        rw [if_pos full]
        constructor
        · intro block member
          rcases List.mem_cons.mp member with rfl | later
          · rw [counted]
            exact ⟨positive, Nat.le_refl _⟩
          · exact bounds block later
        · have whole : BLOCK_SIZE + (bytesLeft - BLOCK_SIZE) = bytesLeft := by omega
          rw [List.flatMap_cons, joined, counted, List.take_take, Nat.min_self, ← List.take_add,
            whole]
      · rw [if_neg full]
        by_cases some : 0 < bytesLeft
        · rw [if_pos some]
          constructor
          · intro block member
            rw [List.mem_singleton.mp member, ← count]
            omega
          · rw [List.flatMap_cons, List.flatMap_nil, List.append_nil, count]
        · have none : bytesLeft = 0 := by omega
          rw [if_neg some, none]
          constructor
          · intro block member
            exact absurd member List.not_mem_nil
          · rfl

end Counts

section RoundTrip

variable {miniLzo : MiniLzo} (documented : miniLzo.Documented) {block : List UInt8}
  (few : numBytes block ≤ BLOCK_SIZE)

theorem storedBlock_cases (miniLzo : MiniLzo) (block : List UInt8) :
    (∃ out, storedBlock miniLzo block = (true, out) ∧ out.length < numBytes block ∧
        miniLzo.lzo1x_1_compress (block.take (numBytes block)) = (LZO_E_OK, out)) ∨
      storedBlock miniLzo block = (false, block) := by
  rcases result : miniLzo.lzo1x_1_compress (block.take (numBytes block)) with ⟨rc, out⟩
  by_cases compressed : rc = LZO_E_OK ∧ out.length < numBytes block
  · refine Or.inl ⟨out, ?_, compressed.2, by rw [compressed.1]⟩
    rw [storedBlock, result]
    dsimp only
    rw [decide_eq_true compressed.1, decide_eq_true compressed.2]
    rfl
  · refine Or.inr ?_
    rw [storedBlock, result]
    dsimp only
    rw [← Bool.decide_and, decide_eq_false compressed]
    rfl

include few in
theorem numBytes_storedBlock_le :
    numBytes (storedBlock miniLzo block).2 ≤ BLOCK_SIZE := by
  rcases storedBlock_cases miniLzo block with ⟨out, stored, shorter, -⟩ | stored
  · have fewer : numBytes out ≤ out.length := Nat.mod_le _ _
    rw [stored]
    dsimp only
    omega
  · rw [stored]
    exact few

include few in
theorem length_blockBytes (crypt : Crypt) :
    (blockBytes miniLzo crypt block).length =
      8 + (numBytes (storedBlock miniLzo block).2 + 15) / 8 * 8 := by
  have stored := @numBytes_storedBlock_le miniLzo block few
  rw [BLOCK_SIZE] at stored
  rw [blockBytes, List.length_append, WaveFileHeader.length_createBlockHeader,
    crypt.length_encryptData (by omega)]

include documented few in
theorem compress_eq :
    Lzo.compress miniLzo block =
      some (decide ((miniLzo.lzo1x_1_compress (block.take (numBytes block))).1 = LZO_E_OK),
        (miniLzo.lzo1x_1_compress (block.take (numBytes block))).2) := by
  have expands := documented.expands (block.take (numBytes block))
  have fewer : numBytes block ≤ block.length := Nat.mod_le _ _
  have length : (block.take (numBytes block)).length = numBytes block := by
    rw [List.length_take]
    omega
  rw [length] at expands
  have fits : ¬ Lzo.compressedSize (numBytes block) <
      (miniLzo.lzo1x_1_compress (block.take (numBytes block))).2.length := by
    rw [BLOCK_SIZE] at few
    rw [Lzo.compressedSize, Nat.mod_eq_of_lt (by omega)]
    exact Nat.not_lt.mpr expands
  rw [Lzo.compress]
  dsimp only
  rw [if_neg fits]

include documented few in
theorem encapsulateBlock_eq (wave : PlaybackWave) (outData : List UInt8) :
    encapsulateBlock miniLzo wave block outData =
      some (outData ++ blockBytes miniLzo wave.mCrypt block) := by
  rw [encapsulateBlock, compress_eq documented few]
  dsimp only
  rw [WaveFileHeader.createBlockHeader_eq, List.append_assoc]
  rfl

include documented few in
theorem restoreBlock_encryptData {wave : PlaybackWave}
    (sized : wave.mLzo.mDecompressionMinSize = BLOCK_SIZE) :
    wave.restoreBlock miniLzo ⟨(storedBlock miniLzo block).1, true⟩
      (wave.mCrypt.encryptData (storedBlock miniLzo block).2) =
        some (.ok (block.take (numBytes block))) := by
  have stored := @numBytes_storedBlock_le miniLzo block few
  rw [BLOCK_SIZE] at stored
  have plain := @Crypt.decryptData_encryptData wave.mCrypt (storedBlock miniLzo block).2 (by omega)
  rw [restoreBlock]
  dsimp only
  rw [if_pos rfl, plain]
  rcases storedBlock_cases miniLzo block with ⟨out, storedEq, shorter, result⟩ | storedEq
  · have below : numBytes block < 2 ^ 32 := Nat.mod_lt _ (by decide)
    have small : out.length < 2 ^ 32 := by omega
    have fits : (block.take (numBytes block)).length ≤ wave.mLzo.uncompressedSize out.length := by
      have least := wave.mLzo.le_uncompressedSize out.length
      rw [List.length_take]
      omega
    rw [storedEq]
    dsimp only
    rw [if_pos rfl, numBytes_eq small, List.take_length,
      Lzo.decompress_eq small (documented.restores _ _ result) fits]
  · rw [storedEq]
    dsimp only
    rw [if_neg (by decide)]

end RoundTrip

end PlaybackWave

end OpenMplane
