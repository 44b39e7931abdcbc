import Mathlib.Algebra.Ring.Nat
import OpenMplane.PlaybackWaveBlocks

/-!
# Playback files read back

A file that `encapsulate` wrote is read back block by block.  The counts are
32-bit numbers: of data with 4 GiB or more only the rest is packed, and of a
file with 4 GiB or more the reader never sees the end.
-/

namespace OpenMplane

open ByteTransfer

namespace PlaybackWave

/-- What `mEncapFile` has left. -/
def bytesLeft (wave : PlaybackWave) : Nat := wave.mEncapFile.elim 0 EncapFile.mBytesLeft

/-- Calls of `loadNextBlock` that add to the data until the end of the file;
each but the last one takes bytes off the file. -/
inductive LoadsUntilEof (miniLzo : MiniLzo) :
    PlaybackWave → List UInt8 → List UInt8 → PlaybackWave → Prop
  | last {wave final : PlaybackWave} {data total : List UInt8} :
      wave.loadNextBlock miniLzo data false = some (true, total, true, final) →
      LoadsUntilEof miniLzo wave data total final
  | next {wave after final : PlaybackWave} {data more total : List UInt8} :
      wave.loadNextBlock miniLzo data false = some (true, more, false, after) →
      after.bytesLeft < wave.bytesLeft → LoadsUntilEof miniLzo after more total final →
      LoadsUntilEof miniLzo wave data total final

/-- The name of a file, without a directory part. -/
def IsFileName (name : String) : Prop :=
  name ≠ "" ∧ ∀ letter ∈ name.toList, PlaybackFileInfo.isSeparator letter = false

/-- The encapsulated data, in a file of that name, is read back without an
error, and no block exceeds the buffer that is asked for when it is restored. -/
def ReadsBack (miniLzo : MiniLzo) (licenseKey : Fin 4 → UInt32) (name : String)
    (data : List UInt8) : Prop :=
  (∃ outData writer,
    (new licenseKey).encapsulate miniLzo name data = some (true, outData, writer) ∧
      writer.mError = "" ∧
      ∀ files : String → Option (List UInt8), files name = some outData →
        ∃ reader final, (new licenseKey).loadEncapsulated files name = (true, reader) ∧
          LoadsUntilEof miniLzo reader [] data final ∧ final.mError = "") ∧
    ∀ block ∈ blocks (numBytes data) data,
      numBytes block ≤
        (new licenseKey).mLzo.uncompressedSize (storedBlock miniLzo block).2.length

/-- The size of the file, from what its blocks are compressed to. -/
def encapsulatedSize (miniLzo : MiniLzo) (data : List UInt8) : Nat :=
  32 + ((blocks (numBytes data) data).map fun block =>
    8 + (numBytes (storedBlock miniLzo block).2 + 15) / 8 * 8).sum

section Files

variable {file after : EncapFile} {bytes : List UInt8} {count : Nat}

/-- A read that succeeds does not pass a multiple of 4 GiB. -/
theorem readFile_left (read : file.readFile count = (true, bytes, after)) :
    after.mEncapsulatedFilepath = file.mEncapsulatedFilepath ∧
      count ≤ file.mBytesLeft % 2 ^ 32 ∧ after.mBytesLeft = file.mBytesLeft - count := by
  rw [EncapFile.readFile] at read
  split at read
  next => exact absurd (Prod.mk.inj read).1 (by decide)
  next named =>
    split at read
    next => exact absurd (Prod.mk.inj read).1 (by decide)
    next enough =>
      obtain ⟨-, -, rfl⟩ : _ ∧ _ ∧ _ := by
        have parts := Prod.mk.inj read
        exact ⟨parts.1, (Prod.mk.inj parts.2).1, (Prod.mk.inj parts.2).2⟩
      exact ⟨rfl, Nat.le_of_not_lt enough, rfl⟩

theorem quotient_of_readFile (read : file.readFile count = (true, bytes, after)) :
    after.mBytesLeft / 2 ^ 32 = file.mBytesLeft / 2 ^ 32 := by
  obtain ⟨-, enough, left⟩ := readFile_left read
  rw [left]
  omega

end Files

section Loads

variable {miniLzo : MiniLzo} {wave final : PlaybackWave} {data total : List UInt8}

/-- The calls follow from the object and the data. -/
theorem LoadsUntilEof.unique {otherTotal : List UInt8} {otherFinal : PlaybackWave}
    (loads : LoadsUntilEof miniLzo wave data total final)
    (other : LoadsUntilEof miniLzo wave data otherTotal otherFinal) : total = otherTotal := by
  induction loads with
  | last step =>
      cases other with
      | last otherStep =>
          have same := Option.some.inj (step.symm.trans otherStep)
          exact (Prod.mk.inj (Prod.mk.inj same).2).1
      | next otherStep _ _ =>
          have same := Option.some.inj (step.symm.trans otherStep)
          exact absurd (Prod.mk.inj (Prod.mk.inj (Prod.mk.inj same).2).2).1 (by decide)
  | next step _ _ ih =>
      cases other with
      | last otherStep =>
          have same := Option.some.inj (step.symm.trans otherStep)
          exact absurd (Prod.mk.inj (Prod.mk.inj (Prod.mk.inj same).2).2).1 (by decide)
      | next otherStep _ rest =>
          have same := Option.some.inj (step.symm.trans otherStep)
          obtain ⟨rfl, ends⟩ := Prod.mk.inj (Prod.mk.inj same).2
          obtain ⟨-, rfl⟩ := Prod.mk.inj ends
          exact ih rest

/-- A call that succeeds does not pass a multiple of 4 GiB, and tells the end
of the file where nothing is left. -/
theorem loadNextBlock_left {file : EncapFile} (reading : wave.mEncapFile = some file)
    (named : file.mEncapsulatedFilepath ≠ "") {more : List UInt8} {ended : Bool}
    {after : PlaybackWave}
    (step : wave.loadNextBlock miniLzo data false = some (true, more, ended, after)) :
    ∃ left, after.mEncapFile = some left ∧ left.mEncapsulatedFilepath ≠ "" ∧
      left.mBytesLeft / 2 ^ 32 = file.mBytesLeft / 2 ^ 32 ∧
        (ended = true → left.mBytesLeft = 0) := by
  have refused : ∀ {message : String} {result : PlaybackWave},
      some (false, data, false, result.setError message) ≠ some (true, more, ended, after) := by
    intro message result same
    exact absurd (Prod.mk.inj (Option.some.inj same)).1 (by decide)
  have empty : ∀ left : EncapFile, left.mEncapsulatedFilepath ≠ "" → left.eof = true →
      left.mBytesLeft = 0 := by
    intro left leftNamed ends
    rw [EncapFile.eof, decide_eq_false leftNamed, Bool.false_or, decide_eq_true_iff] at ends
    exact ends
  rw [loadNextBlock, reading] at step
  dsimp only at step
  by_cases ends : file.eof = true
  · rw [if_pos ends] at step
    obtain ⟨-, -, -, rfl⟩ : _ ∧ _ ∧ _ ∧ _ := by
      simpa only [Option.some.injEq, Prod.mk.injEq] using step
    exact ⟨file, reading, named, rfl, fun _ => empty file named ends⟩
  rw [if_neg ends] at step
  rcases headerRead : file.readFile PlaybackWaveHeader.getBlockHeaderSize with ⟨ok, header, left⟩
  rw [headerRead] at step
  dsimp only at step
  cases ok with
  | false =>
      rw [if_pos rfl] at step
      exact absurd step refused
  | true =>
      obtain ⟨leftPath, -, -⟩ := readFile_left headerRead
      have leftQuotient := quotient_of_readFile headerRead
      rw [if_neg accepted] at step
      rcases processed : wave.mHeader.toWaveFileHeader.processBlockHeader header with
        ⟨ok, common, behind⟩
      rw [processed] at step
      dsimp only at step
      cases ok with
      | false =>
          rw [if_pos rfl] at step
          exact absurd (Prod.mk.inj (Option.some.inj step)).1 (by decide)
      | true =>
          rw [if_neg accepted] at step
          rcases blockRead : left.readFile common.mBlockLength with ⟨ok, block, rest⟩
          rw [blockRead] at step
          dsimp only at step
          cases ok with
          | false =>
              rw [if_pos rfl] at step
              exact absurd step refused
          | true =>
              obtain ⟨restPath, -, -⟩ := readFile_left blockRead
              have restQuotient := quotient_of_readFile blockRead
              have restNamed : rest.mEncapsulatedFilepath ≠ "" := by
                rw [restPath, leftPath]
                exact named
              rw [if_neg accepted] at step
              split at step
              next => exact absurd step (by simp)
              next => exact absurd step refused
              next restored _ =>
                obtain ⟨-, -, endedEq, rfl⟩ : _ ∧ _ ∧ _ ∧ _ := by
                  simpa only [Option.some.injEq, Prod.mk.injEq] using step
                rw [Bool.false_or] at endedEq
                refine ⟨rest, rfl, restNamed, restQuotient.trans leftQuotient, ?_⟩
                intro isEnded
                exact empty rest restNamed (endedEq.trans isEnded)

/-- The end is reached only in a file of less than 4 GiB. -/
theorem LoadsUntilEof.small {file : EncapFile} (loads : LoadsUntilEof miniLzo wave data total final)
    (reading : wave.mEncapFile = some file) (named : file.mEncapsulatedFilepath ≠ "") :
    file.mBytesLeft < 2 ^ 32 := by
  induction loads generalizing file with
  | last step =>
      obtain ⟨left, -, -, quotient, ends⟩ := loadNextBlock_left reading named step
      rw [ends rfl] at quotient
      omega
  | next step _ _ ih =>
      obtain ⟨left, readingLeft, leftNamed, quotient, -⟩ := loadNextBlock_left reading named step
      have below := ih readingLeft leftNamed
      omega

end Loads

end PlaybackWave

end OpenMplane
