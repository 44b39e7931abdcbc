import OpenMplane.FileStatusRuns
import OpenMplane.GuardedRuns

/-!
# The writer of a transferred file

The model of `FileMgrWriter`, which appends blocks of data to a file and tells a status
object how far it has come.  The result of a write call is signed and kept in an unsigned
number, so that a failed one counts as the largest; the progress is computed in 32 bits and
divided by the size that the caller has announced, which may be zero.
-/

namespace OpenMplane

open GuardedRuns
open FileStatus (unsigned)

/-- The writer, with a file descriptor and an announced size. -/
structure FileMgrWriter where
  mFd : Int
  mFileSize : Nat
  mTotalWritten : Nat
  mFileSize_lt : mFileSize < 2 ^ 32

/-- A block of data and what `::write` returns for it: no number stands for -1. -/
structure DataBlock where
  data : List UInt8
  result : Option Nat
  result_le : ∀ written, result = some written → written ≤ unsigned data.length

namespace DataBlock

def size (block : DataBlock) : Nat := unsigned block.data.length

/-- The result in an unsigned number. -/
def written (block : DataBlock) : Nat :=
  match block.result with
  | none => 2 ^ 32 - 1
  | some written => written

/-- The whole block was written. -/
def Whole (block : DataBlock) : Prop := block.result = some block.data.length

instance (block : DataBlock) : Decidable block.Whole :=
  inferInstanceAs (Decidable (block.result = some block.data.length))

end DataBlock

namespace FileMgrWriter

/-- `addData`: the answer, the writer and the calls of the status object, or nothing when
the division by zero ends the program. -/
def addData (writer : FileMgrWriter) (block : DataBlock) :
    Option (Bool × FileMgrWriter × List StatusCall) :=
  if writer.mFd ≤ 0 then some (false, writer, [])
  else
    let mTotalWritten := unsigned (writer.mTotalWritten + block.written)
    let after := { writer with mTotalWritten }
    if after.mFileSize = 0 then none
    else
      let progress := .progress (unsigned (mTotalWritten * 100) / after.mFileSize)
      if block.written < block.size then
        some (false, after, [progress, .fail "Failed to write file"])
      else if mTotalWritten ≥ after.mFileSize then some (true, after, [progress, .end])
      else some (true, after, [progress])

end FileMgrWriter

/-- The calls that are made one after the other. -/
def FileStatus.calls (status : FileStatus) (calls : List StatusCall) : FileStatus :=
  calls.foldl (fun status call => (status.call call).1) status

/-- A writer and its status object, with the number of bytes in the blocks that were written
and the progress that was last reported. -/
structure Writing where
  writer : FileMgrWriter
  status : FileStatus
  bytes : Nat
  shown : Nat

namespace Writing

/-- A new writer for a file, which may not have been opened. -/
def initial (mFd : Int) (mFileSize : Nat) (mFileSize_lt : mFileSize < 2 ^ 32)
    (status : FileStatus) : Writing :=
  ⟨⟨mFd, mFileSize, 0, mFileSize_lt⟩, status, 0, 0⟩

/-- The block reaches the file. -/
def Reaches (writing : Writing) (block : DataBlock) : Prop :=
  0 < writing.writer.mFd ∧ block.Whole

instance (writing : Writing) (block : DataBlock) : Decidable (writing.Reaches block) :=
  inferInstanceAs (Decidable (_ ∧ _))

/-- The bytes in the blocks that are written when this one has been handled. -/
def bytesWith (writing : Writing) (block : DataBlock) : Nat :=
  if writing.Reaches block then writing.bytes + block.data.length else writing.bytes

/-- The progress last reported, at most 100. -/
def shownBy (shown : Nat) : List StatusCall → Nat
  | [] => shown
  | .progress percent :: calls => shownBy (min percent 100) calls
  | _ :: calls => shownBy shown calls

def step (writing : Writing) (block : DataBlock) : Writing :=
  match writing.writer.addData block with
  | none => writing
  | some (_, writer, calls) =>
      ⟨writer, writing.status.calls calls, writing.bytesWith block, shownBy writing.shown calls⟩

/-- What is expected of an answer: which blocks it confirms, that the status object gets the
progress and keeps it at most 100, and which calls tell that a block failed or that the file
is complete. -/
structure Answers (writing : Writing) (block : DataBlock) (ok : Bool) (writer : FileMgrWriter)
    (calls : List StatusCall) : Prop where
  whole : ok = true ↔ writing.Reaches block
  progress : ok = true →
    .progress (writing.bytesWith block * 100 / writing.writer.mFileSize) ∈ calls
  capped : ok = true → 1 ≤ writing.status.mCurrentFile →
    (writing.status.calls calls).mFileProgress =
      min (writing.bytesWith block * 100 / writing.writer.mFileSize) 100
  grows : ∀ percent, .progress percent ∈ calls → writing.shown ≤ min percent 100
  fails : (∃ error, .fail error ∈ calls) ↔ 0 < writing.writer.mFd ∧ ¬block.Whole
  counted : writer.mTotalWritten = writing.bytesWith block
  ended : .end ∈ calls ↔
    writing.Reaches block ∧ writing.writer.mFileSize ≤ writing.bytesWith block

/-- There is an answer, and it is the one expected. -/
def Good (writing : Writing) (block : DataBlock) : Prop :=
  ∃ ok writer calls, writing.writer.addData block = some (ok, writer, calls) ∧
    writing.Answers block ok writer calls

/-- The steps that go as expected: the announced size is not zero, hundred times the bytes
fit in 32 bits, and the block is written or nothing of it is, without an error. -/
def Meets (writing : Writing) (block : DataBlock) : Prop :=
  0 < writing.writer.mFd →
    writing.writer.mFileSize ≠ 0 ∧ writing.bytesWith block * 100 < 2 ^ 32 ∧
      (block.Whole ∨ (block.result = some 0 ∧ block.size ≠ 0))

/-- What holds in every state of a run. -/
structure Invariant (writing : Writing) : Prop where
  total : writing.writer.mTotalWritten = writing.bytes
  bytes : writing.bytes * 100 < 2 ^ 32
  shown : writing.shown ≤ min (writing.bytes * 100 / writing.writer.mFileSize) 100

end Writing

namespace FileMgrWriter

variable {writer : FileMgrWriter} {block : DataBlock}

/-- What was written when the block has been handled, in 32 bits. -/
def total (writer : FileMgrWriter) (block : DataBlock) : Nat :=
  unsigned (writer.mTotalWritten + block.written)

/-- The calls after the progress. -/
def rest (writer : FileMgrWriter) (block : DataBlock) : List StatusCall :=
  if block.written < block.size then [.fail "Failed to write file"]
  else if writer.mFileSize ≤ writer.total block then [.end]
  else []

theorem addData_closed (closed : writer.mFd ≤ 0) :
    writer.addData block = some (false, writer, []) := if_pos closed

theorem addData_zero (isOpen : 0 < writer.mFd) (zero : writer.mFileSize = 0) :
    writer.addData block = none := by
  rw [addData, if_neg (by omega)]
  exact if_pos zero

theorem addData_open (isOpen : 0 < writer.mFd) (some : writer.mFileSize ≠ 0) :
    writer.addData block = .some (decide (block.size ≤ block.written),
      { writer with mTotalWritten := writer.total block },
      .progress (unsigned (writer.total block * 100) / writer.mFileSize) ::
        writer.rest block) := by
  rw [addData, if_neg (by omega)]
  dsimp only
  rw [if_neg some, rest]
  by_cases short : block.written < block.size
  · rw [if_pos short, if_pos short, decide_eq_false (by omega)]
    rfl
  · rw [if_neg short, if_neg short, decide_eq_true (by omega)]
    by_cases complete : writer.mFileSize ≤ writer.total block
    · rw [if_pos complete]
      exact if_pos complete
    · rw [if_neg complete]
      exact if_neg complete

theorem progress_mem_iff (percent other : Nat) :
    .progress percent ∈ .progress other :: writer.rest block ↔ percent = other := by
  have rest : StatusCall.progress percent ∉ writer.rest block := by
    rw [FileMgrWriter.rest]
    split
    · simp
    · split <;> simp
  simp [rest]

theorem fail_mem_iff (percent : Nat) :
    (∃ error, .fail error ∈ .progress percent :: writer.rest block) ↔
      block.written < block.size := by
  rw [rest]
  split
  · next short => simp [short]
  · next full => split <;> simp [full]

theorem end_mem_iff (percent : Nat) :
    .end ∈ .progress percent :: writer.rest block ↔
      block.size ≤ block.written ∧ writer.mFileSize ≤ writer.total block := by
  rw [rest]
  split
  · next short => simp [Nat.not_le.mpr short]
  · next full => split <;> simp_all

end FileMgrWriter

namespace FileStatus

variable {status : FileStatus} {writer : FileMgrWriter} {block : DataBlock} {percent : Nat}

theorem call_progress (some : 1 ≤ status.mCurrentFile) :
    (status.call (.progress percent)).1.mFileProgress = min percent 100 ∧
      (status.call (.progress percent)).1.mCurrentFile = status.mCurrentFile := by
  have same : (status.call (.progress percent)).1 = (status.updateProgress percent).2 := by
    change (status.progress percent).1 = _
    rw [progress_fst, if_neg (by omega)]
  rw [same]
  refine ⟨?_, rfl⟩
  change (if percent > 100 then 100 else percent) = _
  split <;> omega

/-- The status object keeps the progress it gets at most 100, and `end` only comes where
that is reached. -/
theorem calls_progress (some : 1 ≤ status.mCurrentFile)
    (complete : .end ∈ writer.rest block → 100 ≤ percent) :
    (status.calls (.progress percent :: writer.rest block)).mFileProgress =
      min percent 100 := by
  obtain ⟨shown, -⟩ := @call_progress status percent some
  change (calls (status.call (.progress percent)).1 (writer.rest block)).mFileProgress = _
  rw [FileMgrWriter.rest] at complete ⊢
  split
  · change ((status.call (.progress percent)).1.fail _).1.mFileProgress = _
    rw [fail_fst]
    exact shown
  · next full =>
      rw [if_neg full] at complete
      split
      · next reached =>
          rw [if_pos reached] at complete
          change ((status.call (.progress percent)).1.end).1.mFileProgress = _
          rw [end_fst, Nat.min_eq_right (complete (by simp))]
          rfl
      · exact shown

end FileStatus

namespace Writing

variable {writing : Writing} {block : DataBlock}

theorem shownBy_progress (shown percent : Nat) (writer : FileMgrWriter) :
    shownBy shown (.progress percent :: writer.rest block) = min percent 100 := by
  rw [shownBy, FileMgrWriter.rest]
  split
  · rfl
  · split <;> rfl

theorem step_of_addData {ok : Bool} {writer : FileMgrWriter} {calls : List StatusCall}
    (answer : writing.writer.addData block = some (ok, writer, calls)) :
    writing.step block = ⟨writer, writing.status.calls calls, writing.bytesWith block,
      shownBy writing.shown calls⟩ := by
  rw [step, answer]

theorem bytesWith_of_whole (isOpen : 0 < writing.writer.mFd) (whole : block.Whole) :
    writing.bytesWith block = writing.bytes + block.data.length := if_pos ⟨isOpen, whole⟩

theorem bytesWith_of_not_whole (part : ¬block.Whole) :
    writing.bytesWith block = writing.bytes := if_neg fun reaches => part reaches.2

theorem bytes_le_bytesWith : writing.bytes ≤ writing.bytesWith block := by
  rw [bytesWith]
  split <;> omega

theorem not_reaches_of_closed (closed : writing.writer.mFd ≤ 0) : ¬writing.Reaches block :=
  fun reaches => Int.not_lt.mpr closed reaches.1

/-- A block is confirmed exactly when it is written, as long as a failure writes nothing. -/
theorem size_le_written_iff
    (outcome : block.Whole ∨ (block.result = some 0 ∧ block.size ≠ 0)) :
    block.size ≤ block.written ↔ block.Whole := by
  rcases outcome with whole | ⟨nothing, some⟩
  · have written : block.written = block.data.length := by
      rw [DataBlock.written, show block.result = _ from whole]
    refine ⟨fun _ => whole, fun _ => ?_⟩
    rw [written]
    exact Nat.mod_le _ _
  · have written : block.written = 0 := by rw [DataBlock.written, nothing]
    have part : ¬block.Whole := by
      intro whole
      have length : block.data.length = 0 :=
        (Option.some.inj (nothing.symm.trans whole)).symm
      exact some (by rw [DataBlock.size, length]; rfl)
    refine ⟨fun enough => ?_, fun whole => absurd whole part⟩
    exact absurd (Nat.le_zero.mp (written ▸ enough)) some

/-- What the writer counts are the bytes of the blocks that were written. -/
theorem total_eq (invariant : writing.Invariant) (isOpen : 0 < writing.writer.mFd)
    (fits : writing.bytesWith block * 100 < 2 ^ 32)
    (outcome : block.Whole ∨ (block.result = some 0 ∧ block.size ≠ 0)) :
    writing.writer.total block = writing.bytesWith block := by
  have small : writing.bytesWith block < 2 ^ 32 := by omega
  have sum : writing.bytes + block.written = writing.bytesWith block := by
    by_cases whole : block.Whole
    · rw [bytesWith_of_whole isOpen whole, DataBlock.written, show block.result = _ from whole]
    · rw [bytesWith_of_not_whole whole, DataBlock.written, (outcome.resolve_left whole).1]
      rfl
  rw [FileMgrWriter.total, invariant.total, sum]
  exact Nat.mod_eq_of_lt small

/-- The answer to a block that is handled as expected. -/
theorem addData_of_meets (invariant : writing.Invariant) (isOpen : 0 < writing.writer.mFd)
    (meets : writing.Meets block) : writing.writer.addData block =
      some (decide (block.size ≤ block.written),
        { writing.writer with mTotalWritten := writing.bytesWith block },
        .progress (writing.bytesWith block * 100 / writing.writer.mFileSize) ::
          writing.writer.rest block) := by
  obtain ⟨some, fits, outcome⟩ := meets isOpen
  have small : unsigned (writing.bytesWith block * 100) = writing.bytesWith block * 100 :=
    Nat.mod_eq_of_lt fits
  rw [FileMgrWriter.addData_open isOpen some, total_eq invariant isOpen fits outcome, small]

theorem Invariant.shown_le (invariant : writing.Invariant) :
    writing.shown ≤
      min (writing.bytesWith block * 100 / writing.writer.mFileSize) 100 := by
  have grows : writing.bytes * 100 / writing.writer.mFileSize ≤
      writing.bytesWith block * 100 / writing.writer.mFileSize :=
    Nat.div_le_div_right (Nat.mul_le_mul_right 100 bytes_le_bytesWith)
  have shown := invariant.shown
  omega

theorem good_of_meets (invariant : writing.Invariant) (meets : writing.Meets block) :
    writing.Good block := by
  by_cases closed : writing.writer.mFd ≤ 0
  · have unreached := @not_reaches_of_closed writing block closed
    refine ⟨_, _, _, FileMgrWriter.addData_closed closed, ?_, nofun, nofun, nofun, ?_, ?_, ?_⟩
    · exact ⟨nofun, fun reaches => absurd reaches unreached⟩
    · exact ⟨nofun, fun failed => absurd failed.1 (Int.not_lt.mpr closed)⟩
    · rw [bytesWith, if_neg unreached]
      exact invariant.total
    · exact ⟨nofun, fun complete => absurd complete.1 unreached⟩
  · have isOpen := Int.not_le.mp closed
    obtain ⟨some, fits, outcome⟩ := meets isOpen
    have confirmed := size_le_written_iff outcome
    have total := total_eq invariant isOpen fits outcome
    have complete : .end ∈ writing.writer.rest block →
        100 ≤ writing.bytesWith block * 100 / writing.writer.mFileSize := by
      intro ended
      have reached := ((FileMgrWriter.end_mem_iff 0).mp (List.mem_cons_of_mem _ ended)).2
      rw [total] at reached
      rw [Nat.le_div_iff_mul_le (Nat.pos_of_ne_zero some), Nat.mul_comm 100]
      exact Nat.mul_le_mul_right 100 reached
    refine ⟨_, _, _, addData_of_meets invariant isOpen meets, ?_, ?_, ?_, ?_, ?_, rfl, ?_⟩
    · rw [decide_eq_true_iff, confirmed]
      exact ⟨fun whole => ⟨isOpen, whole⟩, And.right⟩
    · exact fun _ => List.mem_cons_self
    · exact fun _ started => FileStatus.calls_progress started complete
    · intro percent shown
      rw [(FileMgrWriter.progress_mem_iff percent _).mp shown]
      exact invariant.shown_le
    · rw [FileMgrWriter.fail_mem_iff, ← Nat.not_le, confirmed]
      exact ⟨fun part => ⟨isOpen, part⟩, And.right⟩
    · rw [FileMgrWriter.end_mem_iff, confirmed, total]
      exact and_congr_left' ⟨fun whole => ⟨isOpen, whole⟩, And.right⟩

/-- A number that has lost a carry is less than before by more than any divisor. -/
theorem lt_of_unsigned_div_eq {number size : Nat} (some : size ≠ 0) (small : size < 2 ^ 32)
    (same : number / size = unsigned number / size) : number < 2 ^ 32 := by
  refine Nat.not_le.mp fun large => ?_
  have carry : unsigned number + size ≤ number := by
    unfold unsigned
    omega
  have less : (unsigned number + size) / size ≤ number / size := Nat.div_le_div_right carry
  rw [Nat.add_div_right _ (Nat.pos_of_ne_zero some)] at less
  omega

theorem meets_of_good (invariant : writing.Invariant) (good : writing.Good block) :
    writing.Meets block := by
  intro isOpen
  obtain ⟨ok, writer, calls, answer, expected⟩ := good
  have some : writing.writer.mFileSize ≠ 0 := by
    intro zero
    rw [FileMgrWriter.addData_zero isOpen zero] at answer
    cases answer
  rw [FileMgrWriter.addData_open isOpen some] at answer
  obtain ⟨rfl, rfl, rfl⟩ : _ ∧ _ ∧ _ := by simpa only [Option.some.injEq, Prod.mk.injEq] using answer
  have counted : writing.writer.total block = writing.bytesWith block := expected.counted
  have confirmed : block.size ≤ block.written ↔ block.Whole := by
    rw [← @decide_eq_true_iff (block.size ≤ block.written), expected.whole]
    exact ⟨And.right, fun whole => ⟨isOpen, whole⟩⟩
  by_cases whole : block.Whole
  · have progress := (FileMgrWriter.progress_mem_iff _ _).mp
      (expected.progress (decide_eq_true (confirmed.mpr whole)))
    rw [counted] at progress
    exact ⟨some, lt_of_unsigned_div_eq some writing.writer.mFileSize_lt progress, Or.inl whole⟩
  · have short : block.written < block.size := by
      rw [← Nat.not_le, confirmed]
      exact whole
    have size : block.size < 2 ^ 32 := Nat.mod_lt _ (by decide)
    have bytes := invariant.bytes
    rw [bytesWith_of_not_whole whole] at counted ⊢
    rw [FileMgrWriter.total, invariant.total] at counted
    refine ⟨some, bytes, Or.inr ⟨?_, by omega⟩⟩
    have nothing : block.written = 0 := by
      unfold unsigned at counted
      omega
    rw [DataBlock.written] at nothing
    split at nothing
    · cases nothing
    · next written result => rw [result, nothing]

/-- A step that goes as expected keeps the invariant. -/
theorem step_invariant (invariant : writing.Invariant) (meets : writing.Meets block) :
    (writing.step block).Invariant := by
  by_cases closed : writing.writer.mFd ≤ 0
  · have unreached := @not_reaches_of_closed writing block closed
    have same : writing.bytesWith block = writing.bytes := if_neg unreached
    rw [step_of_addData (FileMgrWriter.addData_closed closed), same]
    exact ⟨invariant.total, invariant.bytes, invariant.shown⟩
  · have isOpen := Int.not_le.mp closed
    rw [step_of_addData (addData_of_meets invariant isOpen meets), shownBy_progress]
    exact ⟨rfl, (meets isOpen).2.1, Nat.le_refl _⟩

theorem initial_invariant (mFd : Int) {mFileSize : Nat} (mFileSize_lt : mFileSize < 2 ^ 32)
    (status : FileStatus) : (initial mFd mFileSize mFileSize_lt status).Invariant :=
  ⟨rfl, Nat.two_pow_pos 32, Nat.zero_le _⟩

end Writing

open Writing in
/-- The blocks that are given to a new writer are handled as expected exactly when the
announced size is not zero, the bytes written do not exceed the 32 bits that the progress is
computed in, and no write call returns an error or writes a part. -/
theorem handles_blocks_iff (mFd : Int) (mFileSize : Fin (2 ^ 32)) (status : FileStatus)
    (blocks : List DataBlock) :
    Guarded Good step (initial mFd mFileSize mFileSize.isLt status) blocks ↔
      Guarded Meets step (initial mFd mFileSize mFileSize.isLt status) blocks := by
  refine (guarded_iff_of_invariant (fun _ _ invariant => ?_) (fun _ _ => step_invariant)
    (initial_invariant mFd mFileSize.isLt status) blocks).symm
  exact ⟨good_of_meets invariant, meets_of_good invariant⟩

open Writing in
/-- A write call that fails is taken for one that has written everything. -/
theorem failed_write_is_confirmed : ¬ ∀ (mFd : Int) (mFileSize : Fin (2 ^ 32))
    (status : FileStatus) (blocks : List DataBlock),
    Guarded Good step (initial mFd mFileSize mFileSize.isLt status) blocks := by
  intro always
  let block : DataBlock := ⟨[1, 2, 3], none, nofun⟩
  have good := (always 3 10 (.initial false) [block]).1
  obtain ⟨ok, writer, calls, answer, expected⟩ := good
  have confirmed : ok = true := by
    have same := congrArg (Option.map Prod.fst) answer
    exact (Option.some.inj same).symm
  exact absurd (expected.whole.mp confirmed) (by decide)

end OpenMplane
