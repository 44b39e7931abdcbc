import OpenMplane.FileStatus

/-!
# The progress of all files

Any sequence of calls keeps both progress values in range.  Between two restarts the
progress of all files grows as long as no more files are started than were announced, but
a file that is started after `success` is one too many and makes it fall.  The output
function is called when the progress had changed in the call before, not in this one.
-/

namespace OpenMplane

open FileStatus

/-- What has been asked for since the last restart: how many files were announced, how many were
started, which one is the current one, its progress and the one reported before, and whether the
progress of each file has only grown. -/
structure History where
  announced : Nat
  starts : Nat
  current : Nat
  file : Nat
  previous : Option Nat
  steady : Bool

namespace History

/-- A file is begun. -/
def begin (history : History) : History :=
  { history with starts := history.starts + 1, current := history.current + 1, file := 0 }

/-- A progress of the current file. -/
def report (history : History) (percent : Nat) : History :=
  { history with previous := some history.file, file := min percent 100 }

def skips (history : History) : Nat → History
  | 0 => history
  | numFiles + 1 => (history.begin.report 100).skips numFiles

/-- All files are handled. -/
def finish (history : History) : History :=
  let history := if history.file < 100 then history.report 100 else history
  { history with current := max history.announced history.current, file := 100 }

def step (history : History) : StatusCall → History
  | .restart num =>
      ⟨if num > 0 then num else max history.announced history.current, 0, 0, 0, none, true⟩
  | .operation _ => history
  | .start _ => history.begin
  | .startOperation _ _ => history.begin
  | .progress progressPercent =>
      if history.current < 1 then history
      else { history.report progressPercent with
        steady := history.steady && decide (history.file ≤ min progressPercent 100) }
  | .end => history.report 100
  | .skip => history.begin.report 100
  | .skipFiles numFiles => history.skips numFiles
  | .fail _ => history
  | .success => history.finish

/-- No more files were started than announced, and the progress of each has only grown. -/
structure Orderly (history : History) : Prop where
  starts : history.starts ≤ history.announced
  steady : history.steady = true

end History

def StatusCall.ends : StatusCall → Bool
  | .end => true
  | .skip => true
  | .skipFiles numFiles => decide (0 < numFiles)
  | .success => true
  | _ => false

/-- A status with what was asked of it. -/
structure Tracked extends History where
  status : FileStatus

namespace Tracked

def initial (mOutputFunc : Bool) : Tracked :=
  ⟨⟨1, 0, 0, 0, none, true⟩, FileStatus.initial mOutputFunc⟩

def step (tracked : Tracked) (call : StatusCall) : Tracked :=
  ⟨tracked.toHistory.step call, (tracked.status.call call).1⟩

/-- A property of every step of a run. -/
def Throughout (property : Tracked → StatusCall → Prop) : Tracked → List StatusCall → Prop
  | _, [] => True
  | tracked, call :: calls =>
      property tracked call ∧ Throughout property (tracked.step call) calls

/-- There are fewer than 2^24 files. -/
def Few (tracked : Tracked) (call : StatusCall) : Prop :=
  (tracked.step call).status.mNumFiles < 2 ^ 24

/-- What is expected of a step. -/
structure Good (tracked : Tracked) (call : StatusCall) : Prop where
  file : (tracked.step call).status.mFileProgress = (tracked.step call).file
  range : (tracked.step call).status.mFileProgress ≤ 100 ∧
    (tracked.step call).status.mTotalProgress ≤ 100
  grows : (∀ num, call ≠ .restart num) → (tracked.step call).Orderly →
    tracked.status.mTotalProgress ≤ (tracked.step call).status.mTotalProgress
  ended : call.ends = true → (tracked.step call).Orderly →
    (tracked.step call).starts = (tracked.step call).announced →
      (tracked.step call).status.mFileProgress = 100 ∧
        (tracked.step call).status.mTotalProgress = 100
  whole : (tracked.step call).Orderly →
    (tracked.step call).starts = (tracked.step call).announced →
      (tracked.step call).status.mFileProgress = 100 →
        (tracked.step call).status.mTotalProgress = 100
  reports : ∀ progressPercent, call = .progress progressPercent →
    tracked.status.mOutputFunc = true →
      ((tracked.status.call call).2 ≠ [] ↔
        min progressPercent 100 ≠ tracked.status.mFileProgress)

/-- The steps that go as expected, by what was asked for: the progress that is reported differs
from that of the file exactly when that of the file differs from the one reported before, and no
progress below 100 is reported for a file that was started after all files had been handled. -/
structure Meets (tracked : Tracked) (call : StatusCall) : Prop where
  reports : ∀ progressPercent, call = .progress progressPercent →
    tracked.status.mOutputFunc = true →
      ((1 ≤ tracked.current ∧ tracked.previous ≠ some tracked.file) ↔
        min progressPercent 100 ≠ tracked.file)
  within : ∀ progressPercent, call = .progress progressPercent →
    (tracked.toHistory.step call).Orderly → tracked.announced < tracked.current →
      100 ≤ progressPercent

/-- The status is what was asked for. -/
structure Follows (tracked : Tracked) : Prop where
  current : tracked.status.mCurrentFile = tracked.current
  numFiles : tracked.status.mNumFiles = max tracked.announced tracked.current
  file : tracked.status.mFileProgress = tracked.file
  previous : tracked.status.mPrevProgress = tracked.previous.elim (-1) Int.ofNat

/-- The files are handled one by one as announced. -/
structure Counting (tracked : Tracked) : Prop where
  current : tracked.status.mCurrentFile = tracked.starts
  announced : tracked.status.mNumFiles = tracked.announced
  none : tracked.status.mCurrentFile = 0 → tracked.status.mTotalProgress = 0
  below : 1 ≤ tracked.status.mCurrentFile → tracked.status.mTotalProgress ≤
    ((tracked.status.mCurrentFile - 1) * 100 + tracked.status.mFileProgress) /
      tracked.status.mNumFiles
  ended : tracked.status.mFileProgress = 100 → tracked.status.mTotalProgress =
    tracked.status.mCurrentFile * 100 / tracked.status.mNumFiles

/-- All files have been handled. -/
structure Complete (tracked : Tracked) : Prop where
  total : tracked.status.mTotalProgress = 100
  current : tracked.status.mCurrentFile = tracked.status.mNumFiles
  ended : tracked.status.mCurrentFile ≤ tracked.announced → tracked.status.mFileProgress = 100

/-- What holds in every state of a run. -/
structure Invariant (tracked : Tracked) : Prop where
  positive : 0 < tracked.status.mNumFiles
  current : tracked.status.mCurrentFile ≤ tracked.status.mNumFiles
  announced : 0 < tracked.announced ∧ tracked.announced ≤ tracked.status.mNumFiles
  file : tracked.status.mFileProgress ≤ 100
  total : tracked.status.mTotalProgress ≤ 100
  orderly : tracked.Orderly → tracked.Counting ∨ tracked.Complete

end Tracked

variable {status : FileStatus} {tracked : Tracked} {call : StatusCall}

section Updates

/-- The progress of all files after an update, without the arithmetic of 32 bits. -/
theorem updateProgress_eq (few : status.mNumFiles < 2 ^ 24)
    (current : status.mCurrentFile ≤ status.mNumFiles) (progress : Nat)
    (some : progress < 100 → 1 ≤ status.mCurrentFile) :
    (status.updateProgress progress).2 = { status with
      mPrevProgress := status.mFileProgress
      mFileProgress := min progress 100
      mTotalProgress :=
        if 100 ≤ progress then status.mCurrentFile * 100 / status.mNumFiles
        else ((status.mCurrentFile - 1) * 100 + progress) / status.mNumFiles } := by
  have whole : unsigned (status.mCurrentFile * 100) = status.mCurrentFile * 100 :=
    Nat.mod_eq_of_lt (by omega)
  by_cases full : 100 ≤ progress
  · have capped : (if progress > 100 then 100 else progress) = 100 := by
      split <;> omega
    rw [updateProgress]
    simp only [capped, if_true, whole, if_pos full, Nat.min_eq_right full]
  · have capped : (if progress > 100 then 100 else progress) = progress := if_neg (by omega)
    have one := some (by omega)
    have before : unsigned (status.mCurrentFile + (2 ^ 32 - 1)) = status.mCurrentFile - 1 := by
      unfold unsigned
      omega
    have share : unsigned (unsigned ((status.mCurrentFile - 1) * 100) + progress) =
        (status.mCurrentFile - 1) * 100 + progress := by
      unfold unsigned
      omega
    have below : progress ≠ 100 := by omega
    rw [updateProgress]
    simp only [capped, if_neg below, before, share, if_neg full]
    rw [Nat.min_eq_left (by omega)]

theorem start_fst (filename : String) : (status.start filename).1 = { status with
    mCurrentFile := unsigned (status.mCurrentFile + 1)
    mFile := filename
    mFileProgress := 0
    mNumFiles := if unsigned (status.mCurrentFile + 1) > status.mNumFiles then
      unsigned (status.mCurrentFile + 1) else status.mNumFiles } := by
  rw [start]
  dsimp only
  split
  · rfl
  · split
    · rfl
    · split <;> rfl

theorem progress_fst (progressPercent : Nat) : (status.progress progressPercent).1 =
    if status.mCurrentFile < 1 then status else (status.updateProgress progressPercent).2 := by
  rw [progress]
  split
  · rfl
  · dsimp only
    split
    · rfl
    · split <;> rfl

theorem progress_snd (output : status.mOutputFunc = true) (progressPercent : Nat) :
    (status.progress progressPercent).2 ≠ [] ↔
      1 ≤ status.mCurrentFile ∧ status.mPrevProgress ≠ status.mFileProgress := by
  rw [progress]
  split
  · next none => simp [Nat.lt_one_iff.mp none]
  · next some =>
      have one : 1 ≤ status.mCurrentFile := by omega
      by_cases changed : status.mPrevProgress = status.mFileProgress
      · simp [updateProgress, changed]
      · simp [updateProgress, changed, output, one]

theorem end_fst : status.end.1 = (status.updateProgress 100).2 := by
  rw [FileStatus.end]
  dsimp only
  split
  · rfl
  · split <;> rfl

theorem fail_fst (error : String) :
    (status.fail error).1 = { status with mError := error, mDone := true } := by
  rw [fail]
  dsimp only
  split <;> rfl

end Updates

namespace Tracked

variable {before after : Tracked} {percent : Nat}

/-- A file has been started. -/
structure Started (before after : Tracked) : Prop where
  numFiles : after.status.mNumFiles =
    max before.status.mNumFiles (before.status.mCurrentFile + 1)
  current : after.status.mCurrentFile = before.status.mCurrentFile + 1
  file : after.status.mFileProgress = 0
  total : after.status.mTotalProgress = before.status.mTotalProgress
  announced : after.announced = before.announced
  starts : after.starts = before.starts + 1
  steady : after.steady = true → before.steady = true

/-- A progress has been reported. -/
structure Updated (before after : Tracked) (progress : Nat) : Prop where
  numFiles : after.status.mNumFiles = before.status.mNumFiles
  current : after.status.mCurrentFile = before.status.mCurrentFile
  file : after.status.mFileProgress = min progress 100
  total : after.status.mTotalProgress =
    if 100 ≤ progress then before.status.mCurrentFile * 100 / before.status.mNumFiles
    else ((before.status.mCurrentFile - 1) * 100 + progress) / before.status.mNumFiles
  announced : after.announced = before.announced
  starts : after.starts = before.starts
  steady : after.steady = true →
    before.steady = true ∧ before.status.mFileProgress ≤ min progress 100

theorem share_le {current numFiles : Nat} (within : current ≤ numFiles) : current * 100 / numFiles ≤ 100 :=
  Nat.div_le_of_le_mul (Nat.mul_le_mul_right 100 within)

theorem part_le {current numFiles progress : Nat} (one : 1 ≤ current)
    (capped : progress ≤ 100) :
    ((current - 1) * 100 + progress) / numFiles ≤ current * 100 / numFiles :=
  Nat.div_le_div_right (by omega)

theorem Started.invariant (started : Started before after) (invariant : before.Invariant) :
    after.Invariant := by
  have numFiles := started.numFiles
  have current := started.current
  have ann := started.announced
  refine ⟨?_, ?_, ?_, ?_, ?_, fun orderly => ?_⟩
  · have positive := invariant.positive
    omega
  · omega
  · have announced := invariant.announced
    omega
  · rw [started.file]
    omega
  · rw [started.total]
    exact invariant.total
  · have starts := started.starts
    have enough := orderly.starts
    rcases invariant.orderly ⟨by omega, started.steady orderly.steady⟩ with counting | complete
    · left
      have same := counting.current
      have announced := counting.announced
      have nums : after.status.mNumFiles = before.status.mNumFiles := by omega
      refine ⟨by omega, by omega, by omega, fun _ => ?_, fun full => ?_⟩
      · rw [started.total, started.file, nums, current, Nat.add_sub_cancel, Nat.add_zero]
        by_cases one : 1 ≤ before.status.mCurrentFile
        · exact Nat.le_trans (counting.below one) (part_le one invariant.file)
        · rw [counting.none (by omega)]
          exact Nat.zero_le _
      · rw [started.file] at full
        cases full
    · right
      have last := complete.current
      refine ⟨by rw [started.total, complete.total], by omega, fun within => ?_⟩
      have announced := invariant.announced
      omega

theorem Updated.total_le (updated : Updated before after percent)
    (invariant : before.Invariant) (some : percent < 100 → 1 ≤ before.status.mCurrentFile) :
    after.status.mTotalProgress ≤ 100 := by
  rw [updated.total]
  have whole := share_le invariant.current
  split
  · exact whole
  · exact Nat.le_trans (part_le (some (by omega)) (by omega)) whole

/-- While the files are counted, a progress that does not fall lets that of all files grow. -/
theorem Updated.counting (updated : Updated before after percent)
    (some : percent < 100 → 1 ≤ before.status.mCurrentFile) (steady : after.steady = true)
    (counting : before.Counting) :
    after.Counting ∧ before.status.mTotalProgress ≤ after.status.mTotalProgress := by
  have numFiles := updated.numFiles
  have current := updated.current
  have file := updated.file
  have grown := (updated.steady steady).2
  by_cases full : 100 ≤ percent
  · have total := updated.total
    rw [if_pos full] at total
    rw [Nat.min_eq_right full] at file grown
    refine ⟨⟨?_, ?_, fun none => ?_, fun one => ?_, fun _ => ?_⟩, ?_⟩
    · rw [current, updated.starts, counting.current]
    · rw [numFiles, updated.announced, counting.announced]
    · rw [total, ← current, none]
      simp
    · have same : (after.status.mCurrentFile - 1) * 100 + after.status.mFileProgress =
          before.status.mCurrentFile * 100 := by omega
      refine Nat.le_of_eq ?_
      rw [same, numFiles, total]
    · rw [total, current, numFiles]
    · rw [total]
      by_cases one : 1 ≤ before.status.mCurrentFile
      · exact Nat.le_trans (counting.below one) (part_le one grown)
      · rw [counting.none (by omega)]
        exact Nat.zero_le _
  · have total := updated.total
    rw [if_neg full] at total
    rw [Nat.min_eq_left (by omega)] at file grown
    have one := some (by omega)
    refine ⟨⟨?_, ?_, fun none => ?_, fun _ => ?_, fun ended => ?_⟩, ?_⟩
    · rw [current, updated.starts, counting.current]
    · rw [numFiles, updated.announced, counting.announced]
    · omega
    · refine Nat.le_of_eq ?_
      rw [total, current, numFiles, file]
    · omega
    · rw [total]
      exact Nat.le_trans (counting.below one) (Nat.div_le_div_right (by omega))

/-- When all files have been handled, only their end can still be reported. -/
theorem Updated.complete (updated : Updated before after percent) (invariant : before.Invariant)
    (within : before.announced < before.status.mCurrentFile → 100 ≤ percent)
    (steady : after.steady = true) (complete : before.Complete) :
    after.Complete ∧ before.status.mTotalProgress ≤ after.status.mTotalProgress := by
  have grown := (updated.steady steady).2
  have full : 100 ≤ percent := by
    by_cases more : before.announced < before.status.mCurrentFile
    · exact within more
    · have ended := complete.ended (by omega)
      omega
  have total : after.status.mTotalProgress = 100 := by
    rw [updated.total, if_pos full, complete.current]
    exact Nat.mul_div_cancel_left 100 invariant.positive
  have file := updated.file
  refine ⟨⟨total, ?_, fun _ => ?_⟩, ?_⟩
  · rw [updated.current, updated.numFiles, complete.current]
  · omega
  · refine Nat.le_of_eq ?_
    rw [complete.total, total]

theorem Updated.orderly (updated : Updated before after percent) (orderly : after.Orderly) :
    before.Orderly := by
  have starts := orderly.starts
  rw [updated.starts, updated.announced] at starts
  exact ⟨starts, (updated.steady orderly.steady).1⟩

theorem Updated.invariant (updated : Updated before after percent)
    (invariant : before.Invariant) (some : percent < 100 → 1 ≤ before.status.mCurrentFile)
    (within : after.Orderly → before.announced < before.status.mCurrentFile → 100 ≤ percent) :
    after.Invariant := by
  have numFiles := updated.numFiles
  have current := updated.current
  have announced := updated.announced
  have file := updated.file
  have positive := invariant.positive
  have inside := invariant.current
  have known := invariant.announced
  refine ⟨by omega, by omega, by omega, by omega, updated.total_le invariant some,
    fun orderly => ?_⟩
  rcases invariant.orderly (updated.orderly orderly) with counting | complete
  · exact Or.inl (updated.counting some orderly.steady counting).1
  · exact Or.inr (updated.complete invariant (within orderly) orderly.steady complete).1

theorem Updated.grows (updated : Updated before after percent)
    (invariant : before.Invariant) (some : percent < 100 → 1 ≤ before.status.mCurrentFile)
    (within : after.Orderly → before.announced < before.status.mCurrentFile → 100 ≤ percent)
    (orderly : after.Orderly) :
    before.status.mTotalProgress ≤ after.status.mTotalProgress := by
  rcases invariant.orderly (updated.orderly orderly) with counting | complete
  · exact (updated.counting some orderly.steady counting).2
  · exact (updated.complete invariant (within orderly) orderly.steady complete).2

/-- Nothing that is counted has changed. -/
structure Unchanged (before after : Tracked) : Prop where
  numFiles : after.status.mNumFiles = before.status.mNumFiles
  current : after.status.mCurrentFile = before.status.mCurrentFile
  file : after.status.mFileProgress = before.status.mFileProgress
  total : after.status.mTotalProgress = before.status.mTotalProgress
  announced : after.announced = before.announced
  starts : after.starts = before.starts
  steady : after.steady = true → before.steady = true

theorem Unchanged.invariant (unchanged : Unchanged before after)
    (invariant : before.Invariant) : after.Invariant := by
  obtain ⟨numFiles, current, file, total, announced, starts, steady⟩ := unchanged
  have inside := invariant.current
  have known := invariant.announced
  have positive := invariant.positive
  have fileRange := invariant.file
  have totalRange := invariant.total
  refine ⟨by omega, by omega, by omega, by omega, by omega, fun orderly => ?_⟩
  have enough := orderly.starts
  rcases invariant.orderly ⟨by omega, steady orderly.steady⟩ with counting | complete
  · left
    refine ⟨?_, ?_, ?_, ?_, ?_⟩
    · rw [current, starts, counting.current]
    · rw [numFiles, announced, counting.announced]
    · rw [current, total]
      exact counting.none
    · rw [current, total, file, numFiles]
      exact counting.below
    · rw [file, total, current, numFiles]
      exact counting.ended
  · right
    refine ⟨?_, ?_, ?_⟩
    · rw [total, complete.total]
    · rw [current, numFiles, complete.current]
    · rw [current, announced, file]
      exact complete.ended

section Steps

theorem started_of_status (invariant : tracked.Invariant) {filename : String}
    (status : after.status = (tracked.status.start filename).1)
    (few : after.status.mNumFiles < 2 ^ 24) (announced : after.announced = tracked.announced)
    (starts : after.starts = tracked.starts + 1)
    (steady : after.steady = true → tracked.steady = true) : Started tracked after := by
  have current := invariant.current
  rw [start_fst] at status
  have bound : tracked.status.mCurrentFile + 1 < 2 ^ 32 := by
    have grown : tracked.status.mNumFiles ≤ after.status.mNumFiles := by
      rw [status]
      dsimp only
      split <;> omega
    omega
  have next : unsigned (tracked.status.mCurrentFile + 1) = tracked.status.mCurrentFile + 1 :=
    Nat.mod_eq_of_lt bound
  rw [next] at status
  refine ⟨?_, by rw [status], by rw [status], by rw [status], announced, starts, steady⟩
  rw [status]
  dsimp only
  split <;> omega

theorem updated_of_status (invariant : tracked.Invariant)
    (status : after.status = (tracked.status.updateProgress percent).2)
    (few : after.status.mNumFiles < 2 ^ 24) (announced : after.announced = tracked.announced)
    (some : percent < 100 → 1 ≤ tracked.status.mCurrentFile)
    (starts : after.starts = tracked.starts)
    (steady : after.steady = true → tracked.steady = true ∧
      tracked.status.mFileProgress ≤ min percent 100) : Updated tracked after percent := by
  have same : after.status.mNumFiles = tracked.status.mNumFiles := by rw [status, updateProgress]
  rw [updateProgress_eq (by omega) invariant.current percent some] at status
  exact ⟨by rw [status], by rw [status], by rw [status], by rw [status], announced, starts, steady⟩

/-- What a step keeps: the invariant, and the progress of all files as long as the files
are handled in order. -/
structure Kept (before after : Tracked) : Prop where
  invariant : after.Invariant
  orderly : after.Orderly → before.Orderly
  grows : after.Orderly → before.status.mTotalProgress ≤ after.status.mTotalProgress

theorem Kept.trans {middle : Tracked} (first : Kept before middle) (second : Kept middle after) :
    Kept before after :=
  ⟨second.invariant, fun orderly => first.orderly (second.orderly orderly), fun orderly =>
    Nat.le_trans (first.grows (second.orderly orderly)) (second.grows orderly)⟩

theorem Started.kept (started : Started before after) (invariant : before.Invariant) :
    Kept before after := by
  refine ⟨started.invariant invariant, fun orderly => ?_, fun _ => ?_⟩
  · have enough := orderly.starts
    rw [started.starts, started.announced] at enough
    exact ⟨by omega, started.steady orderly.steady⟩
  · exact Nat.le_of_eq started.total.symm

theorem Updated.kept (updated : Updated before after percent) (invariant : before.Invariant)
    (some : percent < 100 → 1 ≤ before.status.mCurrentFile)
    (within : after.Orderly → before.announced < before.status.mCurrentFile → 100 ≤ percent) :
    Kept before after :=
  ⟨updated.invariant invariant some within, updated.orderly,
    updated.grows invariant some within⟩

theorem Unchanged.kept (unchanged : Unchanged before after) (invariant : before.Invariant) :
    Kept before after := by
  refine ⟨unchanged.invariant invariant, fun orderly => ?_, fun _ => ?_⟩
  · have enough := orderly.starts
    rw [unchanged.starts, unchanged.announced] at enough
    exact ⟨enough, unchanged.steady orderly.steady⟩
  · exact Nat.le_of_eq unchanged.total.symm

/-- A file that is skipped is started and ended. -/
theorem skip_kept (invariant : tracked.Invariant)
    (few : tracked.status.skip.1.mNumFiles < 2 ^ 24) :
    Kept tracked ⟨tracked.toHistory.begin.report 100, tracked.status.skip.1⟩ := by
  let middle : Tracked := ⟨tracked.toHistory.begin, (tracked.status.start "").1⟩
  have numFiles : tracked.status.skip.1.mNumFiles = middle.status.mNumFiles := rfl
  have started : Started tracked middle :=
    started_of_status invariant rfl (by omega) rfl rfl id
  have first := started.kept invariant
  have updated : Updated middle ⟨tracked.toHistory.begin.report 100, tracked.status.skip.1⟩ 100 := by
    refine updated_of_status first.invariant rfl few rfl (by omega) rfl fun isSteady =>
      ⟨isSteady, ?_⟩
    rw [started.file]
    omega
  exact first.trans (updated.kept first.invariant (by omega) fun _ _ => Nat.le_refl _)

theorem numFiles_start (status : FileStatus) (filename : String) :
    status.mNumFiles ≤ (status.start filename).1.mNumFiles := by
  rw [start_fst]
  dsimp only
  split <;> omega

theorem numFiles_skip : status.mNumFiles ≤ status.skip.1.mNumFiles :=
  numFiles_start status ""

theorem numFiles_skipFiles (numFiles : Nat) :
    status.mNumFiles ≤ (status.skipFiles numFiles).1.mNumFiles := by
  induction numFiles generalizing status with
  | zero => exact Nat.le_refl _
  | succ numFiles ih => exact Nat.le_trans numFiles_skip ih

theorem skipFiles_kept {numFiles : Nat} (invariant : tracked.Invariant)
    (few : (tracked.status.skipFiles numFiles).1.mNumFiles < 2 ^ 24) :
    Kept tracked ⟨tracked.toHistory.skips numFiles, (tracked.status.skipFiles numFiles).1⟩ := by
  induction numFiles generalizing tracked with
  | zero => exact Unchanged.kept ⟨rfl, rfl, rfl, rfl, rfl, rfl, id⟩ invariant
  | succ numFiles ih =>
      have grown : tracked.status.skip.1.mNumFiles ≤
          (tracked.status.skip.1.skipFiles numFiles).1.mNumFiles := numFiles_skipFiles numFiles
      have first : Kept tracked ⟨tracked.toHistory.begin.report 100, tracked.status.skip.1⟩ :=
        skip_kept invariant (Nat.lt_of_le_of_lt grown few)
      exact first.trans (ih first.invariant few)

theorem starts_finish (history : History) : history.finish.starts = history.starts := by
  unfold History.finish
  dsimp only
  split <;> rfl

theorem announced_finish (history : History) :
    history.finish.announced = history.announced := by
  unfold History.finish
  dsimp only
  split <;> rfl

theorem steady_finish (history : History) : history.finish.steady = history.steady := by
  unfold History.finish
  dsimp only
  split <;> rfl

theorem success_kept (invariant : tracked.Invariant) :
    Kept tracked (tracked.step .success) := by
  have status : (tracked.step .success).status = tracked.status.success.1 := rfl
  have announced : (tracked.step .success).announced = tracked.announced := announced_finish _
  have starts : (tracked.step .success).starts = tracked.starts := starts_finish _
  have steady : (tracked.step .success).steady = tracked.steady := steady_finish _
  generalize tracked.step .success = after at *
  have ended : (if tracked.status.mFileProgress < 100 then tracked.status.end
      else (tracked.status, [])).1.mNumFiles = tracked.status.mNumFiles := by
    split
    · rw [end_fst, updateProgress]
    · rfl
  have numFiles : after.status.mNumFiles = tracked.status.mNumFiles := by
    rw [status]
    exact ended
  have current : after.status.mCurrentFile = after.status.mNumFiles := by
    rw [status, success]
  have file : after.status.mFileProgress = 100 := by rw [status, success]
  have total : after.status.mTotalProgress = 100 := by rw [status, success]
  have positive := invariant.positive
  have known := invariant.announced
  have range := invariant.total
  refine ⟨⟨by omega, by omega, by omega, by omega, by omega, fun _ => Or.inr ?_⟩, fun orderly => ?_,
    fun _ => by omega⟩
  · exact ⟨total, current, fun _ => file⟩
  · have enough := orderly.starts
    rw [starts, announced] at enough
    exact ⟨enough, steady ▸ orderly.steady⟩

theorem restart_invariant (invariant : tracked.Invariant) (follows : tracked.Follows)
    (num : Nat) : (tracked.step (.restart num)).Invariant := by
  have positive := invariant.positive
  have numFiles := follows.numFiles
  have same : (tracked.step (.restart num)).status.mNumFiles =
      (tracked.step (.restart num)).announced := by
    change (if num > 0 then num else tracked.status.mNumFiles) =
      if num > 0 then num else max tracked.announced tracked.current
    rw [numFiles]
  have some : 0 < (tracked.step (.restart num)).status.mNumFiles := by
    change 0 < if num > 0 then num else tracked.status.mNumFiles
    split <;> omega
  refine ⟨some, Nat.zero_le _, ⟨same ▸ some, Nat.le_of_eq same.symm⟩, Nat.zero_le _,
    Nat.zero_le _, fun _ => Or.inl ⟨rfl, same, fun _ => rfl, fun one => ?_, fun full => ?_⟩⟩
  · cases one
  · cases full

section Followed

theorem follows_begin (follows : tracked.Follows) (few : tracked.current + 1 < 2 ^ 32)
    (filename : String) :
    Follows ⟨tracked.toHistory.begin, (tracked.status.start filename).1⟩ := by
  have current := follows.current
  have numFiles := follows.numFiles
  have next : unsigned (tracked.status.mCurrentFile + 1) = tracked.status.mCurrentFile + 1 :=
    Nat.mod_eq_of_lt (by omega)
  rw [start_fst, next]
  refine ⟨congrArg (· + 1) current, ?_, rfl, follows.previous⟩
  change (if tracked.status.mCurrentFile + 1 > tracked.status.mNumFiles then
    tracked.status.mCurrentFile + 1 else tracked.status.mNumFiles) =
      max tracked.announced (tracked.current + 1)
  split <;> omega

theorem follows_report (follows : tracked.Follows) (percent : Nat) :
    Follows ⟨tracked.toHistory.report percent, (tracked.status.updateProgress percent).2⟩ := by
  refine ⟨follows.current, follows.numFiles, ?_, ?_⟩
  · change (if percent > 100 then 100 else percent) = min percent 100
    split <;> omega
  · exact congrArg Int.ofNat follows.file

theorem current_le (follows : tracked.Follows) : tracked.current ≤ tracked.status.mNumFiles := by
  rw [follows.numFiles]
  exact Nat.le_max_right _ _

theorem follows_skip (follows : tracked.Follows)
    (few : tracked.status.skip.1.mNumFiles < 2 ^ 24) :
    Follows ⟨tracked.toHistory.begin.report 100, tracked.status.skip.1⟩ := by
  have grown : tracked.status.mNumFiles ≤ tracked.status.skip.1.mNumFiles := numFiles_skip
  have within := current_le follows
  exact follows_report (follows_begin follows (by omega) "") 100

theorem follows_skipFiles {numFiles : Nat} (follows : tracked.Follows)
    (few : (tracked.status.skipFiles numFiles).1.mNumFiles < 2 ^ 24) :
    Follows ⟨tracked.toHistory.skips numFiles, (tracked.status.skipFiles numFiles).1⟩ := by
  induction numFiles generalizing tracked with
  | zero => exact follows
  | succ numFiles ih =>
      have grown : tracked.status.skip.1.mNumFiles ≤
          (tracked.status.skip.1.skipFiles numFiles).1.mNumFiles := numFiles_skipFiles numFiles
      have first := follows_skip follows (Nat.lt_of_le_of_lt grown few)
      exact @ih ⟨tracked.toHistory.begin.report 100, tracked.status.skip.1⟩ first few

theorem follows_end (follows : tracked.Follows) :
    Follows ⟨tracked.toHistory.report 100, tracked.status.end.1⟩ := by
  rw [end_fst]
  exact follows_report follows 100

theorem follows_success (follows : tracked.Follows) : (tracked.step .success).Follows := by
  have ended : Follows ⟨if tracked.file < 100 then tracked.toHistory.report 100
      else tracked.toHistory, (if tracked.status.mFileProgress < 100 then tracked.status.end
      else (tracked.status, [])).1⟩ := by
    rw [follows.file]
    split
    · exact follows_end follows
    · exact follows
  exact ⟨ended.numFiles, ended.numFiles.trans (Nat.max_eq_right (Nat.le_max_left _ _)).symm, rfl,
    ended.previous⟩

theorem step_follows (follows : tracked.Follows) (few : Few tracked call) :
    (tracked.step call).Follows := by
  have within := current_le follows
  have begun : ∀ filename, (tracked.status.start filename).1.mNumFiles < 2 ^ 24 →
      Follows ⟨tracked.toHistory.begin, (tracked.status.start filename).1⟩ := by
    intro filename few
    have grown := numFiles_start tracked.status filename
    exact follows_begin follows (by omega) filename
  cases call with
  | restart num =>
      have numFiles := follows.numFiles
      refine ⟨rfl, ?_, rfl, rfl⟩
      change (if num > 0 then num else tracked.status.mNumFiles) =
        max (if num > 0 then num else max tracked.announced tracked.current) 0
      split <;> omega
  | operation op => exact ⟨follows.current, follows.numFiles, follows.file, follows.previous⟩
  | start filename => exact begun filename few
  | startOperation op filename =>
      have named : Follows ⟨tracked.toHistory, (tracked.status.operation op).1⟩ :=
        ⟨follows.current, follows.numFiles, follows.file, follows.previous⟩
      have grown := numFiles_start (tracked.status.operation op).1 filename
      have fewer : ((tracked.status.operation op).1.start filename).1.mNumFiles < 2 ^ 24 := few
      have within : tracked.current ≤ (tracked.status.operation op).1.mNumFiles := within
      have room : tracked.current + 1 < 2 ^ 32 := by omega
      exact @follows_begin ⟨tracked.toHistory, (tracked.status.operation op).1⟩ named room filename
  | progress progressPercent =>
      have same : (tracked.step (.progress progressPercent)).status = _ :=
        progress_fst progressPercent
      rw [follows.current] at same
      by_cases none : tracked.current < 1
      · rw [if_pos none] at same
        rw [step, History.step, if_pos none]
        have unchanged : (tracked.status.call (.progress progressPercent)).1 = tracked.status := same
        rw [unchanged]
        exact follows
      · rw [if_neg none] at same
        have reported := follows_report follows progressPercent
        rw [← same] at reported
        rw [step, History.step, if_neg none]
        exact ⟨reported.current, reported.numFiles, reported.file, reported.previous⟩
  | «end» => exact follows_end follows
  | skip => exact follows_skip follows few
  | skipFiles numFiles => exact follows_skipFiles follows few
  | fail error =>
      have same : (tracked.step (.fail error)).status = _ := fail_fst error
      exact ⟨by rw [same]; exact follows.current, by rw [same]; exact follows.numFiles,
        by rw [same]; exact follows.file, by rw [same]; exact follows.previous⟩
  | success => exact follows_success follows

theorem file_of_ends (history : History) (ends : call.ends = true) :
    (history.step call).file = 100 := by
  cases call with
  | restart num => cases ends
  | operation op => cases ends
  | start filename => cases ends
  | startOperation op filename => cases ends
  | progress progressPercent => cases ends
  | «end» => rfl
  | skip => rfl
  | skipFiles numFiles =>
      have skipped : ∀ numFiles history, History.file history = 100 →
          (history.skips numFiles).file = 100 := by
        intro numFiles
        induction numFiles with
        | zero => exact fun history full => full
        | succ numFiles ih => exact fun history _ => ih _ rfl
      cases numFiles with
      | zero => cases ends
      | succ numFiles => exact skipped numFiles _ rfl
  | fail error => cases ends
  | success => rfl

theorem mPrevProgress_ne_iff (follows : tracked.Follows) :
    tracked.status.mPrevProgress ≠ tracked.status.mFileProgress ↔
      tracked.previous ≠ some tracked.file := by
  rw [follows.previous, follows.file]
  cases tracked.previous with
  | none =>
      simp only [Option.elim_none, ne_eq, reduceCtorEq, not_false_eq_true]
  | some previous =>
      simp only [Option.elim_some, ne_eq, Option.some.injEq]
      exact not_congr Int.ofNat_inj

end Followed

theorem step_kept (invariant : tracked.Invariant) (follows : tracked.Follows)
    (few : Few tracked call)
    (within : ∀ progressPercent, call = .progress progressPercent →
      (tracked.toHistory.step call).Orderly → tracked.announced < tracked.current →
        100 ≤ progressPercent) (running : ∀ num, call ≠ .restart num) :
    Kept tracked (tracked.step call) := by
  cases call with
  | restart num => exact absurd rfl (running num)
  | operation op => exact Unchanged.kept ⟨rfl, rfl, rfl, rfl, rfl, rfl, id⟩ invariant
  | start filename => exact (started_of_status invariant rfl few rfl rfl id).kept invariant
  | startOperation op filename =>
      let named : Tracked := ⟨tracked.toHistory, (tracked.status.operation op).1⟩
      have renamed : Kept tracked named :=
        Unchanged.kept ⟨rfl, rfl, rfl, rfl, rfl, rfl, id⟩ invariant
      have started : Started named (tracked.step (.startOperation op filename)) :=
        started_of_status renamed.invariant rfl few rfl rfl id
      exact renamed.trans (started.kept renamed.invariant)
  | progress progressPercent =>
      have status : (tracked.step (.progress progressPercent)).status = _ :=
        progress_fst progressPercent
      have within := within progressPercent rfl
      rw [follows.current] at status
      by_cases none : tracked.current < 1
      · rw [if_pos none] at status
        have same : (tracked.step (.progress progressPercent)).toHistory = tracked.toHistory :=
          if_pos none
        exact Unchanged.kept ⟨by rw [status], by rw [status], by rw [status], by rw [status],
          by rw [same], by rw [same], by rw [same]; exact id⟩ invariant
      · rw [if_neg none] at status
        have same : (tracked.step (.progress progressPercent)).toHistory =
            { tracked.toHistory.report progressPercent with
              steady := tracked.steady && decide (tracked.file ≤ min progressPercent 100) } :=
          if_neg none
        have current := follows.current
        have updated : Updated tracked (tracked.step (.progress progressPercent))
            progressPercent := by
          refine updated_of_status invariant status few (by rw [same]; rfl) (by omega)
            (by rw [same]; rfl) fun isSteady => ?_
          rw [same] at isSteady
          obtain ⟨before, now⟩ := Bool.and_eq_true_iff.mp isSteady
          rw [follows.file]
          exact ⟨before, of_decide_eq_true now⟩
        refine updated.kept invariant (by omega) ?_
        rw [current]
        exact within
  | «end» =>
      have status : (tracked.step .end).status = _ := end_fst
      have updated : Updated tracked (tracked.step .end) 100 := by
        refine updated_of_status invariant status few rfl (by omega) rfl fun isSteady =>
          ⟨isSteady, ?_⟩
        rw [Nat.min_self]
        exact invariant.file
      exact updated.kept invariant (by omega) fun _ _ => Nat.le_refl _
  | skip => exact skip_kept invariant few
  | skipFiles numFiles => exact skipFiles_kept invariant few
  | fail error =>
      have status : (tracked.step (.fail error)).status = _ := fail_fst error
      exact Unchanged.kept ⟨by rw [status], by rw [status], by rw [status], by rw [status], rfl,
        rfl, id⟩ invariant
  | success => exact success_kept invariant

theorem Invariant.whole (invariant : tracked.Invariant) (orderly : tracked.Orderly)
    (last : tracked.starts = tracked.announced) (ended : tracked.status.mFileProgress = 100) :
    tracked.status.mTotalProgress = 100 := by
  rcases invariant.orderly orderly with counting | complete
  · have same : tracked.status.mCurrentFile = tracked.status.mNumFiles := by
      rw [counting.current, counting.announced, last]
    rw [counting.ended ended, same]
    exact Nat.mul_div_cancel_left 100 invariant.positive
  · exact complete.total

/-- A step that is made as it should keeps the invariant. -/
theorem step_invariant (invariant : tracked.Invariant) (follows : tracked.Follows)
    (few : Few tracked call)
    (within : ∀ progressPercent, call = .progress progressPercent →
      (tracked.toHistory.step call).Orderly → tracked.announced < tracked.current →
        100 ≤ progressPercent) : (tracked.step call).Invariant := by
  by_cases again : ∃ num, call = .restart num
  · obtain ⟨num, rfl⟩ := again
    exact restart_invariant invariant follows num
  · exact (step_kept invariant follows few within fun num same => again ⟨num, same⟩).invariant

theorem reports_iff (follows : tracked.Follows) (output : tracked.status.mOutputFunc = true)
    (progressPercent : Nat) : (tracked.status.progress progressPercent).2 ≠ [] ↔
      1 ≤ tracked.current ∧ tracked.previous ≠ some tracked.file := by
  rw [progress_snd output progressPercent, mPrevProgress_ne_iff follows, follows.current]

theorem good_of_meets (invariant : tracked.Invariant) (follows : tracked.Follows)
    (few : Few tracked call) (meets : Meets tracked call) : Good tracked call := by
  have after := step_invariant invariant follows few meets.within
  have next := step_follows follows few
  refine ⟨next.file, ⟨after.file, after.total⟩, fun running orderly => ?_,
    fun ends orderly last => ?_, after.whole, ?_⟩
  · exact (step_kept invariant follows few meets.within running).grows orderly
  · have full := next.file.trans (file_of_ends tracked.toHistory ends)
    exact ⟨full, after.whole orderly last full⟩
  · rintro progressPercent rfl output
    rw [follows.file]
    exact (reports_iff follows output progressPercent).trans
      (meets.reports progressPercent rfl output)

/-- A progress below 100 for a file beyond those announced makes that of all files fall. -/
theorem meets_of_good (invariant : tracked.Invariant) (follows : tracked.Follows)
    (few : Few tracked call) (good : Good tracked call) : Meets tracked call := by
  constructor
  · rintro progressPercent rfl output
    have reports := good.reports progressPercent rfl output
    rw [follows.file] at reports
    exact (reports_iff follows output progressPercent).symm.trans reports
  · rintro progressPercent rfl orderly more
    refine Nat.not_lt.mp fun less => ?_
    have below : ¬100 ≤ progressPercent := Nat.not_le.mpr less
    have grows := good.grows (fun num => nofun) orderly
    have status : (tracked.step (.progress progressPercent)).status = _ :=
      progress_fst progressPercent
    have current := follows.current
    have known := invariant.announced
    have some : ¬tracked.current < 1 := by omega
    rw [current, if_neg some] at status
    rw [History.step, if_neg some] at orderly
    have steady := (Bool.and_eq_true_iff.mp orderly.steady).1
    have starts : tracked.starts ≤ tracked.announced := orderly.starts
    rcases invariant.orderly ⟨starts, steady⟩ with counting | complete
    · have current := counting.current
      omega
    · have same : (tracked.step (.progress progressPercent)).status.mNumFiles =
          tracked.status.mNumFiles := by rw [status, updateProgress]
      have bound : tracked.status.mNumFiles < 2 ^ 24 := by
        rw [← same]
        exact few
      rw [updateProgress_eq bound invariant.current progressPercent (by omega)] at status
      rw [status, complete.total, complete.current] at grows
      dsimp only at grows
      rw [if_neg below] at grows
      have positive := invariant.positive
      have least := (Nat.le_div_iff_mul_le positive).mp grows
      omega

end Steps

theorem initial_invariant (mOutputFunc : Bool) : (initial mOutputFunc).Invariant :=
  ⟨Nat.one_pos, Nat.zero_le _, ⟨Nat.one_pos, Nat.le_refl _⟩, Nat.zero_le _, Nat.zero_le _,
    fun _ => Or.inl ⟨rfl, rfl, fun _ => rfl, fun one => (by cases one), fun full => (by cases full)⟩⟩

theorem initial_follows (mOutputFunc : Bool) : (initial mOutputFunc).Follows :=
  ⟨rfl, rfl, rfl, rfl⟩

/-- From any state with the invariant, a run goes as expected exactly when its steps do. -/
theorem throughout_iff {calls : List StatusCall} (invariant : tracked.Invariant)
    (follows : tracked.Follows) (few : Throughout Few tracked calls) :
    Throughout Good tracked calls ↔ Throughout Meets tracked calls := by
  induction calls generalizing tracked with
  | nil => exact Iff.rfl
  | cons call calls ih =>
      have next := step_follows follows few.1
      constructor
      · rintro ⟨good, later⟩
        have meets := meets_of_good invariant follows few.1 good
        exact ⟨meets, (ih (step_invariant invariant follows few.1 meets.within) next
          few.2).mp later⟩
      · rintro ⟨meets, later⟩
        exact ⟨good_of_meets invariant follows few.1 meets,
          (ih (step_invariant invariant follows few.1 meets.within) next few.2).mpr later⟩

end Tracked

open Tracked in
/-- A run of calls on a new object goes as expected exactly when each of its steps reports a
progress that has just changed, and none below 100 for a file after the last one. -/
theorem good_throughout_iff (mOutputFunc : Bool) (calls : List StatusCall)
    (few : Throughout Few (initial mOutputFunc) calls) :
    Throughout Good (initial mOutputFunc) calls ↔
      Throughout Meets (initial mOutputFunc) calls :=
  throughout_iff (initial_invariant mOutputFunc) (initial_follows mOutputFunc) few

open Tracked in
theorem good_throughout_iff_one_file :
    Throughout Few (initial true) [.restart 1, .start "a", .progress 50, .end] ∧
      (Throughout Good (initial true) [.restart 1, .start "a", .progress 50, .end] ↔
        Throughout Meets (initial true) [.restart 1, .start "a", .progress 50, .end]) := by
  have few : Throughout Few (initial true) [.restart 1, .start "a", .progress 50, .end] := by
    refine ⟨?_, ?_, ?_, ?_, trivial⟩ <;> unfold Few <;> decide
  exact ⟨few, good_throughout_iff true _ few⟩

open Tracked in
/-- The same progress is reported twice. -/
theorem unchanged_progress_is_reported : ¬ ∀ (mOutputFunc : Bool) (calls : List StatusCall),
    Throughout Few (initial mOutputFunc) calls → Throughout Good (initial mOutputFunc) calls := by
  intro always
  have few : Throughout Few (initial true) [.start "a", .progress 20, .progress 20] := by
    refine ⟨?_, ?_, ?_, trivial⟩ <;> unfold Few <;> decide
  have good := (always true _ few).2.2.1
  have reports := good.reports 20 rfl rfl
  exact absurd reports (by decide)

end OpenMplane
