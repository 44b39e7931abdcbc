import OpenMplane.DoWhile
import OpenMplane.SftpSession
import OpenMplane.TimeoutTimer

/-!
# Transfers of an SFTP session

What the handlers of `SftpSession` do with the files of a job before they call back.  The calls
that read, those that write and the clock answer as they like: a read that does not fail gives
some of what is left, at least one byte unless nothing is left, and a write takes some of the data
from its beginning.  The handles are the files of the server that are open.
-/

namespace OpenMplane

def BUFF_LEN : Nat := 165335

def EAGAIN : Int := 11

/-- What a call that writes returns, nothing when it fails, and how much a failure took. -/
structure WriteAnswer where
  returned : Option Nat
  kept : Nat
  deriving DecidableEq, Repr

/-- What the files, the server and the clock answer in the course of a job. -/
structure SftpCourse where
  localOpened : Bool
  remoteOpened : Bool
  statted : Bool
  -- the file of the server that `doUpload` or `doDownload` opens
  opened : Bool
  closed : Bool
  -- the texts of `ssh_get_error` and `strerror_r`
  sshError : String
  systemError : String
  reads : Nat → Option Nat
  writes : Nat → WriteAnswer
  clock : Nat → Int

/-- `read` and `sftp_read`: what is returned and what is in the buffer. -/
def readBlock (answer : Option Nat) (rest : List Char) : Int × List Char :=
  match answer with
  | none => (-1, [])
  | some size =>
      let block := rest.take (min (max 1 size) BUFF_LEN)
      (block.length, block)

/-- `write` and `sftp_write`: what is returned and what is written. -/
def writeBlock (answer : WriteAnswer) (data : List Char) : Int × List Char :=
  match answer.returned with
  | none => (-1, data.take answer.kept)
  | some size => ((data.take size).length, data.take size)

/-- A file that is read, and how often it was. -/
structure ReadFile where
  rest : List Char
  reads : Nat

/-- A file that is written, and how often it was. -/
structure WrittenFile where
  contents : List Char
  writes : Nat

/-- The timer of a job: without a timeout there is none. -/
abbrev JobTimer := Option Clocked

/-- How `doUpload` or `doDownload` ends: the error, what was written, the timer and the files of
the server that are open. -/
structure TransferEnd (τ : Type) where
  error : String
  sink : τ
  timer : JobTimer
  handles : Nat

/-- What `doUpload` keeps in its loop. -/
structure Upload (σ : Type) where
  source : σ
  datalen : Nat
  remote : WrittenFile
  timer : JobTimer

/-- What `doDownload` keeps in its loop. -/
structure Download (τ : Type) where
  nbytes : Int
  remote : ReadFile
  sink : τ
  timer : JobTimer

namespace SftpCourse

variable (course : SftpCourse) {σ τ : Type}

/-- The timer that a handler starts. -/
def startTimer (mTimeout : Nat) : JobTimer :=
  if 0 < mTimeout then
    TimeoutTimer.startTimer course.clock 1 ⟨.construct, 0, []⟩ (some (1000 * mTimeout))
  else none

/-- `isTimedOut` of the timer of a job. -/
def isTimedOut (timer : JobTimer) : Bool × JobTimer :=
  match timer.bind (TimeoutTimer.isTimedOut course.clock 1) with
  | some (isUp, timer) => (isUp, some timer)
  | none => (false, timer)

/-- The text of `sshError`. -/
def sshErrorText (msg : String) : String := msg ++ course.sshError

def timeoutText : String := "Transfer timed out"

/-- `getData` of `handleFileUpload`. -/
def getFileData (file : ReadFile) : Except String (List Char × ReadFile) :=
  let (numRead, buffer) := readBlock (course.reads file.reads) file.rest
  let after : ReadFile := ⟨file.rest.drop buffer.length, file.reads + 1⟩
  if numRead = 0 then .ok ([], after)
  else if numRead < 0 then
    if numRead = EAGAIN then .ok ([], after) else .error "Local file read error"
  else .ok (buffer, after)

/-- `getData` of `handleDataUpload`, whose index is an `unsigned`. -/
def getJobData (mData : List Char) (index : Nat) : Except String (List Char × Nat) :=
  if mData.length ≤ index then .ok ([], index)
  else
    let datalen := if mData.length - index < BUFF_LEN then mData.length - index else BUFF_LEN
    .ok (mData.take datalen, (index + datalen) % 2 ^ 32)

/-- `putData` of `handleFileDownload`. -/
def putFileData (data : List Char) (file : WrittenFile) : Except (String × WrittenFile) WrittenFile :=
  if data = [] then .ok file
  else
    let (rc, kept) := writeBlock (course.writes file.writes) data
    let after : WrittenFile := ⟨file.contents ++ kept, file.writes + 1⟩
    if rc < 0 then .error ("Local file write error", after) else .ok after

/-- `putData` of `handleDataDownload`. -/
def putJobData (data mData : List Char) : Except (String × List Char) (List Char) :=
  if data = [] then .ok mData else .ok (mData ++ data)

/-- One turn of the loop of `doUpload`. -/
def uploadBlock (getData : σ → Except String (List Char × σ)) (values : Upload σ) :
    Except (String × WrittenFile × JobTimer) (Upload σ) :=
  match getData values.source with
  | .error error => .error (error, values.remote, values.timer)
  | .ok (data, source) =>
      let (isUp, timer) := course.isTimedOut values.timer
      if isUp then .error (timeoutText, values.remote, timer)
      else if data.length = 0 then .ok ⟨source, 0, values.remote, timer⟩
      else
        let (nwritten, kept) := writeBlock (course.writes values.remote.writes) data
        let remote : WrittenFile := ⟨values.remote.contents ++ kept, values.remote.writes + 1⟩
        if nwritten ≠ data.length then
          .error (course.sshErrorText "Can't write data to file: ", remote, timer)
        else
          let (isUp, timer) := course.isTimedOut timer
          if isUp then .error (timeoutText, remote, timer)
          else .ok ⟨source, data.length, remote, timer⟩

/-- `doUpload`, if it is at its end after so many turns of its loop. -/
def doUpload (getData : σ → Except String (List Char × σ)) (source : σ) (timer : JobTimer)
    (turns : Nat) : Option (TransferEnd (Option (List Char))) :=
  if !course.opened then
    some ⟨course.sshErrorText "Can't open file for writing: ", none, timer, 0⟩
  else
    let handles := 1
    (DoWhile.run (course.uploadBlock getData) (fun values => 0 < values.datalen) turns
      ⟨source, 0, ⟨[], 0⟩, timer⟩).map fun
      | .error (error, remote, timer) => ⟨error, some remote.contents, timer, handles - 1⟩
      | .ok values =>
          let error := if course.closed then "" else
            course.sshErrorText "Can't close the written file: "
          ⟨error, some values.remote.contents, values.timer, handles - 1⟩

/-- One turn of the loop of `doDownload`. -/
def downloadBlock (putData : List Char → τ → Except (String × τ) τ) (values : Download τ) :
    Except (String × τ × JobTimer) (Download τ) :=
  let (nbytes, buffer) := readBlock (course.reads values.remote.reads) values.remote.rest
  let remote : ReadFile := ⟨values.remote.rest.drop buffer.length, values.remote.reads + 1⟩
  -- `break` at the end of the file, before the timer is asked
  if nbytes = 0 then .ok ⟨0, remote, values.sink, values.timer⟩
  else
    let (isUp, timer) := course.isTimedOut values.timer
    if isUp then .error (timeoutText, values.sink, timer)
    else if nbytes < 0 then
      .error (course.sshErrorText "Error while reading file: ", values.sink, timer)
    else match putData buffer values.sink with
      | .error (error, sink) => .error (error, sink, timer)
      | .ok sink =>
          let (isUp, timer) := course.isTimedOut timer
          if isUp then .error (timeoutText, sink, timer) else .ok ⟨nbytes, remote, sink, timer⟩

/-- `doDownload`, if it is at its end after so many turns of its loop. -/
def doDownload (putData : List Char → τ → Except (String × τ) τ) (file : List Char) (sink : τ)
    (timer : JobTimer) (turns : Nat) : Option (TransferEnd τ) :=
  if !course.opened then
    some ⟨course.sshErrorText "Can't open file for reading: ", sink, timer, 0⟩
  else
    let handles := 1
    (DoWhile.run (course.downloadBlock putData) (fun values => 0 < values.nbytes) turns
      ⟨0, ⟨file, 0⟩, sink, timer⟩).map fun
      | .error (error, sink, timer) => ⟨error, sink, timer, handles - 1⟩
      | .ok values => ⟨"", values.sink, values.timer, handles - 1⟩

/-- What a handler is answered, with what it hands to the callback. -/
def answers (transferError : String) (timedOut : Bool) (downloaded : List Char) : SftpAnswers where
  localOpened := course.localOpened
  remoteOpened := course.remoteOpened
  statted := course.statted
  sshError := course.sshError
  systemError := course.systemError
  transferError
  timedOut
  downloaded := String.ofList downloaded

end SftpCourse

/-- What a job leaves: what its handler was answered, the contents of the file of the server and
of the local file where these were opened for writing, and the files of the server that are
open. -/
structure SftpOutcome where
  answers : SftpAnswers
  remote : Option (List Char)
  localFile : Option (List Char)
  handles : Nat

namespace SftpJob

variable {Client : Type} (job : SftpJob Client) (course : SftpCourse)

/-- The transfer of `handleFileUpload`. -/
def transferFileUpload (localFile : List Char) (turns : Nat) : Option SftpOutcome :=
  if !course.localOpened then some ⟨course.answers "" false [], none, none, 0⟩
  else
    (course.doUpload course.getFileData ⟨localFile, 0⟩ (course.startTimer job.mTimeout) turns).map
      fun ended =>
        ⟨course.answers ended.error (course.isTimedOut ended.timer).1 [], ended.sink, none,
          ended.handles⟩

/-- The transfer of `handleFileDownload`. -/
def transferFileDownload (remoteFile : List Char) (turns : Nat) : Option SftpOutcome :=
  if !course.remoteOpened then some ⟨course.answers "" false [], none, none, 0⟩
  -- the file stays open
  else if !course.statted then some ⟨course.answers "" false [], none, none, 1⟩
  else if !course.localOpened then some ⟨course.answers "" false [], none, none, 0⟩
  else
    (course.doDownload course.putFileData remoteFile ⟨[], 0⟩ (course.startTimer job.mTimeout)
      turns).map fun ended =>
        ⟨course.answers ended.error (course.isTimedOut ended.timer).1 [], none,
          some ended.sink.contents, ended.handles⟩

/-- The transfer of `handleDataUpload`. -/
def transferDataUpload (turns : Nat) : Option SftpOutcome :=
  (course.doUpload (SftpCourse.getJobData job.mData.toList) 0 (course.startTimer job.mTimeout)
    turns).map fun ended =>
      ⟨course.answers ended.error (course.isTimedOut ended.timer).1 [], ended.sink, none,
        ended.handles⟩

/-- The transfer of `handleDataDownload`. -/
def transferDataDownload (remoteFile : List Char) (turns : Nat) : Option SftpOutcome :=
  (course.doDownload SftpCourse.putJobData remoteFile [] (course.startTimer job.mTimeout)
    turns).map fun ended =>
      ⟨course.answers ended.error (course.isTimedOut ended.timer).1 ended.sink, none, none,
        ended.handles⟩

end SftpJob

namespace SftpCourse

variable {course : SftpCourse} {σ τ : Type}

theorem quiet_of_answer {clock : Nat → Int} {timer : TimeoutTimer} {tick : Nat} {called : List Nat}
    {answer : Bool × Clocked}
    (answers : TimeoutTimer.isTimedOut clock 1 ⟨timer, tick, called⟩ = some answer)
    (due : timer.Due (clock tick)) : timer.Quiet := by
  rw [TimeoutTimer.isTimedOut_due due] at answers
  intro func isFunc
  rw [Option.mem_def.mp isFunc] at answers
  dsimp only at answers
  cases polls : func.polls with
  | zero => rfl
  | succ more =>
      rw [polls] at answers
      cases answers

theorem isTimedOut_again {timer : JobTimer} (isUp : (course.isTimedOut timer).1 = true) :
    (course.isTimedOut (course.isTimedOut timer).2).1 = true := by
  cases timer with
  | none => cases isUp
  | some state =>
      obtain ⟨timer, tick, called⟩ := state
      unfold isTimedOut at isUp ⊢
      rw [Option.bind_some] at isUp ⊢
      cases answers : TimeoutTimer.isTimedOut course.clock 1 ⟨timer, tick, called⟩ with
      | none =>
          rw [answers] at isUp
          cases isUp
      | some answer =>
          have known := answers.symm.trans (TimeoutTimer.isTimedOut_eq (quiet_of_answer answers) 0)
          rw [answers] at isUp
          cases known
          have isKnown : timer.known (course.clock tick) = true := isUp
          have running : timer.mRunning = true := (Bool.and_eq_true_iff.mp isKnown).1
          rw [isKnown, Bool.or_true]
          dsimp only
          rw [Option.bind_some, TimeoutTimer.isTimedOut, running]
          rfl

theorem readBlock_cases (answer : Option Nat) (rest : List Char) :
    (answer = none ∧ readBlock answer rest = (-1, [])) ∨
      ∃ block, readBlock answer rest = ((block.length : Int), block) ∧
        rest = block ++ rest.drop block.length ∧ (block = [] → rest = []) ∧
          block.length ≤ BUFF_LEN := by
  cases answer with
  | none => exact Or.inl ⟨rfl, rfl⟩
  | some size =>
      obtain ⟨count, positive, bound, made⟩ : ∃ count, 0 < count ∧ count ≤ BUFF_LEN ∧
          readBlock (some size) rest = (((rest.take count).length : Int), rest.take count) :=
        ⟨min (max 1 size) BUFF_LEN, by unfold BUFF_LEN; omega, Nat.min_le_right _ _, rfl⟩
      refine Or.inr ⟨rest.take count, made, ?_, fun empty => ?_, ?_⟩
      · exact (List.prefix_iff_eq_append.mp (List.take_prefix count rest)).symm
      · exact (List.take_eq_nil_iff.mp empty).resolve_left (by omega)
      · exact (List.length_take_le count rest).trans bound

theorem writeBlock_full {answer : WriteAnswer} {data : List Char} {size : Nat}
    (returned : answer.returned = some size) (fits : data.length ≤ size) :
    writeBlock answer data = ((data.length : Int), data) := by
  rw [writeBlock, returned]
  dsimp only
  rw [List.take_of_length_le fits]

theorem writeBlock_cases (answer : WriteAnswer) (data : List Char) :
    ∃ returned kept, writeBlock answer data = (returned, kept) ∧ kept <+: data ∧
      (returned = data.length → kept = data) := by
  unfold writeBlock
  cases answer.returned with
  | none => exact ⟨_, _, rfl, List.take_prefix _ _, fun same => by omega⟩
  | some size =>
      refine ⟨_, _, rfl, List.take_prefix size data, fun same => ?_⟩
      exact (List.take_prefix size data).eq_of_length (Int.ofNat.inj same)

/-- The time of a timer is never up. -/
def Early (course : SftpCourse) (timer : JobTimer) : Prop :=
  ∀ state ∈ timer, state.timer.mTimedOut = false ∧ ∀ tick, course.clock tick < state.timer.mEndTime

theorem isTimedOut_early {timer : JobTimer} (early : course.Early timer) :
    (course.isTimedOut timer).1 = false ∧ course.Early (course.isTimedOut timer).2 := by
  cases timer with
  | none => exact ⟨rfl, early⟩
  | some state =>
      obtain ⟨timer, tick, called⟩ := state
      obtain ⟨fresh, before⟩ := early _ rfl
      have answers : TimeoutTimer.isTimedOut course.clock 1 ⟨timer, tick, called⟩ =
          some (false, ⟨timer, tick + 1, called⟩) := by
        rw [TimeoutTimer.isTimedOut, fresh, if_pos (before tick)]
        cases timer.mRunning with
        | true => rfl
        | false => rfl
      unfold isTimedOut
      rw [Option.bind_some, answers]
      refine ⟨rfl, fun state same => ?_⟩
      cases same
      exact ⟨fresh, before⟩

/-- What a look at the timer of a transfer says. -/
theorem isTimedOut_cases {smooth : Prop} {timer : JobTimer} (early : smooth → course.Early timer) :
    ∃ isUp after, course.isTimedOut timer = (isUp, after) ∧
      (isUp = true → ¬smooth ∧ (course.isTimedOut after).1 = true) ∧
        (smooth → course.Early after) := by
  refine ⟨(course.isTimedOut timer).1, (course.isTimedOut timer).2, rfl,
    fun isUp => ⟨fun isSmooth => ?_, isTimedOut_again isUp⟩,
    fun isSmooth => (isTimedOut_early (early isSmooth)).2⟩
  rw [(isTimedOut_early (early isSmooth)).1] at isUp
  cases isUp

/-- No call of the course fails, and every write takes all of a block. -/
structure Smooth (course : SftpCourse) : Prop where
  opened : course.opened = true
  closed : course.closed = true
  reads : ∀ turn, course.reads turn ≠ none
  writes : ∀ turn, ∃ size, (course.writes turn).returned = some size ∧ BUFF_LEN ≤ size

theorem ne_of_head {error : String} {letter : Char} (head : error.toList.head? = some letter)
    (other : letter ≠ 'T') : error ≠ "" ∧ error ≠ timeoutText := by
  refine ⟨fun same => ?_, fun same => ?_⟩
  · rw [same] at head
    cases head
  · rw [same] at head
    cases head
    exact other rfl

theorem head_append {msg text : String} {letter : Char} (head : msg.toList.head? = some letter) :
    (msg ++ text).toList.head? = some letter := by
  rw [String.toList_append, List.head?_append, head]
  rfl

theorem timeoutText_ne : timeoutText ≠ "" := by decide

/-- A source gives blocks of a text, one behind the other. -/
structure Delivers (getData : σ → Except String (List Char × σ)) (left : σ → List Char)
    (size : σ → Nat) (smooth : Prop) : Prop where
  block : ∀ {source data after}, getData source = .ok (data, after) →
    left source = data ++ left after ∧ data.length ≤ BUFF_LEN
  last : ∀ {source after}, getData source = .ok ([], after) → left source = []
  fewer : ∀ {source data after}, getData source = .ok (data, after) → data ≠ [] →
    size after < size source
  fails : ∀ {source error}, getData source = .error error →
    (error ≠ "" ∧ error ≠ timeoutText) ∧ ¬smooth

/-- An upload that is under way. -/
structure Uploading (course : SftpCourse) (left : σ → List Char) (smooth : Prop)
    (whole : List Char) (values : Upload σ) : Prop where
  parts : values.remote.contents ++ left values.source = whole
  early : smooth → course.Early values.timer

/-- An upload that failed with an error. -/
structure Failed (course : SftpCourse) (smooth : Prop) (written whole : List Char)
    (error : String) (timer : JobTimer) : Prop where
  part : written <+: whole
  isError : error ≠ ""
  rough : ¬smooth
  timedOut : error = timeoutText → (course.isTimedOut timer).1 = true

theorem uploadBlock_proceeds {getData : σ → Except String (List Char × σ)} {left : σ → List Char}
    {size : σ → Nat} {smooth : Prop} {whole : List Char}
    (delivers : Delivers getData left size smooth) (isSmooth : smooth → course.Smooth)
    (values : Upload σ) (uploading : Uploading course left smooth whole values) :
    DoWhile.Proceeds
      (fun failure => Failed course smooth failure.2.1.contents whole failure.1 failure.2.2)
      (Uploading course left smooth whole)
      (fun after => after.remote.contents = whole ∧ (smooth → course.Early after.timer))
      (fun values => size values.source) (fun values => decide (0 < values.datalen))
      (size values.source) (course.uploadBlock getData values) := by
  obtain ⟨parts, early⟩ := uploading
  unfold uploadBlock
  cases got : getData values.source with
  | error error =>
      obtain ⟨⟨isError, noTimeout⟩, rough⟩ := delivers.fails got
      exact ⟨⟨_, parts⟩, isError, rough, fun same => absurd same noTimeout⟩
  | ok block =>
      obtain ⟨data, source⟩ := block
      obtain ⟨behind, fits⟩ := delivers.block got
      obtain ⟨isUp, timer, looked, isOver, earlyThen⟩ := isTimedOut_cases early
      dsimp only
      rw [looked]
      dsimp only
      cases isUp with
      | true =>
          obtain ⟨rough, again⟩ := isOver rfl
          exact ⟨⟨_, parts⟩, timeoutText_ne, rough, fun _ => again⟩
      | false =>
          rw [if_neg Bool.false_ne_true]
          by_cases isLast : data.length = 0
          · rw [if_pos isLast]
            obtain rfl := List.eq_nil_of_length_eq_zero isLast
            rw [delivers.last got, List.append_nil] at parts
            exact ⟨parts, earlyThen⟩
          · rw [if_neg isLast]
            obtain ⟨returned, kept, wrote, isPrefix, full⟩ :=
              writeBlock_cases (course.writes values.remote.writes) data
            rw [wrote]
            dsimp only
            by_cases complete : returned = data.length
            · rw [if_neg fun short => short complete]
              obtain rfl := full complete
              rw [behind, ← List.append_assoc] at parts
              obtain ⟨isUp, timer, looked, isOver, earlyThen⟩ := isTimedOut_cases earlyThen
              rw [looked]
              dsimp only
              cases isUp with
              | true =>
                  obtain ⟨rough, again⟩ := isOver rfl
                  exact ⟨⟨_, parts⟩, timeoutText_ne, rough, fun _ => again⟩
              | false =>
                  have more : decide (0 < kept.length) = true := decide_eq_true (by omega)
                  rw [if_neg Bool.false_ne_true, DoWhile.Proceeds, if_pos more]
                  refine ⟨⟨parts, earlyThen⟩, delivers.fewer got fun empty => isLast ?_⟩
                  rw [empty]
                  rfl
            · rw [if_pos complete]
              obtain ⟨more, joined⟩ := isPrefix
              refine ⟨⟨more ++ left source, ?_⟩, ?_, ?_, ?_⟩
              · rw [← parts, behind, ← joined]
                simp only [List.append_assoc]
              · exact (ne_of_head (head_append rfl) (by decide)).1
              · intro isSmooth'
                obtain ⟨size, answered, large⟩ := (isSmooth isSmooth').writes values.remote.writes
                rw [writeBlock_full answered (fits.trans large)] at wrote
                cases wrote
                exact complete rfl
              · intro same
                exact absurd same (ne_of_head (head_append rfl) (by decide)).2

/-- How an upload ends: without an error all of the text was written, and otherwise the file holds
a first part of it, if it was opened. -/
structure Uploaded (course : SftpCourse) (smooth : Prop) (whole : List Char)
    (ended : TransferEnd (Option (List Char))) : Prop where
  closed : ended.handles = 0
  complete : ended.error = "" → ended.sink = some whole
  part : ∀ written ∈ ended.sink, written <+: whole
  timedOut : ended.error = timeoutText → (course.isTimedOut ended.timer).1 = true
  succeeds : smooth → ended.error = ""

theorem doUpload_uploaded {getData : σ → Except String (List Char × σ)} {left : σ → List Char}
    {size : σ → Nat} {smooth : Prop} (delivers : Delivers getData left size smooth)
    (isSmooth : smooth → course.Smooth) {source : σ} {timer : JobTimer}
    (early : smooth → course.Early timer) {turns : Nat} (enough : size source < turns) :
    ∃ ended, course.doUpload getData source timer turns = some ended ∧
      Uploaded course smooth (left source) ended := by
  unfold doUpload
  cases opened : course.opened with
  | false =>
      obtain ⟨isError, noTimeout⟩ := ne_of_head
        (@head_append "Can't open file for writing: " course.sshError _ rfl) (by decide)
      refine ⟨_, rfl, rfl, fun same => absurd same isError, fun _ impossible => ?_,
        fun same => absurd same noTimeout, fun smoothly => ?_⟩
      · cases impossible
      · rw [(isSmooth smoothly).opened] at opened
        cases opened
  | true =>
      have starts : Uploading course left smooth (left source) ⟨source, 0, ⟨[], 0⟩, timer⟩ :=
        ⟨rfl, early⟩
      obtain ⟨outcome, ran, meets⟩ :=
        DoWhile.exists_end (uploadBlock_proceeds delivers isSmooth) turns starts enough
      rw [Bool.not_true, if_neg Bool.false_ne_true]
      dsimp only
      rw [ran]
      cases outcome with
      | error failure =>
          obtain ⟨error, remote, after⟩ := failure
          refine ⟨_, rfl, rfl, fun same => absurd same meets.isError, fun written same => ?_,
            meets.timedOut, fun smoothly => absurd smoothly meets.rough⟩
          cases same
          exact meets.part
      | ok values =>
          obtain ⟨written, later⟩ := meets
          have part : ∀ other ∈ some values.remote.contents, other <+: left source := by
            intro other same
            cases same
            rw [written]
          cases closed : course.closed with
          | true =>
              refine ⟨_, rfl, rfl, fun _ => congrArg some written, part, fun same => ?_, fun _ => rfl⟩
              exact absurd same.symm timeoutText_ne
          | false =>
              obtain ⟨isError, noTimeout⟩ := ne_of_head
                (@head_append "Can't close the written file: " course.sshError _ rfl) (by decide)
              refine ⟨_, rfl, rfl, fun same => absurd same isError, part,
                fun same => absurd same noTimeout, fun smoothly => ?_⟩
              rw [(isSmooth smoothly).closed] at closed
              cases closed

end SftpCourse

end OpenMplane
