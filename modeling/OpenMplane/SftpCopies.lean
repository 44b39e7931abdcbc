import OpenMplane.SftpTransfers

/-!
# Copies that an SFTP session makes

What the four kinds of transfers have copied when they call back.  An upload of a file without an
error has written the file; one of data writes the first block again for every later one.  A
download without an error has read the whole file, but a file that is written locally lacks
what the system did not take, which is no error.  A file of the server stays open where its
attributes cannot be read.
-/

namespace OpenMplane

namespace SftpCourse

variable {course : SftpCourse} {σ τ : Type}

theorem delivers_file (course : SftpCourse) :
    Delivers course.getFileData ReadFile.rest (fun file => file.rest.length) course.Smooth := by
  have gets : ∀ file : ReadFile, (course.reads file.reads = none ∧
      course.getFileData file = .error "Local file read error") ∨
        ∃ block, course.getFileData file =
            .ok (block, ⟨file.rest.drop block.length, file.reads + 1⟩) ∧
          file.rest = block ++ file.rest.drop block.length ∧ (block = [] → file.rest = []) ∧
            block.length ≤ BUFF_LEN := by
    intro file
    unfold getFileData
    rcases readBlock_cases (course.reads file.reads) file.rest with
      ⟨failed, made⟩ | ⟨block, made, parts⟩
    · rw [made]
      exact Or.inl ⟨failed, rfl⟩
    · rw [made]
      dsimp only
      refine Or.inr ⟨block, ?_, parts⟩
      by_cases empty : (block.length : Int) = 0
      · obtain rfl : block = [] := List.eq_nil_of_length_eq_zero (by omega)
        rfl
      · rw [if_neg empty, if_neg (by omega)]
  refine ⟨fun {file data after} got => ?_, fun {file after} got => ?_,
    fun {file data after} got nonempty => ?_, fun {file error} got => ?_⟩
  all_goals rcases gets file with ⟨failed, made⟩ | ⟨block, made, parts, empty, fits⟩
  all_goals rw [made] at got
  all_goals cases got
  · exact ⟨parts, fits⟩
  · exact empty rfl
  · have positive := List.length_pos_of_ne_nil nonempty
    have whole := congrArg List.length parts
    rw [List.length_append] at whole
    dsimp only
    omega
  · exact ⟨@ne_of_head _ 'L' rfl (by decide), fun smooth => smooth.reads _ failed⟩

theorem Delivers.mono {getData : σ → Except String (List Char × σ)} {left : σ → List Char}
    {size : σ → Nat} {smooth smoother : Prop} (delivers : Delivers getData left size smooth)
    (weaker : smoother → smooth) : Delivers getData left size smoother where
  block := delivers.block
  last := delivers.last
  fewer := delivers.fewer
  fails got := ⟨(delivers.fails got).1, fun smooth => (delivers.fails got).2 (weaker smooth)⟩

/-- What `handleDataUpload` sends from an index on: each block anew from the beginning. -/
def sentFrom (mData : List Char) (index : Nat) : List Char :=
  (List.range (mData.length - index)).map fun place => mData.getD (place % BUFF_LEN) ' '

theorem take_eq_map {mData : List Char} {count : Nat} (fits : count ≤ BUFF_LEN)
    (within : count ≤ mData.length) :
    mData.take count = (List.range count).map fun place => mData.getD (place % BUFF_LEN) ' ' := by
  refine List.ext_getElem? fun place => ?_
  rw [List.getElem?_map]
  by_cases inside : place < count
  · rw [List.getElem?_take_of_lt inside, List.getElem?_range inside, Option.map_some,
      Nat.mod_eq_of_lt (by omega), List.getD_eq_getElem?_getD, List.getElem?_eq_getElem (by omega),
      Option.getD_some]
  · rw [List.getElem?_eq_none (by rw [List.length_take]; omega),
      List.getElem?_eq_none (by rw [List.length_range]; omega), Option.map_none]

theorem sentFrom_block {mData : List Char} {index count : Nat} (within : index + count ≤ mData.length)
    (fits : count ≤ BUFF_LEN) (isLast : count < BUFF_LEN → index + count = mData.length) :
    sentFrom mData index = mData.take count ++ sentFrom mData (index + count) := by
  have parts : mData.length - index = count + (mData.length - (index + count)) := by omega
  rw [sentFrom, parts, List.range_add, List.map_append, List.map_map,
    take_eq_map fits (by omega), sentFrom]
  congr 1
  by_cases short : count < BUFF_LEN
  · rw [isLast short, Nat.sub_self]
    rfl
  · refine List.map_congr_left fun place member => ?_
    rw [Function.comp_apply, show count = BUFF_LEN by omega, Nat.add_mod_left]

theorem delivers_data {mData : List Char} (small : mData.length < 2 ^ 32) (smooth : Prop) :
    Delivers (getJobData mData) (sentFrom mData) (fun index => mData.length - index) smooth := by
  have gets : ∀ index, (mData.length ≤ index ∧ getJobData mData index = .ok ([], index)) ∨
      ∃ count, 0 < count ∧ index + count ≤ mData.length ∧ count ≤ BUFF_LEN ∧
        (count < BUFF_LEN → index + count = mData.length) ∧
          getJobData mData index = .ok (mData.take count, index + count) := by
    intro index
    unfold getJobData
    by_cases behind : mData.length ≤ index
    · exact Or.inl ⟨behind, if_pos behind⟩
    · rw [if_neg behind]
      dsimp only
      have positive : 0 < BUFF_LEN := by decide
      by_cases short : mData.length - index < BUFF_LEN
      · rw [if_pos short]
        refine Or.inr ⟨mData.length - index, by omega, by omega, by omega, fun _ => by omega, ?_⟩
        rw [Nat.mod_eq_of_lt (by omega)]
      · rw [if_neg short]
        refine Or.inr ⟨BUFF_LEN, positive, by omega, Nat.le_refl _, fun _ => by omega, ?_⟩
        rw [Nat.mod_eq_of_lt (by omega)]
  refine ⟨fun {index data after} got => ?_, fun {index after} got => ?_,
    fun {index data after} got nonempty => ?_, fun {index error} got => ?_⟩
  all_goals rcases gets index with ⟨behind, made⟩ | ⟨count, positive, within, fits, isLast, made⟩
  all_goals rw [made] at got
  · cases got
    exact ⟨rfl, Nat.zero_le _⟩
  · cases got
    exact ⟨sentFrom_block within fits isLast, (List.length_take_le count mData).trans fits⟩
  · cases got
    rw [sentFrom, Nat.sub_eq_zero_of_le behind]
    rfl
  · have empty := congrArg Prod.fst (Except.ok.inj got)
    have length := congrArg List.length empty
    dsimp only at length
    rw [List.length_take, List.length_nil] at length
    omega
  · cases got
    exact absurd rfl nonempty
  · cases got
    omega
  · cases got
  · cases got

/-- The blocks in which a text is read. -/
structure Parts (blocks : List (List Char)) (text : List Char) : Prop where
  flatten : blocks.flatten = text
  each : ∀ block ∈ blocks, block ≠ [] ∧ block.length ≤ BUFF_LEN

theorem Parts.block {blocks : List (List Char)} {text data : List Char} (parts : Parts blocks text)
    (nonempty : data ≠ []) (fits : data.length ≤ BUFF_LEN) :
    Parts (blocks ++ [data]) (text ++ data) := by
  refine ⟨?_, fun block member => ?_⟩
  · rw [List.flatten_append, parts.flatten, List.flatten_singleton]
  · rcases List.mem_append.mp member with before | last
    · exact parts.each block before
    · rw [List.mem_singleton.mp last]
      exact ⟨nonempty, fits⟩

/-- A sink holds what it took of the blocks that it was given, one after the other. -/
structure Takes (putData : List Char → τ → Except (String × τ) τ)
    (held : τ → List (List Char) → Prop) (smooth : Prop) : Prop where
  block : ∀ {data sink after blocks}, data ≠ [] → held sink blocks →
    putData data sink = .ok after → held after (blocks ++ [data])
  fails : ∀ {data sink error after blocks}, held sink blocks →
    putData data sink = .error (error, after) →
      (error ≠ "" ∧ error ≠ timeoutText) ∧ ¬(smooth ∧ data.length ≤ BUFF_LEN) ∧
        held after (blocks ++ [data])

theorem Takes.mono {putData : List Char → τ → Except (String × τ) τ}
    {held : τ → List (List Char) → Prop} {smooth smoother : Prop}
    (takes : Takes putData held smooth) (weaker : smoother → smooth) :
    Takes putData held smoother where
  block := takes.block
  fails holds put := ⟨(takes.fails holds put).1,
    fun both => (takes.fails holds put).2.1 ⟨weaker both.1, both.2⟩, (takes.fails holds put).2.2⟩

/-- A text has been given to the sink. -/
def Arrives (held : τ → List (List Char) → Prop) (sink : τ) (text : List Char) : Prop :=
  ∃ blocks, Parts blocks text ∧ held sink blocks

/-- The beginning of a text has been given to the sink. -/
def ArrivedPart (held : τ → List (List Char) → Prop) (sink : τ) (whole : List Char) : Prop :=
  ∃ sent, sent <+: whole ∧ Arrives held sink sent

theorem Arrives.arrivedPart {held : τ → List (List Char) → Prop} {sink : τ}
    {sent : List Char} (arrives : Arrives held sink sent) (rest : List Char) :
    ArrivedPart held sink (sent ++ rest) :=
  ⟨sent, List.prefix_append sent rest, arrives⟩

/-- A download that is under way. -/
structure Downloading (course : SftpCourse) (held : τ → List (List Char) → Prop) (smooth : Prop)
    (whole : List Char) (values : Download τ) : Prop where
  arrives : ∃ sent, whole = sent ++ values.remote.rest ∧ Arrives held values.sink sent
  early : smooth → course.Early values.timer

/-- A download that failed with an error. -/
structure DownloadFailed (course : SftpCourse) (held : τ → List (List Char) → Prop) (smooth : Prop)
    (whole : List Char) (failure : String × τ × JobTimer) : Prop where
  arrived : ArrivedPart held failure.2.1 whole
  isError : failure.1 ≠ ""
  rough : ¬smooth
  timedOut : failure.1 = timeoutText → (course.isTimedOut failure.2.2).1 = true

theorem downloadBlock_proceeds {putData : List Char → τ → Except (String × τ) τ}
    {held : τ → List (List Char) → Prop} {smooth : Prop} {whole : List Char}
    (takes : Takes putData held smooth) (isSmooth : smooth → course.Smooth)
    (values : Download τ) (downloading : Downloading course held smooth whole values) :
    DoWhile.Proceeds (DownloadFailed course held smooth whole)
      (Downloading course held smooth whole) (fun after => Arrives held after.sink whole)
      (fun values => values.remote.rest.length) (fun values => decide (0 < values.nbytes))
      values.remote.rest.length (course.downloadBlock putData values) := by
  obtain ⟨⟨sent, parts, arrives⟩, early⟩ := downloading
  have begun := arrives.arrivedPart values.remote.rest
  obtain ⟨isUp, timer, looked, isOver, earlyThen⟩ := isTimedOut_cases early
  unfold downloadBlock
  rcases readBlock_cases (course.reads values.remote.reads) values.remote.rest with
    ⟨failed, made⟩ | ⟨block, made, behind, isLast, fits⟩
  · rw [made, looked]
    dsimp only
    rw [if_neg (by decide)]
    rw [← parts] at begun
    cases isUp with
    | true =>
        obtain ⟨rough, again⟩ := isOver rfl
        exact ⟨begun, timeoutText_ne, rough, fun _ => again⟩
    | false =>
        obtain ⟨isError, noTimeout⟩ := ne_of_head
          (@head_append "Error while reading file: " course.sshError _ rfl) (by decide)
        exact ⟨begun, isError, fun smoothly => (isSmooth smoothly).reads _ failed,
          fun same => absurd same noTimeout⟩
  · rw [made, looked]
    dsimp only
    by_cases empty : block = []
    · rw [if_pos (by rw [empty]; rfl)]
      rw [isLast empty, List.append_nil] at parts
      rw [parts]
      exact arrives
    · have positive := List.length_pos_of_ne_nil empty
      rw [if_neg (by omega)]
      cases isUp with
      | true =>
          obtain ⟨rough, again⟩ := isOver rfl
          rw [← parts] at begun
          exact ⟨begun, timeoutText_ne, rough, fun _ => again⟩
      | false =>
          rw [if_neg Bool.false_ne_true, if_neg (by omega)]
          obtain ⟨blocks, pieces, holds⟩ := arrives
          have longer := pieces.block empty fits
          have further : whole = sent ++ block ++ values.remote.rest.drop block.length := by
            rw [parts, List.append_assoc, ← behind]
          cases put : putData block values.sink with
          | error failure =>
              obtain ⟨error, sink⟩ := failure
              obtain ⟨⟨isError, noTimeout⟩, rough, last⟩ := takes.fails holds put
              refine ⟨?_, isError, fun smoothly => rough ⟨smoothly, fits⟩,
                fun same => absurd same noTimeout⟩
              rw [further]
              exact Arrives.arrivedPart ⟨_, longer, last⟩ _
          | ok sink =>
              have later : Arrives held sink (sent ++ block) :=
                ⟨_, longer, takes.block empty holds put⟩
              obtain ⟨isUp, timer, looked, isOver, earlyThen⟩ := isTimedOut_cases earlyThen
              dsimp only
              rw [looked]
              dsimp only
              cases isUp with
              | true =>
                  obtain ⟨rough, again⟩ := isOver rfl
                  refine ⟨?_, timeoutText_ne, rough, fun _ => again⟩
                  rw [further]
                  exact later.arrivedPart _
              | false =>
                  have more : decide ((0 : Int) < block.length) = true :=
                    decide_eq_true (by omega)
                  rw [if_neg Bool.false_ne_true, DoWhile.Proceeds, if_pos more]
                  refine ⟨⟨⟨sent ++ block, further, later⟩, earlyThen⟩, ?_⟩
                  dsimp only
                  have whole := congrArg List.length behind
                  rw [List.length_append] at whole
                  omega

/-- How a download ends: without an error all of the file was read. -/
structure Downloaded (course : SftpCourse) (held : τ → List (List Char) → Prop) (smooth : Prop)
    (whole : List Char) (ended : TransferEnd τ) : Prop where
  closed : ended.handles = 0
  complete : ended.error = "" → Arrives held ended.sink whole
  part : ArrivedPart held ended.sink whole
  timedOut : ended.error = timeoutText → (course.isTimedOut ended.timer).1 = true
  succeeds : smooth → ended.error = ""

theorem doDownload_downloaded {putData : List Char → τ → Except (String × τ) τ}
    {held : τ → List (List Char) → Prop} {smooth : Prop} (takes : Takes putData held smooth)
    (isSmooth : smooth → course.Smooth) {whole : List Char} {sink : τ} (fresh : held sink []) {timer : JobTimer} (early : smooth → course.Early timer)
    {turns : Nat} (enough : whole.length < turns) :
    ∃ ended, course.doDownload putData whole sink timer turns = some ended ∧
      Downloaded course held smooth whole ended := by
  have nothing : Arrives held sink [] :=
    ⟨[], ⟨rfl, fun block member => absurd member List.not_mem_nil⟩, fresh⟩
  unfold doDownload
  cases opened : course.opened with
  | false =>
      obtain ⟨isError, noTimeout⟩ := ne_of_head
        (@head_append "Can't open file for reading: " course.sshError _ rfl) (by decide)
      refine ⟨_, rfl, rfl, fun same => absurd same isError, nothing.arrivedPart whole,
        fun same => absurd same noTimeout, fun smoothly => ?_⟩
      rw [(isSmooth smoothly).opened] at opened
      cases opened
  | true =>
      have starts : Downloading course held smooth whole ⟨0, ⟨whole, 0⟩, sink, timer⟩ :=
        ⟨⟨[], rfl, nothing⟩, early⟩
      obtain ⟨outcome, ran, meets⟩ :=
        DoWhile.exists_end (downloadBlock_proceeds takes isSmooth) turns starts enough
      rw [Bool.not_true, if_neg Bool.false_ne_true]
      dsimp only
      rw [ran]
      cases outcome with
      | error failure =>
          obtain ⟨error, last, after⟩ := failure
          exact ⟨_, rfl, rfl, fun same => absurd same meets.isError, meets.arrived,
            meets.timedOut, fun smoothly => absurd smoothly meets.rough⟩
      | ok values =>
          have part : ArrivedPart held values.sink (whole ++ []) :=
            Arrives.arrivedPart meets []
          rw [List.append_nil] at part
          exact ⟨_, rfl, rfl, fun _ => meets, part, fun same => absurd same.symm timeoutText_ne,
            fun _ => rfl⟩

/-- How much the write of a turn takes at most, whether it fails or not. -/
def took (course : SftpCourse) (turn : Nat) : Nat :=
  (course.writes turn).returned.getD (course.writes turn).kept

/-- What the writes take of the blocks, one block a turn. -/
def taken (course : SftpCourse) (blocks : List (List Char)) : List Char :=
  (blocks.mapIdx fun turn block => block.take (course.took turn)).flatten

theorem taken_append (course : SftpCourse) (blocks : List (List Char)) (data : List Char) :
    course.taken (blocks ++ [data]) =
      course.taken blocks ++ data.take (course.took blocks.length) := by
  rw [taken, List.mapIdx_concat, List.flatten_append, List.flatten_singleton]
  rfl

/-- A file that holds what the writes took of the blocks. -/
def Holds (course : SftpCourse) (file : WrittenFile) (blocks : List (List Char)) : Prop :=
  file.contents = course.taken blocks ∧ file.writes = blocks.length

theorem Holds.append {file : WrittenFile} {blocks : List (List Char)} {kept : Nat}
    (holds : course.Holds file blocks) (data : List Char)
    (took : course.took file.writes = kept) :
    course.Holds ⟨file.contents ++ data.take kept, file.writes + 1⟩ (blocks ++ [data]) := by
  refine ⟨?_, ?_⟩
  · rw [taken_append, ← took, holds.1, holds.2]
  · rw [List.length_append, List.length_singleton, holds.2]

/-- A local file takes the blocks as far as the system does. -/
theorem takes_file (course : SftpCourse) : Takes course.putFileData course.Holds course.Smooth := by
  refine ⟨fun {data sink after blocks} nonempty holds put => ?_,
    fun {data sink error after blocks} holds put => ?_⟩
  · rw [putFileData, if_neg nonempty, writeBlock] at put
    cases answered : (course.writes sink.writes).returned with
    | none =>
        rw [answered] at put
        cases put
    | some size =>
        rw [answered] at put
        dsimp only at put
        rw [if_neg (by omega)] at put
        cases put
        exact holds.append data (by rw [took, answered]; rfl)
  · by_cases empty : data = []
    · rw [putFileData, if_pos empty] at put
      cases put
    · rw [putFileData, if_neg empty, writeBlock] at put
      cases answered : (course.writes sink.writes).returned with
      | none =>
          rw [answered] at put
          cases put
          refine ⟨@ne_of_head _ 'L' rfl (by decide), fun both => ?_,
            holds.append data (by rw [took, answered]; rfl)⟩
          obtain ⟨size, returned, -⟩ := both.1.writes sink.writes
          rw [answered] at returned
          cases returned
      | some size =>
          rw [answered] at put
          dsimp only at put
          rw [if_neg (by omega)] at put
          cases put

theorem takes_data (smooth : Prop) :
    Takes putJobData (fun data blocks => data = blocks.flatten) smooth := by
  refine ⟨fun {data sink after blocks} nonempty holds put => ?_,
    fun {data sink error after blocks} holds put => ?_⟩
  all_goals unfold putJobData at put
  · rw [if_neg nonempty] at put
    cases put
    rw [List.flatten_append, List.flatten_singleton, holds]
  · split at put
    · cases put
    · cases put

/-- What a local file holds of a text: what the writes took of the blocks in which it was read,
and all of it when no write takes only some of a block. -/
structure Kept (course : SftpCourse) (written text : List Char) : Prop where
  blocks : ∃ blocks, Parts blocks text ∧ written = course.taken blocks
  whole : (∀ turn, BUFF_LEN ≤ course.took turn) → written = text

theorem taken_of_whole (whole : ∀ turn, BUFF_LEN ≤ course.took turn)
    {blocks : List (List Char)} (each : ∀ block ∈ blocks, block.length ≤ BUFF_LEN) :
    course.taken blocks = blocks.flatten := by
  induction blocks using List.reverseRecOn with
  | nil => rfl
  | append_singleton blocks last ih =>
      have fits := (each last (List.mem_append_right _ List.mem_cons_self)).trans
        (whole blocks.length)
      rw [taken_append, List.take_of_length_le fits, List.flatten_append, List.flatten_singleton,
        ih fun block member => each block (List.mem_append_left _ member)]

theorem kept_of_arrives {file : WrittenFile} {text : List Char}
    (arrives : Arrives course.Holds file text) : course.Kept file.contents text := by
  obtain ⟨blocks, parts, holds, -⟩ := arrives
  refine ⟨⟨blocks, parts, holds⟩, fun whole => ?_⟩
  rw [holds, taken_of_whole whole fun block member => (parts.each block member).2, parts.flatten]

/-- The time of a job is not up. -/
def InTime (course : SftpCourse) (mTimeout : Nat) : Prop :=
  mTimeout = 0 ∨ ∀ tick, course.clock tick < course.clock 0 + 1000 * mTimeout

theorem startTimer_early {mTimeout : Nat} (inTime : course.InTime mTimeout) :
    course.Early (course.startTimer mTimeout) := by
  intro state started
  unfold startTimer at started
  by_cases limited : 0 < mTimeout
  · rw [if_pos limited] at started
    have before := inTime.resolve_left (by omega)
    have answers : TimeoutTimer.startTimer course.clock 1 ⟨.construct, 0, []⟩
        (some (1000 * mTimeout)) =
          some ⟨⟨1000 * mTimeout, none, false, course.clock 0 + 1000 * mTimeout, true⟩, 2, []⟩ :=
      congrArg (Option.map Prod.snd) (if_pos (before 1))
    rw [answers] at started
    cases started
    exact ⟨rfl, before⟩
  · rw [if_neg limited] at started
    cases started

end SftpCourse

namespace SftpJob

open SftpCourse

variable {Client : Type} (job : SftpJob Client) (course : SftpCourse)

/-- A job without a timeout. -/
def plain (transaction : SftpTransaction) (data : String) : SftpJob Unit :=
  ⟨transaction, "to/a", "b", data, 0, .JOB_TRANSACTION, 0, ⟨(), 0⟩⟩

/-- A course in which every call does what it can. -/
def smoothCourse : SftpCourse where
  localOpened := true
  remoteOpened := true
  statted := true
  opened := true
  closed := true
  sshError := ""
  systemError := ""
  reads _ := some BUFF_LEN
  writes _ := ⟨some BUFF_LEN, 0⟩
  clock _ := 0

theorem smooth_smoothCourse : smoothCourse.Smooth :=
  ⟨rfl, rfl, fun _ => Option.some_ne_none _, fun _ => ⟨BUFF_LEN, rfl, Nat.le_refl _⟩⟩

/-- What is true of the callback of an upload and of the file of the server. -/
structure UploadServed (called : SftpInvocation Client) (outcome : SftpOutcome)
    (whole : List Char) (smooth : Prop) : Prop where
  closed : outcome.handles = 0
  complete : called.error = "" → outcome.remote = some whole
  part : ∀ written ∈ outcome.remote, written <+: whole
  timedOut : called.error = "Transfer timed out" → called.timedOut = true
  succeeds : smooth → called.error = ""

/-- A file is uploaded whole, or the callback is given an error. -/
theorem file_upload_served (isTransfer : job.mType = .JOB_TRANSACTION)
    (isUpload : job.mTransaction = .SFTP_UPLOAD_FILE) (localFile : List Char) {turns : Nat}
    (enough : localFile.length < turns) :
    ∃ outcome called, job.transferFileUpload course localFile turns = some outcome ∧
      job.handle outcome.answers = [called] ∧
        UploadServed called outcome localFile
          (course.localOpened = true ∧ course.Smooth ∧ course.InTime job.mTimeout) := by
  have handled : ∀ answers, job.handle answers = job.handleFileUpload answers := by
    intro answers
    rw [handle, isTransfer, isUpload]
  unfold transferFileUpload
  cases opened : course.localOpened with
  | false =>
      refine ⟨_, job.callback job.mLocalPath "Unable to read local file" false, rfl, ?_, ?_⟩
      · rw [handled]
        exact if_pos (congrArg not opened)
      · obtain ⟨isError, noTimeout⟩ := @ne_of_head "Unable to read local file" 'U' rfl (by decide)
        refine ⟨rfl, fun same => absurd same isError, fun _ impossible => ?_,
          fun same => absurd same noTimeout, fun smooth => absurd smooth.1 Bool.false_ne_true⟩
        cases impossible
  | true =>
      have delivers := (delivers_file course).mono
        (fun smooth : true = true ∧ course.Smooth ∧ course.InTime job.mTimeout => smooth.2.1)
      have size : (ReadFile.rest ⟨localFile, 0⟩).length < turns := enough
      obtain ⟨ended, ran, uploaded⟩ := doUpload_uploaded delivers (fun smooth => smooth.2.1)
        (fun smooth => startTimer_early smooth.2.2) size
      refine ⟨_, job.callback job.mLocalPath ended.error (course.isTimedOut ended.timer).1,
        congrArg (Option.map _) ran, ?_, ?_⟩
      · rw [handled]
        exact if_neg fun missing => absurd (missing.symm.trans (congrArg not opened)) (by decide)
      · exact ⟨uploaded.closed, uploaded.complete, uploaded.part, uploaded.timedOut,
          uploaded.succeeds⟩

theorem file_upload_served_two :
    ∃ outcome, (plain .SFTP_UPLOAD_FILE "").transferFileUpload smoothCourse ['h', 'i'] 3 =
      some outcome ∧ outcome.remote = some ['h', 'i'] := by
  obtain ⟨outcome, called, ran, -, served⟩ :=
    file_upload_served (plain .SFTP_UPLOAD_FILE "") smoothCourse rfl rfl ['h', 'i']
      (by decide : 2 < 3)
  exact ⟨outcome, ran, served.complete (served.succeeds ⟨rfl, smooth_smoothCourse, Or.inl rfl⟩)⟩

theorem length_sentFrom (mData : List Char) : (sentFrom mData 0).length = mData.length := by
  rw [sentFrom, List.length_map, List.length_range, Nat.sub_zero]

theorem getElem?_sentFrom {mData : List Char} {place : Nat} (inside : place < mData.length) :
    (sentFrom mData 0)[place]? = mData[place % BUFF_LEN]? := by
  have within : place % BUFF_LEN < mData.length := (Nat.mod_le place BUFF_LEN).trans_lt inside
  rw [sentFrom, List.getElem?_map, Nat.sub_zero, List.getElem?_range inside, Option.map_some,
    List.getD_eq_getElem?_getD, List.getElem?_eq_getElem within, Option.getD_some]

/-- What is sent of the data is the data just if every byte is also found at its place in the
first block. -/
theorem sentFrom_eq_iff (mData : List Char) : sentFrom mData 0 = mData ↔
    ∀ place < mData.length, mData[place]? = mData[place % BUFF_LEN]? := by
  constructor
  · intro same place inside
    rw [← getElem?_sentFrom inside, same]
  · intro repeats
    refine List.ext_getElem? fun place => ?_
    by_cases inside : place < mData.length
    · rw [getElem?_sentFrom inside, repeats place inside]
    · rw [List.getElem?_eq_none (by rw [length_sentFrom]; omega),
        List.getElem?_eq_none (by omega)]

/-- Data that is uploaded without an error has its length, but each of its blocks is the beginning
of the data. -/
theorem data_upload_served (isTransfer : job.mType = .JOB_TRANSACTION)
    (isUpload : job.mTransaction = .SFTP_UPLOAD_DATA) {turns : Nat}
    (small : job.mData.toList.length < 2 ^ 32) (enough : job.mData.toList.length < turns) :
    ∃ outcome called, job.transferDataUpload course turns = some outcome ∧
      job.handle outcome.answers = [called] ∧
        UploadServed called outcome (sentFrom job.mData.toList 0)
          (course.Smooth ∧ course.InTime job.mTimeout) ∧
        (called.error = "" → ∃ written, outcome.remote = some written ∧
          written.length = job.mData.toList.length ∧
          (∀ place < written.length, written[place]? = job.mData.toList[place % BUFF_LEN]?) ∧
          (written = job.mData.toList ↔ ∀ place < job.mData.toList.length,
            job.mData.toList[place]? = job.mData.toList[place % BUFF_LEN]?)) := by
  have handled : ∀ answers, job.handle answers = job.handleDataUpload answers := by
    intro answers
    rw [handle, isTransfer, isUpload]
  have delivers := delivers_data small (course.Smooth ∧ course.InTime job.mTimeout)
  have size : job.mData.toList.length - 0 < turns := enough
  obtain ⟨ended, ran, uploaded⟩ := doUpload_uploaded delivers (fun smooth => smooth.1)
    (fun smooth => startTimer_early smooth.2) size
  refine ⟨_, job.callback "" ended.error (course.isTimedOut ended.timer).1,
    congrArg (Option.map _) ran, ?_, ?_, fun noError => ?_⟩
  · rw [handled]
    rfl
  · exact ⟨uploaded.closed, uploaded.complete, uploaded.part, uploaded.timedOut,
      uploaded.succeeds⟩
  · refine ⟨_, uploaded.complete noError, length_sentFrom _, fun place inside => ?_,
      sentFrom_eq_iff _⟩
    rw [length_sentFrom] at inside
    exact getElem?_sentFrom inside

/-- Data that is one byte longer than a block. -/
def twoBlocks : String := String.ofList (List.replicate BUFF_LEN 'a' ++ ['b'])

theorem toList_twoBlocks : twoBlocks.toList = List.replicate BUFF_LEN 'a' ++ ['b'] :=
  String.toList_ofList

theorem length_twoBlocks : twoBlocks.toList.length = BUFF_LEN + 1 := by
  rw [toList_twoBlocks, List.length_append, List.length_replicate, List.length_singleton]

/-- The second block is the first byte again. -/
theorem data_upload_served_two :
    ∃ outcome written, (plain .SFTP_UPLOAD_DATA twoBlocks).transferDataUpload smoothCourse
        (BUFF_LEN + 2) = some outcome ∧
      outcome.remote = some written ∧ written.length = BUFF_LEN + 1 ∧
        written[BUFF_LEN]? = some 'a' ∧ written ≠ twoBlocks.toList := by
  have small : twoBlocks.toList.length < 2 ^ 32 := by
    rw [length_twoBlocks]
    unfold BUFF_LEN
    omega
  have enough : twoBlocks.toList.length < BUFF_LEN + 2 := by
    rw [length_twoBlocks]
    omega
  obtain ⟨outcome, called, ran, -, served, copies⟩ :=
    data_upload_served (plain .SFTP_UPLOAD_DATA twoBlocks) smoothCourse rfl rfl small enough
  obtain ⟨written, same, length, copied, -⟩ :=
    copies (served.succeeds ⟨smooth_smoothCourse, Or.inl rfl⟩)
  have count : written.length = BUFF_LEN + 1 := length.trans length_twoBlocks
  have positive : 0 < BUFF_LEN := by
    unfold BUFF_LEN
    omega
  have first : twoBlocks.toList[0]? = some 'a' := by
    rw [toList_twoBlocks, List.getElem?_append_left (by rw [List.length_replicate]; exact positive),
      List.getElem?_replicate, if_pos positive]
  have last : twoBlocks.toList[BUFF_LEN]? = some 'b' := by
    rw [toList_twoBlocks, List.getElem?_append_right (by rw [List.length_replicate]),
      List.length_replicate, Nat.sub_self]
    rfl
  have again : written[BUFF_LEN]? = some 'a' := by
    have copy := copied BUFF_LEN (by omega)
    rw [Nat.mod_self] at copy
    exact copy.trans first
  refine ⟨outcome, written, ran, same, count, again, fun equal => ?_⟩
  rw [equal, last] at again
  exact absurd (Option.some.inj again) (by decide)

/-- What is true of the callback of a download and of what has arrived. -/
structure DownloadServed (called : SftpInvocation Client) (arrived : Option (List Char))
    (holds : List Char → List Char → Prop) (whole : List Char) (smooth : Prop) : Prop where
  complete : called.error = "" → ∃ written, arrived = some written ∧ holds written whole
  part : ∀ written ∈ arrived, ∃ sent, sent <+: whole ∧ holds written sent
  timedOut : called.error = "Transfer timed out" → called.timedOut = true
  succeeds : smooth → called.error = ""

/-- A file is downloaded whole, but for what the local writes did not take, or the callback is
given an error.  The file of the server stays open just if its attributes are not read. -/
theorem file_download_served (isTransfer : job.mType = .JOB_TRANSACTION)
    (isDownload : job.mTransaction = .SFTP_DOWNLOAD_FILE) (remoteFile : List Char) {turns : Nat}
    (enough : remoteFile.length < turns) :
    ∃ outcome called, job.transferFileDownload course remoteFile turns = some outcome ∧
      job.handle outcome.answers = [called] ∧
        (outcome.handles = if course.remoteOpened = true ∧ course.statted = false then 1 else 0) ∧
        DownloadServed called outcome.localFile course.Kept remoteFile
          (course.remoteOpened = true ∧ course.statted = true ∧ course.localOpened = true ∧
            course.Smooth ∧ course.InTime job.mTimeout) := by
  have handled : ∀ answers, job.handle answers = job.handleFileDownload answers := by
    intro answers
    rw [handle, isTransfer, isDownload]
  -- a callback before the transfer has an error, and no local file was written
  have refused : ∀ {error : String} {smooth : Prop}, error ≠ "" ∧ error ≠ timeoutText → ¬smooth →
      DownloadServed (job.callback job.mLocalPath error false) none course.Kept remoteFile
        smooth := by
    intro error smooth known rough
    obtain ⟨isError, noTimeout⟩ := known
    refine ⟨fun same => absurd same isError, fun _ impossible => ?_,
      fun same => absurd same noTimeout, fun smoothly => absurd smoothly rough⟩
    cases impossible
  have answered : ∀ {transferError timedOut downloaded}, ∀ called,
      (if !course.remoteOpened then
          [job.callback job.mLocalPath ("Can't open file for reading: " ++ course.sshError) false]
        else if !course.statted then
          [job.callback job.mLocalPath ("Can't get file stats: " ++ course.sshError) false]
        else if !course.localOpened then
          [job.callback job.mLocalPath ("Unable to write local file " ++ course.systemError) false]
        else [job.callback job.mLocalPath transferError timedOut]) = [called] →
      job.handle (course.answers transferError timedOut downloaded) = [called] := by
    intro transferError timedOut downloaded called same
    rw [handled]
    exact same
  unfold transferFileDownload
  cases remoteOpened : course.remoteOpened with
  | false =>
      have known := ne_of_head
        (@head_append "Can't open file for reading: " course.sshError _ rfl) (by decide)
      exact ⟨_, _, rfl, answered _ (by rw [remoteOpened]; rfl),
        (if_neg fun both => Bool.false_ne_true both.1).symm,
        refused known fun smooth => Bool.false_ne_true smooth.1⟩
  | true =>
      cases statted : course.statted with
      | false =>
          have known := ne_of_head
            (@head_append "Can't get file stats: " course.sshError _ rfl) (by decide)
          exact ⟨_, _, rfl, answered _ (by rw [remoteOpened, statted]; rfl),
            (if_pos ⟨rfl, rfl⟩).symm, refused known fun smooth => Bool.false_ne_true smooth.2.1⟩
      | true =>
          have noneOpen : (0 : Nat) = if true = true ∧ true = false then 1 else 0 := rfl
          cases localOpened : course.localOpened with
          | false =>
              have known := ne_of_head
                (@head_append "Unable to write local file " course.systemError _ rfl) (by decide)
              exact ⟨_, _, rfl, answered _ (by rw [remoteOpened, statted, localOpened]; rfl),
                noneOpen, refused known fun smooth => Bool.false_ne_true smooth.2.2.1⟩
          | true =>
              have takes := (takes_file course).mono
                (fun smooth : course.Smooth ∧ course.InTime job.mTimeout => smooth.1)
              have fresh : course.Holds ⟨[], 0⟩ [] := ⟨rfl, rfl⟩
              obtain ⟨ended, ran, downloaded⟩ := doDownload_downloaded takes
                (fun smooth => smooth.1) fresh (fun smooth => startTimer_early smooth.2) enough
              refine ⟨_, _, congrArg (Option.map _) ran,
                answered _ (by rw [remoteOpened, statted, localOpened]; rfl),
                downloaded.closed.trans noneOpen, fun noError => ?_, fun written same => ?_,
                downloaded.timedOut, fun smooth => downloaded.succeeds smooth.2.2.2⟩
              · exact ⟨_, rfl, kept_of_arrives (downloaded.complete noError)⟩
              · cases same
                obtain ⟨sent, isPrefix, arrives⟩ := downloaded.part
                exact ⟨sent, isPrefix, kept_of_arrives arrives⟩

theorem file_download_served_two :
    ∃ outcome, (plain .SFTP_DOWNLOAD_FILE "").transferFileDownload smoothCourse ['h', 'i'] 3 =
      some outcome ∧ outcome.localFile = some ['h', 'i'] := by
  obtain ⟨outcome, called, ran, -, -, served⟩ :=
    file_download_served (plain .SFTP_DOWNLOAD_FILE "") smoothCourse rfl rfl ['h', 'i']
      (by decide : 2 < 3)
  obtain ⟨written, same, arrives⟩ := served.complete
    (served.succeeds ⟨rfl, rfl, rfl, smooth_smoothCourse, Or.inl rfl⟩)
  rw [arrives.whole fun _ => Nat.le_refl _] at same
  exact ⟨outcome, ran, same⟩

/-- A file is downloaded whole into the data of the callback, or this is given an error. -/
theorem data_download_served (isTransfer : job.mType = .JOB_TRANSACTION)
    (isDownload : job.mTransaction = .SFTP_DOWNLOAD_DATA) (remoteFile : List Char) {turns : Nat}
    (enough : remoteFile.length < turns) :
    ∃ outcome called, job.transferDataDownload course remoteFile turns = some outcome ∧
      job.handle outcome.answers = [called] ∧ outcome.handles = 0 ∧
        DownloadServed called (some called.localFileOrData.toList) Eq remoteFile
          (course.Smooth ∧ course.InTime job.mTimeout) := by
  have handled : ∀ answers, job.handle answers = job.handleDataDownload answers := by
    intro answers
    rw [handle, isTransfer, isDownload]
  have takes := takes_data (course.Smooth ∧ course.InTime job.mTimeout)
  obtain ⟨ended, ran, downloaded⟩ := doDownload_downloaded takes (fun smooth => smooth.1) rfl
    (fun smooth => startTimer_early smooth.2) enough
  refine ⟨_, job.callback (String.ofList ended.sink) ended.error
    (course.isTimedOut ended.timer).1, congrArg (Option.map _) ran, ?_, downloaded.closed,
    fun noError => ?_, fun written same => ?_, downloaded.timedOut, downloaded.succeeds⟩
  · rw [handled]
    rfl
  · obtain ⟨blocks, parts, holds⟩ := downloaded.complete noError
    exact ⟨ended.sink, congrArg some String.toList_ofList, holds.trans parts.flatten⟩
  · have arrived : ended.sink = written :=
      String.toList_ofList.symm.trans (Option.some.inj same)
    obtain ⟨sent, isPrefix, blocks, parts, holds⟩ := downloaded.part
    exact ⟨sent, isPrefix, arrived.symm.trans (holds.trans parts.flatten)⟩

theorem data_download_served_two :
    ∃ outcome called, (plain .SFTP_DOWNLOAD_DATA "").transferDataDownload smoothCourse
        ['h', 'i'] 3 = some outcome ∧
      (plain .SFTP_DOWNLOAD_DATA "").handle outcome.answers = [called] ∧
        called.localFileOrData.toList = ['h', 'i'] := by
  obtain ⟨outcome, called, ran, calls, -, served⟩ :=
    data_download_served (plain .SFTP_DOWNLOAD_DATA "") smoothCourse rfl rfl ['h', 'i']
      (by decide : 2 < 3)
  obtain ⟨written, same, arrives⟩ :=
    served.complete (served.succeeds ⟨smooth_smoothCourse, Or.inl rfl⟩)
  exact ⟨outcome, called, ran, calls, (Option.some.inj same).trans arrives⟩

end SftpJob

end OpenMplane
