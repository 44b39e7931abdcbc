import OpenMplane.WaveHeaders

/-!
# What the wave header classes report

A header that lies inside the data as a whole is reported as it stands in the
bytes, with the iterator behind it.  One that does not should be refused, with
nothing left over from an earlier header.  The classes take too few bytes as a
success, trust the length that stands in the header, and keep the members of an
earlier header when they refuse the next one; this file says exactly when none
of this happens.
-/

namespace OpenMplane
namespace AtAddress

open ByteTransfer

/-- A header that lies inside the data as a whole: its type is the wanted one,
and its own length reaches over the part of the class and not past the end. -/
structure Whole (wanted : WaveType → Prop) (specific : Nat) (data : List UInt8) : Prop where
  common : 8 ≤ data.length
  magic : magicIn data = IWaveFile.WAVE_MAGIC
  type : ∃ type, WaveType.ofByte (typeIn data) = some type ∧ wanted type
  covered : specific ≤ lenIn data
  inside : 8 + lenIn data ≤ data.length

/-- A block header inside the data, with the bits of a `WaveBlockType`. -/
structure WholeBlock (data : List UInt8) : Prop where
  inside : 8 ≤ data.length
  type : (readVal 1 data).1 < 4

/-- The result of a method: what it returns, the error text, the members that
the getters report, and where the first iterator points. -/
structure Outcome (σ : Type) where
  ok : Bool
  error : String
  fields : σ
  dataStart : Nat

/-- The outcome `after` of reading a header of `length` bytes that are `whole`
and say `expected`; `fresh` is the outcome for a new object. -/
structure Reports {σ : Type} (range : WaveDataRange) (whole : Prop) (length : Nat)
    (expected : σ) (errorBefore : String) (fresh after : Outcome σ) : Prop where
  verdict : after.ok = true ↔ whole
  consumed : after.ok = true → after.dataStart = range.dataStart + length
  fromBytes : after.ok = true → after.fields = expected
  noError : after.ok = true → after.error = errorBefore
  inside : range.dataStart ≤ after.dataStart ∧
    after.dataStart ≤ range.dataStart + range.bytes.length
  notStale : after.ok = false → after.fields = fresh.fields

section Verdicts

variable {σ : Type} {range : WaveDataRange} {whole : Prop} {length : Nat} {expected fields : σ}
  {errorBefore error : String} {fresh : Outcome σ} {dataStart : Nat}

theorem reports_success_iff :
    Reports range whole length expected errorBefore fresh ⟨true, error, fields, dataStart⟩ ↔
      whole ∧ dataStart = range.dataStart + length ∧ fields = expected ∧ error = errorBefore ∧
        dataStart ≤ range.dataStart + range.bytes.length := by
  constructor
  · rintro ⟨verdict, consumed, fromBytes, noError, inside, -⟩
    exact ⟨verdict.mp rfl, consumed rfl, fromBytes rfl, noError rfl, inside.2⟩
  · rintro ⟨holds, consumed, fromBytes, noError, inside⟩
    have forward : range.dataStart ≤ dataStart := by omega
    exact ⟨⟨fun _ => holds, fun _ => rfl⟩, fun _ => consumed, fun _ => fromBytes,
      fun _ => noError, ⟨forward, inside⟩, fun failed => absurd failed Bool.noConfusion⟩

theorem reports_failure_iff :
    Reports range whole length expected errorBefore fresh ⟨false, error, fields, dataStart⟩ ↔
      ¬ whole ∧ (range.dataStart ≤ dataStart ∧
        dataStart ≤ range.dataStart + range.bytes.length) ∧ fields = fresh.fields := by
  constructor
  · rintro ⟨verdict, -, -, -, inside, notStale⟩
    exact ⟨fun holds => absurd (verdict.mpr holds) Bool.noConfusion, inside, notStale rfl⟩
  · rintro ⟨fails, inside, notStale⟩
    exact ⟨⟨fun ok => absurd ok Bool.noConfusion, fun holds => absurd holds fails⟩,
      fun ok => absurd ok Bool.noConfusion, fun ok => absurd ok Bool.noConfusion,
      fun ok => absurd ok Bool.noConfusion, inside, fun _ => notStale⟩

theorem not_reports_of_error (changed : error ≠ errorBefore) :
    ¬ Reports range whole length expected errorBefore fresh ⟨true, error, fields, dataStart⟩ := by
  intro reports
  obtain ⟨-, -, -, same, -⟩ := reports_success_iff.mp reports
  exact changed same

end Verdicts

theorem length_lt_addError (mError : String) {error : String} (some : error ≠ "") :
    mError.toList.length < (addError mError error).toList.length := by
  have letters : error.toList ≠ [] := fun none => some (by simpa using none)
  have positive := List.length_pos_iff.mpr letters
  unfold addError
  split
  · simp only [String.toList_append, List.length_append]
    omega
  · simp only [String.toList_append, List.length_append]
    omega

theorem addError_ne (mError : String) {error : String} (some : error ≠ "") :
    addError mError error ≠ mError := by
  intro same
  have longer := length_lt_addError mError some
  rw [same] at longer
  exact Nat.lt_irrefl _ longer

theorem addError_addError_ne (mError : String) {first second : String} (some : first ≠ "")
    (other : second ≠ "") : addError (addError mError first) second ≠ mError := by
  intro same
  have longer := Nat.lt_trans (length_lt_addError mError some)
    (length_lt_addError (addError mError first) other)
  rw [same] at longer
  exact Nat.lt_irrefl _ longer

namespace WaveFileHeader

/-- `processHeader` as it is seen from outside. -/
def headerOutcome (header : WaveFileHeader) (range : WaveDataRange) : Outcome WaveType :=
  let (ok, after, rest) := header.processHeader range
  ⟨ok, after.mError, after.mType, rest.dataStart⟩

/-- `processBlockHeader` as it is seen from outside. -/
def blockOutcome (header : WaveFileHeader) (range : WaveDataRange) : Outcome (Nat × Nat) :=
  let (ok, after, rest) := header.processBlockHeader range
  ⟨ok, after.mError, (after.mBlockType, after.mBlockLength), rest.dataStart⟩

end WaveFileHeader

/-- The type of the object stays at what an accepted header says. -/
def typeOr (data : List UInt8) : WaveType :=
  (WaveType.ofByte (typeIn data)).getD .UNSET

/-! ## The common part -/

namespace WaveFileHeader

/-- What `processHeader` of the base class should report: it reads the common
part and remembers the block start. -/
def HeaderReports (header : WaveFileHeader) (range : WaveDataRange) : Prop :=
  Reports range (Whole (fun _ => True) 0 range.bytes) 8 (typeOr range.bytes) header.mError
    (headerOutcome new range) (headerOutcome header range)

/-- What `processBlockHeader` should report. -/
def BlockReports (header : WaveFileHeader) (range : WaveDataRange) : Prop :=
  Reports range (WholeBlock range.bytes) 8
    ((readVal 1 range.bytes).1, (readVal 4 (range.bytes.drop 4)).1) header.mError
    (blockOutcome new range) (blockOutcome header range)

/-- The header is long enough, and the block start of an accepted one lies
inside the data; another one is refused by an object without a type. -/
def headerMeets (header : WaveFileHeader) (data : List UInt8) : Prop :=
  8 ≤ numBytes data ∧
    match acceptedType data with
    | none => header.mType = .UNSET
    | some _ => 8 + lenIn data ≤ data.length

/-- The block header is there and its type is known. -/
def blockMeets (data : List UInt8) : Prop :=
  8 ≤ numBytes data ∧ (readVal 1 data).1 < 4

end WaveFileHeader

/-- A whole header is accepted when its bytes are counted right. -/
theorem acceptedType_of_whole {wanted : WaveType → Prop} {specific : Nat} {data : List UInt8}
    (whole : Whole wanted specific data) (long : 8 ≤ numBytes data) :
    ∃ type, acceptedType data = some type ∧ wanted type := by
  obtain ⟨type, byte, chosen⟩ := whole.type
  refine ⟨type, ?_, chosen⟩
  rw [acceptedType, if_neg (by omega), if_neg (not_not.mpr whole.magic), byte]

/-- An accepted header is whole when its length is right. -/
theorem whole_of_acceptedType {wanted : WaveType → Prop} {specific : Nat} {data : List UInt8}
    {type : WaveType} (accepted : acceptedType data = some type) (chosen : wanted type)
    (covered : specific ≤ lenIn data) (inside : 8 + lenIn data ≤ data.length) :
    Whole wanted specific data := by
  unfold acceptedType at accepted
  split at accepted
  · cases accepted
  · rename_i long
    split at accepted
    · cases accepted
    · rename_i magic
      exact ⟨le_length_of_numBytes long, not_not.mp magic, ⟨type, accepted, chosen⟩, covered,
        inside⟩

theorem not_whole_of_refused {wanted : WaveType → Prop} {specific : Nat} {data : List UInt8}
    (refused : acceptedType data = none) (long : 8 ≤ numBytes data) :
    ¬ Whole wanted specific data := by
  intro whole
  obtain ⟨type, accepted, -⟩ := acceptedType_of_whole whole long
  rw [refused] at accepted
  cases accepted

theorem typeOr_of_accepted {data : List UInt8} {type : WaveType}
    (accepted : acceptedType data = some type) : typeOr data = type := by
  unfold acceptedType at accepted
  split at accepted
  · cases accepted
  · split at accepted
    · cases accepted
    · rw [typeOr, accepted]
      rfl

namespace WaveFileHeader

theorem headerReports_iff (header : WaveFileHeader) (range : WaveDataRange) :
    header.HeaderReports range ↔ header.headerMeets range.bytes := by
  rcases range with ⟨start, data⟩
  rcases processHeader_cases header start data with
    ⟨short, -, ran⟩ | ⟨long, refused, error, moved, few, ran⟩ | ⟨long, type, accepted, ran⟩
  · have outcome : headerOutcome header ⟨start, data⟩ =
        ⟨true, addError header.mError "Invalid header data", header.mType, start⟩ := by
      rw [headerOutcome, ran]
      rfl
    have fails : ¬ header.headerMeets data := fun meets => by
      have long : 8 ≤ numBytes data := meets.1
      omega
    rw [HeaderReports, outcome]
    exact iff_of_false (not_reports_of_error (addError_ne _ (by decide))) fails
  · have length : 8 ≤ data.length := le_length_of_numBytes (Nat.not_lt.mpr long)
    have outcome : headerOutcome header ⟨start, data⟩ =
        ⟨false, error, header.mType, start + moved⟩ := by
      rw [headerOutcome, ran]
    have fresh : (headerOutcome new ⟨start, data⟩).fields = .UNSET := by
      rcases processHeader_cases new start data with
        ⟨short, -, -⟩ | ⟨-, -, error, moved, -, ran⟩ | ⟨-, type, accepted, -⟩
      · exact absurd long (Nat.not_le.mpr short)
      · rw [headerOutcome, ran]
        rfl
      · rw [refused] at accepted
        cases accepted
    rw [HeaderReports, outcome, reports_failure_iff, fresh, headerMeets, refused]
    constructor
    · rintro ⟨-, -, unset⟩
      exact ⟨long, unset⟩
    · rintro ⟨-, unset⟩
      refine ⟨not_whole_of_refused refused long, ?_, unset⟩
      dsimp only
      omega
  · have length : 8 ≤ data.length := le_length_of_numBytes (Nat.not_lt.mpr long)
    have outcome : headerOutcome header ⟨start, data⟩ =
        ⟨true, header.mError, type, start + 8⟩ := by
      rw [headerOutcome, ran]
    rw [HeaderReports, outcome, reports_success_iff, headerMeets, accepted]
    constructor
    · rintro ⟨whole, -⟩
      exact ⟨long, whole.inside⟩
    · rintro ⟨-, inside⟩
      have whole : Whole (fun _ => True) 0 data :=
        whole_of_acceptedType accepted trivial (Nat.zero_le _) inside
      refine ⟨whole, rfl, (typeOr_of_accepted accepted).symm, rfl, ?_⟩
      dsimp only
      omega

theorem blockReports_iff (header : WaveFileHeader) (range : WaveDataRange) :
    header.BlockReports range ↔ blockMeets range.bytes := by
  rcases range with ⟨start, data⟩
  by_cases short : numBytes data < 8
  · have ran : header.processBlockHeader ⟨start, data⟩ =
        (true, header.setError "Invalid block header data", ⟨start, data⟩) := if_pos short
    have outcome : blockOutcome header ⟨start, data⟩ =
        ⟨true, addError header.mError "Invalid block header data",
          (header.mBlockType, header.mBlockLength), start⟩ := by
      rw [blockOutcome, ran]
      rfl
    have fails : ¬ blockMeets data := fun meets => by
      have long : 8 ≤ numBytes data := meets.1
      omega
    rw [BlockReports, outcome]
    exact iff_of_false (not_reports_of_error (addError_ne _ (by decide))) fails
  · have length : 8 ≤ data.length := le_length_of_numBytes short
    have outcome : blockOutcome header ⟨start, data⟩ =
        ⟨true, header.mError, ((readVal 1 data).1, (readVal 4 (data.drop 4)).1), start + 8⟩ := by
      rw [blockOutcome, processBlockHeader_eq header start short]
    rw [BlockReports, outcome, reports_success_iff]
    constructor
    · rintro ⟨whole, -⟩
      exact ⟨Nat.not_lt.mp short, whole.type⟩
    · rintro ⟨-, type⟩
      refine ⟨⟨length, type⟩, rfl, rfl, rfl, ?_⟩
      dsimp only
      omega

end WaveFileHeader

/-! ## The parts of the classes -/

section Specific

variable {σ : Type} (kind : Specific σ) (fresh : σ) (expected : List UInt8 → σ)

/-- `processHeader` of a class as it is seen from outside. -/
def Specific.headerOutcome (header : WaveFileHeader) (own : σ) (range : WaveDataRange) :
    Outcome (WaveType × σ) :=
  let (ok, after, own, dataStart) := kind.processHeader header own range
  ⟨ok, after.mError, (after.mType, own), dataStart⟩

/-- What `processHeader` of a class should report; a new object has the members
`fresh`, and the bytes behind the common part say `expected`. -/
def Specific.HeaderReports (header : WaveFileHeader) (own : σ) (range : WaveDataRange) : Prop :=
  Reports range (Whole (· = kind.wanted) kind.headLen range.bytes) (8 + lenIn range.bytes)
    (kind.wanted, expected (range.bytes.drop 8)) header.mError
    (kind.headerOutcome .new fresh range) (kind.headerOutcome header own range)

/-- A header that is accepted is counted long enough, and its length reaches
over the part of the class and stays inside the data.  One of the other type is
refused by an object without members of an earlier header, any other one by an
object without a type as well. -/
def Specific.headerMeets (header : WaveFileHeader) (own : σ) (data : List UInt8) : Prop :=
  match acceptedType data with
  | none =>
      header.mType = .UNSET ∧ own = fresh ∧ ¬ Whole (· = kind.wanted) kind.headLen data
  | some type =>
      if type = kind.wanted then
        kind.headLen ≤ numBytes (data.drop 8) ∧ kind.headLen ≤ lenIn data ∧
          8 + lenIn data ≤ data.length
      else own = fresh

variable {kind fresh expected}

/-- A refused common part leaves the type and the members of the class. -/
theorem Specific.headerOutcome_refused {data : List UInt8} (refused : acceptedType data = none)
    {header : WaveFileHeader} (settled : 8 ≤ numBytes data ∨ header.mType ≠ kind.wanted)
    (own : σ) (start : Nat) :
    ∃ error moved, moved ≤ data.length ∧ kind.headerOutcome header own ⟨start, data⟩ =
      ⟨false, error, (header.mType, own), start + moved⟩ := by
  rcases header.processHeader_cases start data with
    ⟨short, -, ran⟩ | ⟨long, -, error, moved, few, ran⟩ | ⟨-, type, accepted, -⟩
  · have other : header.mType ≠ kind.wanted := by
      rcases settled with long | other
      · exact absurd long (Nat.not_le.mpr short)
      · exact other
    have stays : (header.setError "Invalid header data").mType ≠ kind.wanted := other
    refine ⟨addError (addError header.mError "Invalid header data") kind.notWanted, 0,
      Nat.zero_le _, ?_⟩
    rw [headerOutcome, processHeader, ran]
    dsimp only
    rw [if_neg Bool.noConfusion, if_pos stays]
    rfl
  · have length : 8 ≤ data.length := le_length_of_numBytes (Nat.not_lt.mpr long)
    refine ⟨error, moved, Nat.le_trans few length, ?_⟩
    rw [headerOutcome, processHeader, ran]
    rfl
  · rw [refused] at accepted
    cases accepted

/-- Too few bytes pass as a success when the object has read a header of its
type before. -/
theorem Specific.headerOutcome_short {data : List UInt8} (short : numBytes data < 8)
    {header : WaveFileHeader} (same : header.mType = kind.wanted) (own : σ) (start : Nat) :
    ∃ error fields dataStart, error ≠ header.mError ∧
      kind.headerOutcome header own ⟨start, data⟩ = ⟨true, error, fields, dataStart⟩ := by
  have stays : ¬ (header.setError "Invalid header data").mType ≠ kind.wanted := fun other =>
    other same
  have ran : header.processHeader ⟨start, data⟩ =
      (true, header.setError "Invalid header data", ⟨start, data⟩) :=
    header.processHeader_short short
  rw [headerOutcome, processHeader, ran]
  dsimp only
  rw [if_neg Bool.noConfusion, if_neg stays]
  by_cases few : numBytes data < kind.headLen
  · rw [if_pos few]
    exact ⟨_, _, _, addError_addError_ne _ (by decide) (by decide), rfl⟩
  · rw [if_neg few]
    exact ⟨_, _, _, addError_ne _ (by decide), rfl⟩

/-- An accepted common part leads to the part of the class. -/
theorem Specific.headerOutcome_accepted {data : List UInt8} {type : WaveType}
    (accepted : acceptedType data = some type) (header : WaveFileHeader) (own : σ)
    (start : Nat) :
    8 ≤ numBytes data ∧
      kind.headerOutcome header own ⟨start, data⟩ =
        if type ≠ kind.wanted then
          ⟨false, addError header.mError kind.notWanted, (type, own), start + 8⟩
        else if numBytes (data.drop 8) < kind.headLen then
          ⟨true, addError header.mError "Invalid header data", (type, own), start + 8⟩
        else
          ⟨true, header.mError, (type, kind.read ⟨start + 8, data.drop 8⟩),
            start + 8 + lenIn data⟩ := by
  rcases header.processHeader_cases start data with
    ⟨-, refused, -⟩ | ⟨-, refused, -⟩ | ⟨long, type', same, ran⟩
  · rw [refused] at accepted
    cases accepted
  · rw [refused] at accepted
    cases accepted
  · rw [same] at accepted
    obtain rfl : type' = type := Option.some.inj accepted
    refine ⟨long, ?_⟩
    rw [headerOutcome, processHeader, ran]
    dsimp only
    rw [if_neg Bool.noConfusion]
    by_cases other : type' ≠ kind.wanted
    · rw [if_pos other, if_pos other]
      rfl
    · rw [if_neg other, if_neg other]
      by_cases few : numBytes (data.drop 8) < kind.headLen
      · rw [if_pos few, if_pos few]
        rfl
      · rw [if_neg few, if_neg few]

theorem Specific.headerReports_iff (known : kind.wanted ≠ .UNSET)
    (reads : ∀ start (data : List UInt8), kind.headLen ≤ data.length →
      kind.read ⟨start, data⟩ = expected data)
    (header : WaveFileHeader) (own : σ) (range : WaveDataRange) :
    kind.HeaderReports fresh expected header own range ↔
      kind.headerMeets fresh header own range.bytes := by
  rcases range with ⟨start, data⟩
  have unset : WaveFileHeader.new.mType ≠ kind.wanted := known.symm
  cases accepted : acceptedType data with
  | none =>
      obtain ⟨newError, newMoved, -, newOutcome⟩ :=
        headerOutcome_refused accepted (Or.inr unset) fresh start
      rw [headerMeets, accepted, HeaderReports, newOutcome]
      by_cases settled : 8 ≤ numBytes data ∨ header.mType ≠ kind.wanted
      · obtain ⟨error, moved, inside, outcome⟩ :=
          headerOutcome_refused accepted settled own start
        rw [outcome, reports_failure_iff, Prod.mk.injEq]
        dsimp only
        constructor
        · rintro ⟨notWhole, -, type, members⟩
          exact ⟨type, members, notWhole⟩
        · rintro ⟨type, members, notWhole⟩
          exact ⟨notWhole, by omega, type, members⟩
      · obtain ⟨short, same⟩ := not_or.mp settled
        obtain ⟨error, fields, dataStart, changed, outcome⟩ :=
          headerOutcome_short (Nat.not_le.mp short) (not_not.mp same) own start
        rw [outcome]
        refine iff_of_false (not_reports_of_error changed) ?_
        rintro ⟨type, -⟩
        exact known ((not_not.mp same).symm.trans type)
  | some type =>
      obtain ⟨long, outcome⟩ := headerOutcome_accepted accepted header own start
      obtain ⟨-, newOutcome⟩ := headerOutcome_accepted accepted WaveFileHeader.new fresh start
      have length : 8 ≤ data.length := le_length_of_numBytes (Nat.not_lt.mpr long)
      rw [headerMeets, accepted, HeaderReports, outcome]
      dsimp only
      by_cases other : type ≠ kind.wanted
      · have notWhole : ¬ Whole (· = kind.wanted) kind.headLen data := by
          intro whole
          obtain ⟨same, byte, wanted⟩ := acceptedType_of_whole whole long
          rw [accepted] at byte
          exact other ((Option.some.inj byte).trans wanted)
        rw [newOutcome, if_pos other, if_pos other, if_neg other, reports_failure_iff,
          Prod.mk.injEq]
        dsimp only
        constructor
        · rintro ⟨-, -, -, members⟩
          exact members
        · intro members
          exact ⟨notWhole, by omega, rfl, members⟩
      · rw [if_neg other, if_pos (not_not.mp other)]
        by_cases few : numBytes (data.drop 8) < kind.headLen
        · rw [if_pos few]
          refine iff_of_false (not_reports_of_error (addError_ne _ (by decide))) ?_
          rintro ⟨enough, -⟩
          omega
        · have enough : kind.headLen ≤ (data.drop 8).length := le_length_of_numBytes few
          rw [if_neg few, reports_success_iff, reads _ _ enough, not_not.mp other]
          dsimp only
          constructor
          · rintro ⟨whole, -⟩
            exact ⟨Nat.not_lt.mp few, whole.covered, whole.inside⟩
          · rintro ⟨-, covered, inside⟩
            have whole : Whole (· = kind.wanted) kind.headLen data :=
              whole_of_acceptedType accepted (not_not.mp other) covered inside
            exact ⟨whole, by omega, rfl, rfl, by omega⟩

end Specific

namespace CaptureWaveHeader

/-- The index and the rate behind the common part. -/
def fieldsIn (data : List UInt8) : CaptureFields :=
  ⟨(readVal 1 data).1, (readVal 3 (data.drop 1)).1⟩

theorem read_eq (start : Nat) (data : List UInt8) (enough : specific.headLen ≤ data.length) :
    specific.read ⟨start, data⟩ = fieldsIn data := by
  have four : 4 ≤ data.length := enough
  have index : WaveDataRange.readVal 1 ⟨start, data⟩ =
      ((readVal 1 data).1, ⟨start + 1, data.drop 1⟩) :=
    WaveDataRange.readVal_eq (by omega)
  simp only [specific, index]
  rfl

/-- What `CaptureWaveHeader::processHeader` should report. -/
def HeaderReports : WaveFileHeader → CaptureFields → WaveDataRange → Prop :=
  specific.HeaderReports new fieldsIn

def headerMeets : WaveFileHeader → CaptureFields → List UInt8 → Prop :=
  specific.headerMeets new

end CaptureWaveHeader

namespace PlaybackWaveHeader

/-- The hash behind the common part. -/
def fieldsIn (data : List UInt8) : List UInt8 := data.take Sha1.SHA1_SIZE

theorem read_eq (start : Nat) (data : List UInt8) (enough : specific.headLen ≤ data.length) :
    specific.read ⟨start, data⟩ = fieldsIn data := by
  have hash : Sha1.SHA1_SIZE ≤ data.length := Nat.le_trans (by decide) enough
  exact WaveDataRange.readBytes_fst hash

/-- What `PlaybackWaveHeader::processHeader` should report. -/
def HeaderReports : WaveFileHeader → List UInt8 → WaveDataRange → Prop :=
  specific.HeaderReports new fieldsIn

def headerMeets : WaveFileHeader → List UInt8 → List UInt8 → Prop :=
  specific.headerMeets new

end PlaybackWaveHeader

/-- Exactly when the methods of the three classes report what stands in the
bytes, on any object and any bytes. -/
theorem headers_report_iff (header : WaveFileHeader) (capture : CaptureFields)
    (playback : List UInt8) (range : WaveDataRange) :
    (header.HeaderReports range ↔ header.headerMeets range.bytes) ∧
      (header.BlockReports range ↔ WaveFileHeader.blockMeets range.bytes) ∧
      (CaptureWaveHeader.HeaderReports header capture range ↔
        CaptureWaveHeader.headerMeets header capture range.bytes) ∧
      (PlaybackWaveHeader.HeaderReports header playback range ↔
        PlaybackWaveHeader.headerMeets header playback range.bytes) := by
  refine ⟨WaveFileHeader.headerReports_iff header range,
    WaveFileHeader.blockReports_iff header range, ?_, ?_⟩
  · exact Specific.headerReports_iff (by decide) CaptureWaveHeader.read_eq header capture range
  · exact Specific.headerReports_iff (by decide) PlaybackWaveHeader.read_eq header playback range

/-- No byte at all is a header to a new object, and eight bytes are a capture
header. -/
theorem short_header_is_success :
    ¬ WaveFileHeader.HeaderReports .new ⟨0, []⟩ ∧
      ¬ CaptureWaveHeader.HeaderReports .new CaptureWaveHeader.new
        ⟨0, [0x57, 0x41, 0x56, 0x45, 0x43, 1, 0, 4]⟩ := by
  constructor
  · intro reports
    have whole := reports.verdict.mp rfl
    exact absurd whole.common (by decide)
  · intro reports
    have whole := reports.verdict.mp rfl
    exact absurd whole.inside (by decide)

end AtAddress
end OpenMplane
