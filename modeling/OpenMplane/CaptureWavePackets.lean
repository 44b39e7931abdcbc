import OpenMplane.CaptureWaveCuts
import Mathlib.Data.List.Forall2

/-!
# Which packets give back the files

A run over the packets of a stream ends with a packet that is refused, or with
every file but the last one complete.  The last one is complete as well unless
it has no data: the bytes that would end it belong to no file.
-/

namespace OpenMplane

namespace CaptureWave

variable {files : List CaptureFile} {rest : List UInt8}

/-- The rest of the stream begins inside a header. -/
def Inside (files : List CaptureFile) (rest : List UInt8) : Prop :=
  ∃ taken, CaptureFile.stream files = taken ++ rest ∧ InsideHeader files taken.length

/-- The files of the stream that were read, at the end of a packet. -/
inductive Reading (files : List CaptureFile) (rest : List UInt8) : CaptureWave → Prop
  | between (done next : List CaptureFile) (earlier : List CaptureWaveData) :
      files = done ++ next → List.Forall₂ Complete done earlier →
      rest = CaptureFile.stream next → (∀ last, done.getLast? = some last → last.data ≠ []) →
      Reading files rest ⟨earlier, .new⟩
  | within (done next : List CaptureFile) (file : CaptureFile) (front missing : List UInt8)
      (earlier : List CaptureWaveData) (wave : CaptureWaveData) :
      files = done ++ file :: next → List.Forall₂ Complete done earlier →
      Partial file front wave → front ++ missing = file.data →
      (missing ≠ [] ∨ file.data = []) → rest = missing ++ CaptureFile.stream next →
      Reading files rest ⟨earlier, wave⟩

/-- A header was cut short, and the rest of the stream starts no file. -/
structure CutShort (rest : List UInt8) (wave : CaptureWave) : Prop where
  doomed : Doomed wave.back
  more : rest ≠ []
  headless : ∀ data, data <+: rest → data.length < 2 ^ 32 → Headless data

/-- What a packet can come to. -/
inductive Outcome (files : List CaptureFile) (rest : List UInt8) :
    Option (Bool × CaptureWave) → Prop
  | refused (wave : CaptureWave) : Inside files rest → Outcome files rest (some (false, wave))
  | cutShort (wave : CaptureWave) :
      Inside files rest → CutShort rest wave → Outcome files rest (some (true, wave))
  | reading (wave : CaptureWave) : Reading files rest wave → Outcome files rest (some (true, wave))

section Positions

variable {done next : List CaptureFile} {file : CaptureFile}

@[simp] theorem stream_nil : CaptureFile.stream [] = [] := rfl

@[simp] theorem stream_cons (file : CaptureFile) (files : List CaptureFile) :
    CaptureFile.stream (file :: files) = file.bytes ++ CaptureFile.stream files := rfl

@[simp] theorem stream_append (first second : List CaptureFile) :
    CaptureFile.stream (first ++ second) = CaptureFile.stream first ++ CaptureFile.stream second := by
  induction first with
  | nil => rfl
  | cons file first ih => rw [List.cons_append, stream_cons, ih, stream_cons, List.append_assoc]

theorem eq_nil_of_stream (empty : CaptureFile.stream files = []) : files = [] := by
  cases files with
  | nil => rfl
  | cons file files =>
      have size := congrArg List.length empty
      rw [stream_cons, List.length_append, length_bytes, List.length_nil] at size
      omega

/-- A cut behind the first byte of a header and in front of the last. -/
theorem inside_of_cut {data : List UInt8} (split : files = done ++ file :: next)
    (cut : file.bytes ++ CaptureFile.stream next = data ++ rest) (some : data ≠ [])
    (short : data.length < 20) : Inside files rest := by
  have positive := List.length_pos_iff.mpr some
  refine ⟨CaptureFile.stream done ++ data, ?_, done, file, next, split, ?_, ?_⟩
  · rw [split, stream_append, stream_cons, cut, List.append_assoc]
  · rw [List.length_append]
    omega
  · rw [List.length_append]
    omega

/-- The headers of two files of the stream do not overlap. -/
theorem not_insideHeader (split : files = done ++ next) {position : Nat}
    (atStart : position = (CaptureFile.stream done).length ∨
      ∃ file tail, next = file :: tail ∧ (CaptureFile.stream done).length + 20 ≤ position ∧
        position ≤ (CaptureFile.stream done).length + file.bytes.length) :
    ¬ InsideHeader files position := by
  rintro ⟨before, other, after, splitOther, low, high⟩
  rw [split] at splitOther
  have sizeOther := length_bytes other
  rcases List.append_eq_append_iff.mp splitOther with ⟨gap, rfl, nextEq⟩ | ⟨gap, rfl, afterEq⟩
  · rw [stream_append, List.length_append] at low high
    cases gap with
    | nil =>
        rw [stream_nil, List.length_nil, Nat.add_zero] at low high
        rcases atStart with rfl | ⟨file, tail, rfl, far, -⟩
        · exact Nat.lt_irrefl _ low
        · omega
    | cons first gap =>
        rw [stream_cons, List.length_append] at low
        rcases atStart with rfl | ⟨file, tail, rfl, -, near⟩
        · omega
        · obtain ⟨rfl, -⟩ := List.cons.inj nextEq
          omega
  · rw [stream_append, List.length_append] at atStart
    cases gap with
    | nil =>
        rw [stream_nil, List.length_nil, Nat.add_zero] at atStart
        rcases atStart with rfl | ⟨file, tail, rfl, far, -⟩
        · exact Nat.lt_irrefl _ low
        · omega
    | cons first gap =>
        obtain ⟨rfl, -⟩ := List.cons.inj afterEq
        rw [stream_cons, List.length_append] at atStart
        rcases atStart with rfl | ⟨file, tail, -, far, -⟩
        · omega
        · omega

/-- A packet that leaves the files readable ends inside no header. -/
theorem Reading.not_inside {wave : CaptureWave} (reading : Reading files rest wave)
    {position : Nat} (place : (CaptureFile.stream files).length = position + rest.length) :
    ¬ InsideHeader files position := by
  cases reading with
  | between done next earlier split complete restEq ended =>
      refine not_insideHeader split (Or.inl ?_)
      rw [split, stream_append, List.length_append, restEq] at place
      omega
  | within done next file front missing earlier wave split complete current cut open_ restEq =>
      refine not_insideHeader split (Or.inr ⟨file, next, rfl, ?_⟩)
      have size := length_bytes file
      have total := congrArg List.length cut
      rw [split, stream_append, stream_cons, List.length_append, List.length_append, restEq,
        List.length_append] at place
      rw [List.length_append] at total
      omega

end Positions

section Packets

variable {done next : List CaptureFile} {file : CaptureFile} {earlier : List CaptureWaveData}
  {wave : CaptureWaveData} {data front missing : List UInt8}

theorem outcome_of_doomed (inside : Inside files rest) (doomed : Doomed wave)
    (cutShort : data = [] → CutShort rest ⟨earlier, wave⟩) (short : data.length < 8)
    (passes : Nat) : Outcome files rest (addDataLoop (passes + 2) ⟨earlier, wave⟩ data) := by
  by_cases empty : data = []
  · rw [empty, addDataLoop]
    exact .cutShort _ inside (cutShort empty)
  · obtain ⟨refused, result⟩ := addDataLoop_of_doomed doomed empty (by omega)
      (headless_of_short short) earlier passes
    rw [result]
    exact .refused _ inside

/-- The loop from the start of the next file on. -/
def ReadsOn (files done next : List CaptureFile) : Prop :=
  ∀ rest earlier data passes, List.Forall₂ Complete done earlier → data ≠ [] →
    CaptureFile.stream next = data ++ rest → data.length < 2 ^ 32 → data.length ≤ passes →
      Outcome files rest (addDataLoop passes ⟨earlier, .new⟩ data)

theorem outcome_within (split : files = done ++ file :: next)
    (readsOn : ReadsOn files (done ++ [file]) next) (complete : List.Forall₂ Complete done earlier)
    (current : Partial file front wave) (cut : front ++ missing = file.data)
    (open_ : missing ≠ [] ∨ file.data = [])
    (place : missing ++ CaptureFile.stream next = data ++ rest) (small : data.length < 2 ^ 32)
    {passes : Nat} (enough : data.length + 1 ≤ passes) :
    Outcome files rest (addDataLoop passes ⟨earlier, wave⟩ data) := by
  by_cases empty : data = []
  · rw [empty, List.nil_append] at place
    rw [empty, addDataLoop]
    exact .reading _ (.within done next file front missing earlier wave split complete current cut
      open_ place.symm)
  · obtain ⟨passes, rfl⟩ := Nat.exists_eq_add_of_le' (Nat.le_trans (Nat.le_add_left 1 _) enough)
    have added : ∀ after behind, wave.insertData data = (after, behind) →
        addDataLoop (passes + 1) ⟨earlier, wave⟩ data =
          if after.mEof then addDataLoop passes ⟨earlier ++ [after], .new⟩ behind
          else addDataLoop passes ⟨earlier, after⟩ behind := by
      intro after behind inserted
      obtain ⟨byte, tail, rfl⟩ := List.exists_cons_of_ne_nil empty
      rw [addDataLoop]
      dsimp only
      rw [addData_of_headed current.goesOn current.headed, inserted]
      dsimp only
      rw [if_neg accepted]
    rcases prefix_append_cases ⟨rest, place.symm⟩ with shorter | ⟨behind, rfl, -⟩
    · have front' := List.prefix_of_prefix_length_le ⟨rest, place.symm⟩
        (List.prefix_append missing (CaptureFile.stream next)) (Nat.le_of_lt shorter)
      obtain ⟨later, rfl⟩ := front'
      have more : later ≠ [] := by
        rintro rfl
        rw [List.append_nil] at shorter
        exact Nat.lt_irrefl _ shorter
      obtain ⟨after, inserted, reading⟩ := insertData_front current empty small cut more
      have goesOn : ¬ after.mEof = true := by
        rw [reading.goesOn]
        decide
      rw [List.append_assoc] at place
      rw [added after [] inserted, if_neg goesOn, addDataLoop]
      refine .reading _ (.within done next file _ later earlier after split complete reading ?_
        (Or.inl more) (List.append_cancel_left place).symm)
      rw [List.append_assoc]
      exact cut
    · obtain ⟨after, inserted, ended⟩ := insertData_rest current empty small cut
      have completed : List.Forall₂ Complete (done ++ [file]) (earlier ++ [after]) :=
        List.rel_append complete (.cons ended .nil)
      rw [List.append_assoc] at place
      have following := List.append_cancel_left place
      rw [added after behind inserted, if_pos ended.ended]
      by_cases last : behind = []
      · rw [last, List.nil_append] at following
        rw [last, List.append_nil] at empty
        rw [last, addDataLoop]
        refine .reading _ (.between (done ++ [file]) next _ ?_ completed following.symm ?_)
        · rw [split, List.append_assoc, List.singleton_append]
        · intro other isLast
          rw [List.getLast?_concat] at isLast
          obtain rfl := Option.some.inj isLast
          intro none
          rw [none, List.append_eq_nil_iff] at cut
          exact empty cut.2
      · rw [List.length_append] at small enough
        exact readsOn rest _ behind passes completed last following (by omega) (by omega)

/-- The loop from the start of a file on: the header is whole, or it is cut
short in one of its parts. -/
theorem readsOn_of_split (split : files = done ++ next) : ReadsOn files done next := by
  induction next generalizing done with
  | nil =>
      intro rest earlier data passes complete some place
      exact absurd (List.append_eq_nil_iff.mp place.symm).1 some
  | cons file next ih =>
      have splitNext : files = (done ++ [file]) ++ next := by
        rw [split, List.append_assoc, List.singleton_append]
      have readsOn := ih splitNext
      intro rest earlier data passes complete some place small enough
      have inside := inside_of_cut split place some
      have positive := List.length_pos_iff.mpr some
      have within : data <+: CaptureFile.common ++ (file.special ++ (file.blockHeader ++
          (file.data ++ CaptureFile.stream next))) := by
        refine ⟨rest, place.symm.trans ?_⟩
        simp only [stream_cons, bytes_eq, List.append_assoc]
      have following := place
      simp only [stream_cons, bytes_eq, List.append_assoc] at following
      rcases prefix_append_cases within with short | ⟨behind, rfl, withinSpecial⟩
      · have refused := addData_new_of_headless (headless_of_short short)
        obtain ⟨byte, tail, rfl⟩ := List.exists_cons_of_ne_nil some
        obtain ⟨passes, rfl⟩ := Nat.exists_eq_add_of_le' (Nat.le_trans positive enough)
        rw [addDataLoop]
        dsimp only
        rw [if_pos refused]
        rw [length_common] at short
        exact .refused _ (inside (by omega))
      rw [List.length_append, length_common] at enough
      obtain ⟨passes, rfl⟩ := Nat.exists_eq_add_of_le' (Nat.le_trans (Nat.le_add_right 8 _) enough)
      rw [List.append_assoc, List.append_cancel_left_eq] at following
      rcases prefix_append_cases withinSpecial with short | ⟨behind, rfl, withinBlock⟩
      · rw [length_special] at short
        obtain ⟨wave, reads, doomed⟩ := addHeader_common short
        rw [addDataLoop_of_addHeader some reads doomed.goesOn doomed.headed]
        refine outcome_of_doomed (inside ?_) doomed ?_ (by omega) (passes + 6)
        · rw [List.length_append, length_common]
          omega
        · rintro rfl
          rw [List.nil_append] at following
          refine ⟨doomed, ?_, ?_⟩
          · intro none
            have size := congrArg List.length (following.trans none)
            rw [List.length_append, length_special, List.length_nil] at size
            omega
          · intro later front _
            exact headless_of_special (following ▸ front)
      rw [List.append_assoc, List.append_cancel_left_eq] at following
      rcases prefix_append_cases withinBlock with short | ⟨behind, rfl, -⟩
      · rw [length_blockHeader] at short
        obtain ⟨wave, reads, doomed⟩ := addHeader_special short
        rw [addDataLoop_of_addHeader some reads doomed.goesOn doomed.headed]
        refine outcome_of_doomed (inside ?_) doomed ?_ (by omega) (passes + 6)
        · rw [List.length_append, List.length_append, length_common, length_special]
          omega
        · rintro rfl
          rw [List.nil_append] at following
          refine ⟨doomed, ?_, ?_⟩
          · intro none
            have size := congrArg List.length (following.trans none)
            rw [List.length_append, length_blockHeader, List.length_nil] at size
            omega
          · intro later front _
            exact headless_of_blockHeader (following ▸ front)
      rw [List.append_assoc, List.append_cancel_left_eq] at following
      obtain ⟨wave, reads, current⟩ := addHeader_blockHeader small
      rw [addDataLoop_of_addHeader some reads current.goesOn current.headed]
      have missing : file.data ≠ [] ∨ file.data = [] := (em (file.data = [])).symm
      simp only [List.length_append, length_special, length_blockHeader] at enough small
      refine outcome_within split readsOn complete current rfl missing following ?_ ?_
      · omega
      · omega

/-- The step lemma: a packet of the stream. -/
theorem Reading.addData {wave : CaptureWave} (reading : Reading files (data ++ rest) wave)
    (small : data.length < 2 ^ 32) : Outcome files rest (wave.addData data) := by
  rw [CaptureWave.addData]
  cases reading with
  | between done next earlier split complete restEq ended =>
      by_cases empty : data = []
      · rw [empty, List.nil_append] at restEq
        rw [empty, addDataLoop]
        exact .reading _ (.between done next earlier split complete restEq ended)
      · exact readsOn_of_split split rest earlier data _ complete empty restEq.symm small (by omega)
  | within done next file front missing earlier wave split complete current cut open_ restEq =>
      have splitNext : files = (done ++ [file]) ++ next := by
        rw [split, List.append_assoc, List.singleton_append]
      exact outcome_within split (readsOn_of_split splitNext) complete current cut open_
        restEq.symm small (by omega)

end Packets

section Runs

variable {wave : CaptureWave} {packets : List (List UInt8)}

/-- Behind a header that was cut short a packet is refused. -/
theorem CutShort.addPackets (cutShort : CutShort rest wave) (whole : packets.flatten = rest)
    (small : ∀ packet ∈ packets, packet.length < 2 ^ 32) :
    ∃ refused, wave.addPackets packets = some (false, refused) := by
  induction packets with
  | nil => exact absurd whole.symm cutShort.more
  | cons packet packets ih =>
      rw [CaptureWave.addPackets, CaptureWave.addData]
      by_cases empty : packet = []
      · rw [empty, List.flatten_cons, List.nil_append] at whole
        rw [empty, addDataLoop]
        exact ih whole fun other member => small other (List.mem_cons_of_mem _ member)
      · have few := small packet List.mem_cons_self
        have front : packet <+: rest := ⟨packets.flatten, whole⟩
        obtain ⟨refused, result⟩ := addDataLoop_of_doomed cutShort.doomed empty few
          (cutShort.headless packet front few) wave.earlier (2 * packet.length)
        rw [result]
        exact ⟨refused, rfl⟩

/-- The run lemma: the packets are refused exactly when one ends inside a
header. -/
theorem Reading.addPackets (reading : Reading files rest wave) (whole : packets.flatten = rest)
    (small : ∀ packet ∈ packets, packet.length < 2 ^ 32) {position : Nat}
    (place : (CaptureFile.stream files).length = position + rest.length) :
    (∃ refused, wave.addPackets packets = some (false, refused)) ∧
        (∃ front, front <+: packets ∧ InsideHeader files (position + front.flatten.length)) ∨
      ∃ after, wave.addPackets packets = some (true, after) ∧ Reading files [] after ∧
        ∀ front, front <+: packets → ¬ InsideHeader files (position + front.flatten.length) := by
  have here := reading.not_inside place
  induction packets generalizing rest wave position with
  | nil =>
      rw [List.flatten_nil] at whole
      rw [← whole] at reading
      refine Or.inr ⟨wave, rfl, reading, ?_⟩
      intro front prior
      rw [List.prefix_nil.mp prior]
      exact here
  | cons packet packets ih =>
      have few := small packet List.mem_cons_self
      have fewer : ∀ other ∈ packets, other.length < 2 ^ 32 :=
        fun other member => small other (List.mem_cons_of_mem _ member)
      rw [List.flatten_cons] at whole
      rw [← whole] at reading
      have ended : Inside files packets.flatten →
          InsideHeader files (position + [packet].flatten.length) := by
        rintro ⟨taken, streamEq, inside⟩
        have total := congrArg List.length streamEq
        rw [place, ← whole, List.length_append, List.length_append] at total
        have size : position + [packet].flatten.length = taken.length := by
          rw [List.flatten_singleton]
          omega
        rw [size]
        exact inside
      have prior : [packet] <+: packet :: packets := ⟨packets, rfl⟩
      have step := reading.addData few
      rw [CaptureWave.addPackets]
      generalize wave.addData packet = added at step
      cases step with
      | refused refused inside => exact Or.inl ⟨⟨refused, rfl⟩, [packet], prior, ended inside⟩
      | cutShort after inside cutShort =>
          exact Or.inl ⟨cutShort.addPackets rfl fewer, [packet], prior, ended inside⟩
      | reading after reading =>
          have placeNext : (CaptureFile.stream files).length =
              position + packet.length + packets.flatten.length := by
            rw [place, ← whole, List.length_append]
            omega
          rcases ih reading rfl fewer placeNext (reading.not_inside placeNext) with
            ⟨refused, front, behind, inside⟩ | ⟨last, result, readingLast, outside⟩
          · refine Or.inl ⟨refused, packet :: front, List.cons_prefix_cons.mpr ⟨rfl, behind⟩, ?_⟩
            rw [List.flatten_cons, List.length_append, ← Nat.add_assoc]
            exact inside
          · refine Or.inr ⟨last, result, readingLast, ?_⟩
            intro front prior
            rcases List.prefix_cons_iff.mp prior with rfl | ⟨tail, rfl, tailPrior⟩
            · exact here
            · rw [List.flatten_cons, List.length_append, ← Nat.add_assoc]
              exact outside tail tailPrior

end Runs

section Walks

variable {done : List CaptureFile} {earlier : List CaptureWaveData} {back : CaptureWaveData}

theorem readFiles_of_complete (complete : List.Forall₂ Complete done earlier)
    (goesOn : back.mEof = false) :
    readFiles (earlier.length + 1) ⟨earlier, back⟩ = done.map CaptureFile.stored := by
  induction complete with
  | nil =>
      have open_ : ¬ endOfFile ⟨[], back⟩ = true := by
        rw [endOfFile, mData, List.headD_nil, goesOn]
        decide
      rw [readFiles, if_neg open_, List.map_nil]
  | @cons file wave done earlier ended complete ih =>
      have closed : endOfFile ⟨wave :: earlier, back⟩ = true := ended.ended
      rw [readFiles, if_pos closed, List.map_cons, ← ended.seen, ← ih]
      rfl

theorem stored_eq_sent_iff (file : CaptureFile) : file.stored = file.sent ↔ Fits file := by
  rw [CaptureFile.stored, CaptureFile.sent, Prod.mk.injEq, Prod.mk.injEq, Fits]
  rw [Nat.mod_eq_iff_lt (by decide), Nat.mod_eq_iff_lt (by decide)]
  exact ⟨fun same => same.2, fun fits => ⟨rfl, fits⟩⟩

/-- At the end of the stream every file is read, up to a last one without
data. -/
theorem Reading.walk_iff {wave : CaptureWave} (reading : Reading files [] wave) :
    wave.walk = files.map CaptureFile.sent ↔
      (∀ file ∈ files, Fits file) ∧
        ∀ last, files.getLast? = some last → last.data ≠ [] := by
  cases reading with
  | between done next earlier split complete restEq ended =>
      have none : next = [] := eq_nil_of_stream restEq.symm
      rw [none, List.append_nil] at split
      have walked : walk ⟨earlier, .new⟩ = files.map CaptureFile.stored := by
        rw [walk, mDataList, List.length_append, List.length_singleton, split]
        exact readFiles_of_complete complete rfl
      rw [walked, List.map_inj_left, split]
      simp only [stored_eq_sent_iff]
      exact ⟨fun fits => ⟨fits, ended⟩, fun holds => holds.1⟩
  | within done next file front missing earlier wave split complete current cut open_ restEq =>
      obtain ⟨missingNil, streamNil⟩ := List.append_eq_nil_iff.mp restEq.symm
      have none : next = [] := eq_nil_of_stream streamNil
      have empty : file.data = [] := open_.resolve_left fun some => some missingNil
      have walked : walk ⟨earlier, wave⟩ = done.map CaptureFile.stored := by
        rw [walk, mDataList, List.length_append, List.length_singleton]
        exact readFiles_of_complete complete current.goesOn
      rw [walked, split, none]
      constructor
      · intro same
        have size := congrArg List.length same
        rw [List.length_map, List.length_map, List.length_append, List.length_singleton] at size
        omega
      · rintro ⟨-, ended⟩
        exact absurd empty (ended file List.getLast?_concat)

end Walks

/-- Packets of any length below 4 GiB are refused or give back the files
exactly when one of them ends inside a header, or the numbers fit the header
and the last file has data. -/
theorem refusedOrRead_iff (files : List CaptureFile) (packets : List (List UInt8))
    (whole : packets.flatten = CaptureFile.stream files)
    (small : ∀ packet ∈ packets, packet.length < 2 ^ 32) :
    RefusedOrRead files packets ↔
      (∃ front, front <+: packets ∧ InsideHeader files front.flatten.length) ∨
        (∀ file ∈ files, Fits file) ∧
          ∀ last, files.getLast? = some last → last.data ≠ [] := by
  have starts : Reading files (CaptureFile.stream files) new :=
    .between [] files [] rfl .nil rfl (by simp)
  have place : (CaptureFile.stream files).length = 0 + (CaptureFile.stream files).length :=
    (Nat.zero_add _).symm
  rcases starts.addPackets whole small place with
    ⟨⟨refused, result⟩, front, prior, inside⟩ | ⟨after, result, reading, outside⟩
  · rw [Nat.zero_add] at inside
    refine iff_of_true ⟨false, refused, result, ?_⟩ (Or.inl ⟨front, prior, inside⟩)
    exact fun accepted => absurd accepted (by decide)
  · have notInside : ¬ ∃ front, front <+: packets ∧ InsideHeader files front.flatten.length := by
      rintro ⟨front, prior, inside⟩
      have place := outside front prior
      rw [Nat.zero_add] at place
      exact place inside
    rw [or_iff_right notInside, ← reading.walk_iff]
    constructor
    · rintro ⟨ok, wave, resultOther, read⟩
      obtain ⟨rfl, rfl⟩ := Prod.mk.inj (Option.some.inj (result.symm.trans resultOther))
      exact read rfl
    · exact fun read => ⟨true, after, result, fun _ => read⟩

/-- A file with one byte of data. -/
def oneByte : CaptureFile := ⟨1, 30720, .RAW, [7], by decide⟩

/-- A file without data. -/
def noData : CaptureFile := ⟨1, 30720, .RAW, [], by decide⟩

theorem refusedOrRead_oneByte :
    RefusedOrRead [oneByte, noData, oneByte] [CaptureFile.stream [oneByte, noData, oneByte]] := by
  refine (refusedOrRead_iff [oneByte, noData, oneByte] _ (by simp) (by decide)).mpr
    (Or.inr ⟨by decide, ?_⟩)
  intro last isLast
  rw [← Option.some.inj isLast]
  decide

/-- A file without data at the end of the stream is accepted and not read. -/
theorem last_file_without_data_is_lost :
    [noData.bytes].flatten = CaptureFile.stream [noData] ∧
      ¬ RefusedOrRead [noData] [noData.bytes] := by
  refine ⟨by simp, ?_⟩
  rintro ⟨ok, wave, result, read⟩
  have added : (addPackets new [noData.bytes]).map (fun outcome => (outcome.1, outcome.2.walk)) =
      some (true, []) := by decide +kernel
  rw [result] at added
  obtain ⟨accepted, walked⟩ := Prod.mk.inj (Option.some.inj added)
  have same := (read accepted).symm.trans walked
  exact absurd same (by decide)

end CaptureWave

end OpenMplane
