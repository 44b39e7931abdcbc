import OpenMplane.ByteCursor
import OpenMplane.Sha1PseudoCode

/-!
# SHA-1 in a buffer

`Sha1::getHash` works in one buffer of eighty words: whole chunks are put together
there, the rest is put in byte by byte, and `calcHash` extends the first sixteen words
in place while it runs through the rounds.  Whatever was in the buffer before, the
result is that of the pseudo-code.
-/

namespace OpenMplane

open ByteTransfer

namespace Sha1Buffer

open Sha1

/-- The macro `SHA1` with its function already applied. -/
def sha1Macro (func k : UInt32) (i : Nat) (h : Words) (w : List UInt32) : Words :=
  let temp := leftrotate h.a 5 + func + h.e + k + w.getD i 0
  ⟨temp, h.a, leftrotate h.b 30, h.c, h.d⟩

def expandMacro (i : Nat) (w : List UInt32) : List UInt32 :=
  w.set i (leftrotate
    (w.getD (i - 3) 0 ^^^ w.getD (i - 8) 0 ^^^ w.getD (i - 14) 0 ^^^ w.getD (i - 16) 0) 1)

/-- `(b & c) | (~b & d)`. -/
def choose (b c d : UInt32) : UInt32 := (b &&& c) ||| (~~~b &&& d)

/-- `b ^ c ^ d`. -/
def parity (b c d : UInt32) : UInt32 := b ^^^ c ^^^ d

/-- `(b & c) | (b & d) | (c & d)`. -/
def majority (b c d : UInt32) : UInt32 := (b &&& c) ||| (b &&& d) ||| (c &&& d)

/-- A round of the first loop. -/
def plainRound (func : UInt32 → UInt32 → UInt32 → UInt32) (k : UInt32)
    (state : Words × List UInt32) (i : Nat) : Words × List UInt32 :=
  let (h, w) := state
  (sha1Macro (func h.b h.c h.d) k i h w, w)

/-- A round of the other loops. -/
def expandRound (func : UInt32 → UInt32 → UInt32 → UInt32) (k : UInt32)
    (state : Words × List UInt32) (i : Nat) : Words × List UInt32 :=
  plainRound func k (state.1, expandMacro i state.2) i

/-- `Sha1::calcHash`, with the buffer that it leaves. -/
def calcHash (h : Words) (w : List UInt32) : Words × List UInt32 :=
  let state := (List.range' 0 16).foldl (plainRound choose K0) (h, w)
  let state := (List.range' 16 4).foldl (expandRound choose K0) state
  let state := (List.range' 20 20).foldl (expandRound parity K20) state
  let state := (List.range' 40 20).foldl (expandRound majority K40) state
  let (last, w) := (List.range' 60 20).foldl (expandRound parity K60) state
  (⟨h.a + last.a, h.b + last.b, h.c + last.c, h.d + last.d, h.e + last.e⟩, w)

def clearW (w : List UInt32) : List UInt32 :=
  (List.range 16).foldl (fun w i => w.set i 0) w

def toInt (size : Int) : Int := Int.bmod size (2 ^ 32)

/-- Four bytes of the data as a word. -/
def wordAt (data : List UInt8) (currentChunk : Nat) : UInt32 :=
  (data.getD (currentChunk + 3) 0).toUInt32 |||
    ((data.getD (currentChunk + 2) 0).toUInt32 <<< 8) |||
    ((data.getD (currentChunk + 1) 0).toUInt32 <<< 16) |||
    ((data.getD currentChunk 0).toUInt32 <<< 24)

/-- The inner loop over a whole chunk. -/
def fillChunk (data : List UInt8) (currentChunk : Nat) (w : List UInt32) : List UInt32 :=
  (List.range 16).foldl (fun w i => w.set i (wordAt data (currentChunk + 4 * i))) w

/-- The loop over the whole chunks. -/
def chunkLoop (data : List UInt8) (numChunks : Int) (currentChunk : Nat) (h : Words)
    (w : List UInt32) : Words × List UInt32 × Nat :=
  if (currentChunk : Int) ≤ numChunks then
    let (h, w) := calcHash h (fillChunk data currentChunk w)
    chunkLoop data numChunks (currentChunk + 64) h w
  else (h, w, currentChunk)
termination_by (numChunks + 1 - currentChunk).toNat
decreasing_by omega

/-- `w[index / 4] |= byte << ((3 - (index % 4)) * 8)`. -/
def orByte (w : List UInt32) (index : Nat) (byte : UInt8) : List UInt32 :=
  w.set (index / 4)
    (w.getD (index / 4) 0 ||| byte.toUInt32 <<< UInt32.ofNat ((3 - index % 4) * 8))

/-- `Sha1::getHash`, with what the buffer held before. -/
def getHash (buffer : Fin 80 → UInt32) (data : List UInt8) : List UInt8 :=
  let numChunks := toInt ((data.length : Int) - 64)
  let (h, w, currentChunk) := chunkLoop data numChunks 0 H (List.ofFn buffer)
  let w := clearW w
  let endCurrentChunk := toInt ((data.length : Int) - currentChunk)
  let remainingBytes := endCurrentChunk.toNat
  let w := (List.range remainingBytes).foldl
    (fun w index => orByte w index (data.getD (index + currentChunk) 0)) w
  let w := orByte w remainingBytes 0x80
  let (h, w) :=
    if 56 ≤ endCurrentChunk then
      let (h, w) := calcHash h w
      (h, clearW w)
    else (h, w)
  let w := w.set 15 (UInt32.ofNat (data.length * 8))
  let (h, _) := calcHash h w
  (List.range SHA1_SIZE).map fun byte =>
    (([h.a, h.b, h.c, h.d, h.e].getD (byte / 4) 0 >>>
      (((3 - UInt32.ofNat byte) &&& 0x3) <<< 3)) &&& 0xff).toUInt8

section Rounds

open Sha1PseudoCode (extend process)

/-- The buffer holds the words of a chunk up to this one, and its first sixteen. -/
structure Holds (chunk : Nat → UInt32) (w : List UInt32) (i : Nat) : Prop where
  size : w.length = 80
  words : ∀ j < i, w.getD j 0 = extend chunk j

theorem getD_set {w : List UInt32} {i : Nat} (inside : i < w.length) (value : UInt32) (j : Nat) :
    (w.set i value).getD j 0 = if i = j then value else w.getD j 0 := by
  rw [List.getD_eq_getElem?_getD, List.getD_eq_getElem?_getD, List.getElem?_set]
  by_cases same : i = j
  · rw [if_pos same, if_pos inside, if_pos same]
    rfl
  · rw [if_neg same, if_neg same]

theorem sha1Macro_eq {func k : UInt32} {i : Nat} {h : Words} {w : List UInt32}
    {chunk : Nat → UInt32} (function : func = Sha1PseudoCode.f i h.b h.c h.d)
    (constant : k = Sha1PseudoCode.k i) (word : w.getD i 0 = extend chunk i) :
    sha1Macro func k i h w = Sha1PseudoCode.round (extend chunk) h i := by
  have five : leftrotate h.a 5 = Sha1PseudoCode.leftrotate h.a 5 :=
    Sha1PseudoCode.leftrotate_eq (by decide) (by decide) h.a
  have thirty : leftrotate h.b 30 = Sha1PseudoCode.leftrotate h.b 30 :=
    Sha1PseudoCode.leftrotate_eq (by decide) (by decide) h.b
  rw [sha1Macro, Sha1PseudoCode.round, function, constant, word, five, thirty]

/-- Extending the buffer by one word. -/
theorem Holds.expand {chunk : Nat → UInt32} {w : List UInt32} {i : Nat} (holds : Holds chunk w i)
    (behind : 16 ≤ i) (below : i < 80) : Holds chunk (expandMacro i w) (i + 1) := by
  have inside : i < w.length := by
    rw [holds.size]
    exact below
  have rotated : ∀ value, leftrotate value 1 = Sha1PseudoCode.leftrotate value 1 :=
    Sha1PseudoCode.leftrotate_eq (by decide) (by decide)
  refine ⟨by rw [expandMacro, List.length_set, holds.size], ?_⟩
  intro j before
  rw [expandMacro, getD_set inside]
  by_cases same : i = j
  · subst same
    rw [if_pos rfl, rotated, holds.words _ (by omega), holds.words _ (by omega),
      holds.words _ (by omega), holds.words _ (by omega), Sha1PseudoCode.extend_of_le _ behind]
  · rw [if_neg same, holds.words j (by omega)]

/-- A loop that extends the buffer round by round. -/
theorem foldl_expandRound {func : UInt32 → UInt32 → UInt32 → UInt32} {k : UInt32}
    {chunk : Nat → UInt32} {start count : Nat}
    (same : ∀ i, start ≤ i → i < start + count →
      func = Sha1PseudoCode.f i ∧ k = Sha1PseudoCode.k i)
    (behind : 16 ≤ start) (inside : start + count ≤ 80) {state last : Words × List UInt32}
    (holds : Holds chunk state.2 start)
    (run : (List.range' start count).foldl (expandRound func k) state = last) :
    last.1 = (List.range' start count).foldl (Sha1PseudoCode.round (extend chunk)) state.1 ∧
      Holds chunk last.2 (start + count) := by
  subst run
  induction count with
  | zero => exact ⟨rfl, holds⟩
  | succ count ih =>
      have fewer : ∀ i, start ≤ i → i < start + count →
          func = Sha1PseudoCode.f i ∧ k = Sha1PseudoCode.k i :=
        fun i after before => same i after (by omega)
      obtain ⟨hash, words⟩ := ih fewer (by omega)
      obtain ⟨function, constant⟩ := same (start + count) (by omega) (by omega)
      have expanded := words.expand (by omega) (by omega)
      rw [List.range'_concat, List.foldl_append, List.foldl_append, List.foldl_cons,
        List.foldl_nil, List.foldl_cons, List.foldl_nil, Nat.one_mul, ← hash]
      refine ⟨?_, expanded⟩
      exact sha1Macro_eq (by rw [function]) constant (expanded.words _ (by omega))

/-- The first loop leaves the buffer. -/
theorem foldl_plainRound {chunk : Nat → UInt32} {w : List UInt32} (holds : Holds chunk w 16)
    {count : Nat} (inside : count ≤ 16) (h : Words) :
    (List.range' 0 count).foldl (plainRound choose K0) (h, w) =
      ((List.range' 0 count).foldl (Sha1PseudoCode.round (extend chunk)) h, w) := by
  induction count with
  | zero => rfl
  | succ count ih =>
      have early : count ≤ 19 := by omega
      rw [List.range'_concat, List.foldl_append, List.foldl_append, ih (by omega),
        List.foldl_cons, List.foldl_nil, List.foldl_cons, List.foldl_nil, Nat.one_mul,
        Nat.zero_add, plainRound, sha1Macro_eq (by rw [Sha1PseudoCode.f, if_pos early, choose])
        (by rw [Sha1PseudoCode.k, if_pos early, K0]) (holds.words count (by omega))]

/-- `calcHash` in the buffer is the step of the pseudo-code. -/
theorem calcHash_spec {w : List UInt32} (size : w.length = 80) (h : Words) :
    (calcHash h w).1 = process h (fun i => w.getD i 0) ∧ (calcHash h w).2.length = 80 := by
  have first : Holds (fun i => w.getD i 0) w 16 :=
    ⟨size, fun j below => (Sha1PseudoCode.extend_of_lt (fun i => w.getD i 0) below).symm⟩
  have plain := foldl_plainRound first (Nat.le_refl 16) h
  have chosen : ∀ i, 16 ≤ i → i < 16 + 4 →
      choose = Sha1PseudoCode.f i ∧ K0 = Sha1PseudoCode.k i := by
    intro i _ below
    have range : i ≤ 19 := by omega
    constructor
    · funext b c d
      rw [Sha1PseudoCode.f, if_pos range, choose]
    · rw [Sha1PseudoCode.k, if_pos range, K0]
  have second : ∀ i, 20 ≤ i → i < 20 + 20 →
      parity = Sha1PseudoCode.f i ∧ K20 = Sha1PseudoCode.k i := by
    intro i above below
    have behind : ¬ i ≤ 19 := by omega
    have range : i ≤ 39 := by omega
    constructor
    · funext b c d
      rw [Sha1PseudoCode.f, if_neg behind, if_pos range, parity]
    · rw [Sha1PseudoCode.k, if_neg behind, if_pos range, K20]
  have third : ∀ i, 40 ≤ i → i < 40 + 20 →
      majority = Sha1PseudoCode.f i ∧ K40 = Sha1PseudoCode.k i := by
    intro i above below
    have behind : ¬ i ≤ 19 := by omega
    have behind' : ¬ i ≤ 39 := by omega
    have range : i ≤ 59 := by omega
    constructor
    · funext b c d
      rw [Sha1PseudoCode.f, if_neg behind, if_neg behind', if_pos range, majority]
    · rw [Sha1PseudoCode.k, if_neg behind, if_neg behind', if_pos range, K40]
  have fourth : ∀ i, 60 ≤ i → i < 60 + 20 →
      parity = Sha1PseudoCode.f i ∧ K60 = Sha1PseudoCode.k i := by
    intro i above below
    have behind : ¬ i ≤ 19 := by omega
    have behind' : ¬ i ≤ 39 := by omega
    have range : ¬ i ≤ 59 := by omega
    constructor
    · funext b c d
      rw [Sha1PseudoCode.f, if_neg behind, if_neg behind', if_neg range, parity]
    · rw [Sha1PseudoCode.k, if_neg behind, if_neg behind', if_neg range, K60]
  have all : List.range 80 = List.range' 0 16 ++ (List.range' 16 4 ++ (List.range' 20 20 ++
      (List.range' 40 20 ++ List.range' 60 20))) := by decide
  rw [calcHash, plain, process, all, List.foldl_append, List.foldl_append, List.foldl_append,
    List.foldl_append]
  generalize (List.range' 0 16).foldl (Sha1PseudoCode.round (extend fun i => w.getD i 0)) h = h16
  generalize run20 : (List.range' 16 4).foldl (expandRound choose K0) (h16, w) = state20
  obtain ⟨hash20, holds20⟩ := foldl_expandRound chosen (by decide) (by decide) first run20
  dsimp only at hash20 ⊢
  generalize run40 : (List.range' 20 20).foldl (expandRound parity K20) state20 = state40
  obtain ⟨hash40, holds40⟩ := foldl_expandRound second (by decide) (by decide) holds20 run40
  generalize run60 : (List.range' 40 20).foldl (expandRound majority K40) state40 = state60
  obtain ⟨hash60, holds60⟩ := foldl_expandRound third (by decide) (by decide) holds40 run60
  generalize run80 : (List.range' 60 20).foldl (expandRound parity K60) state60 = state80
  obtain ⟨hash80, holds80⟩ := foldl_expandRound fourth (by decide) (by decide) holds60 run80
  rw [← hash20, ← hash40, ← hash60, ← hash80]
  exact ⟨rfl, holds80.size⟩

end Rounds

section Words

open Sha1PseudoCode (chunkWord)

theorem toNat_shifted (byte : UInt8) {count : Nat} (below : count < 4) :
    (byte.toUInt32 <<< UInt32.ofNat (count * 8)).toNat = byte.toNat * 256 ^ count := by
  have low : byte.toNat < 256 := byte.toNat_lt
  have number : (UInt32.ofNat (count * 8)).toNat = count * 8 :=
    UInt32.toNat_ofNat_of_lt' (by simp only [UInt32.size]; omega)
  have small : byte.toNat * 256 ^ count < 2 ^ 32 := by
    have grow : 256 ^ count ≤ 256 ^ 3 := Nat.pow_le_pow_right (by decide) (by omega)
    have product := Nat.mul_le_mul (Nat.le_of_lt_succ low) grow
    omega
  rw [UInt32.toNat_shiftLeft, number, UInt8.toNat_toUInt32, Nat.mod_eq_of_lt (by omega : _ < 32),
    Nat.shiftLeft_eq, ByteCursor.two_pow_mul_eight, Nat.mod_eq_of_lt small]

theorem drop_eq_four {data : List UInt8} {start : Nat} (inside : start + 4 ≤ data.length) :
    data.drop start = data.getD start 0 :: data.getD (start + 1) 0 :: data.getD (start + 2) 0 ::
      data.getD (start + 3) 0 :: data.drop (start + 4) := by
  have get : ∀ i, i < data.length → data.drop i = data.getD i 0 :: data.drop (i + 1) := by
    intro i below
    rw [List.drop_eq_getElem_cons below, List.getD_eq_getElem _ _ below]
  rw [get start (by omega), get (start + 1) (by omega), get (start + 2) (by omega),
    get (start + 3) (by omega)]

/-- Four bytes put together are the word that starts there. -/
theorem wordAt_eq {data : List UInt8} {start i : Nat} (inside : start + 4 * i + 4 ≤ data.length) :
    wordAt data (start + 4 * i) = chunkWord data start i := by
  have first := toNat_shifted (data.getD (start + 4 * i + 2) 0) (by decide : 1 < 4)
  have second := toNat_shifted (data.getD (start + 4 * i + 1) 0) (by decide : 2 < 4)
  have third := toNat_shifted (data.getD (start + 4 * i) 0) (by decide : 3 < 4)
  have low0 : (data.getD (start + 4 * i + 3) 0).toNat < 256 := UInt8.toNat_lt _
  have low1 : (data.getD (start + 4 * i + 2) 0).toNat < 256 := UInt8.toNat_lt _
  have low2 : (data.getD (start + 4 * i + 1) 0).toNat < 256 := UInt8.toNat_lt _
  have low3 : (data.getD (start + 4 * i) 0).toNat < 256 := UInt8.toNat_lt _
  have shifts : (8 : UInt32) = UInt32.ofNat (1 * 8) ∧ (16 : UInt32) = UInt32.ofNat (2 * 8) ∧
      (24 : UInt32) = UInt32.ofNat (3 * 8) := ⟨rfl, rfl, rfl⟩
  have bytes := readVal_lt 4 (data.drop (start + 4 * i))
  have number := UInt32.toNat_ofNat_of_lt' bytes
  apply UInt32.toNat.inj
  rw [chunkWord, readWord, number, drop_eq_four inside]
  simp only [readVal]
  rw [wordAt, UInt32.toNat_or, UInt32.toNat_or, UInt32.toNat_or, shifts.1, shifts.2.1, shifts.2.2,
    first, second, third, UInt8.toNat_toUInt32, Nat.or_comm _ (_ * 256 ^ 1),
    ByteCursor.mul_or_of_lt _ (by omega), Nat.or_comm _ (_ * 256 ^ 2),
    ByteCursor.mul_or_of_lt _ (by omega), Nat.or_comm _ (_ * 256 ^ 3),
    ByteCursor.mul_or_of_lt _ (by omega)]
  omega

theorem readVal_concat {count : Nat} {text : List UInt8} (room : text.length < count)
    (byte : UInt8) :
    (readVal count (text ++ [byte])).1 =
      (readVal count text).1 + byte.toNat * 256 ^ (count - 1 - text.length) := by
  induction count generalizing text with
  | zero => exact absurd room (Nat.not_lt_zero _)
  | succ count ih =>
      cases text with
      | nil =>
          have none : (readVal count []).1 = 0 := by
            cases count <;> rfl
          simp [readVal, none]
      | cons first text =>
          have rest := ih (Nat.lt_of_succ_lt_succ room)
          have left : count + 1 - 1 - (first :: text).length = count - 1 - text.length := by
            rw [List.length_cons]
            omega
          rw [List.cons_append, readVal, readVal, left]
          dsimp only
          rw [rest]
          omega

/-- A number of bytes that are missing at its end. -/
theorem dvd_readVal {count : Nat} {text : List UInt8} (room : text.length ≤ count) :
    256 ^ (count - text.length) ∣ (readVal count text).1 := by
  induction count generalizing text with
  | zero => simp [readVal]
  | succ count ih =>
      cases text with
      | nil => exact Nat.dvd_zero _
      | cons first text =>
          have rest := ih (Nat.le_of_succ_le_succ room)
          have left : count + 1 - (first :: text).length = count - text.length := by
            rw [List.length_cons]
            omega
          have power : 256 ^ (count - text.length) ∣ 256 ^ count :=
            Nat.pow_dvd_pow 256 (Nat.sub_le _ _)
          rw [readVal, left]
          exact Nat.dvd_add (Nat.dvd_mul_left_of_dvd power _) rest

theorem chunkWord_concat {text : List UInt8} (byte : UInt8) (i : Nat) :
    chunkWord (text ++ [byte]) 0 i =
      if text.length / 4 = i then
        chunkWord text 0 i ||| byte.toUInt32 <<< UInt32.ofNat ((3 - text.length % 4) * 8)
      else chunkWord text 0 i := by
  by_cases here : text.length / 4 = i
  · subst here
    have inside : 4 * (text.length / 4) ≤ text.length := by omega
    have few : (text.drop (4 * (text.length / 4))).length = text.length % 4 := by
      rw [List.length_drop]
      omega
    have place : 4 - 1 - text.length % 4 = 3 - text.length % 4 := by omega
    have more := @readVal_concat 4 (text.drop (4 * (text.length / 4))) (by omega) byte
    obtain ⟨high, whole⟩ := @dvd_readVal 4 (text.drop (4 * (text.length / 4))) (by omega)
    have shifted := toNat_shifted byte (by omega : 3 - text.length % 4 < 4)
    have below := readVal_lt 4 (text.drop (4 * (text.length / 4)) ++ [byte])
    have belowOld := readVal_lt 4 (text.drop (4 * (text.length / 4)))
    have low : byte.toNat * 256 ^ (3 - text.length % 4) < 256 ^ (4 - text.length % 4) := by
      have step : 4 - text.length % 4 = 3 - text.length % 4 + 1 := by omega
      have byteLow : byte.toNat < 256 := byte.toNat_lt
      rw [step, pow_succ']
      exact Nat.mul_lt_mul_of_pos_right byteLow (Nat.pow_pos (by decide))
    rw [few] at more whole
    rw [place] at more
    apply UInt32.toNat.inj
    rw [if_pos rfl, chunkWord, chunkWord, Nat.zero_add, readWord, readWord,
      List.drop_append_of_le_length inside, UInt32.toNat_or, UInt32.toNat_ofNat_of_lt' below,
      UInt32.toNat_ofNat_of_lt' belowOld, shifted, more, whole, Nat.mul_comm (256 ^ _) high,
      ByteCursor.mul_or_of_lt high low]
  · rw [if_neg here]
    by_cases before : i < text.length / 4
    · exact Sha1PseudoCode.chunkWord_append (by omega) [byte]
    · rw [Sha1PseudoCode.chunkWord_of_le (by rw [List.length_append, List.length_singleton]; omega),
        Sha1PseudoCode.chunkWord_of_le (by omega)]

end Words

section Main

open Sha1PseudoCode (chunkWord process)

theorem foldl_set (value : Nat → UInt32) {w : List UInt32} {count : Nat}
    (inside : count ≤ w.length) :
    let filled := (List.range count).foldl (fun w i => w.set i (value i)) w
    filled.length = w.length ∧
      ∀ j, filled.getD j 0 = if j < count then value j else w.getD j 0 := by
  induction count with
  | zero => exact ⟨rfl, fun j => rfl⟩
  | succ count ih =>
      obtain ⟨size, words⟩ := ih (by omega)
      rw [List.range_succ, List.foldl_append, List.foldl_cons, List.foldl_nil]
      refine ⟨by rw [List.length_set, size], ?_⟩
      intro j
      rw [getD_set (by omega), words]
      by_cases same : count = j
      · subst same
        rw [if_pos rfl, if_pos (Nat.lt_succ_self count)]
      · have less : j < count + 1 ↔ j < count := by omega
        rw [if_neg same]
        simp only [less]

theorem clearW_spec {w : List UInt32} (size : w.length = 80) :
    (clearW w).length = 80 ∧ ∀ j < 16, (clearW w).getD j 0 = 0 := by
  obtain ⟨length, words⟩ := @foldl_set (fun _ => 0) w 16 (by omega)
  refine ⟨length.trans size, ?_⟩
  intro j below
  exact (words j).trans (if_pos below)

theorem fillChunk_spec {data : List UInt8} {currentChunk : Nat}
    (inside : currentChunk + 64 ≤ data.length) {w : List UInt32} (size : w.length = 80) :
    (fillChunk data currentChunk w).length = 80 ∧
      ∀ i < 16, (fillChunk data currentChunk w).getD i 0 = chunkWord data currentChunk i := by
  obtain ⟨length, words⟩ := @foldl_set (fun i => wordAt data (currentChunk + 4 * i)) w 16 (by omega)
  refine ⟨length.trans size, ?_⟩
  intro i below
  exact ((words i).trans (if_pos below)).trans (wordAt_eq (by omega))

theorem chunkLoop_of_le (data : List UInt8) {numChunks : Int} {currentChunk : Nat}
    (more : (currentChunk : Int) ≤ numChunks) (h : Words) (w : List UInt32) :
    chunkLoop data numChunks currentChunk h w =
      chunkLoop data numChunks (currentChunk + 64)
        (calcHash h (fillChunk data currentChunk w)).1
        (calcHash h (fillChunk data currentChunk w)).2 := by
  rw [chunkLoop, if_pos more]

theorem chunkLoop_spec {data : List UInt8} (done left : Nat)
    (chunks : done + left = data.length / 64) (h : Words) {w : List UInt32}
    (size : w.length = 80) :
    let state := chunkLoop data ((data.length : Int) - 64) (64 * done) h w
    state.1 = (List.range' done left).foldl
        (fun h chunk => Sha1.calcHash h (chunkWords (data.drop (64 * chunk)))) h ∧
      state.2.1.length = 80 ∧ state.2.2 = 64 * (data.length / 64) := by
  induction left generalizing done h w with
  | zero =>
      have ended : ¬ ((64 * done : Nat) : Int) ≤ (data.length : Int) - 64 := by omega
      have all : 64 * done = 64 * (data.length / 64) := by omega
      rw [chunkLoop, if_neg ended]
      exact ⟨rfl, size, all⟩
  | succ left ih =>
      have more : ((64 * done : Nat) : Int) ≤ (data.length : Int) - 64 := by omega
      obtain ⟨filled, words⟩ := @fillChunk_spec data (64 * done) (by omega) w size
      obtain ⟨hash, kept⟩ := calcHash_spec filled h
      have rest := ih (done + 1) (by omega)
        (calcHash h (fillChunk data (64 * done) w)).1 kept
      have step : (calcHash h (fillChunk data (64 * done) w)).1 =
          Sha1.calcHash h (chunkWords (data.drop (64 * done))) := by
        rw [hash, Sha1PseudoCode.calcHash_eq (Sha1PseudoCode.length_chunkWords _)]
        apply Sha1PseudoCode.process_congr
        intro i below
        rw [words i below, Sha1PseudoCode.getD_chunkWords _ below, Sha1PseudoCode.chunkWord_drop]
      have next : 64 * done + 64 = 64 * (done + 1) := by omega
      rw [chunkLoop_of_le data more, List.range'_succ, List.foldl_cons, ← step, next]
      exact rest

/-- The buffer holds the words of these bytes. -/
def Text (w : List UInt32) (text : List UInt8) : Prop :=
  w.length = 80 ∧ ∀ i < 16, w.getD i 0 = chunkWord text 0 i

theorem text_orByte {w : List UInt32} {text : List UInt8} (words : Text w text)
    (room : text.length < 64) (byte : UInt8) :
    Text (orByte w text.length byte) (text ++ [byte]) := by
  obtain ⟨size, same⟩ := words
  refine ⟨by rw [orByte, List.length_set, size], ?_⟩
  intro i below
  rw [orByte, getD_set (by omega), chunkWord_concat, same _ (by omega), same i below]
  by_cases here : text.length / 4 = i
  · rw [if_pos here, if_pos here, here]
  · rw [if_neg here, if_neg here]

/-- The remaining bytes go into the buffer one by one. -/
theorem text_foldl_orByte {data : List UInt8} {start count : Nat}
    (inside : start + count ≤ data.length) (few : count ≤ 64) {w : List UInt32}
    (clear : Text w []) :
    Text ((List.range count).foldl (fun w index => orByte w index (data.getD (index + start) 0)) w)
      ((data.drop start).take count) := by
  induction count with
  | zero => exact clear
  | succ count ih =>
      have before := ih (by omega) (by omega)
      have length : ((data.drop start).take count).length = count := by
        rw [List.length_take, List.length_drop]
        omega
      have next := text_orByte before (by omega) (data.getD (count + start) 0)
      have last : (data.drop start).take (count + 1) =
          (data.drop start).take count ++ [data.getD (count + start) 0] := by
        have below : count < (data.drop start).length := by
          rw [List.length_drop]
          omega
        rw [List.take_add_one, List.getElem?_eq_getElem below, List.getElem_drop,
          List.getD_eq_getElem _ _ (by omega : count + start < data.length)]
        simp only [Nat.add_comm count start, Option.toList_some]
      rw [List.range_succ, List.foldl_append, List.foldl_cons, List.foldl_nil, last]
      rw [length] at next
      exact next

theorem byte_of_word (word : UInt32) {count : Nat} (below : count < 4) :
    ((word >>> UInt32.ofNat (count * 8)) &&& 0xff).toUInt8 =
      UInt8.ofNat (word.toNat / 256 ^ count) := by
  have number : (UInt32.ofNat (count * 8)).toNat = count * 8 :=
    UInt32.toNat_ofNat_of_lt' (by simp only [UInt32.size]; omega)
  have mask : (0xff : UInt32).toNat = 2 ^ 8 - 1 := rfl
  apply UInt8.toNat.inj
  rw [UInt32.toNat_toUInt8, UInt32.toNat_and, UInt32.toNat_shiftRight, number, mask,
    Nat.and_two_pow_sub_one_eq_mod, Nat.mod_mod, Nat.mod_eq_of_lt (by omega : _ < 32),
    Nat.shiftRight_eq_div_pow, ByteCursor.two_pow_mul_eight, UInt8.toNat_ofNat']

theorem format_eq (h : Words) :
    ((List.range SHA1_SIZE).map fun byte =>
      (([h.a, h.b, h.c, h.d, h.e].getD (byte / 4) 0 >>>
        (((3 - UInt32.ofNat byte) &&& 0x3) <<< 3)) &&& 0xff).toUInt8) =
      [h.a, h.b, h.c, h.d, h.e].flatMap fun word => valBytes 4 word.toNat := by
  have bytes : ∀ word : UInt32, valBytes 4 word.toNat =
      [((word >>> UInt32.ofNat (3 * 8)) &&& 0xff).toUInt8,
        ((word >>> UInt32.ofNat (2 * 8)) &&& 0xff).toUInt8,
        ((word >>> UInt32.ofNat (1 * 8)) &&& 0xff).toUInt8,
        ((word >>> UInt32.ofNat (0 * 8)) &&& 0xff).toUInt8] := by
    intro word
    rw [byte_of_word word (by decide), byte_of_word word (by decide),
      byte_of_word word (by decide), byte_of_word word (by decide)]
    rfl
  simp only [List.flatMap_cons, List.flatMap_nil, bytes]
  rfl

theorem toInt_of_small {size : Int} (above : -2 ^ 30 ≤ size) (below : size < 2 ^ 30) :
    toInt size = size := by
  rw [toInt, Int.bmod_def]
  omega

theorem calcHash_of_words {w words : List UInt32} (size : w.length = 80)
    (sixteen : words.length = 16) (same : ∀ i < 16, w.getD i 0 = words.getD i 0) (h : Words) :
    (calcHash h w).1 = Sha1.calcHash h words := by
  rw [(calcHash_spec size h).1, Sha1PseudoCode.calcHash_eq sixteen]
  exact Sha1PseudoCode.process_congr h same

theorem calcHash_set {w words : List UInt32} (size : w.length = 80) (sixteen : words.length = 16)
    (same : ∀ i < 16, w.getD i 0 = words.getD i 0) (value : UInt32) (h : Words) :
    (calcHash h (w.set 15 value)).1 = Sha1.calcHash h (words.set 15 value) := by
  apply calcHash_of_words (by rw [List.length_set, size]) (by rw [List.length_set, sixteen])
  intro i below
  rw [getD_set (by omega), getD_set (by omega), same i below]

theorem same_of_text {w : List UInt32} {text : List UInt8} (words : Text w text) :
    ∀ i < 16, w.getD i 0 = (chunkWords text).getD i 0 := by
  intro i below
  rw [words.2 i below, Sha1PseudoCode.getD_chunkWords _ below]

theorem same_of_clearW {w : List UInt32} (size : w.length = 80) :
    ∀ i < 16, (clearW w).getD i 0 = (List.replicate 16 (0 : UInt32)).getD i 0 := by
  intro i below
  have inside : i < (List.replicate 16 (0 : UInt32)).length := by
    rw [List.length_replicate]
    exact below
  rw [(clearW_spec size).2 i below, List.getD_eq_getElem _ _ inside, List.getElem_replicate]

theorem text_clearW {w : List UInt32} (size : w.length = 80) : Text (clearW w) [] := by
  obtain ⟨cleared, zeros⟩ := clearW_spec size
  refine ⟨cleared, ?_⟩
  intro i below
  rw [zeros i below, Sha1PseudoCode.chunkWord_of_le (by simp)]

/-- The code hashes as its pseudo-code says, whatever the buffer held. -/
theorem getHash_eq_sha1 (buffer : Fin 80 → UInt32) {data : List UInt8}
    (small : data.length < 2 ^ 29) : getHash buffer data = Sha1PseudoCode.sha1 data := by
  have start : (List.ofFn buffer).length = 80 := List.length_ofFn
  obtain ⟨hash, size, stopped⟩ :=
    @chunkLoop_spec data 0 (data.length / 64) (Nat.zero_add _) H (List.ofFn buffer) start
  rw [Nat.mul_zero] at hash size stopped
  rw [← Sha1PseudoCode.getHash_eq small, getHash, toInt_of_small (by omega) (by omega)]
  generalize chunkLoop data ((data.length : Int) - 64) 0 H (List.ofFn buffer) = state at *
  obtain ⟨h, w, currentChunk⟩ := state
  dsimp only at hash size stopped ⊢
  subst stopped
  have rest : toInt ((data.length : Int) - (64 * (data.length / 64) : Nat)) =
      (data.length % 64 : Nat) := by
    rw [toInt_of_small (by omega) (by omega)]
    omega
  have length : (data.drop (64 * (data.length / 64))).length = data.length % 64 := by
    rw [List.length_drop]
    omega
  have filled := @text_foldl_orByte data (64 * (data.length / 64)) (data.length % 64)
    (by omega) (by omega) (clearW w) (text_clearW size)
  rw [List.take_of_length_le (by omega)] at filled
  have marked := text_orByte filled (by omega) 0x80
  rw [length] at marked
  rw [rest, Int.toNat_natCast]
  generalize orByte ((List.range (data.length % 64)).foldl (fun w index =>
    orByte w index (data.getD (index + 64 * (data.length / 64)) 0)) (clearW w))
      (data.length % 64) 0x80 = last at *
  have sixteen := Sha1PseudoCode.length_chunkWords
    (data.drop (64 * (data.length / 64)) ++ [0x80])
  have words := same_of_text marked
  rw [Sha1.getHash, format_eq]
  dsimp only
  rw [length, List.range_eq_range', ← hash]
  by_cases long : 56 ≤ data.length % 64
  · have longInt : (56 : Int) ≤ (data.length % 64 : Nat) := by omega
    have first := calcHash_of_words marked.1 sixteen words h
    have second := calcHash_set (clearW_spec (calcHash_spec marked.1 h).2).1
      (List.length_replicate) (same_of_clearW (calcHash_spec marked.1 h).2)
      (UInt32.ofNat (data.length * 8)) (calcHash h last).1
    rw [if_pos longInt, if_pos long]
    dsimp only
    rw [second, first]
  · have shortInt : ¬ (56 : Int) ≤ (data.length % 64 : Nat) := by omega
    have only := calcHash_set marked.1 sixteen words (UInt32.ofNat (data.length * 8)) h
    rw [if_neg shortInt, if_neg long]
    dsimp only
    rw [only]

/-- The three letters "abc". -/
theorem getHash_abc : getHash (fun _ => 0xffffffff) [0x61, 0x62, 0x63] =
    Sha1PseudoCode.sha1 [0x61, 0x62, 0x63] :=
  getHash_eq_sha1 _ (by decide)

end Main

end Sha1Buffer

end OpenMplane
