import Mathlib.Data.List.GetD
import OpenMplane.Sha1

/-!
# SHA-1 by its pseudo-code

The source quotes the pseudo-code of SHA-1 that it implements.  This file follows the
pseudo-code: a message is padded to whole chunks first, then every chunk is extended to
eighty words and folded into the hash.  `Sha1.getHash`, which pads nothing but the last
chunk, gives the same.
-/

namespace OpenMplane

open ByteTransfer

namespace Sha1PseudoCode

/-- `value leftrotate steps`. -/
def leftrotate (value : UInt32) (steps : Nat) : UInt32 :=
  UInt32.ofBitVec (value.toBitVec.rotateLeft steps)

/-- The value `f` of round `i`. -/
def f (i : Nat) (b c d : UInt32) : UInt32 :=
  if i ≤ 19 then (b &&& c) ||| (~~~b &&& d)
  else if i ≤ 39 then b ^^^ c ^^^ d
  else if i ≤ 59 then (b &&& c) ||| (b &&& d) ||| (c &&& d)
  else b ^^^ c ^^^ d

/-- The constant `k` of round `i`. -/
def k (i : Nat) : UInt32 :=
  if i ≤ 19 then 0x5A827999
  else if i ≤ 39 then 0x6ED9EBA1
  else if i ≤ 59 then 0x8F1BBCDC
  else 0xCA62C1D6

/-- The word `w[i]` of a chunk, for `i` from 16 on by the words before it. -/
def extend (chunk : Nat → UInt32) (i : Nat) : UInt32 :=
  if _ : i < 16 then chunk i
  else
    leftrotate (extend chunk (i - 3) ^^^ extend chunk (i - 8) ^^^ extend chunk (i - 14) ^^^
      extend chunk (i - 16)) 1

/-- A round of the main loop. -/
def round (w : Nat → UInt32) (h : Sha1.Words) (i : Nat) : Sha1.Words :=
  let temp := leftrotate h.a 5 + f i h.b h.c h.d + h.e + k i + w i
  ⟨temp, h.a, leftrotate h.b 30, h.c, h.d⟩

/-- The hash after a chunk of sixteen words. -/
def process (h : Sha1.Words) (chunk : Nat → UInt32) : Sha1.Words :=
  let last := (List.range 80).foldl (round (extend chunk)) h
  ⟨h.a + last.a, h.b + last.b, h.c + last.c, h.d + last.d, h.e + last.e⟩

/-- The count of zero bytes behind the byte of the bit 1: up to 448 bits modulo 512. -/
def zeroBytes (length : Nat) : Nat := (55 + (64 - length % 64)) % 64

/-- The message with the bit 1, the bits 0 and its length in bits. -/
def preprocess (message : List UInt8) : List UInt8 :=
  message ++ [0x80] ++ List.replicate (zeroBytes message.length) 0 ++
    valBytes 8 (8 * message.length)

/-- The words of the chunk that starts at an offset. -/
def chunkWord (padded : List UInt8) (start i : Nat) : UInt32 :=
  UInt32.ofNat (readWord (padded.drop (start + 4 * i))).1

/-- The hash of a message. -/
def sha1 (message : List UInt8) : List UInt8 :=
  let padded := preprocess message
  let h := (List.range (padded.length / 64)).foldl
    (fun h chunk => process h (chunkWord padded (64 * chunk)))
    ⟨0x67452301, 0xEFCDAB89, 0x98BADCFE, 0x10325476, 0xC3D2E1F0⟩
  [h.a, h.b, h.c, h.d, h.e].flatMap fun word => valBytes 4 word.toNat

section Padding

/-- The zeros are the fewest bytes after which 64 bits complete a chunk. -/
theorem zeroBytes_spec (length : Nat) :
    zeroBytes length < 64 ∧ (length + 1 + zeroBytes length) % 64 = 56 := by
  rw [zeroBytes]
  omega

theorem length_preprocess (message : List UInt8) :
    (preprocess message).length = message.length + 1 + zeroBytes message.length + 8 := by
  simp only [preprocess, List.length_append, List.length_singleton, List.length_replicate,
    length_valBytes]

end Padding

section Rounds

theorem leftrotate_eq {steps : Nat} (inside : 0 < steps) (below : steps < 32) (value : UInt32) :
    Sha1.leftrotate value (UInt32.ofNat steps) = leftrotate value steps := by
  have number : (UInt32.ofNat steps).toNat = steps :=
    UInt32.toNat_ofNat_of_lt' (by simp only [UInt32.size]; omega)
  have le : UInt32.ofNat steps ≤ 32 := by
    rw [UInt32.le_iff_toNat_le, number]
    exact below.le
  have back : (32 - UInt32.ofNat steps).toNat = 32 - steps := by
    rw [UInt32.toNat_sub_of_le _ _ le, number]
    rfl
  have backBelow : 32 - steps < 32 := by omega
  have rotated : (leftrotate value steps).toNat = (value.toBitVec.rotateLeft steps).toNat := rfl
  apply UInt32.toNat.inj
  rw [rotated, Sha1.leftrotate, UInt32.toNat_or, UInt32.toNat_shiftLeft,
    UInt32.toNat_shiftRight, number, back, BitVec.toNat_rotateLeft, Nat.mod_eq_of_lt below,
    Nat.mod_eq_of_lt backBelow, UInt32.toNat_toBitVec]

theorem roundValue_eq (i : Nat) (h : Sha1.Words) :
    Sha1.roundValue i h = f i h.b h.c h.d + h.e + k i := by
  have first : i < 20 ↔ i ≤ 19 := by omega
  have second : i < 40 ↔ i ≤ 39 := by omega
  have third : i < 60 ↔ i ≤ 59 := by omega
  rw [Sha1.roundValue, f, k]
  simp only [first, second, third]
  split
  · rfl
  · split
    · rfl
    · split <;> rfl

/-- A round of the code is one of the pseudo-code. -/
theorem round_eq (w : Nat → UInt32) (h : Sha1.Words) (i : Nat) :
    Sha1.round h i (w i) = round w h i := by
  have five : Sha1.leftrotate h.a 5 = leftrotate h.a 5 :=
    leftrotate_eq (by decide) (by decide) h.a
  have thirty : Sha1.leftrotate h.b 30 = leftrotate h.b 30 :=
    leftrotate_eq (by decide) (by decide) h.b
  rw [Sha1.round, round, roundValue_eq, five, thirty]
  simp only [UInt32.add_assoc]

theorem extend_of_lt (chunk : Nat → UInt32) {i : Nat} (below : i < 16) :
    extend chunk i = chunk i := by
  rw [extend, dif_pos below]

theorem extend_of_le (chunk : Nat → UInt32) {i : Nat} (behind : 16 ≤ i) :
    extend chunk i = leftrotate (extend chunk (i - 3) ^^^ extend chunk (i - 8) ^^^
      extend chunk (i - 14) ^^^ extend chunk (i - 16)) 1 := by
  rw [extend, dif_neg (by omega)]

/-- The words that are appended one after the other are those of the pseudo-code. -/
theorem foldl_expandW {w : List UInt32} (sixteen : w.length = 16) (count : Nat) :
    let ws := (List.range count).foldl (fun w _ => w ++ [Sha1.expandW w]) w
    ws.length = 16 + count ∧
      ∀ i < 16 + count, ws.getD i 0 = extend (fun i => w.getD i 0) i := by
  induction count with
  | zero =>
      refine ⟨sixteen, ?_⟩
      intro i below
      rw [extend_of_lt _ below]
      rfl
  | succ count ih =>
      obtain ⟨length, words⟩ := ih
      rw [List.range_succ, List.foldl_append, List.foldl_cons, List.foldl_nil]
      refine ⟨by rw [List.length_append, length]; rfl, ?_⟩
      intro i below
      by_cases before : i < 16 + count
      · rw [List.getD_append _ _ _ _ (by rw [length]; exact before), words i before]
      · have last : i = 16 + count := by omega
        subst last
        have rotated : ∀ value, Sha1.leftrotate value 1 = leftrotate value 1 :=
          leftrotate_eq (by decide) (by decide)
        rw [List.getD_append_right _ _ _ _ (by rw [length]), length, Nat.sub_self,
          List.getD_cons_zero, Sha1.expandW, length, words _ (by omega), words _ (by omega),
          words _ (by omega), words _ (by omega), rotated,
          extend_of_le _ (by omega : 16 ≤ 16 + count)]

/-- A fold over a list with its indices. -/
theorem foldl_zipIdx {α β : Type} (default : α) (g : β → Nat → α → β) (list : List α) (start : β) :
    list.zipIdx.foldl (fun state step => g state step.2 step.1) start =
      (List.range list.length).foldl (fun state i => g state i (list.getD i default)) start := by
  induction list using List.reverseRecOn with
  | nil => rfl
  | append_singleton list last ih =>
      have before : ∀ (state : β) (i : Nat), i ∈ List.range list.length →
          g state i ((list ++ [last]).getD i default) = g state i (list.getD i default) := by
        intro state i member
        rw [List.getD_append _ _ _ _ (List.mem_range.mp member)]
      rw [List.zipIdx_append, List.foldl_append, ih, List.length_append, List.length_singleton,
        List.range_succ, List.foldl_append, List.foldl_ext _ _ _ before]
      simp

/-- `calcHash` is the step of the pseudo-code. -/
theorem calcHash_eq {w : List UInt32} (sixteen : w.length = 16) (h : Sha1.Words) :
    Sha1.calcHash h w = process h (fun i => w.getD i 0) := by
  obtain ⟨length, words⟩ := foldl_expandW sixteen 64
  have rounds : ∀ (h : Sha1.Words) (i : Nat), i ∈ List.range (16 + 64) →
      Sha1.round h i ((Sha1.expanded w).getD i 0) = round (extend fun i => w.getD i 0) h i := by
    intro h i member
    have word := words i (List.mem_range.mp member)
    rw [← round_eq]
    exact congrArg (Sha1.round h i) word
  have folded := foldl_zipIdx 0 Sha1.round (Sha1.expanded w) h
  have size : (Sha1.expanded w).length = 16 + 64 := length
  rw [size, List.foldl_ext _ _ _ rounds] at folded
  rw [Sha1.calcHash, folded]
  rfl

theorem extend_congr {first second : Nat → UInt32} (same : ∀ i < 16, first i = second i) (i : Nat) :
    extend first i = extend second i := by
  induction i using Nat.strongRecOn with
  | ind i ih =>
      by_cases below : i < 16
      · rw [extend_of_lt _ below, extend_of_lt _ below, same i below]
      · have behind : 16 ≤ i := by omega
        rw [extend_of_le _ behind, extend_of_le _ behind, ih _ (by omega), ih _ (by omega),
          ih _ (by omega), ih _ (by omega)]

theorem process_congr (h : Sha1.Words) {first second : Nat → UInt32}
    (same : ∀ i < 16, first i = second i) : process h first = process h second := by
  have words : extend first = extend second := funext (extend_congr same)
  rw [process, process, words]

end Rounds

section Chunks

theorem readVal_append_of_le {count : Nat} {first : List UInt8} (enough : count ≤ first.length)
    (second : List UInt8) : (readVal count (first ++ second)).1 = (readVal count first).1 := by
  induction count generalizing first with
  | zero => rfl
  | succ count ih =>
      cases first with
      | nil => simp at enough
      | cons byte first =>
          have rest := ih (Nat.le_of_succ_le_succ enough)
          rw [List.cons_append, readVal, readVal]
          dsimp only
          rw [rest]

theorem readVal_zeros (count zeros : Nat) :
    (readVal count (List.replicate zeros (0 : UInt8))).1 = 0 := by
  induction count generalizing zeros with
  | zero => rfl
  | succ count ih =>
      cases zeros with
      | zero => rfl
      | succ zeros =>
          rw [List.replicate_succ, readVal]
          dsimp only
          rw [ih zeros, UInt8.toNat_zero, Nat.zero_mul]

theorem readVal_append_zeros (count : Nat) (first : List UInt8) (zeros : Nat) :
    (readVal count (first ++ List.replicate zeros 0)).1 = (readVal count first).1 := by
  induction count generalizing first with
  | zero => rfl
  | succ count ih =>
      cases first with
      | nil => exact readVal_zeros (count + 1) zeros
      | cons byte first =>
          rw [List.cons_append, readVal, readVal]
          dsimp only
          rw [ih first]

theorem chunkWord_append {first : List UInt8} {start i : Nat}
    (enough : start + 4 * i + 4 ≤ first.length) (second : List UInt8) :
    chunkWord (first ++ second) start i = chunkWord first start i := by
  have inside : start + 4 * i ≤ first.length := by omega
  rw [chunkWord, chunkWord, readWord, readWord, List.drop_append_of_le_length inside,
    readVal_append_of_le (by rw [List.length_drop]; omega)]

theorem chunkWord_zeros (first : List UInt8) (zeros start i : Nat) :
    chunkWord (first ++ List.replicate zeros 0) start i = chunkWord first start i := by
  rw [chunkWord, chunkWord, readWord, readWord, List.drop_append, List.drop_replicate,
    readVal_append_zeros]

theorem chunkWord_valBytes {first : List UInt8} {start i : Nat}
    (atEnd : first.length = start + 4 * i) (val : Nat) :
    chunkWord (first ++ valBytes 4 val) start i = UInt32.ofNat val := by
  have read := readVal_valBytes 4 val []
  rw [List.append_nil] at read
  rw [chunkWord, readWord, List.drop_left' atEnd, read]
  exact UInt32.toNat.inj (by rw [UInt32.toNat_ofNat', UInt32.toNat_ofNat']; omega)

theorem chunkWord_of_le {first : List UInt8} {start i : Nat}
    (behind : first.length ≤ start + 4 * i) : chunkWord first start i = 0 := by
  rw [chunkWord, List.drop_eq_nil_of_le behind]
  rfl

/-- The length of a short message is a word with zeros in front of it. -/
theorem preprocess_eq {message : List UInt8} (small : message.length < 2 ^ 29) :
    preprocess message = (message ++ [0x80]) ++
      List.replicate (zeroBytes message.length + 4) 0 ++ valBytes 4 (8 * message.length) := by
  have high : ∀ count, 4 ≤ count →
      UInt8.ofNat (8 * message.length / 256 ^ count) = 0 := by
    intro count large
    have grow : 256 ^ 4 ≤ 256 ^ count := Nat.pow_le_pow_right (by decide) large
    rw [Nat.div_eq_of_lt (by omega)]
    rfl
  have word : valBytes 8 (8 * message.length) =
      List.replicate 4 0 ++ valBytes 4 (8 * message.length) := by
    rw [valBytes, valBytes, valBytes, valBytes, high 7 (by decide), high 6 (by decide),
      high 5 (by decide), high 4 (by decide)]
    rfl
  rw [preprocess, word, ← List.append_assoc, List.append_assoc (message ++ [0x80]),
    List.replicate_append_replicate]

/-- The words of a padded message: those of the message and its bit, and the length at
the very end. -/
theorem chunkWord_preprocess {message : List UInt8} (small : message.length < 2 ^ 29)
    {start i : Nat} (inside : start + 4 * i + 8 ≤ (preprocess message).length) :
    chunkWord (preprocess message) start i = chunkWord (message ++ [0x80]) start i := by
  have size := length_preprocess message
  have room : start + 4 * i + 4 ≤ ((message ++ [0x80]) ++
      List.replicate (zeroBytes message.length + 4) (0 : UInt8)).length := by
    simp only [List.length_append, List.length_singleton, List.length_replicate]
    omega
  rw [preprocess_eq small, chunkWord_append room, chunkWord_zeros]

theorem chunkWord_preprocess_last {message : List UInt8} (small : message.length < 2 ^ 29)
    {start i : Nat} (last : start + 4 * i + 4 = (preprocess message).length) :
    chunkWord (preprocess message) start i = UInt32.ofNat (8 * message.length) := by
  have size := length_preprocess message
  rw [preprocess_eq small]
  apply chunkWord_valBytes
  simp only [List.length_append, List.length_singleton, List.length_replicate]
  omega

theorem getD_chunkWords (data : List UInt8) {i : Nat} (below : i < 16) :
    (Sha1.chunkWords data).getD i 0 = chunkWord data 0 i := by
  rw [Sha1.chunkWords, List.getD_eq_getElem _ _ (by simpa using below), List.getElem_map,
    List.getElem_range, chunkWord, Nat.zero_add]

theorem length_chunkWords (data : List UInt8) : (Sha1.chunkWords data).length = 16 := by
  rw [Sha1.chunkWords, List.length_map, List.length_range]

theorem chunkWord_drop (data : List UInt8) (start i : Nat) :
    chunkWord (data.drop start) 0 i = chunkWord data start i := by
  rw [chunkWord, chunkWord, List.drop_drop, Nat.zero_add]

theorem calcHash_whole {message : List UInt8} (small : message.length < 2 ^ 29) (h : Sha1.Words)
    {chunk : Nat} (whole : chunk < message.length / 64) :
    Sha1.calcHash h (Sha1.chunkWords (message.drop (64 * chunk))) =
      process h (chunkWord (preprocess message) (64 * chunk)) := by
  have size := length_preprocess message
  rw [calcHash_eq (length_chunkWords _)]
  apply process_congr
  intro i below
  rw [getD_chunkWords _ below, chunkWord_drop, chunkWord_preprocess small (by omega),
    chunkWord_append (by omega)]

/-- The words of the last bytes with the bit behind them. -/
theorem getD_rest {message : List UInt8} {i : Nat} (below : i < 16) :
    (Sha1.chunkWords (message.drop (64 * (message.length / 64)) ++ [0x80])).getD i 0 =
      chunkWord (message ++ [0x80]) (64 * (message.length / 64)) i := by
  have inside : 64 * (message.length / 64) ≤ message.length := by omega
  rw [getD_chunkWords _ below, ← List.drop_append_of_le_length inside, chunkWord_drop]

theorem getD_set_last {w : List UInt32} (sixteen : w.length = 16) (value : UInt32) (i : Nat) :
    (w.set 15 value).getD i 0 = if i = 15 then value else w.getD i 0 := by
  rw [List.getD_eq_getElem?_getD, List.getD_eq_getElem?_getD, List.getElem?_set]
  by_cases last : i = 15
  · subst last
    rw [if_pos rfl, if_pos (by omega), if_pos rfl]
    rfl
  · rw [if_neg (Ne.symm last), if_neg last]

theorem calcHash_last {message : List UInt8} (small : message.length < 2 ^ 29) (h : Sha1.Words)
    {w : List UInt32} (sixteen : w.length = 16) {chunk : Nat}
    (last : 64 * chunk + 64 = (preprocess message).length)
    (words : ∀ i < 15, w.getD i 0 = chunkWord (message ++ [0x80]) (64 * chunk) i) :
    Sha1.calcHash h (w.set 15 (UInt32.ofNat (8 * message.length))) =
      process h (chunkWord (preprocess message) (64 * chunk)) := by
  rw [calcHash_eq (by rw [List.length_set]; exact sixteen)]
  apply process_congr
  intro i below
  rw [getD_set_last sixteen]
  by_cases same : i = 15
  · rw [if_pos same, chunkWord_preprocess_last small (by omega)]
  · rw [if_neg same, chunkWord_preprocess small (by omega), words i (by omega)]

/-- `getHash` is the SHA-1 of the pseudo-code. -/
theorem getHash_eq {message : List UInt8} (small : message.length < 2 ^ 29) :
    Sha1.getHash message = sha1 message := by
  have size := length_preprocess message
  have zeros := zeroBytes_spec message.length
  have rest : (message.drop (64 * (message.length / 64))).length = message.length % 64 := by
    rw [List.length_drop]
    omega
  have sixteen := length_chunkWords (message.drop (64 * (message.length / 64)) ++ [0x80])
  have wholes : ∀ (h : Sha1.Words) (chunk : Nat), chunk ∈ List.range (message.length / 64) →
      Sha1.calcHash h (Sha1.chunkWords (message.drop (64 * chunk))) =
        process h (chunkWord (preprocess message) (64 * chunk)) := by
    intro h chunk member
    exact calcHash_whole small h (List.mem_range.mp member)
  have bits : message.length * 8 = 8 * message.length := Nat.mul_comm _ _
  rw [Sha1.getHash, sha1]
  dsimp only
  rw [rest, bits, List.foldl_ext _ _ _ wholes]
  by_cases long : 56 ≤ message.length % 64
  · have chunks : (preprocess message).length / 64 = message.length / 64 + 1 + 1 := by omega
    have first : ∀ h, Sha1.calcHash h
        (Sha1.chunkWords (message.drop (64 * (message.length / 64)) ++ [0x80])) =
          process h (chunkWord (preprocess message) (64 * (message.length / 64))) := by
      intro h
      rw [calcHash_eq sixteen]
      apply process_congr
      intro i below
      rw [getD_rest below, chunkWord_preprocess small (by omega)]
    have second : ∀ h, Sha1.calcHash h
        ((List.replicate 16 0).set 15 (UInt32.ofNat (8 * message.length))) =
          process h (chunkWord (preprocess message) (64 * (message.length / 64 + 1))) := by
      intro h
      apply calcHash_last small h rfl (by omega)
      intro i below
      have behind : (message ++ [0x80]).length ≤ 64 * (message.length / 64 + 1) + 4 * i := by
        rw [List.length_append, List.length_singleton]
        omega
      have inside : i < (List.replicate 16 (0 : UInt32)).length := by
        rw [List.length_replicate]
        omega
      rw [chunkWord_of_le behind, List.getD_eq_getElem _ _ inside, List.getElem_replicate]
    rw [if_pos long, chunks, List.range_succ, List.range_succ, List.foldl_append,
      List.foldl_append]
    dsimp only [List.foldl_cons, List.foldl_nil]
    rw [first, second]
    rfl
  · have chunks : (preprocess message).length / 64 = message.length / 64 + 1 := by omega
    have last : ∀ h, Sha1.calcHash h
        ((Sha1.chunkWords (message.drop (64 * (message.length / 64)) ++ [0x80])).set 15
          (UInt32.ofNat (8 * message.length))) =
          process h (chunkWord (preprocess message) (64 * (message.length / 64))) := by
      intro h
      apply calcHash_last small h sixteen (by omega)
      intro i below
      exact getD_rest (by omega)
    rw [if_neg long, chunks, List.range_succ, List.foldl_append]
    dsimp only [List.foldl_cons, List.foldl_nil]
    rw [last]
    rfl

end Chunks

end Sha1PseudoCode

end OpenMplane
