import OpenMplane.BitDivision
import OpenMplane.Crc
import Mathlib.Data.Nat.Bitwise

/-!
# Checksums as remainders

`Crc32::calc` looks up the division of a byte in a table and `Crc16` divides to the
left on bytes whose bits it reverses.  This file models the classes and proves that
both compute the reflected division bit by bit, that checksums of 32 bits may be
computed in pieces, and for which sizes: the size of a vector is cut to 32 bits.
-/

namespace OpenMplane

open BitDivision

namespace Crc32

/-- The loop body of `calc`. -/
def lookUp (crc : UInt32) (byte : UInt8) : UInt32 :=
  crc32table.getD ((crc ^^^ byte.toUInt32) &&& 0xff).toNat 0 ^^^ (crc >>> 8)

/-- `calc` of the bytes from a pointer on. -/
def calcBytes (crc : UInt32) (p : List UInt8) (size : UInt32) : UInt32 :=
  let crc := crc ^^^ ~~~0
  let crc := (p.take size.toNat).foldl lookUp crc
  crc ^^^ ~~~0

/-- `calc` of a vector; its size becomes an `unsigned`. -/
def calcVector (crc : UInt32) (data : List UInt8) : UInt32 :=
  calcBytes crc data (UInt32.ofNat data.length)

/-- The reflected polynomial of the 32-bit checksum. -/
def poly : BitVec 32 := 0xEDB88320

/-- The reflected checksum bit by bit, start value and result complemented. -/
def reflected (crc : UInt32) (data : List UInt8) : UInt32 :=
  UInt32.ofBitVec (~~~ remainder poly (~~~ crc.toBitVec) (data.map UInt8.toBitVec))

section Table

theorem crc32table_range : (List.range 256).all fun index =>
    (crc32table.getD index 0).toBitVec == (divide poly)^[8] (BitVec.ofNat 32 index) := by
  decide +kernel

theorem crc32table_eq (index : BitVec 8) :
    (crc32table.getD index.toNat 0).toBitVec = (divide poly)^[8] (index.setWidth 32) := by
  have entry := List.all_eq_true.mp crc32table_range index.toNat
    (List.mem_range.mpr index.isLt)
  rw [beq_iff_eq, BitVec.ofNat_toNat] at entry
  exact entry

theorem toNat_and_mask (word : UInt32) :
    (word &&& 0xff).toNat = (word.toBitVec.setWidth 8).toNat := by
  have mask : (0xff : UInt32).toNat = 2 ^ 8 - 1 := rfl
  rw [UInt32.toNat_and, mask, Nat.and_two_pow_sub_one_eq_mod, BitVec.toNat_setWidth,
    UInt32.toNat_toBitVec]

theorem xor_byte_shift (crc : BitVec 32) (byte : BitVec 8) :
    (crc ^^^ byte.setWidth 32) >>> 8 = crc >>> 8 := by
  have none : byte.setWidth 32 >>> 8 = 0#32 := by
    apply BitVec.eq_of_getLsbD_eq
    intro bit below
    rw [BitVec.getLsbD_ushiftRight, BitVec.getLsbD_setWidth,
      BitVec.getLsbD_of_ge byte (8 + bit) (by omega)]
    simp
  rw [BitVec.ushiftRight_xor_distrib, none, BitVec.xor_zero]

theorem lookUp_eq (crc : UInt32) (byte : UInt8) :
    (lookUp crc byte).toBitVec = divideByte poly crc.toBitVec byte.toBitVec := by
  have index : (crc ^^^ byte.toUInt32).toBitVec = crc.toBitVec ^^^ byte.toBitVec.setWidth 32 := rfl
  have shift : (crc >>> 8).toBitVec = crc.toBitVec >>> 8 := rfl
  have split := @iterate_divide_split 32 poly 8 (crc.toBitVec ^^^ byte.toBitVec.setWidth 32)
  rw [xor_byte_shift] at split
  rw [lookUp, UInt32.toBitVec_xor, toNat_and_mask, crc32table_eq, shift, index, divideByte, split]

theorem foldl_lookUp (crc : UInt32) (data : List UInt8) :
    (data.foldl lookUp crc).toBitVec =
      remainder poly crc.toBitVec (data.map UInt8.toBitVec) := by
  induction data generalizing crc with
  | nil => rfl
  | cons byte data ih =>
      rw [List.foldl_cons, ih, lookUp_eq]
      rfl

theorem xor_ones (crc : UInt32) : crc ^^^ ~~~0 = ~~~crc := by
  apply UInt32.toBitVec_inj.mp
  have ones : ~~~(0 : UInt32).toBitVec = BitVec.allOnes 32 := by decide
  rw [UInt32.toBitVec_xor, UInt32.toBitVec_not, UInt32.toBitVec_not, ones, BitVec.xor_allOnes]

/-- The bytes from a pointer on are divided bit by bit. -/
theorem calcBytes_eq (crc : UInt32) (p : List UInt8) (size : UInt32) :
    calcBytes crc p size = reflected crc (p.take size.toNat) := by
  apply UInt32.toBitVec_inj.mp
  rw [calcBytes, xor_ones, xor_ones, UInt32.toBitVec_not, foldl_lookUp, UInt32.toBitVec_not]
  rfl

/-- Of a vector, as many bytes are counted as the cut size says. -/
theorem calc_eq (crc : UInt32) (data : List UInt8) :
    calcVector crc data = reflected crc (data.take (data.length % 2 ^ 32)) := by
  rw [calcVector, calcBytes_eq, UInt32.toNat_ofNat']

theorem calc_of_lt (crc : UInt32) {data : List UInt8} (small : data.length < 2 ^ 32) :
    calcVector crc data = reflected crc data := by
  rw [calc_eq, Nat.mod_eq_of_lt small, List.take_length]

end Table

section Chain

theorem reflected_append (crc : UInt32) (first second : List UInt8) :
    reflected (reflected crc first) second = reflected crc (first ++ second) := by
  have inner : (reflected crc first).toBitVec =
      ~~~ remainder poly (~~~ crc.toBitVec) (first.map UInt8.toBitVec) := rfl
  rw [reflected, inner, BitVec.not_not, ← remainder_append, ← List.map_append]
  rfl

/-- The checksum from a pointer and that of two pieces are those of the bits, and the
checksum of the second piece may be started with that of the first. -/
structure Chains (crc : UInt32) (first second : List UInt8) : Prop where
  pointer : ∀ p size, calcBytes crc p size = reflected crc (p.take size.toNat)
  vector : calcVector crc (first ++ second) = reflected crc (first ++ second)
  chained : calcVector (calcVector crc first) second = calcVector crc (first ++ second)

theorem chains_of_lt (crc : UInt32) {first second : List UInt8}
    (small : first.length + second.length < 2 ^ 32) : Chains crc first second := by
  have whole : (first ++ second).length < 2 ^ 32 := by
    rw [List.length_append]
    exact small
  constructor
  · exact calcBytes_eq crc
  · exact calc_of_lt crc whole
  · rw [calc_of_lt crc (by omega : first.length < 2 ^ 32), calc_of_lt _ (by omega),
      calc_of_lt crc whole, reflected_append]

/-- Zeros in front of which nothing stands, and a one. -/
def zerosOne (count : Nat) : List UInt8 := List.replicate (count - 1) 0 ++ [1]

theorem length_zerosOne {count : Nat} (positive : 0 < count) : (zerosOne count).length = count := by
  rw [zerosOne, List.length_append, List.length_replicate, List.length_singleton]
  omega

theorem remainder_zeros (count : Nat) :
    remainder poly 0 ((List.replicate count (0 : UInt8)).map UInt8.toBitVec) = 0 := by
  have step : divideByte poly 0 (UInt8.toBitVec 0) = 0 := by decide
  induction count with
  | zero => rfl
  | succ count ih =>
      rw [List.replicate_succ, List.map_cons, remainder, List.foldl_cons, step]
      exact ih

/-- From the start value that is complemented to zero, leading zeros are not seen. -/
theorem reflected_zeros (count : Nat) :
    reflected 0xffffffff (List.replicate count 0) = 0xffffffff := by
  have start : ~~~ (0xffffffff : UInt32).toBitVec = 0 := by decide
  rw [reflected, start, remainder_zeros]
  decide

theorem reflected_zerosOne (count : Nat) :
    reflected 0xffffffff (zerosOne count) ≠ 0xffffffff := by
  have start : ~~~ (0xffffffff : UInt32).toBitVec = 0 := by decide
  rw [reflected, start, zerosOne, List.map_append, remainder_append, remainder_zeros]
  decide

/-- A vector that is too long is cut, and its last byte is not seen. -/
theorem calc_zerosOne_ne {count : Nat} (large : 2 ^ 32 ≤ count) :
    calcVector 0xffffffff (zerosOne count) ≠ reflected 0xffffffff (zerosOne count) := by
  have length := length_zerosOne (by omega : 0 < count)
  have fewer : count % 2 ^ 32 ≤ count - 1 := by omega
  have front : (zerosOne count).take (count % 2 ^ 32) = List.replicate (count % 2 ^ 32) 0 := by
    rw [zerosOne, List.take_append_of_le_length (by rw [List.length_replicate]; exact fewer),
      List.take_replicate, Nat.min_eq_left fewer]
  rw [calc_eq, length, front, reflected_zeros]
  exact (reflected_zerosOne count).symm

theorem not_chains_of_le {first second : Nat} (large : 2 ^ 32 ≤ first + second) :
    ¬ Chains 0xffffffff ((zerosOne (first + second)).take first)
      ((zerosOne (first + second)).drop first) := by
  intro chains
  have same := chains.vector
  rw [List.take_append_drop] at same
  exact calc_zerosOne_ne large same

/-- Vectors of these sizes chain, whatever they hold, when their sizes together are not
cut. -/
theorem chains_iff (first second : Nat) :
    (∀ crc A B, A.length = first → B.length = second → Chains crc A B) ↔
      first + second < 2 ^ 32 := by
  constructor
  · intro chains
    by_contra large
    have length := length_zerosOne (by omega : 0 < first + second)
    apply @not_chains_of_le first second (by omega)
    apply chains
    · rw [List.length_take, length]
      omega
    · rw [List.length_drop, length]
      omega
  · rintro small crc A B rfl rfl
    exact chains_of_lt crc small

/-- The last byte of 2³² bytes is not counted. -/
theorem last_byte_is_not_counted : ¬ ∀ crc A B, Chains crc A B := by
  intro chains
  exact @not_chains_of_le (2 ^ 32) 0 (by decide) (chains _ _ _)

end Chain

end Crc32

namespace Crc16

def WIDTH : Nat := 16

def MSB : UInt16 := 1 <<< UInt16.ofNat (WIDTH - 1)

def CRC16_POLYNOMIAL : UInt16 := 0x8005

/-- The loop of `bitReverse`, with what is reversed and what is left of the data. -/
def bitReverseStep (numBits : Nat) (state : UInt16 × UInt16) (bit : Nat) : UInt16 × UInt16 :=
  let (reversed, data) := state
  (if data &&& 0x01 ≠ 0 then reversed ||| (1 <<< UInt16.ofNat (numBits - 1 - bit)) else reversed,
    data >>> 1)

def bitReverse (data : UInt16) (numBits : Nat) : UInt16 :=
  ((List.range numBits).foldl (bitReverseStep numBits) (0, data)).1

/-- A `char` as a `uint16_t`. -/
def ofChar (char : Int8) : UInt16 := char.toInt16.toUInt16

/-- The inner loop body of `calc_ibm`. -/
def divideIbm (remainder : UInt16) : UInt16 :=
  if remainder &&& MSB ≠ 0 then (remainder <<< 1) ^^^ CRC16_POLYNOMIAL else remainder <<< 1

def calc_ibm (dataBuffer : List Int8) (numBytes : UInt32) : UInt16 :=
  let remainder := (dataBuffer.take numBytes.toNat).foldl (fun remainder thisByte =>
    divideIbm^[8] (remainder ^^^ (bitReverse (ofChar thisByte) 8 <<< UInt16.ofNat (WIDTH - 8)))) 0
  bitReverse remainder (2 * 8)

/-- The inner loop body of `calc_ccitt`. -/
def divideCcitt (remainder : UInt16) : UInt16 :=
  (remainder <<< 1) ^^^ (if remainder &&& 0x8000 ≠ 0 then 0x1021 else 0)

def calc_ccitt (dataBuffer : List Int8) (numBytes : UInt32) : UInt16 :=
  let remainder := (dataBuffer.take numBytes.toNat).foldl (fun remainder thisByte =>
    divideCcitt^[8]
      (remainder ^^^ (bitReverse (ofChar thisByte) 8 <<< UInt16.ofNat (WIDTH - 8)))) 0xffff
  let remainder := bitReverse remainder (2 * 8)
  remainder ^^^ 0xffff

/-- The unreversed bytes of a buffer. -/
def bytesOf (dataBuffer : List Int8) : List (BitVec 8) :=
  dataBuffer.map fun char => char.toUInt8.toBitVec

/-- CRC-16/ARC, reflected and bit by bit. -/
def arc (bytes : List (BitVec 8)) : UInt16 :=
  UInt16.ofBitVec (remainder 0xA001 0 bytes)

/-- CRC-16/X-25, reflected and bit by bit. -/
def x25 (bytes : List (BitVec 8)) : UInt16 :=
  UInt16.ofBitVec (remainder 0x8408 0xFFFF bytes) ^^^ 0xFFFF

section Reverse

theorem and_two_pow_ne_zero {data mask : UInt16} {bit : Nat} (power : mask.toNat = 2 ^ bit) :
    data &&& mask ≠ 0 ↔ data.toBitVec.getLsbD bit = true := by
  have test : data.toBitVec.getLsbD bit = data.toNat.testBit bit := rfl
  have positive : 0 < 2 ^ bit := Nat.two_pow_pos bit
  rw [ne_eq, ← UInt16.toNat_inj, UInt16.toNat_and, power, Nat.and_two_pow, UInt16.toNat_zero, test]
  cases data.toNat.testBit bit <;> simp

theorem getLsbD_one_shiftLeft {place bit : Nat} (below : place < 16) :
    (1 <<< UInt16.ofNat place : UInt16).toBitVec.getLsbD bit = decide (place = bit) := by
  have number : (UInt16.ofNat place).toNat = place :=
    UInt16.toNat_ofNat_of_lt' (by simp only [UInt16.size]; omega)
  have power : 2 ^ place < 2 ^ 16 := Nat.pow_lt_pow_right (by decide) below
  have value : (1 <<< UInt16.ofNat place : UInt16).toNat = 2 ^ place := by
    rw [UInt16.toNat_shiftLeft, number, Nat.mod_eq_of_lt below, UInt16.toNat_one,
      Nat.one_shiftLeft, Nat.mod_eq_of_lt power]
  have test : (1 <<< UInt16.ofNat place : UInt16).toBitVec.getLsbD bit =
      (1 <<< UInt16.ofNat place : UInt16).toNat.testBit bit := rfl
  rw [test, value, Nat.testBit_two_pow]

/-- The state of the loop after some rounds: the low bits stand reversed at the high end,
the others wait. -/
theorem bitReverse_rounds {numBits : Nat} (inside : numBits ≤ 16) (data : UInt16) {rounds : Nat}
    (enough : rounds ≤ numBits) :
    let state := (List.range rounds).foldl (bitReverseStep numBits) (0, data)
    state.2.toBitVec = data.toBitVec >>> rounds ∧
      ∀ bit, state.1.toBitVec.getLsbD bit =
        (decide (numBits - rounds ≤ bit ∧ bit < numBits) &&
          data.toBitVec.getLsbD (numBits - 1 - bit)) := by
  induction rounds with
  | zero =>
      refine ⟨(BitVec.ushiftRight_zero _).symm, ?_⟩
      intro bit
      have none : ¬ (numBits - 0 ≤ bit ∧ bit < numBits) := by omega
      have zero : (0 : UInt16).toBitVec.getLsbD bit = false := BitVec.getLsbD_zero
      rw [decide_eq_false none]
      exact zero
  | succ rounds ih =>
      obtain ⟨waiting, reversed⟩ := ih (by omega)
      rw [List.range_succ, List.foldl_append, List.foldl_cons, List.foldl_nil]
      generalize (List.range rounds).foldl (bitReverseStep numBits) (0, data) = state at *
      obtain ⟨front, rest⟩ := state
      dsimp only at waiting reversed
      have next : (rest >>> 1).toBitVec = rest.toBitVec >>> 1 := rfl
      refine ⟨?_, ?_⟩
      · rw [bitReverseStep]
        dsimp only
        rw [next, waiting, ← BitVec.shiftRight_add]
      · intro bit
        have low : rest &&& 0x01 ≠ 0 ↔ data.toBitVec.getLsbD rounds = true := by
          rw [and_two_pow_ne_zero (by decide : (0x01 : UInt16).toNat = 2 ^ 0), waiting,
            BitVec.getLsbD_ushiftRight, Nat.add_zero]
        have placed := @getLsbD_one_shiftLeft (numBits - 1 - rounds) bit (by omega)
        have wider : (numBits - (rounds + 1) ≤ bit ∧ bit < numBits) ↔
            (numBits - rounds ≤ bit ∧ bit < numBits) ∨ numBits - 1 - rounds = bit := by omega
        rw [bitReverseStep]
        dsimp only
        by_cases here : numBits - 1 - rounds = bit
        · have back : numBits - 1 - bit = rounds := by omega
          have before : ¬ (numBits - rounds ≤ bit ∧ bit < numBits) := by omega
          have old := reversed bit
          rw [decide_eq_false before, Bool.false_and] at old
          rw [decide_eq_true (wider.mpr (Or.inr here)), back, Bool.true_and]
          by_cases set : data.toBitVec.getLsbD rounds = true
          · rw [if_pos (low.mpr set), UInt16.toBitVec_or, BitVec.getLsbD_or, placed,
              decide_eq_true here, Bool.or_true, set]
          · rw [if_neg (mt low.mp set), old, (Bool.not_eq_true _).mp set]
        · have same : decide (numBits - (rounds + 1) ≤ bit ∧ bit < numBits) =
              decide (numBits - rounds ≤ bit ∧ bit < numBits) := by
            rw [decide_eq_decide, wider]
            exact or_iff_left here
          rw [same, ← reversed bit]
          by_cases set : data.toBitVec.getLsbD rounds = true
          · rw [if_pos (low.mpr set), UInt16.toBitVec_or, BitVec.getLsbD_or, placed,
              decide_eq_false here, Bool.or_false]
          · rw [if_neg (mt low.mp set)]

theorem getLsbD_bitReverse {numBits : Nat} (inside : numBits ≤ 16) (data : UInt16) (bit : Nat) :
    (bitReverse data numBits).toBitVec.getLsbD bit =
      (decide (bit < numBits) && data.toBitVec.getLsbD (numBits - 1 - bit)) := by
  obtain ⟨-, bits⟩ := bitReverse_rounds inside data (Nat.le_refl numBits)
  have range : (numBits - numBits ≤ bit ∧ bit < numBits) ↔ bit < numBits := by omega
  rw [bitReverse, bits bit, decide_eq_decide.mpr range]

theorem bitReverse_word (data : UInt16) :
    (bitReverse data (2 * 8)).toBitVec = data.toBitVec.reverse := by
  apply BitVec.eq_of_getLsbD_eq
  intro bit below
  rw [getLsbD_bitReverse (by decide), BitVec.getLsbD_reverse, BitVec.getMsbD_eq_getLsbD]

/-- A char is reversed to its byte; the sign does not matter. -/
theorem bitReverse_char (char : Int8) :
    (bitReverse (ofChar char) 8).toBitVec = char.toUInt8.toBitVec.reverse.setWidth 16 := by
  apply BitVec.eq_of_getLsbD_eq
  intro bit below
  rw [getLsbD_bitReverse (by decide), BitVec.getLsbD_setWidth, BitVec.getLsbD_reverse,
    BitVec.getMsbD_eq_getLsbD, decide_eq_true below, Bool.true_and]
  by_cases inside : bit < 8
  · have extended : (ofChar char).toBitVec = char.toBitVec.signExtend 16 := rfl
    have byte : char.toUInt8.toBitVec = char.toBitVec := rfl
    have low : 8 - 1 - bit < 8 := by omega
    have word : 8 - 1 - bit < 16 := by omega
    rw [extended, byte, BitVec.getLsbD_signExtend, decide_eq_true word, if_pos low, Bool.true_and]
  · rw [decide_eq_false inside]
    rfl

end Reverse

section Remainders

theorem msb_eq (remainder : UInt16) : remainder.toBitVec.msb = remainder.toBitVec.getLsbD 15 :=
  BitVec.msb_eq_getLsbD_last _

theorem divideIbm_eq (remainder : UInt16) :
    (divideIbm remainder).toBitVec = divideLeft 0x8005 remainder.toBitVec := by
  have top := @and_two_pow_ne_zero remainder MSB 15 (by decide)
  have shifted : (remainder <<< 1).toBitVec = remainder.toBitVec <<< 1 := rfl
  rw [divideIbm, divideLeft, msb_eq]
  by_cases set : remainder.toBitVec.getLsbD 15 = true
  · rw [if_pos (top.mpr set), if_pos set, UInt16.toBitVec_xor, shifted]
    rfl
  · rw [if_neg (mt top.mp set), if_neg set, shifted]

theorem divideCcitt_eq (remainder : UInt16) :
    (divideCcitt remainder).toBitVec = divideLeft 0x1021 remainder.toBitVec := by
  have top := @and_two_pow_ne_zero remainder 0x8000 15 (by decide)
  have shifted : (remainder <<< 1).toBitVec = remainder.toBitVec <<< 1 := rfl
  rw [divideCcitt, divideLeft, msb_eq, UInt16.toBitVec_xor, shifted]
  by_cases set : remainder.toBitVec.getLsbD 15 = true
  · rw [if_pos (top.mpr set), if_pos set]
    rfl
  · rw [if_neg (mt top.mp set), if_neg set]
    exact BitVec.xor_zero

/-- A loop that divides to the left on reversed bytes divides, reversed, to the right on
the bytes. -/
theorem reverse_foldl {divide16 : UInt16 → UInt16} {poly : BitVec 16}
    (left : ∀ remainder, (divide16 remainder).toBitVec = divideLeft poly remainder.toBitVec)
    (chars : List Int8) (start : UInt16) :
    (chars.foldl (fun remainder thisByte => divide16^[8]
        (remainder ^^^ (bitReverse (ofChar thisByte) 8 <<< UInt16.ofNat (WIDTH - 8))))
      start).toBitVec.reverse =
      remainder poly.reverse start.toBitVec.reverse (bytesOf chars) := by
  have rounds : ∀ (count : Nat) (value : UInt16),
      (divide16^[count] value).toBitVec = (divideLeft poly)^[count] value.toBitVec := by
    intro count
    induction count with
    | zero => intro value; rfl
    | succ count ih =>
        intro value
        rw [Function.iterate_succ_apply, Function.iterate_succ_apply, ih, left]
  induction chars generalizing start with
  | nil => rfl
  | cons char chars ih =>
      have shifted : (bitReverse (ofChar char) 8 <<< UInt16.ofNat (WIDTH - 8)).toBitVec =
          (bitReverse (ofChar char) 8).toBitVec <<< (16 - 8) := rfl
      have byte := reverse_shiftLeft_reverse (by decide : 8 ≤ 16) char.toUInt8.toBitVec
      rw [List.foldl_cons, ih, rounds, reverse_iterate_divideLeft, UInt16.toBitVec_xor, shifted,
        reverse_xor, bitReverse_char, byte]
      rfl

/-- Both checksums are the reflected ones, bit by bit on the bytes as they are. -/
theorem crc16_reflected (dataBuffer : List Int8) (numBytes : UInt32) :
    calc_ibm dataBuffer numBytes = arc (bytesOf (dataBuffer.take numBytes.toNat)) ∧
      calc_ccitt dataBuffer numBytes = x25 (bytesOf (dataBuffer.take numBytes.toNat)) := by
  have ibm := reverse_foldl divideIbm_eq (dataBuffer.take numBytes.toNat) 0
  have ccitt := reverse_foldl divideCcitt_eq (dataBuffer.take numBytes.toNat) 0xffff
  have polyIbm : BitVec.reverse (0x8005 : BitVec 16) = 0xA001 := by decide
  have polyCcitt : BitVec.reverse (0x1021 : BitVec 16) = 0x8408 := by decide
  have zero : (0 : UInt16).toBitVec.reverse = 0 := by decide
  have ones : (0xffff : UInt16).toBitVec.reverse = 0xFFFF := by decide
  rw [polyIbm, zero] at ibm
  rw [polyCcitt, ones] at ccitt
  constructor
  · apply UInt16.toBitVec_inj.mp
    rw [calc_ibm, bitReverse_word, ibm]
    rfl
  · apply UInt16.toBitVec_inj.mp
    rw [calc_ccitt, UInt16.toBitVec_xor, bitReverse_word, ccitt]
    rfl

end Remainders

end Crc16

end OpenMplane
