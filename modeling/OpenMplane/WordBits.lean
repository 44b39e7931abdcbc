import Mathlib.Algebra.Group.Nat.Defs
import Mathlib.Algebra.Ring.Int.Defs
import Mathlib.Data.List.Infix
import Mathlib.Data.Nat.Bitwise
import Mathlib.Logic.Function.Basic

/-!
# Bits spread over several words

An array of 32-bit words is a row of bits.  This file tests and sets bits the
way C does, with a shifted one and the bitwise operators, and describes what a
loop leaves behind that sets bits at the positions of a table.
-/

namespace WordBits

/-- `(word & (1 << bit)) != 0`. -/
def testBit (word : UInt32) (bit : Nat) : Bool :=
  decide (word &&& (1 <<< UInt32.ofNat bit) ≠ 0)

/-- `word |= (1 << bit)`. -/
def orBit (word : UInt32) (bit : Nat) : UInt32 :=
  word ||| (1 <<< UInt32.ofNat bit)

theorem toNat_one_shiftLeft {bit : Nat} (below : bit < 32) :
    (1 <<< UInt32.ofNat bit : UInt32).toNat = 2 ^ bit := by
  have index : (UInt32.ofNat bit).toNat % 32 = bit := by
    have small : bit < UInt32.size := by simp only [UInt32.size]; omega
    rw [UInt32.toNat_ofNat_of_lt' small, Nat.mod_eq_of_lt below]
  have power : 2 ^ bit < 2 ^ 32 := Nat.pow_lt_pow_right (by decide) below
  rw [UInt32.toNat_shiftLeft, index, UInt32.toNat_one, Nat.one_shiftLeft, Nat.mod_eq_of_lt power]

theorem testBit_eq_toNat {bit : Nat} (below : bit < 32) (word : UInt32) :
    testBit word bit = word.toNat.testBit bit := by
  have masked : (word &&& (1 <<< UInt32.ofNat bit)).toNat =
      (word.toNat.testBit bit).toNat * 2 ^ bit := by
    rw [UInt32.toNat_and, toNat_one_shiftLeft below, Nat.and_two_pow]
  have zero : word &&& (1 <<< UInt32.ofNat bit) = 0 ↔ word.toNat.testBit bit = false := by
    rw [← UInt32.toNat_inj, masked, UInt32.toNat_zero]
    cases word.toNat.testBit bit <;> simp
  unfold testBit
  cases value : word.toNat.testBit bit with
  | false => exact decide_eq_false (not_not_intro (zero.mpr value))
  | true =>
      apply decide_eq_true
      intro none
      rw [zero.mp none] at value
      contradiction

theorem testBit_orBit {bit other : Nat} (below : bit < 32) (otherBelow : other < 32)
    (word : UInt32) :
    testBit (orBit word bit) other = (testBit word other || decide (bit = other)) := by
  rw [testBit_eq_toNat otherBelow, testBit_eq_toNat otherBelow, orBit, UInt32.toNat_or,
    toNat_one_shiftLeft below, Nat.testBit_or, Nat.testBit_two_pow]

theorem testBit_zero {bit : Nat} (below : bit < 32) : testBit 0 bit = false := by
  rw [testBit_eq_toNat below, UInt32.toNat_zero, Nat.zero_testBit]

theorem eq_of_testBit {first second : UInt32}
    (same : ∀ bit < 32, testBit first bit = testBit second bit) : first = second := by
  apply UInt32.toNat_inj.mp
  apply Nat.eq_of_testBit_eq
  intro bit
  by_cases below : bit < 32
  · rw [← testBit_eq_toNat below, ← testBit_eq_toNat below]
    exact same bit below
  · have power : 2 ^ 32 ≤ 2 ^ bit := Nat.pow_le_pow_right (by decide) (Nat.le_of_not_lt below)
    have firstBelow : first.toNat < 2 ^ bit := Nat.lt_of_lt_of_le first.toNat_lt power
    have secondBelow : second.toNat < 2 ^ bit := Nat.lt_of_lt_of_le second.toNat_lt power
    rw [Nat.testBit_lt_two_pow firstBelow, Nat.testBit_lt_two_pow secondBelow]

section Rows

variable {size : Nat} [NeZero size]

/-- The number of the word that holds a bit of a row. -/
def wordNum (size : Nat) [NeZero size] (bitpos : Nat) : Fin size :=
  Fin.ofNat size (bitpos / 32)

/-- A bit of a row of words. -/
def bitAt (words : Fin size → UInt32) (bitpos : Nat) : Bool :=
  testBit (words (wordNum size bitpos)) (bitpos % 32)

/-- The row after a bit of it has been set. -/
def setBit (words : Fin size → UInt32) (bitpos : Nat) : Fin size → UInt32 :=
  Function.update words (wordNum size bitpos) (orBit (words (wordNum size bitpos)) (bitpos % 32))

theorem wordNum_val {bitpos : Nat} (below : bitpos < 32 * size) :
    (wordNum size bitpos).val = bitpos / 32 := by
  have small : bitpos / 32 < size := by omega
  rw [wordNum, Fin.val_ofNat, Nat.mod_eq_of_lt small]

theorem bitAt_setBit (words : Fin size → UInt32) {bitpos other : Nat}
    (below : bitpos < 32 * size) (otherBelow : other < 32 * size) :
    bitAt (setBit words bitpos) other = (bitAt words other || decide (bitpos = other)) := by
  have index := wordNum_val below
  have otherIndex := wordNum_val otherBelow
  unfold bitAt setBit
  by_cases same : wordNum size other = wordNum size bitpos
  · have quotient : other / 32 = bitpos / 32 := by rw [← index, ← otherIndex, same]
    have position : (bitpos % 32 = other % 32) = (bitpos = other) := by
      apply propext
      omega
    rw [same, Function.update_self, testBit_orBit (by omega) (by omega)]
    simp only [position]
  · have different : bitpos ≠ other := by
      rintro rfl
      exact same rfl
    rw [Function.update_of_ne same, decide_eq_false different, Bool.or_false]

theorem eq_of_bitAt {first second : Fin size → UInt32}
    (same : ∀ bitpos < 32 * size, bitAt first bitpos = bitAt second bitpos) : first = second := by
  funext word
  apply eq_of_testBit
  intro bit below
  have inside : 32 * word.val + bit < 32 * size := by
    have wordBelow := word.isLt
    omega
  have index : wordNum size (32 * word.val + bit) = word := by
    apply Fin.ext
    rw [wordNum_val inside]
    omega
  have position : (32 * word.val + bit) % 32 = bit := by omega
  have bits := same _ inside
  rw [bitAt, bitAt, index, position] at bits
  exact bits

/-- The row after a loop that sets the bit at `table idx` for every index whose
value is one. -/
def scatter (table : Nat → Nat) (value : Nat → Bool) (indices : List Nat)
    (words : Fin size → UInt32) : Fin size → UInt32 :=
  indices.foldl (fun words idx => if value idx then setBit words (table idx) else words) words

theorem bitAt_scatter {table : Nat → Nat} {value : Nat → Bool} {indices : List Nat}
    (tableBelow : ∀ idx ∈ indices, table idx < 32 * size) (words : Fin size → UInt32)
    {bitpos : Nat} (below : bitpos < 32 * size) :
    bitAt (scatter table value indices words) bitpos =
      (bitAt words bitpos || indices.any fun idx => value idx && decide (table idx = bitpos)) := by
  induction indices generalizing words with
  | nil => simp [scatter]
  | cons idx indices ih =>
      have rest := ih fun other member => tableBelow other (List.mem_cons_of_mem idx member)
      have head := tableBelow idx List.mem_cons_self
      rw [scatter, List.foldl_cons, ← scatter, rest, List.any_cons]
      cases value idx with
      | false => simp
      | true => simp [bitAt_setBit words head below, Bool.or_assoc]

/-- A table without repetitions puts each value at its own position. -/
theorem bitAt_scatter_of_injective {table : Nat → Nat} {value : Nat → Bool} {indices : List Nat}
    (tableBelow : ∀ idx ∈ indices, table idx < 32 * size)
    (injective : ∀ first ∈ indices, ∀ second ∈ indices,
      table first = table second → first = second)
    {words : Fin size → UInt32} {idx : Nat} (member : idx ∈ indices)
    (clear : bitAt words (table idx) = false) :
    bitAt (scatter table value indices words) (table idx) = value idx := by
  rw [bitAt_scatter tableBelow words (tableBelow idx member), clear, Bool.false_or]
  cases bit : value idx with
  | true =>
      rw [List.any_eq_true]
      exact ⟨idx, member, by simp [bit]⟩
  | false =>
      rw [List.any_eq_false]
      intro other otherMember
      by_cases same : table other = table idx
      · have equal := injective other otherMember idx member same
        simp [equal, bit]
      · simp [same]

end Rows

end WordBits
