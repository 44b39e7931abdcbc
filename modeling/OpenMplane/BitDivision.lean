import Mathlib.Logic.Function.Iterate

/-!
# Division by a polynomial, bit by bit

A cyclic redundancy check divides a row of bytes by a polynomial over the field of two
elements.  The reflected form shifts to the right and takes the bits of a byte from the
lowest one on, the other form shifts to the left.  A step of the reflected form is
linear, so that eight steps can be looked up for the low byte alone, and reversing the
bits turns one form into the other.
-/

namespace BitDivision

variable {width : Nat}

section Reflected

variable (poly : BitVec width)

/-- One step of the division, to the right. -/
def divide (crc : BitVec width) : BitVec width :=
  if crc.getLsbD 0 then (crc >>> 1) ^^^ poly else crc >>> 1

/-- The remainder after the eight bits of a byte. -/
def divideByte (crc : BitVec width) (byte : BitVec 8) : BitVec width :=
  (divide poly)^[8] (crc ^^^ byte.setWidth width)

/-- The remainder after a row of bytes. -/
def remainder (crc : BitVec width) (bytes : List (BitVec 8)) : BitVec width :=
  bytes.foldl (divideByte poly) crc

theorem remainder_append (crc : BitVec width) (first second : List (BitVec 8)) :
    remainder poly crc (first ++ second) = remainder poly (remainder poly crc first) second :=
  List.foldl_append

variable {poly}

theorem divide_of_low {crc : BitVec width} (low : crc.getLsbD 0 = false) :
    divide poly crc = crc >>> 1 := by
  rw [divide, low]
  rfl

theorem divide_xor (first second : BitVec width) :
    divide poly (first ^^^ second) = divide poly first ^^^ divide poly second := by
  have shifted := BitVec.ushiftRight_xor_distrib first second 1
  rw [divide, divide, divide, BitVec.getLsbD_xor, shifted]
  cases first.getLsbD 0 with
  | false =>
      cases second.getLsbD 0 with
      | false => rfl
      | true => exact BitVec.xor_assoc _ _ _
  | true =>
      cases second.getLsbD 0 with
      | false =>
          show (first >>> 1 ^^^ second >>> 1) ^^^ poly = (first >>> 1 ^^^ poly) ^^^ second >>> 1
          rw [BitVec.xor_assoc, BitVec.xor_assoc, BitVec.xor_comm poly]
      | true =>
          show first >>> 1 ^^^ second >>> 1 = (first >>> 1 ^^^ poly) ^^^ (second >>> 1 ^^^ poly)
          rw [BitVec.xor_comm (second >>> 1) poly, ← BitVec.xor_assoc,
            BitVec.xor_assoc (first >>> 1), BitVec.xor_self, BitVec.xor_zero]

theorem iterate_divide_xor (count : Nat) (first second : BitVec width) :
    (divide poly)^[count] (first ^^^ second) =
      (divide poly)^[count] first ^^^ (divide poly)^[count] second := by
  induction count generalizing first second with
  | zero => rfl
  | succ count ih =>
      rw [Function.iterate_succ_apply, Function.iterate_succ_apply, Function.iterate_succ_apply,
        divide_xor, ih]

theorem iterate_divide_of_low {count : Nat} {crc : BitVec width}
    (low : ∀ bit < count, crc.getLsbD bit = false) :
    (divide poly)^[count] crc = crc >>> count := by
  induction count generalizing crc with
  | zero => exact (BitVec.ushiftRight_zero crc).symm
  | succ count ih =>
      have shifted : ∀ bit < count, (crc >>> 1).getLsbD bit = false := by
        intro bit below
        rw [BitVec.getLsbD_ushiftRight]
        exact low (1 + bit) (by omega)
      rw [Function.iterate_succ_apply, divide_of_low (low 0 (Nat.succ_pos count)), ih shifted,
        ← BitVec.shiftRight_add, Nat.add_comm]

/-- Only the bits that are shifted out take part in the division. -/
theorem iterate_divide_split (count : Nat) (crc : BitVec width) :
    (divide poly)^[count] crc =
      (divide poly)^[count] ((crc.setWidth count).setWidth width) ^^^ crc >>> count := by
  have split : crc = (crc.setWidth count).setWidth width ^^^
      (crc ^^^ (crc.setWidth count).setWidth width) := by
    rw [BitVec.xor_comm crc, ← BitVec.xor_assoc, BitVec.xor_self, BitVec.zero_xor]
  have low : ∀ bit < count,
      (crc ^^^ (crc.setWidth count).setWidth width).getLsbD bit = false := by
    intro bit below
    rw [BitVec.getLsbD_xor, BitVec.getLsbD_setWidth, BitVec.getLsbD_setWidth]
    by_cases inside : bit < width
    · simp [below, inside]
    · simp [inside, BitVec.getLsbD_of_ge crc bit (by omega)]
  have high : (crc ^^^ (crc.setWidth count).setWidth width) >>> count = crc >>> count := by
    apply BitVec.eq_of_getLsbD_eq
    intro bit below
    rw [BitVec.getLsbD_ushiftRight, BitVec.getLsbD_ushiftRight, BitVec.getLsbD_xor,
      BitVec.getLsbD_setWidth, BitVec.getLsbD_setWidth]
    have behind : ¬ count + bit < count := by omega
    simp [behind]
  have parts := @iterate_divide_xor width poly count ((crc.setWidth count).setWidth width)
    (crc ^^^ (crc.setWidth count).setWidth width)
  rw [← split, iterate_divide_of_low low, high] at parts
  exact parts

end Reflected

section Unreflected

variable (poly : BitVec width)

/-- One step of the division, to the left. -/
def divideLeft (crc : BitVec width) : BitVec width :=
  if crc.msb then (crc <<< 1) ^^^ poly else crc <<< 1

variable {poly}

theorem reverse_xor (first second : BitVec width) :
    (first ^^^ second).reverse = first.reverse ^^^ second.reverse := by
  apply BitVec.eq_of_getLsbD_eq
  intro bit below
  rw [BitVec.getLsbD_xor, BitVec.getLsbD_reverse, BitVec.getLsbD_reverse, BitVec.getLsbD_reverse,
    BitVec.getMsbD_xor]

theorem reverse_shiftLeft (crc : BitVec width) (count : Nat) :
    (crc <<< count).reverse = crc.reverse >>> count := by
  apply BitVec.eq_of_getLsbD_eq
  intro bit below
  rw [BitVec.getLsbD_ushiftRight, BitVec.getLsbD_reverse, BitVec.getLsbD_reverse,
    BitVec.getMsbD_shiftLeft, Nat.add_comm]

theorem reverse_divideLeft (crc : BitVec width) :
    (divideLeft poly crc).reverse = divide poly.reverse crc.reverse := by
  have top : crc.reverse.getLsbD 0 = crc.msb := by
    rw [BitVec.getLsbD_reverse]
    rfl
  rw [divideLeft, divide, top]
  cases crc.msb with
  | false => exact reverse_shiftLeft crc 1
  | true =>
      rw [if_pos rfl, if_pos rfl, reverse_xor, reverse_shiftLeft]

theorem reverse_iterate_divideLeft (count : Nat) (crc : BitVec width) :
    ((divideLeft poly)^[count] crc).reverse = (divide poly.reverse)^[count] crc.reverse := by
  induction count generalizing crc with
  | zero => rfl
  | succ count ih =>
      rw [Function.iterate_succ_apply, Function.iterate_succ_apply, ih, reverse_divideLeft]

/-- The reversed byte at the high end is, reversed, the byte at the low end. -/
theorem reverse_shiftLeft_reverse (wide : 8 ≤ width) (byte : BitVec 8) :
    (byte.reverse.setWidth width <<< (width - 8)).reverse = byte.setWidth width := by
  apply BitVec.eq_of_getLsbD_eq
  intro bit below
  rw [BitVec.getLsbD_reverse, BitVec.getMsbD_eq_getLsbD, BitVec.getLsbD_shiftLeft,
    BitVec.getLsbD_setWidth, BitVec.getLsbD_setWidth, BitVec.getLsbD_reverse,
    BitVec.getMsbD_eq_getLsbD]
  by_cases inside : bit < 8
  · have high : ¬ width - 1 - bit < width - 8 := by omega
    have inWord : width - 1 - bit < width := by omega
    have place : width - 1 - bit - (width - 8) = 7 - bit := by omega
    have inWord' : 7 - bit < width := by omega
    have inByte : 7 - bit < 8 := by omega
    have back : 8 - 1 - (7 - bit) = bit := by omega
    simp [below, high, inWord, place, inWord', inByte, back]
  · have low : width - 1 - bit < width - 8 := by omega
    have behind : byte.getLsbD bit = false := BitVec.getLsbD_of_ge byte bit (by omega)
    simp [low, behind]

end Unreflected

end BitDivision
