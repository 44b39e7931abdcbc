import Mathlib.Algebra.Group.Nat.Defs
import Mathlib.Algebra.Ring.Int.Defs
import Mathlib.Data.List.Infix

/-!
# Numbers as bytes

`ByteTransfer` writes numbers with their highest byte first and reads them back
from an iterator.  A reader stops at the end of the data; the bytes that are
missing count as zero.
-/

namespace OpenMplane

/-- `unsigned numBytes(std::distance(dataStart, dataEnd))`. -/
def numBytes (data : List UInt8) : Nat := data.length % 2 ^ 32

theorem numBytes_eq {data : List UInt8} (small : data.length < 2 ^ 32) :
    numBytes data = data.length :=
  Nat.mod_eq_of_lt small

namespace ByteTransfer

/-- `readVal` on iterators, with what is left of the data. -/
def readVal : Nat → List UInt8 → Nat × List UInt8
  | 0, data => (0, data)
  | _ + 1, [] => (0, [])
  | count + 1, byte :: data =>
      let (low, rest) := readVal count data
      (byte.toNat * 256 ^ count + low, rest)

/-- The bytes that `writeVal` puts in place. -/
def valBytes : Nat → Nat → List UInt8
  | 0, _ => []
  | count + 1, val => UInt8.ofNat (val / 256 ^ count) :: valBytes count val

def readByte (data : List UInt8) : Nat × List UInt8 := readVal 1 data

def readShort (data : List UInt8) : Nat × List UInt8 := readVal 2 data

def read24bit (data : List UInt8) : Nat × List UInt8 := readVal 3 data

def readWord (data : List UInt8) : Nat × List UInt8 := readVal 4 data

def appendByte (data : List UInt8) (val : Nat) : List UInt8 := data ++ valBytes 1 val

def appendShort (data : List UInt8) (val : Nat) : List UInt8 := data ++ valBytes 2 val

def append24bit (data : List UInt8) (val : Nat) : List UInt8 := data ++ valBytes 3 val

def appendWord (data : List UInt8) (val : Nat) : List UInt8 := data ++ valBytes 4 val

@[simp] theorem length_valBytes (count val : Nat) : (valBytes count val).length = count := by
  induction count with
  | zero => rfl
  | succ count ih => simp [valBytes, ih]

/-- The bytes of a number are those of what fits. -/
theorem valBytes_mod (count val : Nat) : valBytes count (val % 256 ^ count) = valBytes count val := by
  have shorter : ∀ more, valBytes count (val % 256 ^ (count + more)) = valBytes count val := by
    induction count generalizing val with
    | zero => simp [valBytes]
    | succ count ih =>
        intro more
        have split : 256 ^ (count + 1 + more) = 256 ^ count * 256 ^ (1 + more) := by
          rw [Nat.add_assoc, pow_add]
        rw [valBytes, valBytes, Nat.add_assoc, ih, pow_add, Nat.mod_mul_right_div_self,
          pow_add 256 1 more]
        congr 1
        apply UInt8.toNat.inj
        rw [UInt8.toNat_ofNat', UInt8.toNat_ofNat', pow_one, Nat.mod_mul_right_mod]
  exact shorter 0

/-- A number that was written is read back, as far as it fits. -/
theorem readVal_valBytes (count val : Nat) (rest : List UInt8) :
    readVal count (valBytes count val ++ rest) = (val % 256 ^ count, rest) := by
  induction count with
  | zero => simp [readVal, valBytes, Nat.mod_one]
  | succ count ih =>
      rw [valBytes, List.cons_append, readVal, ih, Nat.mod_pow_succ, UInt8.toNat_ofNat']
      rw [Prod.mk.injEq]
      exact ⟨by rw [Nat.add_comm, Nat.mul_comm], rfl⟩

theorem readVal_snd (count : Nat) (data : List UInt8) :
    (readVal count data).2 = data.drop count := by
  induction count generalizing data with
  | zero => rfl
  | succ count ih =>
      cases data with
      | nil => rfl
      | cons byte data =>
          rw [readVal, List.drop_succ_cons]
          exact ih data

theorem readVal_lt (count : Nat) (data : List UInt8) : (readVal count data).1 < 256 ^ count := by
  induction count generalizing data with
  | zero => simp [readVal]
  | succ count ih =>
      cases data with
      | nil => exact Nat.pow_pos (by decide)
      | cons byte data =>
          have low := ih data
          have high : byte.toNat ≤ 255 := Nat.le_of_lt_succ byte.toNat_lt
          have product := Nat.mul_le_mul_right (256 ^ count) high
          rw [readVal, pow_succ]
          dsimp only
          omega

/-- A number that was read is written back as its bytes, with zeros for those
that were missing. -/
theorem valBytes_readVal (count : Nat) (data : List UInt8) :
    valBytes count (readVal count data).1 =
      data.take count ++ List.replicate (count - data.length) 0 := by
  induction count generalizing data with
  | zero => simp [valBytes]
  | succ count ih =>
      cases data with
      | nil =>
          have zeros := ih []
          rw [readVal, valBytes, Nat.zero_div]
          have none : (readVal count []).1 = 0 := by
            cases count <;> rfl
          rw [none] at zeros
          rw [zeros]
          simp [List.replicate_succ]
      | cons byte data =>
          have low := readVal_lt count data
          have positive : 0 < 256 ^ count := Nat.pow_pos (by decide)
          have high : (byte.toNat * 256 ^ count + (readVal count data).1) / 256 ^ count =
              byte.toNat := by
            rw [Nat.add_comm, Nat.add_mul_div_right _ _ positive, Nat.div_eq_of_lt low,
              Nat.zero_add]
          have rest : valBytes count (byte.toNat * 256 ^ count + (readVal count data).1) =
              valBytes count (readVal count data).1 := by
            rw [← valBytes_mod, Nat.add_comm, Nat.add_mul_mod_self_right, valBytes_mod]
          rw [readVal, valBytes]
          dsimp only
          rw [high, rest, ih, UInt8.ofNat_toNat]
          simp

/-- `readValLE` on iterators, with what is left of the data. -/
def readValLE : Nat → List UInt8 → Nat × List UInt8
  | 0, data => (0, data)
  | _ + 1, [] => (0, [])
  | count + 1, byte :: data =>
      let (high, rest) := readValLE count data
      (byte.toNat + 256 * high, rest)

def readWordLE (data : List UInt8) : Nat × List UInt8 := readValLE 4 data

/-- The bytes that `writeValLE` puts in place. -/
def valBytesLE : Nat → Nat → List UInt8
  | 0, _ => []
  | count + 1, val => UInt8.ofNat val :: valBytesLE count (val / 256)

@[simp] theorem length_valBytesLE (count val : Nat) : (valBytesLE count val).length = count := by
  induction count generalizing val with
  | zero => rfl
  | succ count ih => simp [valBytesLE, ih]

theorem readValLE_valBytesLE (count val : Nat) (rest : List UInt8) :
    readValLE count (valBytesLE count val ++ rest) = (val % 256 ^ count, rest) := by
  induction count generalizing val with
  | zero => simp [readValLE, valBytesLE, Nat.mod_one]
  | succ count ih =>
      rw [valBytesLE, List.cons_append, readValLE, ih, pow_succ', Nat.mod_mul,
        UInt8.toNat_ofNat']

end ByteTransfer

end OpenMplane
