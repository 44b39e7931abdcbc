import Mathlib.Data.Fin.VecNotation
import Mathlib.Logic.Function.Iterate
import Mathlib.Algebra.Ring.Nat
import OpenMplane.StdString

/-!
# The block cipher

`Crypt::encipher` mixes two words in thirty-two rounds under a key of four
words, `Crypt::decipher` takes the rounds back in reverse.  With the running
sum as part of the state a round is a bijection whose inverse is the round of
the other function, so that whole runs undo each other.
-/

namespace OpenMplane

/-- A key has words. -/
instance neZeroFour : NeZero 4 := ⟨Nat.succ_ne_zero 3⟩

/-- The key of the cipher. -/
structure Crypt where
  mKey : Fin 4 → UInt32

namespace Crypt

def DELTA : UInt32 := 0x9E3779B9

/-- Recommended. -/
def NUM_ROUNDS : Nat := 32

/-- The variables of the loops. -/
structure Round where
  v0 : UInt32
  v1 : UInt32
  sum : UInt32
  deriving DecidableEq

/-- `key[index & 3]`. -/
def keyWord (key : Fin 4 → UInt32) (index : UInt32) : UInt32 :=
  key (Fin.ofNat 4 (index &&& 3).toNat)

/-- `(((v << 4) ^ (v >> 5)) + v) ^ (sum + word)`. -/
def mix (v sum word : UInt32) : UInt32 :=
  (((v <<< 4) ^^^ (v >>> 5)) + v) ^^^ (sum + word)

/-- The loop body of `encipher`. -/
def encipherRound (key : Fin 4 → UInt32) (round : Round) : Round :=
  let v0 := round.v0 + mix round.v1 round.sum (keyWord key round.sum)
  let sum := round.sum + DELTA
  let v1 := round.v1 + mix v0 sum (keyWord key (sum >>> 11))
  ⟨v0, v1, sum⟩

/-- The loop body of `decipher`. -/
def decipherRound (key : Fin 4 → UInt32) (round : Round) : Round :=
  let v1 := round.v1 - mix round.v0 round.sum (keyWord key (round.sum >>> 11))
  let sum := round.sum - DELTA
  let v0 := round.v0 - mix v1 sum (keyWord key sum)
  ⟨v0, v1, sum⟩

def encipher (num_rounds : Nat) (v : UInt32 × UInt32) (key : Fin 4 → UInt32) :
    UInt32 × UInt32 :=
  let last := (encipherRound key)^[num_rounds] ⟨v.1, v.2, 0⟩
  (last.v0, last.v1)

def decipher (num_rounds : Nat) (v : UInt32 × UInt32) (key : Fin 4 → UInt32) :
    UInt32 × UInt32 :=
  let last := (decipherRound key)^[num_rounds] ⟨v.1, v.2, DELTA * UInt32.ofNat num_rounds⟩
  (last.v0, last.v1)

/-- `Crypt::encrypt` of two words, which always succeeds. -/
def encrypt (crypt : Crypt) (data : UInt32 × UInt32) : UInt32 × UInt32 :=
  encipher NUM_ROUNDS data crypt.mKey

/-- `Crypt::decrypt` of two words, which always succeeds. -/
def decrypt (crypt : Crypt) (data : UInt32 × UInt32) : UInt32 × UInt32 :=
  decipher NUM_ROUNDS data crypt.mKey

section Rounds

variable (key : Fin 4 → UInt32)

theorem decipherRound_encipherRound :
    Function.LeftInverse (decipherRound key) (encipherRound key) := by
  intro round
  simp [decipherRound, encipherRound]

theorem encipherRound_decipherRound :
    Function.LeftInverse (encipherRound key) (decipherRound key) := by
  intro round
  simp [decipherRound, encipherRound]

theorem sum_add_delta (sum : UInt32) (count : Nat) :
    sum + DELTA * UInt32.ofNat (count + 1) = sum + DELTA + DELTA * UInt32.ofNat count := by
  rw [UInt32.ofNat_add, UInt32.mul_add]
  have one : DELTA * UInt32.ofNat 1 = DELTA := by decide
  rw [one, UInt32.add_comm (DELTA * UInt32.ofNat count) DELTA, UInt32.add_assoc]

theorem sum_iterate_encipherRound (count : Nat) (round : Round) :
    ((encipherRound key)^[count] round).sum = round.sum + DELTA * UInt32.ofNat count := by
  induction count generalizing round with
  | zero => simp
  | succ count ih =>
      rw [Function.iterate_succ_apply, ih, sum_add_delta]
      rfl

theorem sum_iterate_decipherRound (count : Nat) (round : Round) :
    ((decipherRound key)^[count] round).sum + DELTA * UInt32.ofNat count = round.sum := by
  induction count generalizing round with
  | zero => simp
  | succ count ih =>
      have next : (decipherRound key round).sum = round.sum - DELTA := rfl
      rw [Function.iterate_succ_apply, sum_add_delta, UInt32.add_assoc, UInt32.add_comm DELTA,
        ← UInt32.add_assoc, ih, next, UInt32.sub_add_cancel]

theorem decipher_encipher (rounds : Nat) (v : UInt32 × UInt32) :
    decipher rounds (encipher rounds v key) key = v := by
  have sum := sum_iterate_encipherRound key rounds ⟨v.1, v.2, 0⟩
  have back := (decipherRound_encipherRound key).iterate rounds ⟨v.1, v.2, 0⟩
  unfold decipher encipher
  dsimp only at sum ⊢
  rw [UInt32.zero_add] at sum
  rw [← sum, back]

theorem encipher_decipher (rounds : Nat) (v : UInt32 × UInt32) :
    encipher rounds (decipher rounds v key) key = v := by
  have sum := sum_iterate_decipherRound key rounds ⟨v.1, v.2, DELTA * UInt32.ofNat rounds⟩
  have back := (encipherRound_decipherRound key).iterate rounds
    ⟨v.1, v.2, DELTA * UInt32.ofNat rounds⟩
  have zero : ((decipherRound key)^[rounds] ⟨v.1, v.2, DELTA * UInt32.ofNat rounds⟩).sum = 0 :=
    UInt32.add_eq_right.mp sum
  unfold decipher encipher
  dsimp only
  rw [← zero, back]

end Rounds

theorem decrypt_encrypt (crypt : Crypt) (data : UInt32 × UInt32) :
    crypt.decrypt (crypt.encrypt data) = data :=
  decipher_encipher crypt.mKey NUM_ROUNDS data

theorem encrypt_decrypt (crypt : Crypt) (data : UInt32 × UInt32) :
    crypt.encrypt (crypt.decrypt data) = data :=
  encipher_decipher crypt.mKey NUM_ROUNDS data

end Crypt

end OpenMplane
