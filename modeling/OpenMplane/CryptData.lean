import OpenMplane.ByteTransfer
import OpenMplane.Crypt

/-!
# Enciphered bytes

`Crypt::encrypt` puts a magic number and the count of the bytes in front of
them and enciphers two words at a time, with zeros for the bytes that the last
two are short of.  `Crypt::decrypt` checks the two numbers and gives back as
many bytes as there were.
-/

namespace OpenMplane

open ByteTransfer

namespace Crypt

def CRYPT_MAGIC : UInt32 := 0x43727970

/-- Two words and what is behind them. -/
def readWords (data : List UInt8) : (UInt32 × UInt32) × List UInt8 :=
  let (first, data) := readWord data
  let (second, data) := readWord data
  ((UInt32.ofNat first, UInt32.ofNat second), data)

theorem readWords_snd (data : List UInt8) : (readWords data).2 = data.drop 8 := by
  rw [readWords]
  dsimp only
  rw [readWord, readVal_snd, readWord, readVal_snd, List.drop_drop]

/-- The words that the loops read, until no byte is left. -/
def wordPairs : List UInt8 → List (UInt32 × UInt32)
  | [] => []
  | byte :: data => (readWords (byte :: data)).1 :: wordPairs (readWords (byte :: data)).2
termination_by data => data.length
decreasing_by
  rw [readWords_snd, List.length_drop, List.length_cons]
  omega

/-- What the two calls of `writeWord` write. -/
def pairBytes (v : UInt32 × UInt32) : List UInt8 :=
  valBytes 4 v.1.toNat ++ valBytes 4 v.2.toNat

/-- A vector of this size after bytes were written from its start; a write
behind its end does nothing. -/
def written (outSize : Nat) (bytes : List UInt8) : List UInt8 :=
  bytes.take outSize ++ List.replicate (outSize - bytes.length) 0

/-- `Crypt::encrypt` of bytes into an empty vector, which always succeeds. -/
def encryptData (crypt : Crypt) (data : List UInt8) : List UInt8 :=
  let inSize := numBytes data
  let outSize := (inSize + 8 + 7) % 2 ^ 32 / 8 * 8
  written outSize (pairBytes (crypt.encrypt (CRYPT_MAGIC, UInt32.ofNat inSize)) ++
    (wordPairs data).flatMap fun v => pairBytes (crypt.encrypt v))

/-- `Crypt::decrypt` of bytes into an empty vector. -/
def decryptData (crypt : Crypt) (data : List UInt8) : Option (List UInt8) :=
  let (v, data) := readWords data
  let v := crypt.decrypt v
  let inSize := numBytes data
  if v.1 ≠ CRYPT_MAGIC then none
  else if inSize < v.2.toNat then none
  else
    some (written v.2.toNat ((wordPairs data).flatMap fun v => pairBytes (crypt.decrypt v)))

section Words

@[simp] theorem length_pairBytes (v : UInt32 × UInt32) : (pairBytes v).length = 8 := by
  simp [pairBytes]

theorem pairBytes_readWords (data : List UInt8) :
    pairBytes (readWords data).1 = data.take 8 ++ List.replicate (8 - data.length) 0 := by
  have first := valBytes_readVal 4 data
  have second := valBytes_readVal 4 (data.drop 4)
  have low := readVal_lt 4 data
  have high := readVal_lt 4 (data.drop 4)
  rw [readWords, pairBytes]
  dsimp only
  rw [readWord, readVal_snd, readWord, UInt32.toNat_ofNat_of_lt' low,
    UInt32.toNat_ofNat_of_lt' high, first, second, List.length_drop]
  by_cases enough : 4 ≤ data.length
  · have none : 4 - data.length = 0 := by omega
    have rest : 4 - (data.length - 4) = 8 - data.length := by omega
    rw [none, rest, List.replicate_zero, List.append_nil, ← List.append_assoc, ← List.take_add]
  · have none : data.drop 4 = [] := List.drop_of_length_le (by omega)
    have whole : data.take 4 = data := List.take_of_length_le (by omega)
    have wholeEight : data.take 8 = data := List.take_of_length_le (by omega)
    have count : 4 - data.length + (4 - (data.length - 4)) = 8 - data.length := by omega
    rw [none, whole, wholeEight, List.take_nil, List.nil_append, List.append_assoc,
      List.replicate_append_replicate, count]

theorem readWords_pairBytes (v : UInt32 × UInt32) (rest : List UInt8) :
    readWords (pairBytes v ++ rest) = (v, rest) := by
  have word : ∀ value : UInt32, UInt32.ofNat (value.toNat % 256 ^ 4) = value := by
    intro value
    have below : value.toNat < 256 ^ 4 := value.toNat_lt
    rw [Nat.mod_eq_of_lt below, UInt32.ofNat_toNat]
  rw [readWords, pairBytes, List.append_assoc, readWord, readVal_valBytes]
  dsimp only
  rw [readWord, readVal_valBytes]
  dsimp only
  rw [word, word]

theorem wordPairs_of_ne_nil {data : List UInt8} (nonempty : data ≠ []) :
    wordPairs data = (readWords data).1 :: wordPairs (data.drop 8) := by
  cases data with
  | nil => exact absurd rfl nonempty
  | cons byte data =>
      rw [wordPairs, ← readWords_snd]

/-- Words that were written are read back. -/
theorem wordPairs_flatMap_pairBytes (vs : List (UInt32 × UInt32)) :
    wordPairs (vs.flatMap pairBytes) = vs := by
  induction vs with
  | nil => rw [List.flatMap_nil, wordPairs]
  | cons v vs ih =>
      have nonempty : (v :: vs).flatMap pairBytes ≠ [] := by
        intro empty
        have size := congrArg List.length empty
        rw [List.flatMap_cons, List.length_append, length_pairBytes, List.length_nil] at size
        omega
      rw [wordPairs_of_ne_nil nonempty, List.flatMap_cons, readWords_pairBytes,
        List.drop_left' (length_pairBytes v), ih]

/-- Bytes that were read are written back, with some zeros behind them. -/
theorem flatMap_wordPairs (data : List UInt8) :
    ∃ zeros, (wordPairs data).flatMap pairBytes = data ++ zeros ∧
      (wordPairs data).length = (data.length + 7) / 8 := by
  induction size : data.length using Nat.strongRecOn generalizing data with
  | ind length ih =>
      by_cases nonempty : data = []
      · subst nonempty
        rw [wordPairs]
        exact ⟨[], rfl, by rw [← size]; rfl⟩
      · have positive := List.length_pos_iff.mpr nonempty
        rw [wordPairs_of_ne_nil nonempty, List.flatMap_cons, pairBytes_readWords]
        have shorter : (data.drop 8).length < length := by
          rw [List.length_drop]
          omega
        obtain ⟨zeros, behind, count⟩ := ih _ shorter (data.drop 8) rfl
        rw [behind]
        by_cases enough : 8 ≤ data.length
        · have none : 8 - data.length = 0 := by omega
          refine ⟨zeros, ?_, ?_⟩
          · rw [none, List.replicate_zero, List.append_nil, ← List.append_assoc,
              List.take_append_drop]
          · rw [List.length_cons, count, List.length_drop]
            omega
        · have last : data.drop 8 = [] := List.drop_of_length_le (by omega)
          have whole : data.take 8 = data := List.take_of_length_le (by omega)
          refine ⟨List.replicate (8 - data.length) 0 ++ zeros, ?_, ?_⟩
          · rw [last, whole, List.nil_append, List.append_assoc]
          · rw [List.length_cons, count, List.length_drop]
            omega

theorem length_flatMap_of_eight {f : UInt32 × UInt32 → List UInt8} (eight : ∀ v, (f v).length = 8)
    (vs : List (UInt32 × UInt32)) : (vs.flatMap f).length = 8 * vs.length := by
  induction vs with
  | nil => rfl
  | cons v vs ih =>
      rw [List.flatMap_cons, List.length_append, eight, ih, List.length_cons]
      omega

theorem take_flatMap_of_eight {f : UInt32 × UInt32 → List UInt8} (eight : ∀ v, (f v).length = 8)
    (vs : List (UInt32 × UInt32)) (count : Nat) :
    (vs.flatMap f).take (8 * count) = (vs.take count).flatMap f := by
  induction vs generalizing count with
  | nil => simp
  | cons v vs ih =>
      cases count with
      | zero => simp
      | succ count =>
          have more : 8 * (count + 1) = 8 + 8 * count := by omega
          rw [List.flatMap_cons, List.take_succ_cons, List.flatMap_cons, more, ← ih, ← eight v,
            List.take_length_add_append]

end Words

section RoundTrip

variable (crypt : Crypt) {data : List UInt8}

/-- The two numbers and as many words as the size asks for. -/
theorem encryptData_eq (small : numBytes data + 15 < 2 ^ 32) :
    encryptData crypt data =
      pairBytes (crypt.encrypt (CRYPT_MAGIC, UInt32.ofNat (numBytes data))) ++
        (((wordPairs data).take ((numBytes data + 7) / 8)).map crypt.encrypt).flatMap
          pairBytes := by
  obtain ⟨-, -, count⟩ := flatMap_wordPairs data
  have fewer : numBytes data ≤ data.length := Nat.mod_le _ _
  have size : (numBytes data + 8 + 7) % 2 ^ 32 / 8 * 8 = 8 + 8 * ((numBytes data + 7) / 8) := by
    rw [Nat.mod_eq_of_lt small]
    omega
  have eight : ∀ v, (pairBytes (crypt.encrypt v)).length = 8 := fun v => length_pairBytes _
  have length := length_flatMap_of_eight eight (wordPairs data)
  rw [encryptData, size, written, List.flatMap_map, ← take_flatMap_of_eight eight,
    ← length_pairBytes (crypt.encrypt (CRYPT_MAGIC, UInt32.ofNat (numBytes data))),
    List.take_length_add_append]
  have full : 8 + 8 * ((numBytes data + 7) / 8) - (8 + 8 * (wordPairs data).length) = 0 := by
    rw [count]
    omega
  rw [List.length_append, length, length_pairBytes, full, List.replicate_zero, List.append_nil]

theorem length_encryptData (small : numBytes data + 15 < 2 ^ 32) :
    (encryptData crypt data).length = (numBytes data + 15) / 8 * 8 := by
  obtain ⟨-, -, count⟩ := flatMap_wordPairs data
  have fewer : numBytes data ≤ data.length := Nat.mod_le _ _
  rw [encryptData_eq crypt small, List.length_append, length_pairBytes,
    length_flatMap_of_eight length_pairBytes, List.length_map, List.length_take, count]
  omega

/-- The bytes that were counted come back. -/
theorem decryptData_encryptData (small : numBytes data + 15 < 2 ^ 32) :
    decryptData crypt (encryptData crypt data) = some (data.take (numBytes data)) := by
  obtain ⟨zeros, back, count⟩ := flatMap_wordPairs data
  have fewer : numBytes data ≤ data.length := Nat.mod_le _ _
  have below : numBytes data < UInt32.size := Nat.mod_lt _ (by decide)
  have number : (UInt32.ofNat (numBytes data)).toNat = numBytes data :=
    UInt32.toNat_ofNat_of_lt' below
  have size : numBytes ((((wordPairs data).take ((numBytes data + 7) / 8)).map
      crypt.encrypt).flatMap pairBytes) = 8 * ((numBytes data + 7) / 8) := by
    have length : ((((wordPairs data).take ((numBytes data + 7) / 8)).map
        crypt.encrypt).flatMap pairBytes).length = 8 * ((numBytes data + 7) / 8) := by
      rw [length_flatMap_of_eight length_pairBytes, List.length_map, List.length_take, count]
      omega
    rw [numBytes_eq (by omega), length]
  have enough : ¬ 8 * ((numBytes data + 7) / 8) < numBytes data := by omega
  have magic : ¬ CRYPT_MAGIC ≠ CRYPT_MAGIC := not_not_intro rfl
  rw [encryptData_eq crypt small, decryptData, readWords_pairBytes]
  dsimp only
  rw [decrypt_encrypt, if_neg magic, number, size, if_neg enough, wordPairs_flatMap_pairBytes,
    List.flatMap_map]
  have plain : ((wordPairs data).take ((numBytes data + 7) / 8)).flatMap
      (fun v => pairBytes (crypt.decrypt (crypt.encrypt v))) =
        (data ++ zeros).take (8 * ((numBytes data + 7) / 8)) := by
    simp only [decrypt_encrypt]
    rw [← take_flatMap_of_eight length_pairBytes, back]
  have full : numBytes data - ((data ++ zeros).take (8 * ((numBytes data + 7) / 8))).length = 0 := by
    have total := congrArg List.length back
    rw [length_flatMap_of_eight length_pairBytes, count] at total
    rw [List.length_take]
    omega
  rw [plain, written, full, List.take_take, Nat.min_eq_left (by omega),
    List.take_append_of_le_length fewer, List.replicate_zero, List.append_nil]

end RoundTrip

end Crypt

end OpenMplane
