import OpenMplane.ByteCursor
import OpenMplane.CryptData

/-!
# Enciphered bytes behind others

`Crypt::encrypt` and `Crypt::decrypt` append to a vector: they resize it for all that
is to come and write behind what was there.  Sizes and indices are unsigned; where none
of them overflows both calls append what they give for an empty vector.
-/

namespace OpenMplane

open ByteTransfer ByteCursor

namespace Crypt

/-- `resize` of a vector. -/
def resize (data : List UInt8) (size : Nat) : List UInt8 :=
  data.take size ++ List.replicate (size - data.length) 0

/-- The two calls of `writeWord`. -/
def writeWords (outData : List UInt8) (outIdx : UInt32) (v : UInt32 × UInt32) :
    Except Fault (List UInt8 × UInt32) := do
  let (outData, outIdx) ← index.writeWord outData outIdx v.1.toBitVec
  index.writeWord outData outIdx v.2.toBitVec

/-- The loop of `encrypt` over the words that it reads. -/
def encryptLoop (crypt : Crypt) (outData : List UInt8) (outIdx : UInt32) :
    List (UInt32 × UInt32) → Except Fault (List UInt8)
  | [] => .ok outData
  | v :: vs => do
      let (outData, outIdx) ← writeWords outData outIdx (crypt.encrypt v)
      encryptLoop crypt outData outIdx vs

/-- `Crypt::encrypt` of bytes. -/
def encryptInto (crypt : Crypt) (inData outData : List UInt8) :
    Except Fault (Bool × List UInt8) := do
  let inSize := numBytes inData
  let outSize := (outData.length + (inSize + 8 + 7) % 2 ^ 32 / 8 * 8) % 2 ^ 32
  let outIdx := UInt32.ofNat outData.length
  let outData := resize outData outSize
  let (outData, outIdx) ←
    writeWords outData outIdx (crypt.encrypt (CRYPT_MAGIC, UInt32.ofNat inSize))
  let outData ← encryptLoop crypt outData outIdx (wordPairs inData)
  .ok (true, outData)

/-- The loop of `decrypt` over the words that it reads. -/
def decryptLoop (crypt : Crypt) (outSize : Nat) (outData : List UInt8) (outIdx : UInt32) :
    List (UInt32 × UInt32) → Except Fault (List UInt8)
  | [] => .ok outData
  | v :: vs =>
      if outIdx.toNat < outSize then do
        let (outData, outIdx) ← writeWords outData outIdx (crypt.decrypt v)
        decryptLoop crypt outSize outData outIdx vs
      else
        .ok outData

/-- `Crypt::decrypt` of bytes. -/
def decryptInto (crypt : Crypt) (inData outData : List UInt8) :
    Except Fault (Bool × List UInt8) :=
  let outIdx := UInt32.ofNat outData.length
  let (v, inData) := readWords inData
  let v := crypt.decrypt v
  let inSize := numBytes inData
  if v.1 ≠ CRYPT_MAGIC then .ok (false, outData)
  else if inSize < v.2.toNat then .ok (false, outData)
  else do
    let dataSize := v.2.toNat
    let outSize := (dataSize + outData.length) % 2 ^ 32
    let outData := resize outData outSize
    let outData ← decryptLoop crypt outSize outData outIdx (wordPairs inData)
    .ok (true, outData)

section Writing

@[simp] theorem length_resize (data : List UInt8) (size : Nat) :
    (resize data size).length = size := by
  simp only [resize, List.length_append, List.length_take, List.length_replicate]
  omega

theorem resize_of_le {data : List UInt8} {size : Nat} (more : data.length ≤ size) :
    resize data size = data ++ List.replicate (size - data.length) 0 := by
  rw [resize, List.take_of_length_le more]

theorem writeWords_eq (outData : List UInt8) (outIdx : UInt32) (v : UInt32 × UInt32) :
    writeWords outData outIdx v = index.writeBytes outData outIdx (pairBytes v) := by
  have word : ∀ data place (value : UInt32), index.writeWord data place value.toBitVec =
      index.writeBytes data place (valBytes 4 value.toNat) := by
    intro data place value
    exact writeValLoop_eq_writeBytes (by decide) value.toBitVec 4 data place
  rw [writeWords, word, pairBytes, writeBytes_append]
  congr 1
  funext next
  exact word next.1 next.2 v.2

theorem encryptLoop_eq (crypt : Crypt) (outData : List UInt8) (outIdx : UInt32)
    (vs : List (UInt32 × UInt32)) :
    encryptLoop crypt outData outIdx vs =
      (index.writeBytes outData outIdx
        (vs.flatMap fun v => pairBytes (crypt.encrypt v))).map Prod.fst := by
  induction vs generalizing outData outIdx with
  | nil => rfl
  | cons v vs ih =>
      rw [encryptLoop, writeWords_eq, List.flatMap_cons, writeBytes_append]
      cases index.writeBytes outData outIdx (pairBytes (crypt.encrypt v)) with
      | error fault => rfl
      | ok next => exact ih next.1 next.2

/-- The loop stops early where nothing more would be written. -/
theorem decryptLoop_eq (crypt : Crypt) (outData : List UInt8) (outIdx : UInt32)
    (vs : List (UInt32 × UInt32)) :
    decryptLoop crypt outData.length outData outIdx vs =
      (index.writeBytes outData outIdx
        (vs.flatMap fun v => pairBytes (crypt.decrypt v))).map Prod.fst := by
  induction vs generalizing outData outIdx with
  | nil => rfl
  | cons v vs ih =>
      rw [decryptLoop]
      by_cases more : outIdx.toNat < outData.length
      · rw [if_pos more, writeWords_eq, List.flatMap_cons, writeBytes_append]
        cases wrote : index.writeBytes outData outIdx (pairBytes (crypt.decrypt v)) with
        | error fault => rfl
        | ok next =>
            have size := length_of_writeBytes wrote
            have rest := ih next.1 next.2
            rw [size] at rest
            exact rest
      · have ended : index.more outData.length outIdx = false := decide_eq_false more
        rw [if_neg more, writeBytes_of_ended ended]
        rfl

theorem writeBytes_resize {before bytes : List UInt8} {room : Nat}
    (small : before.length + room < 2 ^ 32) :
    (index.writeBytes (resize before (before.length + room)) (UInt32.ofNat before.length)
        bytes).map Prod.fst = .ok (before ++ written room bytes) := by
  have size := length_resize before (before.length + room)
  have follows := follows_index (resize before (before.length + room)).length small
  have wrote := @writeBytes_eq _ _ _ _ _ follows before.length bytes (by omega) (by omega)
  have left : before.length + room - before.length = room := by omega
  have front : (resize before (before.length + room)).take before.length = before := by
    rw [resize_of_le (by omega), List.take_left]
  have back : (resize before (before.length + room)).drop (before.length + bytes.length) =
      List.replicate (room - bytes.length) 0 := by
    rw [resize_of_le (by omega), List.drop_length_add_append, left, List.drop_replicate]
  rw [wrote, Except.map, overwrite, size, left, front, back, written, List.append_assoc]

end Writing

section Appending

variable (crypt : Crypt)

theorem encryptInto_eq (inData outData : List UInt8) :
    encryptInto crypt inData outData =
      ((index.writeBytes
        (resize outData ((outData.length + (numBytes inData + 8 + 7) % 2 ^ 32 / 8 * 8) % 2 ^ 32))
        (UInt32.ofNat outData.length)
        (pairBytes (crypt.encrypt (CRYPT_MAGIC, UInt32.ofNat (numBytes inData))) ++
          (wordPairs inData).flatMap fun v => pairBytes (crypt.encrypt v))).map Prod.fst).map
        fun outData => (true, outData) := by
  rw [encryptInto, writeWords_eq, writeBytes_append]
  cases index.writeBytes _ (UInt32.ofNat outData.length)
      (pairBytes (crypt.encrypt (CRYPT_MAGIC, UInt32.ofNat (numBytes inData)))) with
  | error fault => rfl
  | ok next =>
      simp only [bind, Except.bind, encryptLoop_eq]
      cases index.writeBytes next.1 next.2
          ((wordPairs inData).flatMap fun v => pairBytes (crypt.encrypt v)) <;> rfl

/-- Where no size overflows, `encrypt` appends what it gives for an empty vector. -/
theorem encryptInto_of_lt {inData outData : List UInt8}
    (small : outData.length + (numBytes inData + 8 + 7) % 2 ^ 32 / 8 * 8 < 2 ^ 32) :
    encryptInto crypt inData outData = .ok (true, outData ++ encryptData crypt inData) := by
  rw [encryptInto_eq, Nat.mod_eq_of_lt small, writeBytes_resize small]
  rfl

theorem length_of_map_fst {data written : List UInt8} {idx : UInt32} {bytes : List UInt8}
    (wrote : (index.writeBytes data idx bytes).map Prod.fst = .ok written) :
    written.length = data.length := by
  cases result : index.writeBytes data idx bytes with
  | error fault =>
      rw [result] at wrote
      cases wrote
  | ok next =>
      rw [result] at wrote
      cases wrote
      exact length_of_writeBytes result

theorem length_of_encryptInto {inData before after : List UInt8} {returned : Bool}
    (done : encryptInto crypt inData before = .ok (returned, after)) :
    after.length = (before.length + (numBytes inData + 8 + 7) % 2 ^ 32 / 8 * 8) % 2 ^ 32 := by
  rw [encryptInto_eq] at done
  cases wrote : (index.writeBytes
      (resize before ((before.length + (numBytes inData + 8 + 7) % 2 ^ 32 / 8 * 8) % 2 ^ 32))
      (UInt32.ofNat before.length)
      (pairBytes (crypt.encrypt (CRYPT_MAGIC, UInt32.ofNat (numBytes inData))) ++
        (wordPairs inData).flatMap fun v => pairBytes (crypt.encrypt v))).map Prod.fst with
  | error fault =>
      rw [wrote] at done
      cases done
  | ok written =>
      rw [wrote] at done
      cases done
      rw [length_of_map_fst wrote, length_resize]

/-- What `decrypt` does: it refuses and leaves the vector, or it writes all bytes. -/
theorem decryptInto_cases (inData outData : List UInt8) :
    (decryptData crypt inData = none ∧ decryptInto crypt inData outData = .ok (false, outData)) ∨
      ∃ dataSize, dataSize ≤ numBytes (inData.drop 8) ∧
        decryptData crypt inData = some (written dataSize
          ((wordPairs (inData.drop 8)).flatMap fun v => pairBytes (crypt.decrypt v))) ∧
        decryptInto crypt inData outData =
          ((index.writeBytes (resize outData ((dataSize + outData.length) % 2 ^ 32))
            (UInt32.ofNat outData.length)
            ((wordPairs (inData.drop 8)).flatMap fun v => pairBytes (crypt.decrypt v))).map
              Prod.fst).map fun outData => (true, outData) := by
  have rest := readWords_snd inData
  rw [decryptInto, decryptData]
  rcases words : readWords inData with ⟨v, behind⟩
  rw [words] at rest
  dsimp only at rest ⊢
  subst behind
  by_cases magic : (crypt.decrypt v).1 ≠ CRYPT_MAGIC
  · rw [if_pos magic, if_pos magic]
    exact Or.inl ⟨rfl, rfl⟩
  · rw [if_neg magic, if_neg magic]
    by_cases few : numBytes (inData.drop 8) < (crypt.decrypt v).2.toNat
    · rw [if_pos few, if_pos few]
      exact Or.inl ⟨rfl, rfl⟩
    · have loop := decryptLoop_eq crypt
        (resize outData (((crypt.decrypt v).2.toNat + outData.length) % 2 ^ 32))
        (UInt32.ofNat outData.length) (wordPairs (inData.drop 8))
      rw [length_resize] at loop
      rw [if_neg few, if_neg few, loop]
      exact Or.inr ⟨_, Nat.le_of_not_lt few, rfl, by
        cases index.writeBytes _ (UInt32.ofNat outData.length)
          ((wordPairs (inData.drop 8)).flatMap fun v => pairBytes (crypt.decrypt v)) <;> rfl⟩

/-- Where no size overflows, `decrypt` appends what it gives for an empty vector. -/
theorem decryptInto_of_lt {inData outData data : List UInt8}
    (plain : decryptData crypt inData = some data)
    (small : outData.length + data.length < 2 ^ 32) :
    decryptInto crypt inData outData = .ok (true, outData ++ data) := by
  rcases decryptInto_cases crypt inData outData with ⟨none, -⟩ | ⟨dataSize, -, bytes, done⟩
  · rw [plain] at none
    cases none
  · rw [plain] at bytes
    have same := Option.some.inj bytes
    have size : data.length = dataSize := by
      rw [same, written, List.length_append, List.length_take, List.length_replicate]
      omega
    rw [size] at small
    rw [done, Nat.add_comm, Nat.mod_eq_of_lt small, writeBytes_resize small, ← same]
    rfl

theorem length_of_decryptInto {inData before after : List UInt8}
    (done : decryptInto crypt inData before = .ok (true, after)) :
    ∃ dataSize, dataSize ≤ numBytes (inData.drop 8) ∧
      after.length = (dataSize + before.length) % 2 ^ 32 := by
  rcases decryptInto_cases crypt inData before with ⟨-, refused⟩ | ⟨dataSize, few, -, run⟩
  · rw [refused] at done
    cases done
  · refine ⟨dataSize, few, ?_⟩
    rw [run] at done
    cases wrote : (index.writeBytes (resize before ((dataSize + before.length) % 2 ^ 32))
        (UInt32.ofNat before.length)
        ((wordPairs (inData.drop 8)).flatMap fun v => pairBytes (crypt.decrypt v))).map
          Prod.fst with
    | error fault =>
        rw [wrote] at done
        cases done
    | ok written =>
        rw [wrote] at done
        cases done
        rw [length_of_map_fst wrote, length_resize]

/-- `decrypt` leaves the vector where it returns false. -/
theorem decryptInto_false {inData before after : List UInt8}
    (done : decryptInto crypt inData before = .ok (false, after)) : after = before := by
  rcases decryptInto_cases crypt inData before with ⟨-, refused⟩ | ⟨dataSize, -, -, run⟩
  · rw [refused] at done
    cases done
    rfl
  · rw [run] at done
    cases wrote : (index.writeBytes (resize before ((dataSize + before.length) % 2 ^ 32))
        (UInt32.ofNat before.length)
        ((wordPairs (inData.drop 8)).flatMap fun v => pairBytes (crypt.decrypt v))).map
          Prod.fst with
    | error fault =>
        rw [wrote] at done
        cases done
    | ok written =>
        rw [wrote] at done
        cases done

end Appending

section Main

variable (crypt : Crypt)

/-- `encrypt` appends bytes from which `decrypt` appends the data. -/
def AppendsBack (data before before' : List UInt8) : Prop :=
  ∃ bytes, encryptInto crypt data before = .ok (true, before ++ bytes) ∧
    decryptInto crypt bytes before' = .ok (true, before' ++ data)

/-- `decrypt` changes nothing where it returns false. -/
def RefusalKeeps (input before : List UInt8) : Prop :=
  ∀ after, decryptInto crypt input before = .ok (false, after) → after = before

/-- Data come back from behind what was there, unless a size overflows. -/
theorem appendsBack_iff (data before before' input : List UInt8) :
    (AppendsBack crypt data before before' ∧ RefusalKeeps crypt input before') ↔
      before.length + (data.length + 15) / 8 * 8 < 2 ^ 32 ∧
        before'.length + data.length < 2 ^ 32 := by
  constructor
  · rintro ⟨⟨bytes, enciphered, deciphered⟩, -⟩
    have outSize := length_of_encryptInto crypt enciphered
    obtain ⟨dataSize, few, backSize⟩ := length_of_decryptInto crypt deciphered
    rw [List.length_append] at outSize backSize
    have counted : numBytes data = data.length := numBytes_eq (by omega)
    have fewer : numBytes (bytes.drop 8) ≤ bytes.length - 8 := by
      rw [numBytes, List.length_drop]
      exact Nat.mod_le _ _
    rw [counted] at outSize
    omega
  · rintro ⟨room, room'⟩
    have counted : numBytes data = data.length := numBytes_eq (by omega)
    have small : numBytes data + 15 < 2 ^ 32 := by omega
    have plain := decryptData_encryptData crypt small
    rw [counted, List.take_length] at plain
    refine ⟨⟨encryptData crypt data, ?_, decryptInto_of_lt crypt plain room'⟩,
      fun after => decryptInto_false crypt⟩
    apply encryptInto_of_lt
    rw [counted]
    omega

/-- Nothing is appended to a vector of 2³² bytes. -/
theorem encryptInto_large_vector_is_cut :
    ¬ ∀ (crypt : Crypt) (data before before' input : List UInt8),
      AppendsBack crypt data before before' ∧ RefusalKeeps crypt input before' := by
  intro every
  obtain ⟨⟨bytes, enciphered, -⟩, -⟩ := every ⟨fun _ => 0⟩ [] (List.replicate (2 ^ 32) 0) [] []
  have size := length_of_encryptInto _ enciphered
  rw [List.length_append, List.length_replicate] at size
  omega

end Main

end Crypt

end OpenMplane
