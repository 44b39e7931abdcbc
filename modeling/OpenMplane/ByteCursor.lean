import OpenMplane.ByteTransfer
import OpenMplane.TerminatedStrings

/-!
# Places in a container of bytes

The template loops of `ByteTransfer` take a byte after the other from a place in a
container and move the place.  There are two kinds of places: an unsigned index,
which is compared with the size, and an iterator, which is compared with the end.
Both are cursors here, and each loop is written once for all cursors, with the shifts
of the type it computes in.  An access outside the container is an error.
-/

namespace OpenMplane

/-- What can go wrong in a call. -/
inductive Fault
  | access
  | logic_error
  | endless
  deriving DecidableEq

/-- A kind of place: its offset, the test that the loops make with the size of the
container, and its increment. -/
structure ByteCursor (Place : Type) where
  offset : Place → Nat
  more : Nat → Place → Bool
  next : Place → Place

namespace ByteCursor

/-- `unsigned& idx`. -/
def index : ByteCursor UInt32 where
  offset idx := idx.toNat
  more size idx := decide (idx.toNat < size)
  next idx := idx + 1

/-- `ByteConstIter& dataStart`, counted from the start of the container. -/
def iterator : ByteCursor Nat where
  offset dataStart := dataStart
  more size dataStart := decide (dataStart ≠ size)
  next dataStart := dataStart + 1

/-- `data[idx]`. -/
def fetch (data : List UInt8) (offset : Nat) : Except Fault UInt8 :=
  match data[offset]? with
  | some byte => .ok byte
  | none => .error .access

/-- `data[idx] = byte`. -/
def store (data : List UInt8) (offset : Nat) (byte : UInt8) : Except Fault (List UInt8) :=
  if offset < data.length then .ok (data.set offset byte) else .error .access

section Loops

variable {Place : Type} (cursor : ByteCursor Place) {width : Nat}

/-- The loop of `readVal`, with the rounds that are left. -/
def readValLoop (data : List UInt8) :
    Nat → Place → BitVec width → Except Fault (BitVec width × Place)
  | 0, place, val => .ok (val, place)
  | left + 1, place, val =>
      if cursor.more data.length place then do
        let byte ← fetch data (cursor.offset place)
        readValLoop data left (cursor.next place)
          (val ||| byte.toBitVec.setWidth width <<< (left * 8))
      else
        .ok (val, place)

/-- `readVal<T, N>` for a type `T` of this width. -/
def readVal (width count : Nat) (data : List UInt8) (place : Place) :
    Except Fault (BitVec width × Place) :=
  cursor.readValLoop data count place (BitVec.ofNat width 0)

/-- The loop of `readValLE`, with the rounds that are left; a byte is shifted as an
`int`. -/
def readValLELoop (data : List UInt8) :
    Nat → Nat → Place → BitVec width → Except Fault (BitVec width × Place)
  | 0, _, place, val => .ok (val, place)
  | left + 1, byteCount, place, val =>
      if cursor.more data.length place then do
        let byte ← fetch data (cursor.offset place)
        readValLELoop data left (byteCount + 1) (cursor.next place)
          (val ||| (byte.toBitVec.setWidth 32 <<< (byteCount * 8)).signExtend width)
      else
        .ok (val, place)

/-- `readValLE<T, N>`. -/
def readValLE (width count : Nat) (data : List UInt8) (place : Place) :
    Except Fault (BitVec width × Place) :=
  cursor.readValLELoop data count 0 place (BitVec.ofNat width 0)

/-- The loop of `writeVal`. -/
def writeValLoop (val : BitVec width) :
    Nat → List UInt8 → Place → Except Fault (List UInt8 × Place)
  | 0, data, place => .ok (data, place)
  | left + 1, data, place =>
      if cursor.more data.length place then do
        let data ← store data (cursor.offset place)
          (UInt8.ofBitVec (((val >>> (left * 8)) &&& 0xff).setWidth 8))
        writeValLoop val left data (cursor.next place)
      else
        .ok (data, place)

/-- `writeVal<T, N>`. -/
def writeVal (count : Nat) (data : List UInt8) (place : Place) (val : BitVec width) :
    Except Fault (List UInt8 × Place) :=
  cursor.writeValLoop val count data place

/-- The loop of `writeValLE`. -/
def writeValLELoop (val : BitVec width) :
    Nat → Nat → List UInt8 → Place → Except Fault (List UInt8 × Place)
  | 0, _, data, place => .ok (data, place)
  | left + 1, byteCount, data, place =>
      if cursor.more data.length place then do
        let data ← store data (cursor.offset place)
          (UInt8.ofBitVec (((val >>> (byteCount * 8)) &&& 0xff).setWidth 8))
        writeValLELoop val left (byteCount + 1) data (cursor.next place)
      else
        .ok (data, place)

/-- `writeValLE<T, N>`. -/
def writeValLE (count : Nat) (data : List UInt8) (place : Place) (val : BitVec width) :
    Except Fault (List UInt8 × Place) :=
  cursor.writeValLELoop val count 0 data place

def readByte (data : List UInt8) (place : Place) : Except Fault (UInt8 × Place) :=
  if cursor.more data.length place then do
    let byte ← fetch data (cursor.offset place)
    .ok (byte, cursor.next place)
  else
    .ok (0, place)

def writeByte (data : List UInt8) (place : Place) (byteval : UInt8) :
    Except Fault (List UInt8 × Place) :=
  if cursor.more data.length place then do
    let data ← store data (cursor.offset place) byteval
    .ok (data, cursor.next place)
  else
    .ok (data, place)

def readShort (data : List UInt8) (place : Place) : Except Fault (BitVec 16 × Place) :=
  cursor.readVal 16 2 data place

def readShortLE (data : List UInt8) (place : Place) : Except Fault (BitVec 16 × Place) :=
  cursor.readValLE 16 2 data place

def read24bit (data : List UInt8) (place : Place) : Except Fault (BitVec 32 × Place) :=
  cursor.readVal 32 3 data place

def read24bitLE (data : List UInt8) (place : Place) : Except Fault (BitVec 32 × Place) :=
  cursor.readValLE 32 3 data place

def readWord (data : List UInt8) (place : Place) : Except Fault (BitVec 32 × Place) :=
  cursor.readVal 32 4 data place

def readWordLE (data : List UInt8) (place : Place) : Except Fault (BitVec 32 × Place) :=
  cursor.readValLE 32 4 data place

def read64bit (data : List UInt8) (place : Place) : Except Fault (BitVec 64 × Place) :=
  cursor.readVal 64 8 data place

def writeShort (data : List UInt8) (place : Place) (shortval : BitVec 16) :
    Except Fault (List UInt8 × Place) :=
  cursor.writeVal 2 data place shortval

def writeShortLE (data : List UInt8) (place : Place) (shortval : BitVec 16) :
    Except Fault (List UInt8 × Place) :=
  cursor.writeValLE 2 data place shortval

def write24bit (data : List UInt8) (place : Place) (word : BitVec 32) :
    Except Fault (List UInt8 × Place) :=
  cursor.writeVal 3 data place word

def write24bitLE (data : List UInt8) (place : Place) (word : BitVec 32) :
    Except Fault (List UInt8 × Place) :=
  cursor.writeValLE 3 data place word

def writeWord (data : List UInt8) (place : Place) (word : BitVec 32) :
    Except Fault (List UInt8 × Place) :=
  cursor.writeVal 4 data place word

def writeWordLE (data : List UInt8) (place : Place) (word : BitVec 32) :
    Except Fault (List UInt8 × Place) :=
  cursor.writeValLE 4 data place word

def write64bit (data : List UInt8) (place : Place) (word : BitVec 64) :
    Except Fault (List UInt8 × Place) :=
  cursor.writeVal 8 data place word

/-- The loop of `readString` on a vector. -/
def readStringLoop (data : List UInt8) :
    Nat → Place → List UInt8 → Except Fault (List UInt8 × Place)
  | 0, _, _ => .error .endless
  | rounds + 1, place, str => do
      let (cc, place) ← cursor.readByte data place
      if cc ≠ 0 then
        readStringLoop data rounds place (str ++ [cc])
      else
        .ok (str, place)

/-- `readString` on a vector.  After more rounds than there are bytes the place has
been wherever it can be, and the loop does not end. -/
def readString (data : List UInt8) (place : Place) : Except Fault (List UInt8 × Place) :=
  cursor.readStringLoop data (data.length + 1) place []

/-- The loop of `readString` on a string. -/
def readCharsLoop (data : List UInt8) :
    Nat → Place → List UInt8 → Except Fault (List UInt8 × Place)
  | 0, place, str => .ok (str, place)
  | num + 1, place, str =>
      if cursor.more data.length place then do
        let (cc, place) ← cursor.readByte data place
        readCharsLoop data num place (str ++ [cc])
      else
        .ok (str, place)

/-- `readString` of a number of characters of a string; the null pointer that it
returns at the end is no string. -/
def readChars (num : UInt32) (data : List UInt8) (place : Place) :
    Except Fault (List UInt8 × Place) :=
  if cursor.more data.length place then
    cursor.readCharsLoop data num.toNat place []
  else
    .error .logic_error

def writeBytes (data : List UInt8) (place : Place) :
    List UInt8 → Except Fault (List UInt8 × Place)
  | [] => .ok (data, place)
  | byte :: bytes => do
      let (data, place) ← cursor.writeByte data place byte
      writeBytes data place bytes

def writeString (data : List UInt8) (place : Place) (str : List UInt8) :
    Except Fault (List UInt8 × Place) := do
  let (data, place) ← cursor.writeBytes data place str
  cursor.writeByte data place 0

end Loops

section Bytes

theorem fetch_of_lt {data : List UInt8} {offset : Nat} (inside : offset < data.length) :
    fetch data offset = .ok (data[offset]) := by
  rw [fetch, List.getElem?_eq_getElem inside]

theorem store_of_lt {data : List UInt8} {offset : Nat} (inside : offset < data.length)
    (byte : UInt8) : store data offset byte = .ok (data.set offset byte) :=
  if_pos inside

theorem two_pow_mul_eight (count : Nat) : 2 ^ (count * 8) = 256 ^ count := by
  have byte : 256 = 2 ^ 8 := rfl
  rw [byte, ← Nat.pow_mul, Nat.mul_comm]

theorem toNat_setWidth_shiftLeft (byte : UInt8) {width count : Nat}
    (fits : 256 ^ (count + 1) ≤ 2 ^ width) :
    (byte.toBitVec.setWidth width <<< (count * 8)).toNat = byte.toNat * 256 ^ count := by
  have positive : 0 < 256 ^ count := Nat.pow_pos (by decide)
  have low : byte.toNat < 256 := byte.toNat_lt
  have small : byte.toNat * 256 ^ count < 2 ^ width := by
    have product := Nat.mul_lt_mul_of_pos_right low positive
    rw [pow_succ] at fits
    omega
  have alone : byte.toNat < 2 ^ width := by
    have grow := Nat.le_mul_of_pos_right byte.toNat positive
    omega
  rw [BitVec.toNat_shiftLeft, BitVec.toNat_setWidth, UInt8.toNat_toBitVec, Nat.mod_eq_of_lt alone,
    Nat.shiftLeft_eq, two_pow_mul_eight, Nat.mod_eq_of_lt small]

/-- Bits that are apart from each other are put together by addition. -/
theorem mul_or_of_lt (high : Nat) {low count : Nat} (apart : low < 256 ^ count) :
    high * 256 ^ count ||| low = high * 256 ^ count + low := by
  rw [← two_pow_mul_eight] at apart ⊢
  rw [Nat.mul_comm, Nat.two_pow_add_eq_or_of_lt apart]

end Bytes

/-- The places of the cursor go through the offsets up to this one. -/
structure Follows {Place : Type} (cursor : ByteCursor Place) (size : Nat) (place : Nat → Place)
    (last : Nat) : Prop where
  offset : ∀ count, count ≤ last → cursor.offset (place count) = count
  more : ∀ count, count ≤ last → cursor.more size (place count) = decide (count < size)
  next : ∀ count, count < last → cursor.next (place count) = place (count + 1)

theorem follows_index (size : Nat) {last : Nat} (small : last < 2 ^ 32) :
    index.Follows size UInt32.ofNat last := by
  have number : ∀ count, count ≤ last → (UInt32.ofNat count).toNat = count := by
    intro count before
    exact UInt32.toNat_ofNat_of_lt' (Nat.lt_of_le_of_lt before small)
  constructor
  · exact number
  · intro count before
    have test : index.more size (UInt32.ofNat count) =
        decide ((UInt32.ofNat count).toNat < size) := rfl
    rw [test, number count before]
  · intro count _
    rw [UInt32.ofNat_add]
    rfl

theorem follows_iterator {size last : Nat} (inside : last ≤ size) :
    iterator.Follows size id last := by
  constructor
  · intro count _
    rfl
  · intro count before
    have same : count ≠ size ↔ count < size := by omega
    rw [iterator, id, decide_eq_decide]
    exact same
  · intro count _
    rfl

section Readers

variable {Place : Type} {cursor : ByteCursor Place} {data : List UInt8} {place : Nat → Place}
variable {last : Nat}

/-- One round of a reader, before the end of the data. -/
theorem Follows.fetch (follows : cursor.Follows data.length place last) {start : Nat}
    (inside : start < data.length) (before : start < last) :
    cursor.more data.length (place start) = true ∧
      ByteCursor.fetch data (cursor.offset (place start)) = .ok (data[start]) ∧
      cursor.next (place start) = place (start + 1) := by
  have test := follows.more start (by omega)
  have offset := follows.offset start (by omega)
  rw [decide_eq_true inside] at test
  rw [offset, fetch_of_lt inside]
  exact ⟨test, rfl, follows.next start before⟩

theorem Follows.ended (follows : cursor.Follows data.length place last) {start : Nat}
    (outside : data.length ≤ start) (before : start ≤ last) :
    cursor.more data.length (place start) = false := by
  rw [follows.more start before, decide_eq_false (by omega)]

theorem readVal_drop (left : Nat) {start : Nat} (inside : start < data.length) :
    (ByteTransfer.readVal (left + 1) (data.drop start)).1 =
      data[start].toNat * 256 ^ left + (ByteTransfer.readVal left (data.drop (start + 1))).1 := by
  rw [List.drop_eq_getElem_cons inside]
  rfl

theorem readVal_drop_length (left : Nat) {start : Nat} (outside : data.length ≤ start) :
    (ByteTransfer.readVal left (data.drop start)).1 = 0 := by
  rw [List.drop_eq_nil_of_le outside]
  cases left <;> rfl

theorem readValLoop_eq (follows : cursor.Follows data.length place last) {width left : Nat}
    {start : Nat} (inside : start ≤ data.length) (enough : min (start + left) data.length ≤ last)
    {val : BitVec width} {high : Nat} (shifted : val.toNat = high * 256 ^ left)
    (fits : (high + 1) * 256 ^ left ≤ 2 ^ width) :
    cursor.readValLoop data left (place start) val =
      .ok (BitVec.ofNat width (val.toNat + (ByteTransfer.readVal left (data.drop start)).1),
        place (min (start + left) data.length)) := by
  induction left generalizing start val high with
  | zero =>
      have here : min (start + 0) data.length = start := by omega
      have value : BitVec.ofNat width (val.toNat + (ByteTransfer.readVal 0 (data.drop start)).1) =
          val := by simp [ByteTransfer.readVal]
      rw [readValLoop, here, value]
  | succ left ih =>
      by_cases atEnd : data.length ≤ start
      · have here : min (start + (left + 1)) data.length = start := by omega
        rw [readValLoop, follows.ended atEnd (by omega), readVal_drop_length _ atEnd, here]
        simp
      · have before : start < data.length := by omega
        obtain ⟨more, byte, next⟩ := follows.fetch before (by omega)
        have there : min (start + (left + 1)) data.length =
            min (start + 1 + left) data.length := by omega
        have width' : 256 ^ (left + 1) ≤ 2 ^ width := by
          exact (Nat.le_mul_of_pos_left _ (Nat.succ_pos high)).trans fits
        have placed := toNat_setWidth_shiftLeft data[start] width'
        have sum : (val ||| data[start].toBitVec.setWidth width <<< (left * 8)).toNat =
            (high * 256 + data[start].toNat) * 256 ^ left := by
          have byteLow : data[start].toNat < 256 := data[start].toNat_lt
          have below : data[start].toNat * 256 ^ left < 256 ^ (left + 1) := by
            rw [pow_succ']
            exact Nat.mul_lt_mul_of_pos_right byteLow (Nat.pow_pos (by decide))
          rw [BitVec.toNat_or, placed, shifted, mul_or_of_lt _ below, pow_succ', ← Nat.mul_assoc,
            ← Nat.add_mul]
        have more' : (high * 256 + data[start].toNat + 1) * 256 ^ left ≤ 2 ^ width := by
          have byteLow : data[start].toNat < 256 := data[start].toNat_lt
          have digits : high * 256 + data[start].toNat + 1 ≤ (high + 1) * 256 := by omega
          have product := Nat.mul_le_mul_right (256 ^ left) digits
          rw [Nat.mul_assoc, ← pow_succ'] at product
          exact product.trans fits
        have total : (high * 256 + data[start].toNat) * 256 ^ left =
            val.toNat + data[start].toNat * 256 ^ left := by
          rw [shifted, pow_succ', ← Nat.mul_assoc, ← Nat.add_mul]
        rw [readValLoop, more, byte, next, there]
        have rest := ih before (by omega) sum more'
        rw [sum, total, Nat.add_assoc, ← readVal_drop left before] at rest
        exact rest

theorem readVal_eq (follows : cursor.Follows data.length place last) {width count : Nat}
    {start : Nat} (inside : start ≤ data.length) (enough : min (start + count) data.length ≤ last)
    (fits : 256 ^ count ≤ 2 ^ width) :
    cursor.readVal width count data (place start) =
      .ok (BitVec.ofNat width (ByteTransfer.readVal count (data.drop start)).1,
        place (min (start + count) data.length)) := by
  have zero : (BitVec.ofNat width 0).toNat = 0 * 256 ^ count := by simp
  have one : (0 + 1) * 256 ^ count ≤ 2 ^ width := by omega
  rw [readVal, readValLoop_eq follows inside enough zero one, zero, Nat.zero_mul, Nat.zero_add]

theorem readValLE_drop (left : Nat) {start : Nat} (inside : start < data.length) :
    (ByteTransfer.readValLE (left + 1) (data.drop start)).1 =
      data[start].toNat + 256 * (ByteTransfer.readValLE left (data.drop (start + 1))).1 := by
  rw [List.drop_eq_getElem_cons inside]
  rfl

theorem readValLE_drop_length (left : Nat) {start : Nat} (outside : data.length ≤ start) :
    (ByteTransfer.readValLE left (data.drop start)).1 = 0 := by
  rw [List.drop_eq_nil_of_le outside]
  cases left <;> rfl

theorem readValLELoop_eq (follows : cursor.Follows data.length place last)
    {width left byteCount start : Nat} (inside : start ≤ data.length)
    (enough : min (start + left) data.length ≤ last) {val : BitVec width}
    (low : val.toNat < 256 ^ byteCount) (narrow : width ≤ 32)
    (fits : 256 ^ (byteCount + left) ≤ 2 ^ width) :
    cursor.readValLELoop data left byteCount (place start) val =
      .ok (BitVec.ofNat width
          (val.toNat + 256 ^ byteCount * (ByteTransfer.readValLE left (data.drop start)).1),
        place (min (start + left) data.length)) := by
  induction left generalizing start val byteCount with
  | zero =>
      have here : min (start + 0) data.length = start := by omega
      rw [readValLELoop, here]
      simp [ByteTransfer.readValLE]
  | succ left ih =>
      by_cases atEnd : data.length ≤ start
      · have here : min (start + (left + 1)) data.length = start := by omega
        rw [readValLELoop, follows.ended atEnd (by omega), readValLE_drop_length _ atEnd, here]
        simp
      · have before : start < data.length := by omega
        obtain ⟨more, byte, next⟩ := follows.fetch before (by omega)
        have there : min (start + (left + 1)) data.length =
            min (start + 1 + left) data.length := by omega
        have grow : 256 ^ (byteCount + 1) ≤ 256 ^ (byteCount + (left + 1)) :=
          Nat.pow_le_pow_right (by decide) (by omega)
        have wide : 256 ^ (byteCount + 1) ≤ 2 ^ 32 :=
          (grow.trans fits).trans (Nat.pow_le_pow_right (by decide) narrow)
        have placed : ((data[start].toBitVec.setWidth 32 <<< (byteCount * 8)).signExtend
            width).toNat = data[start].toNat * 256 ^ byteCount := by
          have inInt := toNat_setWidth_shiftLeft data[start] wide
          have byteLow : data[start].toNat < 256 := data[start].toNat_lt
          have below : data[start].toNat * 256 ^ byteCount < 256 ^ (byteCount + 1) := by
            rw [pow_succ']
            exact Nat.mul_lt_mul_of_pos_right byteLow (Nat.pow_pos (by decide))
          rw [BitVec.signExtend_eq_setWidth_of_le _ narrow, BitVec.toNat_setWidth, inInt,
            Nat.mod_eq_of_lt (Nat.lt_of_lt_of_le below (grow.trans fits))]
        have sum : (val ||| (data[start].toBitVec.setWidth 32 <<< (byteCount * 8)).signExtend
            width).toNat = data[start].toNat * 256 ^ byteCount + val.toNat := by
          rw [BitVec.toNat_or, placed, Nat.or_comm, mul_or_of_lt _ low]
        have low' : data[start].toNat * 256 ^ byteCount + val.toNat < 256 ^ (byteCount + 1) := by
          have byteLow : data[start].toNat + 1 ≤ 256 := data[start].toNat_lt
          have product := Nat.mul_le_mul_right (256 ^ byteCount) byteLow
          rw [pow_succ']
          rw [Nat.add_mul] at product
          omega
        have fits' : 256 ^ (byteCount + 1 + left) ≤ 2 ^ width := by
          have same : byteCount + 1 + left = byteCount + (left + 1) := by omega
          rw [same]
          exact fits
        have total : ∀ high, data[start].toNat * 256 ^ byteCount + val.toNat +
            256 ^ (byteCount + 1) * high =
              val.toNat + 256 ^ byteCount * (data[start].toNat + 256 * high) := by
          intro high
          rw [Nat.mul_add, pow_succ, ← Nat.mul_assoc, Nat.mul_comm (data[start].toNat)]
          omega
        have rest := ih before (by omega) (sum ▸ low') fits'
        rw [sum, total, ← readValLE_drop left before] at rest
        rw [readValLELoop, more, byte, next, there]
        exact rest

theorem readValLE_eq (follows : cursor.Follows data.length place last) {width count : Nat}
    {start : Nat} (inside : start ≤ data.length) (enough : min (start + count) data.length ≤ last)
    (narrow : width ≤ 32) (fits : 256 ^ count ≤ 2 ^ width) :
    cursor.readValLE width count data (place start) =
      .ok (BitVec.ofNat width (ByteTransfer.readValLE count (data.drop start)).1,
        place (min (start + count) data.length)) := by
  have zero : (BitVec.ofNat width 0).toNat = 0 := by simp
  have low : (BitVec.ofNat width 0).toNat < 256 ^ 0 := by simp
  have all : 256 ^ (0 + count) ≤ 2 ^ width := by rwa [Nat.zero_add]
  rw [readValLE, readValLELoop_eq follows inside enough low narrow all, zero, pow_zero,
    Nat.zero_add, Nat.one_mul]

theorem readByte_eq (follows : cursor.Follows data.length place last) {start : Nat}
    (inside : start < data.length) (before : start < last) :
    cursor.readByte data (place start) = .ok (data[start], place (start + 1)) := by
  obtain ⟨more, byte, next⟩ := follows.fetch inside before
  rw [readByte, more, byte, next]
  rfl

theorem readByte_of_ended {place : Place} (ended : cursor.more data.length place = false) :
    cursor.readByte data place = .ok (0, place) := by
  rw [readByte, ended]
  rfl

theorem readStringLoop_eq (follows : cursor.Follows data.length place last) {rounds start : Nat}
    (inside : start ≤ data.length) (turns : data.length < start + rounds)
    (enough : data.length - (TerminatedStrings.readString 0 (data.drop start)).2.length ≤ last)
    (str : List UInt8) :
    cursor.readStringLoop data rounds (place start) str =
      .ok (str ++ (TerminatedStrings.readString 0 (data.drop start)).1,
        place (data.length - (TerminatedStrings.readString 0 (data.drop start)).2.length)) := by
  induction rounds generalizing start str with
  | zero => omega
  | succ rounds ih =>
      by_cases atEnd : data.length ≤ start
      · have here : start = data.length := by omega
        have none : data.drop start = [] := List.drop_eq_nil_of_le atEnd
        rw [none] at enough ⊢
        have ended := follows.ended atEnd (here ▸ enough)
        rw [readStringLoop, readByte_of_ended ended]
        simp [TerminatedStrings.readString, here]
        rfl
      · have before : start < data.length := by omega
        have rest := @TerminatedStrings.length_readString_le UInt8 _ 0 (data.drop (start + 1))
        rw [List.length_drop] at rest
        rw [List.drop_eq_getElem_cons before, TerminatedStrings.readString] at enough ⊢
        rw [readStringLoop]
        by_cases terminator : data[start] = 0
        · have there : data.length - (data.drop (start + 1)).length = start + 1 := by
            rw [List.length_drop]
            omega
          rw [if_pos terminator] at enough ⊢
          rw [there] at enough ⊢
          rw [readByte_eq follows before enough, List.append_nil]
          simp [bind, Except.bind, terminator]
        · rw [if_neg terminator] at enough ⊢
          dsimp only at enough ⊢
          have more := ih before (by omega) enough (str ++ [data[start]])
          rw [readByte_eq follows before (by omega), ← List.append_cons] at *
          simp [bind, Except.bind, terminator, more]

theorem readString_eq (follows : cursor.Follows data.length place last) {start : Nat}
    (inside : start ≤ data.length)
    (enough : data.length - (TerminatedStrings.readString 0 (data.drop start)).2.length ≤ last) :
    cursor.readString data (place start) =
      .ok ((TerminatedStrings.readString 0 (data.drop start)).1,
        place (data.length - (TerminatedStrings.readString 0 (data.drop start)).2.length)) := by
  rw [readString, readStringLoop_eq follows inside (by omega) enough, List.nil_append]

theorem readCharsLoop_eq (follows : cursor.Follows data.length place last) {num start : Nat}
    (inside : start ≤ data.length) (enough : min (start + num) data.length ≤ last)
    (str : List UInt8) :
    cursor.readCharsLoop data num (place start) str =
      .ok (str ++ (data.drop start).take num, place (min (start + num) data.length)) := by
  induction num generalizing start str with
  | zero =>
      have here : min (start + 0) data.length = start := by omega
      rw [readCharsLoop, here, List.take_zero, List.append_nil]
  | succ num ih =>
      rw [readCharsLoop]
      by_cases atEnd : data.length ≤ start
      · have here : min (start + (num + 1)) data.length = start := by omega
        rw [follows.ended atEnd (by omega), List.drop_eq_nil_of_le atEnd, here]
        simp
      · have before : start < data.length := by omega
        have there : min (start + (num + 1)) data.length = min (start + 1 + num) data.length := by
          omega
        have rest := ih before (by omega) (str ++ [data[start]])
        rw [(follows.fetch before (by omega)).1, readByte_eq follows before (by omega), there,
          List.drop_eq_getElem_cons before, List.take_succ_cons, List.append_cons]
        exact rest

end Readers

section Writers

variable {Place : Type} {cursor : ByteCursor Place}

theorem writeByte_of_ended {data : List UInt8} {place : Place}
    (ended : cursor.more data.length place = false) (byteval : UInt8) :
    cursor.writeByte data place byteval = .ok (data, place) := by
  rw [writeByte, ended]
  rfl

theorem writeBytes_of_ended {data : List UInt8} {place : Place}
    (ended : cursor.more data.length place = false) (bytes : List UInt8) :
    cursor.writeBytes data place bytes = .ok (data, place) := by
  induction bytes with
  | nil => rfl
  | cons byte bytes ih =>
      rw [writeBytes, writeByte_of_ended ended]
      exact ih

/-- The byte that is cut out of a number. -/
theorem ofBitVec_setWidth {width : Nat} (wide : 8 ≤ width) (val : BitVec width) (count : Nat) :
    UInt8.ofBitVec (((val >>> (count * 8)) &&& 0xff).setWidth 8) =
      UInt8.ofNat (val.toNat / 256 ^ count) := by
  have grow : 2 ^ 8 ≤ 2 ^ width := Nat.pow_le_pow_right (by decide) wide
  have mask : (0xff : BitVec width).toNat = 255 :=
    (BitVec.toNat_ofNat 255 width).trans (Nat.mod_eq_of_lt (by omega))
  have ones : 255 = 2 ^ 8 - 1 := rfl
  apply UInt8.toNat.inj
  rw [UInt8.toNat_ofBitVec, BitVec.toNat_setWidth, BitVec.toNat_and, BitVec.toNat_ushiftRight,
    mask, ones, Nat.and_two_pow_sub_one_eq_mod, Nat.mod_mod,
    Nat.shiftRight_eq_div_pow, two_pow_mul_eight, UInt8.toNat_ofNat']

theorem writeValLoop_eq_writeBytes {width : Nat} (wide : 8 ≤ width) (val : BitVec width)
    (left : Nat) (data : List UInt8) (place : Place) :
    cursor.writeValLoop val left data place =
      cursor.writeBytes data place (ByteTransfer.valBytes left val.toNat) := by
  induction left generalizing data place with
  | zero => rfl
  | succ left ih =>
      rw [writeValLoop, ofBitVec_setWidth wide, ByteTransfer.valBytes, writeBytes]
      by_cases more : cursor.more data.length place
      · rw [if_pos more, writeByte, if_pos more]
        cases store data (cursor.offset place) (UInt8.ofNat (val.toNat / 256 ^ left)) with
        | error fault => rfl
        | ok data => exact ih data _
      · have ended := (Bool.not_eq_true _).mp more
        rw [if_neg more, writeByte_of_ended ended]
        exact (writeBytes_of_ended ended _).symm

theorem writeValLELoop_eq_writeBytes {width : Nat} (wide : 8 ≤ width) (val : BitVec width)
    (left byteCount : Nat) (data : List UInt8) (place : Place) :
    cursor.writeValLELoop val left byteCount data place =
      cursor.writeBytes data place
        (ByteTransfer.valBytesLE left (val.toNat / 256 ^ byteCount)) := by
  induction left generalizing byteCount data place with
  | zero => rfl
  | succ left ih =>
      rw [writeValLELoop, ofBitVec_setWidth wide, ByteTransfer.valBytesLE, writeBytes,
        Nat.div_div_eq_div_mul, ← pow_succ]
      by_cases more : cursor.more data.length place
      · rw [if_pos more, writeByte, if_pos more]
        cases store data (cursor.offset place) (UInt8.ofNat (val.toNat / 256 ^ byteCount)) with
        | error fault => rfl
        | ok data => exact ih (byteCount + 1) data _
      · have ended := (Bool.not_eq_true _).mp more
        rw [if_neg more, writeByte_of_ended ended]
        exact (writeBytes_of_ended ended _).symm

theorem writeBytes_append (data : List UInt8) (place : Place) (first second : List UInt8) :
    cursor.writeBytes data place (first ++ second) =
      (do
        let (data, place) ← cursor.writeBytes data place first
        cursor.writeBytes data place second) := by
  induction first generalizing data place with
  | nil => rfl
  | cons byte first ih =>
      rw [List.cons_append, writeBytes, writeBytes, bind_assoc]
      congr 1
      funext next
      exact ih next.1 next.2

theorem writeString_eq_writeBytes (data : List UInt8) (place : Place) (str : List UInt8) :
    cursor.writeString data place str = cursor.writeBytes data place (str ++ [0]) := by
  rw [writeString, writeBytes_append]
  congr 1
  funext next
  rcases next with ⟨data, place⟩
  dsimp only
  rw [writeBytes]
  cases cursor.writeByte data place 0 <;> rfl

/-- The data with bytes in place of what was there, as far as the data go. -/
def overwrite (data : List UInt8) (start : Nat) (bytes : List UInt8) : List UInt8 :=
  data.take start ++ bytes.take (data.length - start) ++ data.drop (start + bytes.length)

theorem overwrite_nil (data : List UInt8) (start : Nat) : overwrite data start [] = data := by
  simp [overwrite]

theorem overwrite_of_le {data : List UInt8} {start : Nat} (outside : data.length ≤ start)
    (bytes : List UInt8) : overwrite data start bytes = data := by
  have none : data.length - start = 0 := by omega
  rw [overwrite, none, List.take_of_length_le outside, List.drop_eq_nil_of_le (by omega)]
  simp

theorem overwrite_cons {data : List UInt8} {start : Nat} (inside : start < data.length)
    (byte : UInt8) (bytes : List UInt8) :
    overwrite data start (byte :: bytes) = overwrite (data.set start byte) (start + 1) bytes := by
  have room : data.length - start = data.length - (start + 1) + 1 := by omega
  have behind : start + (byte :: bytes).length = start + 1 + bytes.length := by
    rw [List.length_cons]
    omega
  have written : (data.set start byte).take (start + 1) = data.take start ++ [byte] := by
    rw [List.take_add_one, List.take_set_of_le (Nat.le_refl start), List.getElem?_set_self inside]
    rfl
  have rest : (data.set start byte).drop (start + 1 + bytes.length) =
      data.drop (start + 1 + bytes.length) := List.drop_set_of_lt (by omega)
  rw [overwrite, overwrite, List.length_set, written, rest, behind, room, List.take_succ_cons]
  simp

@[simp] theorem length_overwrite (data : List UInt8) (start : Nat) (bytes : List UInt8) :
    (overwrite data start bytes).length = data.length := by
  simp only [overwrite, List.length_append, List.length_take, List.length_drop]
  omega

theorem writeBytes_eq {data : List UInt8} {place : Nat → Place} {last : Nat}
    (follows : cursor.Follows data.length place last) {start : Nat} {bytes : List UInt8}
    (inside : start ≤ data.length) (enough : min (start + bytes.length) data.length ≤ last) :
    cursor.writeBytes data (place start) bytes =
      .ok (overwrite data start bytes, place (min (start + bytes.length) data.length)) := by
  induction bytes generalizing data start with
  | nil =>
      have here : min (start + ([] : List UInt8).length) data.length = start := by
        rw [List.length_nil]
        omega
      rw [writeBytes, overwrite_nil, here]
  | cons byte bytes ih =>
      rw [List.length_cons] at enough ⊢
      by_cases atEnd : data.length ≤ start
      · have here : min (start + (bytes.length + 1)) data.length = start := by omega
        rw [writeBytes_of_ended (follows.ended atEnd (by omega)), overwrite_of_le atEnd, here]
      · have before : start < data.length := by omega
        obtain ⟨more, -, next⟩ := follows.fetch before (by omega)
        have there : min (start + (bytes.length + 1)) data.length =
            min (start + 1 + bytes.length) data.length := by omega
        have size : (data.set start byte).length = data.length := List.length_set
        have rest := @ih (data.set start byte) (size ▸ follows) (start + 1) (by omega) (by omega)
        rw [writeBytes, writeByte, more, follows.offset start (by omega), store_of_lt before, next,
          there, overwrite_cons before, ← size]
        exact rest

theorem length_of_writeBytes {data written : List UInt8} {start place : Place} {bytes : List UInt8}
    (wrote : cursor.writeBytes data start bytes = .ok (written, place)) :
    written.length = data.length := by
  induction bytes generalizing data start with
  | nil =>
      cases wrote
      rfl
  | cons byte bytes ih =>
      rw [writeBytes, writeByte, store] at wrote
      split at wrote
      · split at wrote
        · have size := ih wrote
          rw [size, List.length_set]
        · cases wrote
      · exact ih wrote

end Writers

end ByteCursor

end OpenMplane
