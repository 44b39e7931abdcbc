import OpenMplane.ByteCursor

/-!
# Sequences of values in a vector

Values of the kinds that `ByteTransfer` knows are appended to a vector one after the
other and read back from its start.  An index is unsigned, the size of a vector is
not: what is said here holds as long as no index overflows.
-/

namespace OpenMplane

namespace ByteTransfer

/-- A string without a terminator in it. -/
abbrev Text := { str : List UInt8 // (0 : UInt8) ∉ str }

/-- A value of one of the kinds. -/
inductive Item (Str : Type)
  | byte (val : UInt8)
  | short (val : BitVec 16)
  | shortLE (val : BitVec 16)
  | bit24 (val : BitVec 32)
  | bit24LE (val : BitVec 32)
  | word (val : BitVec 32)
  | wordLE (val : BitVec 32)
  | quad (val : BitVec 64)
  | string (str : Str)
  deriving DecidableEq

/-- What is read. -/
inductive Kind
  | byte
  | short
  | shortLE
  | bit24
  | bit24LE
  | word
  | wordLE
  | quad
  | string
  deriving DecidableEq

namespace Item

def kind {Str : Type} : Item Str → Kind
  | .byte _ => .byte
  | .short _ => .short
  | .shortLE _ => .shortLE
  | .bit24 _ => .bit24
  | .bit24LE _ => .bit24LE
  | .word _ => .word
  | .wordLE _ => .wordLE
  | .quad _ => .quad
  | .string _ => .string

/-- The bytes that a value takes. -/
def bytes : Item (List UInt8) → List UInt8
  | .byte val => [val]
  | .short val => valBytes 2 val.toNat
  | .shortLE val => valBytesLE 2 val.toNat
  | .bit24 val => valBytes 3 val.toNat
  | .bit24LE val => valBytesLE 3 val.toNat
  | .word val => valBytes 4 val.toNat
  | .wordLE val => valBytesLE 4 val.toNat
  | .quad val => valBytes 8 val.toNat
  | .string str => str ++ [0]

/-- What a value is read back as: three bytes carry 24 bits. -/
def carried : Item (List UInt8) → Item (List UInt8)
  | .bit24 val => .bit24 (BitVec.ofNat 32 (val.toNat % 2 ^ 24))
  | .bit24LE val => .bit24LE (BitVec.ofNat 32 (val.toNat % 2 ^ 24))
  | item => item

/-- The value with its string as it is written. -/
def plain : Item Text → Item (List UInt8)
  | .byte val => .byte val
  | .short val => .short val
  | .shortLE val => .shortLE val
  | .bit24 val => .bit24 val
  | .bit24LE val => .bit24LE val
  | .word val => .word val
  | .wordLE val => .wordLE val
  | .quad val => .quad val
  | .string str => .string str.val

end Item

/-- What a reader takes from the start of bytes, and what it leaves. -/
def Kind.peel : Kind → List UInt8 → Item (List UInt8) × List UInt8
  | .byte, rest => (.byte (rest.headD 0), rest.drop 1)
  | .short, rest => (.short (BitVec.ofNat 16 (readVal 2 rest).1), rest.drop 2)
  | .shortLE, rest => (.shortLE (BitVec.ofNat 16 (readValLE 2 rest).1), rest.drop 2)
  | .bit24, rest => (.bit24 (BitVec.ofNat 32 (readVal 3 rest).1), rest.drop 3)
  | .bit24LE, rest => (.bit24LE (BitVec.ofNat 32 (readValLE 3 rest).1), rest.drop 3)
  | .word, rest => (.word (BitVec.ofNat 32 (readVal 4 rest).1), rest.drop 4)
  | .wordLE, rest => (.wordLE (BitVec.ofNat 32 (readValLE 4 rest).1), rest.drop 4)
  | .quad, rest => (.quad (BitVec.ofNat 64 (readVal 8 rest).1), rest.drop 8)
  | .string, rest =>
      (.string (TerminatedStrings.readString 0 rest).1, (TerminatedStrings.readString 0 rest).2)

/-- The bytes of a number. -/
def Kind.width : Kind → Nat
  | .byte => 1
  | .short | .shortLE => 2
  | .bit24 | .bit24LE => 3
  | .word | .wordLE => 4
  | .quad => 8
  | .string => 0

/-- Bytes that are too short for the reader: a string lacks its terminator. -/
def Kind.Short : Kind → List UInt8 → Prop
  | .string, rest => (0 : UInt8) ∉ rest
  | kind, rest => rest.length < kind.width

/-- The count of bytes that a reader takes. -/
def Kind.taken (kind : Kind) (rest : List UInt8) : Nat :=
  rest.length - (kind.peel rest).2.length

end ByteTransfer

namespace ByteCursor

open ByteTransfer

section Calls

variable {Place : Type} (cursor : ByteCursor Place)

/-- The reader of a kind. -/
def read (data : List UInt8) (place : Place) :
    Kind → Except Fault (Item (List UInt8) × Place)
  | .byte => do
      let (val, place) ← cursor.readByte data place
      .ok (.byte val, place)
  | .short => do
      let (val, place) ← cursor.readShort data place
      .ok (.short val, place)
  | .shortLE => do
      let (val, place) ← cursor.readShortLE data place
      .ok (.shortLE val, place)
  | .bit24 => do
      let (val, place) ← cursor.read24bit data place
      .ok (.bit24 val, place)
  | .bit24LE => do
      let (val, place) ← cursor.read24bitLE data place
      .ok (.bit24LE val, place)
  | .word => do
      let (val, place) ← cursor.readWord data place
      .ok (.word val, place)
  | .wordLE => do
      let (val, place) ← cursor.readWordLE data place
      .ok (.wordLE val, place)
  | .quad => do
      let (val, place) ← cursor.read64bit data place
      .ok (.quad val, place)
  | .string => do
      let (str, place) ← cursor.readString data place
      .ok (.string str, place)

/-- The writer of a value. -/
def write (data : List UInt8) (place : Place) :
    Item (List UInt8) → Except Fault (List UInt8 × Place)
  | .byte val => cursor.writeByte data place val
  | .short val => cursor.writeShort data place val
  | .shortLE val => cursor.writeShortLE data place val
  | .bit24 val => cursor.write24bit data place val
  | .bit24LE val => cursor.write24bitLE data place val
  | .word val => cursor.writeWord data place val
  | .wordLE val => cursor.writeWordLE data place val
  | .quad val => cursor.write64bit data place val
  | .string str => cursor.writeString data place str

end Calls

section Append

def appendByte (data : List UInt8) (val : UInt8) : Except Fault (List UInt8) :=
  .ok (data ++ [val])

def appendShort (data : List UInt8) (val : BitVec 16) : Except Fault (List UInt8) := do
  let (data, _) ← index.writeShort (data ++ [0, 0]) (UInt32.ofNat data.length) val
  .ok data

def appendShortLE (data : List UInt8) (val : BitVec 16) : Except Fault (List UInt8) := do
  let (data, _) ← index.writeShortLE (data ++ [0, 0]) (UInt32.ofNat data.length) val
  .ok data

def append24bit (data : List UInt8) (val : BitVec 32) : Except Fault (List UInt8) := do
  let (data, _) ← index.write24bit (data ++ [0, 0, 0]) (UInt32.ofNat data.length) val
  .ok data

def append24bitLE (data : List UInt8) (val : BitVec 32) : Except Fault (List UInt8) := do
  let (data, _) ← index.write24bitLE (data ++ [0, 0, 0]) (UInt32.ofNat data.length) val
  .ok data

def appendWord (data : List UInt8) (val : BitVec 32) : Except Fault (List UInt8) := do
  let (data, _) ← index.writeWord (data ++ [0, 0, 0, 0]) (UInt32.ofNat data.length) val
  .ok data

def appendWordLE (data : List UInt8) (val : BitVec 32) : Except Fault (List UInt8) := do
  let (data, _) ← index.writeWordLE (data ++ [0, 0, 0, 0]) (UInt32.ofNat data.length) val
  .ok data

def append64bit (data : List UInt8) (val : BitVec 64) : Except Fault (List UInt8) := do
  let (data, _) ← index.write64bit (data ++ List.replicate 8 0) (UInt32.ofNat data.length) val
  .ok data

/-- `writeString` at the end of a vector that was resized for it. -/
def appendString (data : List UInt8) (str : List UInt8) : Except Fault (List UInt8) := do
  let (data, _) ← index.writeString (data ++ List.replicate (str.length + 1) 0)
    (UInt32.ofNat data.length) str
  .ok data

def append (data : List UInt8) : Item Text → Except Fault (List UInt8)
  | .byte val => appendByte data val
  | .short val => appendShort data val
  | .shortLE val => appendShortLE data val
  | .bit24 val => append24bit data val
  | .bit24LE val => append24bitLE data val
  | .word val => appendWord data val
  | .wordLE val => appendWordLE data val
  | .quad val => append64bit data val
  | .string str => appendString data str.val

def appendAll (data : List UInt8) : List (Item Text) → Except Fault (List UInt8)
  | [] => .ok data
  | item :: items => do
      let data ← append data item
      appendAll data items

def readAll (data : List UInt8) (idx : UInt32) :
    List Kind → Except Fault (List (Item (List UInt8)) × UInt32)
  | [] => .ok ([], idx)
  | kind :: kinds => do
      let (item, idx) ← index.read data idx kind
      let (items, idx) ← readAll data idx kinds
      .ok (item :: items, idx)

end Append

section Peel

/-- A value that was written is read back. -/
theorem peel_bytes (item : Item Text) (rest : List UInt8) :
    item.kind.peel (item.plain.bytes ++ rest) = (item.plain.carried, rest) := by
  have fits : ∀ {width count : Nat} (val : BitVec width), 2 ^ width = 256 ^ count →
      BitVec.ofNat width (val.toNat % 256 ^ count) = val := by
    intro width count val same
    rw [← same, Nat.mod_eq_of_lt val.isLt, BitVec.ofNat_toNat, BitVec.setWidth_eq]
  cases item with
  | byte val => rfl
  | short val =>
      rw [Item.plain, Item.bytes, Item.kind, Kind.peel, readVal_valBytes, fits val rfl,
        List.drop_left' (length_valBytes 2 _)]
      rfl
  | shortLE val =>
      rw [Item.plain, Item.bytes, Item.kind, Kind.peel, readValLE_valBytesLE, fits val rfl,
        List.drop_left' (length_valBytesLE 2 _)]
      rfl
  | bit24 val =>
      rw [Item.plain, Item.bytes, Item.kind, Kind.peel, readVal_valBytes,
        List.drop_left' (length_valBytes 3 _)]
      rfl
  | bit24LE val =>
      rw [Item.plain, Item.bytes, Item.kind, Kind.peel, readValLE_valBytesLE,
        List.drop_left' (length_valBytesLE 3 _)]
      rfl
  | word val =>
      rw [Item.plain, Item.bytes, Item.kind, Kind.peel, readVal_valBytes, fits val rfl,
        List.drop_left' (length_valBytes 4 _)]
      rfl
  | wordLE val =>
      rw [Item.plain, Item.bytes, Item.kind, Kind.peel, readValLE_valBytesLE, fits val rfl,
        List.drop_left' (length_valBytesLE 4 _)]
      rfl
  | quad val =>
      rw [Item.plain, Item.bytes, Item.kind, Kind.peel, readVal_valBytes, fits val rfl,
        List.drop_left' (length_valBytes 8 _)]
      rfl
  | string str =>
      rw [Item.plain, Item.bytes, Item.kind, Kind.peel, List.append_assoc, List.singleton_append,
        TerminatedStrings.readString_append str.property]
      rfl

theorem length_peel_le (kind : Kind) (rest : List UInt8) :
    (kind.peel rest).2.length ≤ rest.length := by
  have string := @TerminatedStrings.length_readString_le UInt8 _ 0 rest
  cases kind <;> simp only [Kind.peel, List.length_drop] <;> omega

theorem taken_eq {kind : Kind} {data : List UInt8} {start count : Nat}
    (inside : start ≤ data.length)
    (drops : (kind.peel (data.drop start)).2 = (data.drop start).drop count) :
    start + kind.taken (data.drop start) = min (start + count) data.length := by
  rw [Kind.taken, drops]
  simp only [List.length_drop]
  omega

theorem read_eq {Place : Type} {cursor : ByteCursor Place} {data : List UInt8}
    {place : Nat → Place} {last : Nat} (follows : cursor.Follows data.length place last)
    {start : Nat} (inside : start ≤ data.length) (kind : Kind)
    (enough : start + kind.taken (data.drop start) ≤ last) :
    cursor.read data (place start) kind =
      .ok ((kind.peel (data.drop start)).1, place (start + kind.taken (data.drop start))) := by
  cases kind with
  | byte =>
      rw [@taken_eq .byte data start 1 inside rfl] at enough ⊢
      rw [read]
      by_cases atEnd : data.length ≤ start
      · have here : min (start + 1) data.length = start := by omega
        rw [readByte_of_ended (follows.ended atEnd (by omega)), List.drop_eq_nil_of_le atEnd, here]
        rfl
      · have before : start < data.length := by omega
        have there : min (start + 1) data.length = start + 1 := by omega
        rw [readByte_eq follows before (by omega), List.drop_eq_getElem_cons before, there]
        rfl
  | short =>
      rw [@taken_eq .short data start 2 inside rfl] at enough ⊢
      rw [read, readShort, readVal_eq follows inside enough (by decide)]
      rfl
  | shortLE =>
      rw [@taken_eq .shortLE data start 2 inside rfl] at enough ⊢
      rw [read, readShortLE, readValLE_eq follows inside enough (by decide) (by decide)]
      rfl
  | bit24 =>
      rw [@taken_eq .bit24 data start 3 inside rfl] at enough ⊢
      rw [read, read24bit, readVal_eq follows inside enough (by decide)]
      rfl
  | bit24LE =>
      rw [@taken_eq .bit24LE data start 3 inside rfl] at enough ⊢
      rw [read, read24bitLE, readValLE_eq follows inside enough (by decide) (by decide)]
      rfl
  | word =>
      rw [@taken_eq .word data start 4 inside rfl] at enough ⊢
      rw [read, readWord, readVal_eq follows inside enough (by decide)]
      rfl
  | wordLE =>
      rw [@taken_eq .wordLE data start 4 inside rfl] at enough ⊢
      rw [read, readWordLE, readValLE_eq follows inside enough (by decide) (by decide)]
      rfl
  | quad =>
      rw [@taken_eq .quad data start 8 inside rfl] at enough ⊢
      rw [read, read64bit, readVal_eq follows inside enough (by decide)]
      rfl
  | string =>
      have left := length_peel_le .string (data.drop start)
      have there : start + Kind.string.taken (data.drop start) =
          data.length - (TerminatedStrings.readString 0 (data.drop start)).2.length := by
        rw [Kind.taken]
        rw [List.length_drop] at left ⊢
        rw [Kind.peel] at left ⊢
        dsimp only at left ⊢
        omega
      rw [there] at enough ⊢
      rw [read, readString_eq follows inside enough]
      rfl

end Peel

section Writing

variable {Place : Type} (cursor : ByteCursor Place)

theorem write_eq_writeBytes (data : List UInt8) (place : Place) (item : Item (List UInt8)) :
    cursor.write data place item = cursor.writeBytes data place item.bytes := by
  have low : ∀ {width : Nat} (val : BitVec width), val.toNat / 256 ^ 0 = val.toNat := by
    intro width val
    rw [pow_zero, Nat.div_one]
  cases item with
  | byte val =>
      rw [write, Item.bytes, writeBytes]
      cases cursor.writeByte data place val <;> rfl
  | short val => exact writeValLoop_eq_writeBytes (by decide) val 2 data place
  | shortLE val =>
      have loop := @writeValLELoop_eq_writeBytes Place cursor 16 (by decide) val 2 0 data place
      rw [low] at loop
      exact loop
  | bit24 val => exact writeValLoop_eq_writeBytes (by decide) val 3 data place
  | bit24LE val =>
      have loop := @writeValLELoop_eq_writeBytes Place cursor 32 (by decide) val 3 0 data place
      rw [low] at loop
      exact loop
  | word val => exact writeValLoop_eq_writeBytes (by decide) val 4 data place
  | wordLE val =>
      have loop := @writeValLELoop_eq_writeBytes Place cursor 32 (by decide) val 4 0 data place
      rw [low] at loop
      exact loop
  | quad val => exact writeValLoop_eq_writeBytes (by decide) val 8 data place
  | string str => exact writeString_eq_writeBytes data place str

end Writing

section Sequences

/-- A single byte is pushed, every other value is written at the old size into the room
that was made for it. -/
theorem append_cases (data : List UInt8) (item : Item Text) :
    (∃ val, item = .byte val) ∨
      append data item =
        (do
          let (data, _) ← index.writeBytes (data ++ List.replicate item.plain.bytes.length 0)
            (UInt32.ofNat data.length) item.plain.bytes
          .ok data) := by
  rw [← write_eq_writeBytes]
  cases item with
  | byte val => exact Or.inl ⟨val, rfl⟩
  | short val => exact Or.inr rfl
  | shortLE val => exact Or.inr rfl
  | bit24 val => exact Or.inr rfl
  | bit24LE val => exact Or.inr rfl
  | word val => exact Or.inr rfl
  | wordLE val => exact Or.inr rfl
  | quad val => exact Or.inr rfl
  | string str =>
      have room : (Item.string str).plain.bytes.length = str.val.length + 1 := List.length_append
      rw [append, appendString, room]
      exact Or.inr rfl

/-- Bytes written into the room behind data. -/
theorem writeBytes_room {data bytes : List UInt8} (small : data.length + bytes.length < 2 ^ 32) :
    index.writeBytes (data ++ List.replicate bytes.length 0) (UInt32.ofNat data.length) bytes =
      .ok (data ++ bytes, UInt32.ofNat (data.length + bytes.length)) := by
  have size : (data ++ List.replicate bytes.length (0 : UInt8)).length =
      data.length + bytes.length := by
    rw [List.length_append, List.length_replicate]
  have follows := follows_index (data ++ List.replicate bytes.length (0 : UInt8)).length small
  have there : min (data.length + bytes.length) (data.length + bytes.length) =
      data.length + bytes.length := Nat.min_self _
  have wrote := @writeBytes_eq _ _ _ _ _ follows data.length bytes (by omega)
    (by rw [size, there])
  have room : data.length + bytes.length - data.length = bytes.length := by omega
  have none : (data ++ List.replicate bytes.length (0 : UInt8)).drop
      (data.length + bytes.length) = [] := List.drop_eq_nil_of_le (by omega)
  rw [wrote, overwrite, size, room, there, none, List.take_left, List.take_length,
    List.append_nil]

theorem append_eq {data : List UInt8} {item : Item Text}
    (small : data.length + item.plain.bytes.length < 2 ^ 32) :
    append data item = .ok (data ++ item.plain.bytes) := by
  rcases append_cases data item with ⟨val, rfl⟩ | wrote
  · rfl
  · rw [wrote, writeBytes_room small]
    rfl

theorem length_of_append {data appended : List UInt8} {item : Item Text}
    (done : append data item = .ok appended) :
    appended.length = data.length + item.plain.bytes.length := by
  rcases append_cases data item with ⟨val, rfl⟩ | wrote
  · cases done
    exact List.length_append
  · rw [wrote] at done
    cases result : index.writeBytes (data ++ List.replicate item.plain.bytes.length 0)
        (UInt32.ofNat data.length) item.plain.bytes with
    | error fault =>
        rw [result] at done
        cases done
    | ok written =>
        have size := length_of_writeBytes result
        rw [result] at done
        cases done
        rw [size, List.length_append, List.length_replicate]

/-- The bytes of all values. -/
def allBytes (items : List (Item Text)) : List UInt8 :=
  items.flatMap fun item => item.plain.bytes

theorem appendAll_eq {items : List (Item Text)} {data : List UInt8}
    (small : data.length + (allBytes items).length < 2 ^ 32) :
    appendAll data items = .ok (data ++ allBytes items) := by
  induction items generalizing data with
  | nil => rw [appendAll, allBytes, List.flatMap_nil, List.append_nil]
  | cons item items ih =>
      have split : allBytes (item :: items) = item.plain.bytes ++ allBytes items :=
        List.flatMap_cons
      rw [split, List.length_append] at small
      have rest := @ih (data ++ item.plain.bytes) (by rw [List.length_append]; omega)
      rw [appendAll, append_eq (by omega), split, ← List.append_assoc]
      exact rest

theorem length_of_appendAll {items : List (Item Text)} {data appended : List UInt8}
    (done : appendAll data items = .ok appended) :
    appended.length = data.length + (allBytes items).length := by
  induction items generalizing data with
  | nil =>
      cases done
      rfl
  | cons item items ih =>
      have split : allBytes (item :: items) = item.plain.bytes ++ allBytes items :=
        List.flatMap_cons
      rw [appendAll] at done
      cases first : append data item with
      | error fault =>
          rw [first] at done
          cases done
      | ok next =>
          rw [first] at done
          rw [ih done, length_of_append first, split, List.length_append]
          omega

/-- What was appended is read back, kind by kind. -/
theorem readAll_eq {items : List (Item Text)} {before : List UInt8}
    (small : before.length + (allBytes items).length < 2 ^ 32) :
    readAll (before ++ allBytes items) (UInt32.ofNat before.length) (items.map Item.kind) =
      .ok (items.map fun item => item.plain.carried,
        UInt32.ofNat (before.length + (allBytes items).length)) := by
  induction items generalizing before with
  | nil => rfl
  | cons item items ih =>
      have split : allBytes (item :: items) = item.plain.bytes ++ allBytes items :=
        List.flatMap_cons
      have follows := follows_index (before ++ allBytes (item :: items)).length small
      have inside : before.length ≤ (before ++ allBytes (item :: items)).length := by
        rw [List.length_append]
        omega
      have behind : (before ++ allBytes (item :: items)).drop before.length =
          item.plain.bytes ++ allBytes items := by
        rw [List.drop_left, split]
      have peeled := peel_bytes item (allBytes items)
      have taken : item.kind.taken (item.plain.bytes ++ allBytes items) =
          item.plain.bytes.length := by
        rw [Kind.taken, peeled, List.length_append]
        dsimp only
        omega
      rw [split, List.length_append] at small
      have step := read_eq follows inside item.kind
        (by rw [behind, taken, split, List.length_append]; omega)
      rw [behind, taken, peeled] at step
      have rest := @ih (before ++ item.plain.bytes) (by rw [List.length_append]; omega)
      rw [List.length_append, List.append_assoc, ← split] at rest
      have total : before.length + item.plain.bytes.length + (allBytes items).length =
          before.length + (allBytes (item :: items)).length := by
        rw [split, List.length_append]
        omega
      rw [total] at rest
      rw [List.map_cons, List.map_cons, readAll, step]
      simp only [bind, Except.bind, rest]

end Sequences

section Short

/-- A call that reads or writes at a place; `readChars` is the `readString` that takes
a number of characters. -/
inductive Access
  | read (kind : Kind)
  | write (item : Item (List UInt8))
  | readChars (num : UInt32)

/-- The place after the call. -/
def Access.run {Place : Type} (cursor : ByteCursor Place) (data : List UInt8) (place : Place) :
    Access → Except Fault Place
  | .read kind => do
      let (_, place) ← cursor.read data place kind
      .ok place
  | .write item => do
      let (_, place) ← cursor.write data place item
      .ok place
  | .readChars num => do
      let (_, place) ← cursor.readChars num data place
      .ok place

/-- The bytes from the place on are too short for the call. -/
def Access.Short : Access → List UInt8 → Prop
  | .read kind, rest => kind.Short rest
  | .write item, rest => rest.length < item.bytes.length
  | .readChars num, rest => rest.length < num.toNat

/-- The reader of characters has no overload for iterators. -/
def Access.HasIterator : Access → Prop
  | .readChars _ => False
  | _ => True

theorem taken_of_short {kind : Kind} {rest : List UInt8} (short : kind.Short rest) :
    kind.taken rest = rest.length := by
  have empty : (kind.peel rest).2 = [] := by
    cases kind with
    | string =>
        rw [Kind.peel, TerminatedStrings.readString_end short]
    | _ =>
        have few : rest.length < _ := short
        exact List.drop_eq_nil_of_le (Nat.le_of_lt few)
  rw [Kind.taken, empty, List.length_nil, Nat.sub_zero]

variable {Place : Type} {cursor : ByteCursor Place}

/-- A call on too few bytes stops at the size. -/
theorem run_short {data : List UInt8} {place : Nat → Place}
    (follows : cursor.Follows data.length place data.length) {start : Nat}
    (inside : start ≤ data.length) {access : Access} (short : access.Short (data.drop start))
    (some : access.HasIterator ∨ start < data.length) :
    access.run cursor data (place start) = .ok (place data.length) := by
  cases access with
  | read kind =>
      have all : start + kind.taken (data.drop start) = data.length := by
        rw [taken_of_short short, List.length_drop]
        omega
      rw [Access.run, read_eq follows inside kind (by omega), all]
      rfl
  | write item =>
      have few : (data.drop start).length < item.bytes.length := short
      rw [List.length_drop] at few
      have all : min (start + item.bytes.length) data.length = data.length := by omega
      rw [Access.run, write_eq_writeBytes, writeBytes_eq follows inside (by omega), all]
      rfl
  | readChars num =>
      have few : (data.drop start).length < num.toNat := short
      rw [List.length_drop] at few
      have all : min (start + num.toNat) data.length = data.length := by omega
      rcases some with never | before
      · exact absurd never id
      · have more := follows.more start inside
        rw [decide_eq_true before] at more
        rw [Access.run, readChars, more, if_pos rfl,
          readCharsLoop_eq follows inside (by omega), all]
        rfl

theorem readVal_of_ended {data : List UInt8} {place : Place} {width : Nat}
    (ended : cursor.more data.length place = false) (count : Nat) :
    cursor.readVal width count data place = .ok (BitVec.ofNat width 0, place) := by
  cases count with
  | zero => rfl
  | succ count =>
      rw [readVal, readValLoop, ended]
      rfl

theorem readValLE_of_ended {data : List UInt8} {place : Place} {width : Nat}
    (ended : cursor.more data.length place = false) (count : Nat) :
    cursor.readValLE width count data place = .ok (BitVec.ofNat width 0, place) := by
  cases count with
  | zero => rfl
  | succ count =>
      rw [readValLE, readValLELoop, ended]
      rfl

/-- A call behind the end does nothing. -/
theorem run_of_ended {data : List UInt8} {place : Place}
    (ended : cursor.more data.length place = false) {access : Access}
    (some : access.HasIterator) : access.run cursor data place = .ok place := by
  cases access with
  | read kind =>
      cases kind with
      | byte =>
          rw [Access.run, read, readByte_of_ended ended]
          rfl
      | short =>
          rw [Access.run, read, readShort, readVal_of_ended ended]
          rfl
      | shortLE =>
          rw [Access.run, read, readShortLE, readValLE_of_ended ended]
          rfl
      | bit24 =>
          rw [Access.run, read, read24bit, readVal_of_ended ended]
          rfl
      | bit24LE =>
          rw [Access.run, read, read24bitLE, readValLE_of_ended ended]
          rfl
      | word =>
          rw [Access.run, read, readWord, readVal_of_ended ended]
          rfl
      | wordLE =>
          rw [Access.run, read, readWordLE, readValLE_of_ended ended]
          rfl
      | quad =>
          rw [Access.run, read, read64bit, readVal_of_ended ended]
          rfl
      | string =>
          rw [Access.run, read, readString, readStringLoop, readByte_of_ended ended]
          rfl
  | write item =>
      rw [Access.run, write_eq_writeBytes, writeBytes_of_ended ended]
      rfl
  | readChars num => exact absurd some id

end Short

section Main

/-- A sequence of values is read back from index 0, up to the end. -/
def RoundTrips (items : List (Item Text)) : Prop :=
  ∃ data idx, appendAll [] items = .ok data ∧
    readAll data 0 (items.map Item.kind) = .ok (items.map fun item => item.plain.carried, idx) ∧
    idx.toNat = data.length

/-- The reader on iterators gives what the one on an index gives. -/
def SameReaders (data : List UInt8) (idx : UInt32) (kind : Kind) : Prop :=
  idx.toNat ≤ data.length →
    ∃ item last, index.read data idx kind = .ok (item, last) ∧
      iterator.read data idx.toNat kind = .ok (item, last.toNat)

/-- A call with an index on too few bytes returns, with the index at the size; an
index behind the end stays. -/
def IndexStops (data : List UInt8) (idx : UInt32) (access : Access) : Prop :=
  access.Short (data.drop idx.toNat) →
    ∃ last, access.run index data idx = .ok last ∧ last.toNat = max idx.toNat data.length

/-- A call with an iterator on too few bytes returns, with the iterator at the end. -/
def IteratorStops (data : List UInt8) (start : Nat) (access : Access) : Prop :=
  start ≤ data.length → access.HasIterator → access.Short (data.drop start) →
    access.run iterator data start = .ok data.length

theorem roundTrips_iff (items : List (Item Text)) :
    RoundTrips items ↔ (allBytes items).length < 2 ^ 32 := by
  constructor
  · rintro ⟨data, idx, appended, -, atEnd⟩
    have size := length_of_appendAll appended
    rw [List.length_nil, Nat.zero_add] at size
    have below : idx.toNat < 2 ^ 32 := idx.toNat_lt
    omega
  · intro small
    have fits : ([] : List UInt8).length + (allBytes items).length < 2 ^ 32 := by
      rw [List.length_nil, Nat.zero_add]
      exact small
    refine ⟨[] ++ allBytes items, _, appendAll_eq fits, readAll_eq fits, ?_⟩
    rw [List.length_nil, Nat.zero_add, List.nil_append]
    exact UInt32.toNat_ofNat_of_lt' small

theorem sameReaders_iff (data : List UInt8) (idx : UInt32) (kind : Kind) :
    SameReaders data idx kind ↔
      (idx.toNat ≤ data.length → idx.toNat + kind.taken (data.drop idx.toNat) < 2 ^ 32) := by
  have inIter : ∀ {start : Nat}, start ≤ data.length →
      iterator.read data start kind =
        .ok ((kind.peel (data.drop start)).1, start + kind.taken (data.drop start)) := by
    intro start inside
    have left := length_peel_le kind (data.drop start)
    have last : start + kind.taken (data.drop start) ≤ data.length := by
      rw [Kind.taken, List.length_drop]
      omega
    exact read_eq (follows_iterator (Nat.le_refl _)) inside kind last
  constructor
  · intro same inside
    obtain ⟨item, last, -, ends⟩ := same inside
    rw [inIter inside] at ends
    have there := (Prod.mk.inj (Except.ok.inj ends)).2
    have below : last.toNat < 2 ^ 32 := last.toNat_lt
    omega
  · intro small inside
    have follows := follows_index data.length (small inside)
    have reads := read_eq follows inside kind (Nat.le_refl _)
    rw [UInt32.ofNat_toNat] at reads
    refine ⟨_, _, reads, ?_⟩
    rw [inIter inside, UInt32.toNat_ofNat_of_lt' (small inside)]

theorem indexStops_iff (data : List UInt8) (idx : UInt32) (access : Access) :
    IndexStops data idx access ↔
      (access.Short (data.drop idx.toNat) →
        data.length < 2 ^ 32 ∧ (access.HasIterator ∨ idx.toNat < data.length)) := by
  have below : idx.toNat < 2 ^ 32 := idx.toNat_lt
  constructor
  · intro stops short
    obtain ⟨last, runs, there⟩ := stops short
    have small : last.toNat < 2 ^ 32 := last.toNat_lt
    constructor
    · omega
    · by_cases before : idx.toNat < data.length
      · exact Or.inr before
      · left
        have ended : index.more data.length idx = false := decide_eq_false before
        cases access with
        | readChars num =>
            rw [Access.run, readChars, ended] at runs
            cases runs
        | _ => exact trivial
  · intro fine short
    obtain ⟨small, some⟩ := fine short
    by_cases inside : idx.toNat ≤ data.length
    · have runs := run_short (follows_index data.length small) inside short some
      rw [UInt32.ofNat_toNat] at runs
      refine ⟨_, runs, ?_⟩
      rw [UInt32.toNat_ofNat_of_lt' small]
      omega
    · have ended : index.more data.length idx = false := decide_eq_false (by omega)
      have iter : access.HasIterator := some.resolve_right (by omega)
      exact ⟨idx, run_of_ended ended iter, by omega⟩

theorem iteratorStops (data : List UInt8) (start : Nat) (access : Access) :
    IteratorStops data start access := by
  intro inside iter short
  exact run_short (follows_iterator (Nat.le_refl _)) inside short (Or.inl iter)

/-- Values are read back, iterators read as indices do and calls stop at the end, unless
an index overflows or the reader of characters starts at the end. -/
theorem transfer_iff (items : List (Item Text)) (data : List UInt8) (idx : UInt32) (start : Nat)
    (kind : Kind) (access : Access) :
    (RoundTrips items ∧ SameReaders data idx kind ∧ IndexStops data idx access ∧
        IteratorStops data start access) ↔
      (allBytes items).length < 2 ^ 32 ∧
        (idx.toNat ≤ data.length → idx.toNat + kind.taken (data.drop idx.toNat) < 2 ^ 32) ∧
        (access.Short (data.drop idx.toNat) →
          data.length < 2 ^ 32 ∧ (access.HasIterator ∨ idx.toNat < data.length)) := by
  rw [roundTrips_iff, sameReaders_iff, indexStops_iff]
  constructor
  · rintro ⟨bytes, same, stops, -⟩
    exact ⟨bytes, same, stops⟩
  · rintro ⟨bytes, same, stops⟩
    exact ⟨bytes, same, stops, iteratorStops data start access⟩

/-- A character cannot be read from an empty string: the call throws. -/
theorem readChars_of_empty_throws :
    index.readChars 1 [] 0 = .error .logic_error ∧
      ¬ ∀ items data idx start kind access, RoundTrips items ∧ SameReaders data idx kind ∧
        IndexStops data idx access ∧ IteratorStops data start access := by
  constructor
  · decide
  · intro every
    have stops : IndexStops [] 0 (.readChars 1) := (every [] [] 0 0 .byte (.readChars 1)).2.2.1
    have few : (Access.readChars 1).Short (([] : List UInt8).drop (0 : UInt32).toNat) :=
      Nat.zero_lt_one
    obtain ⟨last, runs, -⟩ := stops few
    cases runs

end Main

end ByteCursor

end OpenMplane
