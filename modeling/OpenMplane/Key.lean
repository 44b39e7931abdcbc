import OpenMplane.Crypt
import OpenMplane.Hexadecimal
import OpenMplane.WordBits

/-!
# License keys

A `Key` holds a license key of 128 bits and encodes 32-bit values under it.
Every bit of a value goes to four places of 128 that a table names, of which
some take a random bit instead, as many as the type of the key says; the
result is enciphered and printed.  This file models the class: the operations
that change the license key, its encoding for other applications, and the
encoding of values.
-/

namespace OpenMplane

open Hexadecimal WordBits

/-- `uint32_t value[4]`. -/
abbrev Words := Fin 4 → UInt32

/-- The replication factor of the bits. -/
inductive KeyEncodeType
  | KEY_DUP4
  | KEY_DUP3
  | KEY_DUP2
  | KEY_DUP1
  deriving DecidableEq

/-- `static_cast<int>` of the type. -/
def KeyEncodeType.toInt : KeyEncodeType → Int
  | .KEY_DUP4 => -1
  | .KEY_DUP3 => 0
  | .KEY_DUP2 => 1
  | .KEY_DUP1 => 2

namespace Key

def BIT_DIST : Nat := 100

def HALF_BIT_DIST : Nat := BIT_DIST / 2

/-- What `mRandBitDist` yields, by the index it is asked for. -/
abbrev Draws := Nat → Fin (BIT_DIST + 1)

def expansionBits : List Nat :=
  [0x2b, 0x25, 0x43, 0x13, 0x5a, 0x65, 0x5b, 0x30, 0x06, 0x35, 0x4e,
    0x1e, 0x0b, 0x77, 0x3c, 0x14, 0x6c, 0x2d, 0x0c, 0x57, 0x03, 0x12,
    0x76, 0x66, 0x54, 0x38, 0x29, 0x15, 0x2f, 0x1a, 0x69, 0x3f, 0x00,
    0x37, 0x31, 0x0a, 0x3b, 0x7f, 0x59, 0x51, 0x3e, 0x50, 0x7a, 0x6b,
    0x5f, 0x27, 0x61, 0x09, 0x63, 0x48, 0x64, 0x6a, 0x18, 0x23, 0x53,
    0x33, 0x04, 0x11, 0x58, 0x67, 0x02, 0x05, 0x6f, 0x72, 0x1c, 0x4f,
    0x19, 0x0e, 0x7e, 0x08, 0x68, 0x46, 0x74, 0x26, 0x79, 0x22, 0x62,
    0x45, 0x24, 0x55, 0x73, 0x44, 0x5c, 0x42, 0x34, 0x6d, 0x01, 0x78,
    0x52, 0x60, 0x7c, 0x4d, 0x3a, 0x5d, 0x7b, 0x28, 0x4b, 0x2c, 0x40,
    0x32, 0x47, 0x1f, 0x2a, 0x10, 0x1b, 0x7d, 0x4c, 0x2e, 0x0f, 0x07,
    0x36, 0x75, 0x4a, 0x3d, 0x6e, 0x21, 0x56, 0x1d, 0x70, 0x0d, 0x71,
    0x41, 0x39, 0x20, 0x5e, 0x49, 0x17, 0x16]

/-- `expansionBitTable[idx]`. -/
def expansionBitTable (idx : Nat) : Nat :=
  expansionBits.getD idx 0

def keyCompressTable : List Nat :=
  [6, 13, 1, 14, 10, 19, 2, 7, 12, 0, 4, 16, 3, 5, 17, 18, 15, 9, 7, 11]

def mPrivateKey : Words := ![0xeed7d574, 0x2f9b6998, 0x63642dfb, 0x8175413a]

/-- Whether the copy at an index takes a random bit. -/
def injected (mKeyType : KeyEncodeType) (idx : Nat) : Bool :=
  decide (((idx % 4 : Nat) : Int) ≤ mKeyType.toInt)

/-- The bit that `expand32` puts at an index; the bit of the value with number
`idx / 4` has its copies at four indices. -/
def expandedBit (mKeyType : KeyEncodeType) (draws : Draws) (src : UInt32) (idx : Nat) : Bool :=
  if injected mKeyType idx then decide ((draws idx).val < HALF_BIT_DIST)
  else testBit src (idx / 4)

def expand32 (mKeyType : KeyEncodeType) (draws : Draws) (src : UInt32) : Words :=
  scatter expansionBitTable (expandedBit mKeyType draws src) (List.range 128) fun _ => 0

/-- The copies of a bit as `compress32` collects them, with the random ones
preset. -/
def copies (mKeyType : KeyEncodeType) (src : Words) (bit : Nat) (block : Nat) : Bool :=
  if injected mKeyType (4 * bit + block) then true
  else bitAt src (expansionBitTable (4 * bit + block))

/-- The copies after the preset ones have been cleared. -/
def clearedCopies (mKeyType : KeyEncodeType) (src : Words) (bit : Nat) (block : Nat) : Bool :=
  if (block : Int) ≤ mKeyType.toInt then false else copies mKeyType src bit block

/-- The loop of `compress32` over the bits of the value. -/
def compressBits (mKeyType : KeyEncodeType) (src : Words) : List Nat → UInt32 → Option UInt32
  | [], decoded32bits => some decoded32bits
  | bit :: bits, decoded32bits =>
      if (List.range 4).all (copies mKeyType src bit) then
        compressBits mKeyType src bits (orBit decoded32bits bit)
      else if (List.range 4).any (copies mKeyType src bit) = false then
        compressBits mKeyType src bits decoded32bits
      else if (List.range 4).any (clearedCopies mKeyType src bit) = false then
        compressBits mKeyType src bits decoded32bits
      else none

def compress32 (mKeyType : KeyEncodeType) (src : Words) : Option UInt32 :=
  compressBits mKeyType src (List.range 32) 0

/-- `str.substr((3 - block) * 8, 8)` as characters. -/
def wordDigits (str : String) (block : Fin 4) : List Char :=
  (str.toList.drop ((3 - block.val) * 8)).take 8

def stringToUints (str : String) : Option Words :=
  if str.length ≠ 32 then none
  else if str.toList.any fun letter => decide (letter ∉ hexLetters) then none
  else some fun block => UInt32.ofNat (hexValue (wordDigits str block))

def uintsToString (value : Words) : String :=
  String.ofList (hexDigits 8 (value 3).toNat ++ hexDigits 8 (value 2).toNat ++
    hexDigits 8 (value 1).toNat ++ hexDigits 8 (value 0).toNat)

/-- `encrypt` of the first and of the second two words. -/
def encryptWords (crypt : Crypt) (words : Words) : Words :=
  let low := crypt.encrypt (words 0, words 1)
  let high := crypt.encrypt (words 2, words 3)
  ![low.1, low.2, high.1, high.2]

/-- `decrypt` of the first and of the second two words. -/
def decryptWords (crypt : Crypt) (words : Words) : Words :=
  let low := crypt.decrypt (words 0, words 1)
  let high := crypt.decrypt (words 2, words 3)
  ![low.1, low.2, high.1, high.2]

end Key

/-- A `Key`; once a key is set the encryption engine is that of the license
key. -/
structure Key where
  mKeyType : KeyEncodeType
  mLicenseKey : Words
  mKeySet : Bool
  mEncodedKey : String
  mCrypt : Option Crypt
  engine : mKeySet = true → mCrypt = some ⟨mLicenseKey⟩

namespace Key

/-- A key that is not set needs no engine. -/
theorem engine_of_unset {crypt : Option Crypt} {words : Words} :
    false = true → crypt = some ⟨words⟩ :=
  fun set => absurd set Bool.false_ne_true

theorem crypt_isSome {key : Key} (set : key.mKeySet = true) : key.mCrypt.isSome = true := by
  rw [key.engine set]
  rfl

def new (type : KeyEncodeType) : Key where
  mKeyType := type
  mLicenseKey := fun _ => 0
  mKeySet := false
  mEncodedKey := ""
  mCrypt := none
  engine := engine_of_unset

/-- The license key is set and the engine with it. -/
def holding (key : Key) (words : Words) : Key :=
  { key with
    mLicenseKey := words
    mKeySet := true
    mCrypt := some ⟨words⟩
    engine := fun _ => rfl }

/-- `setLicenseKey` of a string, with its result. -/
def setLicenseKey (licenseKey : String) (key : Key) : Bool × Key :=
  match stringToUints licenseKey with
  | none => (false, key)
  | some words => (true, key.holding words)

/-- `join` of `xstringfunc.hpp`: a delimiter stands before a string unless
nothing has been written yet. -/
def join (strs : List String) (delim : String) : String :=
  strs.foldl (fun result str => (if result = "" then result else result ++ delim) ++ str) ""

/-- The bytes of a hash that make up a license key; `substr` throws beyond the
end. -/
def compressHash (sha1 : String) : List Nat → Except StdException String
  | [] => .ok ""
  | compressByte :: bytes =>
      if sha1.length < compressByte * 2 then .error .outOfRange
      else match compressHash sha1 bytes with
        | .ok rest =>
            .ok (String.ofList ((sha1.toList.drop (compressByte * 2)).take 2) ++ rest)
        | .error exception => .error exception

/-- `setLicenseKey` of a collection of strings; the result is that of a call
that may throw. -/
def setLicenseKeyInfo (getHashString : String → String) (info : List String) (key : Key) :
    Except StdException Bool × Key :=
  match compressHash (getHashString (join info "/")) (keyCompressTable.take 16) with
  | .error exception => (.error exception, key)
  | .ok licenseKey =>
      let (result, key) := setLicenseKey licenseKey key
      (.ok result, key)

/-- `setLicenseKey` of the numbers of a board; the third one is not used. -/
def setLicenseKeyBoard (getHashString : String → String)
    (serialNum hostid _ctrlHostid : String) (key : Key) : Except StdException Bool × Key :=
  setLicenseKeyInfo getHashString [serialNum, hostid] key

def encodedKey (key : Key) : String × Key :=
  if key.mKeySet = false then ("0", key)
  else if key.mEncodedKey = "" then
    let encoded := uintsToString (encryptWords ⟨mPrivateKey⟩ key.mLicenseKey)
    (encoded, { key with mEncodedKey := encoded })
  else (key.mEncodedKey, key)

def setFromEncodedKey (encodedKey : String) (key : Key) : Bool × Key :=
  match stringToUints encodedKey with
  | none => (false, key)
  | some encoded =>
      (true, { key.holding (decryptWords ⟨mPrivateKey⟩ encoded) with mEncodedKey := encodedKey })

def clear (key : Key) : Key :=
  { key with
    mLicenseKey := fun _ => 0
    mKeySet := false
    mEncodedKey := ""
    engine := engine_of_unset }

/-- The engine of a key that is set. -/
def crypt (key : Key) (set : key.mKeySet = true) : Crypt :=
  key.mCrypt.get (crypt_isSome set)

def encode32bits (key : Key) (draws : Draws) (bits : UInt32) : String :=
  if set : key.mKeySet = true then
    uintsToString (encryptWords (key.crypt set) (expand32 key.mKeyType draws bits))
  else "0"

/-- `Key::decode32bits`; nothing when it returns false. -/
def decode32bits (key : Key) (encoded32bits : String) : Option UInt32 :=
  if set : key.mKeySet = true then
    match stringToUints encoded32bits with
    | none => none
    | some words => compress32 key.mKeyType (decryptWords (key.crypt set) words)
  else none

end Key

end OpenMplane
