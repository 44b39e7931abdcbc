import OpenMplane.ByteTransfer
import OpenMplane.Hexadecimal

/-!
# SHA-1

`Sha1` hashes a row of bytes: chunk by chunk as long as there are sixty-four
bytes, then the rest with the bit behind it and the count of bits.  Its
counters are of type `int`, which rows of less than 2 GiB do not exceed.
-/

namespace OpenMplane

open ByteTransfer Hexadecimal

namespace Sha1

def SHA1_SIZE : Nat := 20

/-- The five words `h`. -/
structure Words where
  a : UInt32
  b : UInt32
  c : UInt32
  d : UInt32
  e : UInt32
  deriving DecidableEq

def H : Words := ⟨0x67452301, 0xEFCDAB89, 0x98BADCFE, 0x10325476, 0xC3D2E1F0⟩

def K0 : UInt32 := 0x5a827999

def K20 : UInt32 := 0x6ed9eba1

def K40 : UInt32 := 0x8f1bbcdc

def K60 : UInt32 := 0xca62c1d6

def leftrotate (value steps : UInt32) : UInt32 :=
  (value <<< steps) ||| (value >>> (32 - steps))

/-- The word that `EXPAND_W` puts behind those there are. -/
def expandW (w : List UInt32) : UInt32 :=
  let i := w.length
  leftrotate (w.getD (i - 3) 0 ^^^ w.getD (i - 8) 0 ^^^ w.getD (i - 14) 0 ^^^ w.getD (i - 16) 0) 1

/-- Sixteen words and the sixty-four that follow from them. -/
def expanded (w : List UInt32) : List UInt32 :=
  (List.range 64).foldl (fun w _ => w ++ [expandW w]) w

/-- The function and the constant of a round. -/
def roundValue (i : Nat) (h : Words) : UInt32 :=
  if i < 20 then ((h.b &&& h.c) ||| (~~~h.b &&& h.d)) + h.e + K0
  else if i < 40 then (h.b ^^^ h.c ^^^ h.d) + h.e + K20
  else if i < 60 then ((h.b &&& h.c) ||| (h.b &&& h.d) ||| (h.c &&& h.d)) + h.e + K40
  else (h.b ^^^ h.c ^^^ h.d) + h.e + K60

/-- The macro `SHA1`. -/
def round (h : Words) (i : Nat) (word : UInt32) : Words :=
  ⟨leftrotate h.a 5 + roundValue i h + word, h.a, leftrotate h.b 30, h.c, h.d⟩

def calcHash (h : Words) (w : List UInt32) : Words :=
  let last := (expanded w).zipIdx.foldl (fun h step => round h step.2 step.1) h
  ⟨h.a + last.a, h.b + last.b, h.c + last.c, h.d + last.d, h.e + last.e⟩

/-- Sixteen words of bytes; bytes that are missing are zero. -/
def chunkWords (data : List UInt8) : List UInt32 :=
  (List.range 16).map fun i => UInt32.ofNat (readWord (data.drop (4 * i))).1

def getHash (data : List UInt8) : List UInt8 :=
  let chunks := data.length / 64
  let h := (List.range chunks).foldl
    (fun h chunk => calcHash h (chunkWords (data.drop (64 * chunk)))) H
  let remaining := data.drop (64 * chunks)
  let w := chunkWords (remaining ++ [0x80])
  let (h, w) := if 56 ≤ remaining.length then (calcHash h w, List.replicate 16 0) else (h, w)
  let h := calcHash h (w.set 15 (UInt32.ofNat (data.length * 8)))
  [h.a, h.b, h.c, h.d, h.e].flatMap fun word => valBytes 4 word.toNat

def hashToString (data : List UInt8) : String :=
  String.ofList (data.flatMap fun byte => hexDigits 2 byte.toNat)

/-- `std::vector<uint8_t> bytes(data.begin(), data.end())`. -/
def stringBytes (data : String) : List UInt8 := data.toUTF8.data.toList

def getHashString (data : String) : String := hashToString (getHash (stringBytes data))

theorem length_getHash (data : List UInt8) : (getHash data).length = SHA1_SIZE := by
  rw [getHash]
  simp only [List.flatMap_cons, List.flatMap_nil, List.length_append, List.length_nil,
    length_valBytes, SHA1_SIZE]

example : hashToString (getHash [0x61, 0x62, 0x63]) =
    "a9993e364706816aba3e25717850c26c9cd0d89d" := by
  decide +kernel

end Sha1

end OpenMplane
