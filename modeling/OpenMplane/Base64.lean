import OpenMplane.RadixText
import OpenMplane.YangParam

/-!
# Base64

The model of the class `Base64`, whose loops gather bytes and characters in arrays that
they use again, and of the binary data of a `YangParam`.  The text and its reading are
those of `RadixText`, up to the sizes at which the counters of the loops run over: one
counts in 32 bits, the other in an `int`.
-/

namespace OpenMplane

open RadixText

namespace Base64

/-- The byte of an ASCII character. -/
def ascii (char : Char) : UInt8 := UInt8.ofNat char.toNat

def base64_chars : List UInt8 :=
  ['A', 'B', 'C', 'D', 'E', 'F', 'G', 'H', 'I', 'J', 'K', 'L', 'M',
    'N', 'O', 'P', 'Q', 'R', 'S', 'T', 'U', 'V', 'W', 'X', 'Y', 'Z',
    'a', 'b', 'c', 'd', 'e', 'f', 'g', 'h', 'i', 'j', 'k', 'l', 'm',
    'n', 'o', 'p', 'q', 'r', 's', 't', 'u', 'v', 'w', 'x', 'y', 'z',
    '0', '1', '2', '3', '4', '5', '6', '7', '8', '9', '+', '/'].map ascii

/-- `base64_chars[index]`; the index is always below 64. -/
def charAt (index : Nat) : UInt8 := base64_chars.getD index 0

/-- `base64_chars.find`, whose `npos` becomes 0xff in an `unsigned char`. -/
def find (char : UInt8) : UInt8 :=
  match base64_chars.findIdx? (· == char) with
  | some index => UInt8.ofNat index
  | none => UInt8.ofNat (2 ^ 64 - 1)

def isalnum (c : UInt8) : Bool :=
  (ascii '0' ≤ c && c ≤ ascii '9') || (ascii 'A' ≤ c && c ≤ ascii 'Z') ||
    (ascii 'a' ≤ c && c ≤ ascii 'z')

def is_base64 (c : UInt8) : Bool :=
  isalnum c || c == ascii '+' || c == ascii '/'

/-- An array of `unsigned char` on the stack, with whatever it holds at first. -/
abbrev CharArray := Nat → UInt8

/-- `array[i] = value`. -/
def put (array : CharArray) (i : Nat) (value : UInt8) : CharArray :=
  fun place => if place = i then value else array place

/-- The loop that fills up an array with zeros. -/
def fill (array : CharArray) (i size : Nat) : CharArray :=
  fun place => if i ≤ place ∧ place < size then 0 else array place

/-- What `char_array_4` is given from `char_array_3`. -/
def quadruple (char_array_3 : CharArray) : List UInt8 :=
  [(char_array_3 0 &&& 0xfc) >>> 2,
    ((char_array_3 0 &&& 0x03) <<< 4) + ((char_array_3 1 &&& 0xf0) >>> 4),
    ((char_array_3 1 &&& 0x0f) <<< 2) + ((char_array_3 2 &&& 0xc0) >>> 6),
    char_array_3 2 &&& 0x3f]

/-- What `char_array_3` is given from `char_array_4`. -/
def triple (char_array_4 : CharArray) : List UInt8 :=
  [(char_array_4 0 <<< 2) + ((char_array_4 1 &&& 0x30) >>> 4),
    ((char_array_4 1 &&& 0xf) <<< 4) + ((char_array_4 2 &&& 0x3c) >>> 2),
    ((char_array_4 2 &&& 0x3) <<< 6) + char_array_4 3]

/-- The locals of a loop: the counter, the array it fills, and the result. -/
structure Locals where
  i : Nat
  array : CharArray
  ret : List UInt8

/-- The loop body of `encode`. -/
def encodeByte (locals : Locals) (byte : UInt8) : Locals :=
  let char_array_3 := put locals.array locals.i byte
  if locals.i + 1 = 3 then
    ⟨0, char_array_3, locals.ret ++ (quadruple char_array_3).map fun c => charAt c.toNat⟩
  else
    ⟨locals.i + 1, char_array_3, locals.ret⟩

/-- The loop of `encode`, over as many bytes as `in_len` says. -/
def encodeLoop (locals : Locals) (in_len : UInt32) (bytes_to_encode : List UInt8) : Locals :=
  (bytes_to_encode.take in_len.toNat).foldl encodeByte locals

/-- `encode` after its loop. -/
def encodeRest (locals : Locals) : List UInt8 :=
  if locals.i ≠ 0 then
    let char_array_3 := fill locals.array locals.i 3
    locals.ret ++
      ((quadruple char_array_3).take (locals.i + 1)).map (fun c => charAt c.toNat) ++
      List.replicate (3 - locals.i) (ascii '=')
  else
    locals.ret

/-- `Base64::encode`; the size is cut to an `unsigned`. -/
def encode (char_array_3 : CharArray) (str : List UInt8) : List UInt8 :=
  encodeRest (encodeLoop ⟨0, char_array_3, []⟩ (UInt32.ofNat str.length) str)

def INT_MIN : Int := -2 ^ 31

def INT_MAX : Int := 2 ^ 31 - 1

/-- The `find` over the first places of an array. -/
def findAll (array : CharArray) : CharArray :=
  fun place => if place < 4 then find (array place) else array place

/-- The loop body of `decode`. -/
def decodeChar (locals : Locals) (char : UInt8) : Locals :=
  let char_array_4 := put locals.array locals.i char
  if locals.i + 1 = 4 then
    let char_array_4 := findAll char_array_4
    ⟨0, char_array_4, locals.ret ++ triple char_array_4⟩
  else
    ⟨locals.i + 1, char_array_4, locals.ret⟩

/-- The loop of `decode` over what is left of the string, which ends with a zero byte.
A counter that leaves the range of `int` is undefined. -/
def decodeLoop (locals : Locals) (in_len in_ : Int) : List UInt8 → Option Locals
  | [] => if in_len = INT_MIN then none else some locals
  | char :: rest =>
      if in_len = INT_MIN then
        none
      else if in_len = 0 then
        some locals
      else if char ≠ ascii '=' ∧ is_base64 char then
        if in_ = INT_MAX then none
        else decodeLoop (decodeChar locals char) (in_len - 1) (in_ + 1) rest
      else
        some locals

/-- `decode` after its loop. -/
def decodeRest (locals : Locals) : List UInt8 :=
  if locals.i ≠ 0 then
    let char_array_4 := findAll (fill locals.array locals.i 4)
    locals.ret ++ (triple char_array_4).take (locals.i - 1)
  else
    locals.ret

/-- `Base64::decode`; the size becomes an `int`. -/
def decode (char_array_4 : CharArray) (encoded_string : List UInt8) : Option (List UInt8) :=
  (decodeLoop ⟨0, char_array_4, []⟩ ((encoded_string.length : Int).bmod (2 ^ 32)) 0
    encoded_string).map decodeRest

section Groups

theorem toNat_and_shiftRight (byte : UInt8) {mask shift : UInt8} {places bits : Nat}
    (amount : shift.toNat % 8 = places) (low : mask.toNat >>> places = 2 ^ bits - 1) :
    ((byte &&& mask) >>> shift).toNat = byte.toNat / 2 ^ places % 2 ^ bits := by
  rw [UInt8.toNat_shiftRight, UInt8.toNat_and, amount, Nat.shiftRight_and_distrib, low,
    Nat.and_two_pow_sub_one_eq_mod, Nat.shiftRight_eq_div_pow]

theorem toNat_and_shiftLeft (byte : UInt8) {mask shift : UInt8} {places bits : Nat}
    (amount : shift.toNat % 8 = places) (low : mask.toNat = 2 ^ bits - 1)
    (room : bits + places ≤ 8) :
    ((byte &&& mask) <<< shift).toNat = byte.toNat % 2 ^ bits * 2 ^ places := by
  have bound : byte.toNat % 2 ^ bits * 2 ^ places < 2 ^ 8 := by
    calc byte.toNat % 2 ^ bits * 2 ^ places
        < 2 ^ bits * 2 ^ places :=
          Nat.mul_lt_mul_of_pos_right (Nat.mod_lt _ (Nat.two_pow_pos bits)) (Nat.two_pow_pos _)
      _ = 2 ^ (bits + places) := (Nat.pow_add 2 bits _).symm
      _ ≤ 2 ^ 8 := Nat.pow_le_pow_right (by decide) room
  rw [UInt8.toNat_shiftLeft, UInt8.toNat_and, amount, low, Nat.and_two_pow_sub_one_eq_mod,
    Nat.shiftLeft_eq, Nat.mod_eq_of_lt bound]

theorem toNat_and (byte : UInt8) {mask : UInt8} {bits : Nat} (low : mask.toNat = 2 ^ bits - 1) :
    (byte &&& mask).toNat = byte.toNat % 2 ^ bits := by
  rw [UInt8.toNat_and, low, Nat.and_two_pow_sub_one_eq_mod]

theorem toNat_quadruple (array : CharArray) :
    (quadruple array).map UInt8.toNat =
      pack [(array 0).toNat, (array 1).toNat, (array 2).toNat] := by
  have first := @toNat_and_shiftRight (array 0) 0xfc 2 2 6 (by decide) (by decide)
  have second := @toNat_and_shiftLeft (array 0) 0x03 4 4 2 (by decide) (by decide) (by decide)
  have second' := @toNat_and_shiftRight (array 1) 0xf0 4 4 4 (by decide) (by decide)
  have third := @toNat_and_shiftLeft (array 1) 0x0f 2 2 4 (by decide) (by decide) (by decide)
  have third' := @toNat_and_shiftRight (array 2) 0xc0 6 6 2 (by decide) (by decide)
  have fourth := @toNat_and (array 2) 0x3f 6 (by decide)
  have bounds := And.intro (array 0).toNat_lt (And.intro (array 1).toNat_lt (array 2).toNat_lt)
  rw [pack_three, quadruple]
  simp only [List.map_cons, List.map_nil, UInt8.toNat_add, first, second, second', third, third',
    fourth, List.cons.injEq, and_true]
  refine ⟨?_, ?_, ?_, ?_⟩ <;> omega

/-- The bytes from four groups of six bits; the last ones are not seen by the first. -/
theorem toNat_triple {array : CharArray} (small : (array 0).toNat < 64 ∧ (array 1).toNat < 64) :
    (triple array).map UInt8.toNat =
      [(array 0).toNat * 4 + (array 1).toNat / 16,
        (array 1).toNat % 16 * 16 + (array 2).toNat / 4 % 16,
        ((array 2).toNat % 4 * 64 + (array 3).toNat) % 256] := by
  have first : (array 0 <<< 2).toNat = (array 0).toNat * 4 % 256 := by
    rw [UInt8.toNat_shiftLeft, Nat.shiftLeft_eq]
    rfl
  have first' := @toNat_and_shiftRight (array 1) 0x30 4 4 2 (by decide) (by decide)
  have second := @toNat_and_shiftLeft (array 1) 0xf 4 4 4 (by decide) (by decide) (by decide)
  have second' := @toNat_and_shiftRight (array 2) 0x3c 2 2 4 (by decide) (by decide)
  have third := @toNat_and_shiftLeft (array 2) 0x3 6 6 2 (by decide) (by decide) (by decide)
  obtain ⟨small, small'⟩ := small
  rw [triple]
  simp only [List.map_cons, List.map_nil, UInt8.toNat_add, first, first', second, second', third,
    List.cons.injEq, and_true]
  refine ⟨?_, ?_, ?_⟩ <;> omega

end Groups

section Encode

/-- The text in the characters of the table. -/
def charText (bytes : List UInt8) : List UInt8 := text charAt (ascii '=') bytes

theorem charText_group (first second third : UInt8) (rest : List UInt8) :
    charText (first :: second :: third :: rest) =
      groupText charAt [first, second, third] ++ charText rest :=
  rfl

theorem length_charText (bytes : List UInt8) :
    (charText bytes).length = 4 * ((bytes.length + 2) / 3) :=
  length_text charAt (ascii '=') bytes

theorem charText_eq_append (bytes : List UInt8) :
    ∃ sextets pads, charText bytes =
        List.map charAt sextets ++ List.replicate pads (ascii '=') ∧
      pads ≤ 2 ∧ ∀ sextet ∈ sextets, sextet < 64 :=
  text_eq_append charAt (ascii '=') bytes

theorem map_charAt_quadruple (array : CharArray) :
    (quadruple array).map (fun c => charAt c.toNat) =
      (pack [(array 0).toNat, (array 1).toNat, (array 2).toNat]).map charAt := by
  rw [← toNat_quadruple, List.map_map]
  rfl

/-- Three rounds write a group and start again. -/
theorem foldl_encodeByte_three (array : CharArray) (ret : List UInt8)
    (first second third : UInt8) :
    ∃ array', [first, second, third].foldl encodeByte ⟨0, array, ret⟩ =
      ⟨0, array', ret ++ groupText charAt [first, second, third]⟩ := by
  have group : groupText charAt [first, second, third] =
      (quadruple (put (put (put array 0 first) 1 second) 2 third)).map
        (fun c => charAt c.toNat) := by
    rw [map_charAt_quadruple]
    rfl
  rw [group]
  exact ⟨_, rfl⟩

theorem encodeRest_one (array : CharArray) (ret : List UInt8) (first : UInt8) :
    encodeRest ([first].foldl encodeByte ⟨0, array, ret⟩) =
      ret ++ (groupText charAt [first] ++ [ascii '=', ascii '=']) := by
  have group : groupText charAt [first] =
      ((quadruple (fill (put array 0 first) 1 3)).take 2).map (fun c => charAt c.toNat) := by
    rw [List.map_take, map_charAt_quadruple, ← List.map_take, groupText]
    exact congrArg (List.map charAt) (pack_one_eq_take first.toNat)
  rw [group, ← List.append_assoc]
  rfl

theorem encodeRest_two (array : CharArray) (ret : List UInt8) (first second : UInt8) :
    encodeRest ([first, second].foldl encodeByte ⟨0, array, ret⟩) =
      ret ++ (groupText charAt [first, second] ++ [ascii '=']) := by
  have group : groupText charAt [first, second] =
      ((quadruple (fill (put (put array 0 first) 1 second) 2 3)).take 3).map
        (fun c => charAt c.toNat) := by
    rw [List.map_take, map_charAt_quadruple, ← List.map_take, groupText]
    exact congrArg (List.map charAt) (pack_two_eq_take first.toNat second.toNat)
  rw [group, ← List.append_assoc]
  rfl

theorem encodeRest_foldl (array : CharArray) (ret bytes : List UInt8) :
    encodeRest (bytes.foldl encodeByte ⟨0, array, ret⟩) = ret ++ charText bytes := by
  induction bytes using text.induct generalizing array ret with
  | case1 => exact (List.append_nil ret).symm
  | case2 first => exact encodeRest_one array ret first
  | case3 first second => exact encodeRest_two array ret first second
  | case4 first second third rest ih =>
      obtain ⟨array', group⟩ := foldl_encodeByte_three array ret first second third
      have split : first :: second :: third :: rest = [first, second, third] ++ rest := rfl
      rw [split, List.foldl_append, group, ih, List.append_assoc]
      rfl

/-- The text is that of as many bytes as 32 bits count. -/
theorem encode_eq (stack : CharArray) (str : List UInt8) :
    encode stack str = charText (str.take (str.length % 2 ^ 32)) := by
  rw [encode, encodeLoop, encodeRest_foldl, UInt32.toNat_ofNat', List.nil_append]

theorem encode_of_lt (stack : CharArray) {str : List UInt8} (small : str.length < 2 ^ 32) :
    encode stack str = charText str := by
  rw [encode_eq, Nat.mod_eq_of_lt small, List.take_length]

theorem encode_ne_of_le (stack : CharArray) {str : List UInt8} (large : 2 ^ 32 ≤ str.length) :
    encode stack str ≠ charText str := by
  intro same
  have lengths := congrArg List.length same
  rw [encode_eq, length_charText, length_charText, List.length_take] at lengths
  omega

end Encode

section Decode

theorem find_charAt : ∀ sextet < 64, find (charAt sextet) = UInt8.ofNat sextet := by
  decide

theorem is_base64_charAt : ∀ sextet < 64,
    charAt sextet ≠ ascii '=' ∧ is_base64 (charAt sextet) = true := by
  decide

theorem toNat_find_charAt {sextet : Nat} (proper : sextet < 64) :
    (find (charAt sextet)).toNat = sextet := by
  rw [find_charAt sextet proper, UInt8.toNat_ofNat']
  omega

theorem decodeLoop_symbol {sextet : Nat} (proper : sextet < 64) (locals : Locals)
    {in_len in_ : Int} (counting : in_len ≠ INT_MIN) (more : in_len ≠ 0) (inside : in_ ≠ INT_MAX)
    (rest : List UInt8) :
    decodeLoop locals in_len in_ (charAt sextet :: rest) =
      decodeLoop (decodeChar locals (charAt sextet)) (in_len - 1) (in_ + 1) rest := by
  rw [decodeLoop, if_neg counting, if_neg more, if_pos (is_base64_charAt sextet proper),
    if_neg inside]

/-- The loop takes all characters of the alphabet that stand in front. -/
theorem decodeLoop_symbols {sextets : List Nat} (proper : ∀ sextet ∈ sextets, sextet < 64)
    (locals : Locals) {in_len in_ : Int} (long : sextets.length ≤ in_len)
    (start : 0 ≤ in_) (inside : in_ + sextets.length ≤ INT_MAX) (rest : List UInt8) :
    decodeLoop locals in_len in_ (sextets.map charAt ++ rest) =
      decodeLoop ((sextets.map charAt).foldl decodeChar locals) (in_len - sextets.length)
        (in_ + sextets.length) rest := by
  induction sextets generalizing locals in_len in_ with
  | nil => simp
  | cons sextet sextets ih =>
      rw [List.length_cons] at long inside ⊢
      have counting : in_len ≠ INT_MIN := by
        rw [INT_MIN]
        omega
      have more : in_len ≠ 0 := by omega
      have below : in_ ≠ INT_MAX := by omega
      have here : sextet < 64 := proper sextet List.mem_cons_self
      rw [List.map_cons, List.cons_append, decodeLoop_symbol here locals counting more below,
        ih (fun other member => proper other (List.mem_cons_of_mem _ member)) _ (by omega)
          (by omega) (by omega), List.foldl_cons]
      congr 1 <;> omega

/-- The loop ends at a padding character, and where the count does. -/
theorem decodeLoop_pad (locals : Locals) {in_len : Int} (start : 0 ≤ in_len) (in_ : Int)
    (rest : List UInt8) :
    decodeLoop locals in_len in_ (ascii '=' :: rest) = some locals := by
  have counting : in_len ≠ INT_MIN := by
    rw [INT_MIN]
    omega
  rw [decodeLoop, if_neg counting]
  split
  · rfl
  · exact if_neg fun symbol => symbol.1 rfl

theorem eq_of_map_toNat {first second : List UInt8}
    (same : first.map UInt8.toNat = second.map UInt8.toNat) : first = second :=
  List.map_injective_iff.mpr (fun _ _ => UInt8.toNat_inj.mp) same

/-- Four rounds give back a group and start again. -/
theorem foldl_decodeChar_four (array : CharArray) (ret : List UInt8) {s₀ s₁ s₂ s₃ : Nat}
    (proper : ∀ sextet ∈ [s₀, s₁, s₂, s₃], sextet < 64) :
    ∃ array', ([s₀, s₁, s₂, s₃].map charAt).foldl decodeChar ⟨0, array, ret⟩ =
      ⟨0, array', ret ++ (unpack [s₀, s₁, s₂, s₃]).map UInt8.ofNat⟩ := by
  let filled := findAll (put (put (put (put array 0 (charAt s₀)) 1 (charAt s₁)) 2 (charAt s₂)) 3
    (charAt s₃))
  have first : (filled 0).toNat = s₀ := toNat_find_charAt (proper s₀ (by simp))
  have second : (filled 1).toNat = s₁ := toNat_find_charAt (proper s₁ (by simp))
  have third : (filled 2).toNat = s₂ := toNat_find_charAt (proper s₂ (by simp))
  have fourth : (filled 3).toNat = s₃ := toNat_find_charAt (proper s₃ (by simp))
  simp only [List.forall_mem_cons] at proper
  have group : triple filled = (unpack [s₀, s₁, s₂, s₃]).map UInt8.ofNat := by
    have values := @toNat_triple filled (by omega)
    rw [first, second, third, fourth] at values
    apply eq_of_map_toNat
    rw [values, unpack_four]
    simp only [List.map_cons, List.map_nil, UInt8.toNat_ofNat', List.cons.injEq, and_true]
    omega
  rw [← group]
  exact ⟨_, rfl⟩

/-- Two characters left over are a byte; the two places that hold no letter are not seen. -/
theorem decodeRest_two (array : CharArray) (ret : List UInt8) {s₀ s₁ : Nat}
    (proper : ∀ sextet ∈ [s₀, s₁], sextet < 64) :
    decodeRest (([s₀, s₁].map charAt).foldl decodeChar ⟨0, array, ret⟩) =
      ret ++ (unpack [s₀, s₁]).map UInt8.ofNat := by
  let filled := findAll (fill (put (put array 0 (charAt s₀)) 1 (charAt s₁)) 2 4)
  have first : (filled 0).toNat = s₀ := toNat_find_charAt (proper s₀ (by simp))
  have second : (filled 1).toNat = s₁ := toNat_find_charAt (proper s₁ (by simp))
  simp only [List.forall_mem_cons] at proper
  have group : (triple filled).take 1 = (unpack [s₀, s₁]).map UInt8.ofNat := by
    have values := @toNat_triple filled (by omega)
    rw [first, second] at values
    apply eq_of_map_toNat
    rw [List.map_take, values, unpack_two]
    simp only [List.take_succ_cons, List.take_zero, List.map_cons, List.map_nil,
      UInt8.toNat_ofNat', List.cons.injEq, and_true]
    omega
  rw [← group]
  rfl

theorem decodeRest_three (array : CharArray) (ret : List UInt8) {s₀ s₁ s₂ : Nat}
    (proper : ∀ sextet ∈ [s₀, s₁, s₂], sextet < 64) :
    decodeRest (([s₀, s₁, s₂].map charAt).foldl decodeChar ⟨0, array, ret⟩) =
      ret ++ (unpack [s₀, s₁, s₂]).map UInt8.ofNat := by
  let filled := findAll (fill (put (put (put array 0 (charAt s₀)) 1 (charAt s₁)) 2 (charAt s₂)) 3 4)
  have first : (filled 0).toNat = s₀ := toNat_find_charAt (proper s₀ (by simp))
  have second : (filled 1).toNat = s₁ := toNat_find_charAt (proper s₁ (by simp))
  have third : (filled 2).toNat = s₂ := toNat_find_charAt (proper s₂ (by simp))
  simp only [List.forall_mem_cons] at proper
  have group : (triple filled).take 2 = (unpack [s₀, s₁, s₂]).map UInt8.ofNat := by
    have values := @toNat_triple filled (by omega)
    rw [first, second, third] at values
    apply eq_of_map_toNat
    rw [List.map_take, values, unpack_three]
    simp only [List.take_succ_cons, List.take_zero, List.map_cons, List.map_nil,
      UInt8.toNat_ofNat', List.cons.injEq, and_true]
    omega
  rw [← group]
  rfl

/-- What the sextets of a group of bytes give back. -/
theorem unpack_pack_map {bytes : List UInt8} (few : bytes.length ≤ 3) :
    (unpack (pack (bytes.map UInt8.toNat))).map UInt8.ofNat = bytes := by
  have proper : ∀ byte ∈ bytes.map UInt8.toNat, byte < 256 := by
    intro byte member
    obtain ⟨byte, -, rfl⟩ := List.mem_map.mp member
    exact byte.toNat_lt
  rw [unpack_pack (by rw [List.length_map]; exact few) proper, List.map_map]
  exact List.map_id'' (fun byte => UInt8.ofNat_toNat) bytes

theorem exists_pack_three (first second third : UInt8) :
    ∃ s₀ s₁ s₂ s₃, pack ([first, second, third].map UInt8.toNat) = [s₀, s₁, s₂, s₃] :=
  ⟨_, _, _, _, pack_three first.toNat second.toNat third.toNat⟩

/-- The loop reads a text that the counters can hold. -/
theorem decodeLoop_text (array : CharArray) (ret bytes : List UInt8) {in_ : Int} (start : 0 ≤ in_)
    (inside : in_ + (charText bytes).length ≤ INT_MAX) :
    (decodeLoop ⟨0, array, ret⟩ (charText bytes).length in_ (charText bytes)).map decodeRest =
      some (ret ++ bytes) := by
  induction bytes using text.induct generalizing array ret in_ with
  | case1 => simp [charText, text, decodeLoop, decodeRest, INT_MIN]
  | case2 first =>
      have back := @unpack_pack_map [first] (by simp)
      have proper : ∀ sextet ∈ pack ([first].map UInt8.toNat), sextet < 64 :=
        fun _ => lt_of_mem_pack
      rw [charText, text, groupText] at inside ⊢
      rw [List.map_cons, List.map_nil, pack_one] at inside back proper ⊢
      rw [List.length_append, List.length_map] at inside ⊢
      rw [decodeLoop_symbols proper _ (by omega) start (by omega), decodeLoop_pad _ (by omega),
        Option.map_some, decodeRest_two array ret proper, back]
  | case3 first second =>
      have back := @unpack_pack_map [first, second] (by simp)
      have proper : ∀ sextet ∈ pack ([first, second].map UInt8.toNat), sextet < 64 :=
        fun _ => lt_of_mem_pack
      rw [charText, text, groupText] at inside ⊢
      rw [List.map_cons, List.map_cons, List.map_nil, pack_two] at inside back proper ⊢
      rw [List.length_append, List.length_map] at inside ⊢
      rw [decodeLoop_symbols proper _ (by omega) start (by omega), decodeLoop_pad _ (by omega),
        Option.map_some, decodeRest_three array ret proper, back]
  | case4 first second third rest ih =>
      have back := @unpack_pack_map [first, second, third] (by simp)
      have proper : ∀ sextet ∈ pack ([first, second, third].map UInt8.toNat), sextet < 64 :=
        fun _ => lt_of_mem_pack
      obtain ⟨s₀, s₁, s₂, s₃, sextets⟩ := exists_pack_three first second third
      rw [charText_group, groupText] at inside ⊢
      rw [sextets] at inside back proper ⊢
      rw [List.length_append, List.length_map] at inside ⊢
      obtain ⟨array', group⟩ := foldl_decodeChar_four array ret proper
      rw [decodeLoop_symbols proper _ (by omega) start (by omega), group, back]
      have left : (([s₀, s₁, s₂, s₃].length + (charText rest).length : Nat) : Int) -
          [s₀, s₁, s₂, s₃].length = (charText rest).length := by
        omega
      rw [left, ih array' _ (by omega) (by omega), List.append_assoc]
      rfl

theorem decode_of_lt (stack : CharArray) {bytes : List UInt8}
    (small : (charText bytes).length < 2 ^ 31) : decode stack (charText bytes) = some bytes := by
  have size : ((charText bytes).length : Int).bmod (2 ^ 32) = (charText bytes).length := by
    rw [Int.bmod]
    omega
  have inside : (0 : Int) + (charText bytes).length ≤ INT_MAX := by
    rw [INT_MAX]
    omega
  rw [decode, size, decodeLoop_text stack [] bytes Int.le_rfl inside, List.nil_append]

end Decode

section Overflow

theorem decodeLoop_min (locals : Locals) (in_ : Int) (string : List UInt8) :
    decodeLoop locals INT_MIN in_ string = none := by
  cases string with
  | nil => exact if_pos rfl
  | cons char rest => exact if_pos rfl

/-- A size that became negative counts down until it leaves the range. -/
theorem decodeLoop_negative {sextets : List Nat} (proper : ∀ sextet ∈ sextets, sextet < 64)
    (locals : Locals) {in_len : Int} (in_ : Int) (negative : in_len < 0)
    (enough : in_len ≤ INT_MIN + sextets.length) (range : INT_MIN ≤ in_len) (rest : List UInt8) :
    decodeLoop locals in_len in_ (sextets.map charAt ++ rest) = none := by
  induction sextets generalizing locals in_len in_ with
  | nil =>
      have least : in_len = INT_MIN := by
        rw [List.length_nil] at enough
        omega
      rw [least]
      exact decodeLoop_min locals in_ _
  | cons sextet sextets ih =>
      rw [List.length_cons] at enough
      by_cases least : in_len = INT_MIN
      · rw [least]
        exact decodeLoop_min locals in_ _
      by_cases far : in_ = INT_MAX
      · rw [List.map_cons, List.cons_append, decodeLoop, if_neg least, if_neg (by omega),
          if_pos (is_base64_charAt sextet (proper sextet List.mem_cons_self)), if_pos far]
      · rw [List.map_cons, List.cons_append,
          decodeLoop_symbol (proper sextet List.mem_cons_self) _ least (by omega) far]
        exact ih (fun other member => proper other (List.mem_cons_of_mem _ member)) _ _ (by omega)
          (by omega) (by omega)

/-- Three for each character, in quarters of a byte. -/
def Locals.weight (locals : Locals) : Nat := 4 * locals.ret.length + 3 * locals.i

theorem length_triple (array : CharArray) : (triple array).length = 3 :=
  rfl

theorem weight_decodeChar (locals : Locals) (char : UInt8) (inside : locals.i < 4) :
    (decodeChar locals char).i < 4 ∧ (decodeChar locals char).weight = locals.weight + 3 := by
  rw [decodeChar]
  dsimp only
  split
  · rw [Locals.weight, Locals.weight, List.length_append, length_triple]
    dsimp only
    omega
  · rw [Locals.weight, Locals.weight]
    dsimp only
    omega

theorem weight_decodeLoop {string : List UInt8} {locals final : Locals} {in_len in_ : Int}
    (inside : locals.i < 4) (counting : 0 ≤ in_len)
    (ended : decodeLoop locals in_len in_ string = some final) :
    final.i < 4 ∧ (final.weight : Int) ≤ locals.weight + 3 * in_len := by
  induction string generalizing locals in_len in_ with
  | nil =>
      rw [decodeLoop] at ended
      split at ended
      · cases ended
      · cases ended
        omega
  | cons char rest ih =>
      have step := weight_decodeChar locals char inside
      rw [decodeLoop] at ended
      split at ended
      · cases ended
      split at ended
      · cases ended
        omega
      split at ended
      · split at ended
        · cases ended
        · have later := ih step.1 (by omega) ended
          omega
      · cases ended
        omega

theorem length_decodeRest_le (locals : Locals) :
    4 * (decodeRest locals).length ≤ locals.weight := by
  rw [decodeRest, Locals.weight]
  split
  · rw [List.length_append, List.length_take, length_triple]
    omega
  · omega

/-- What a size that came out too small leaves is shorter. -/
theorem decode_ne_of_le (stack : CharArray) {bytes : List UInt8} (fits : bytes.length < 2 ^ 32)
    (large : 2 ^ 31 ≤ (charText bytes).length) :
    decode stack (charText bytes) ≠ some bytes := by
  have length := length_charText bytes
  have size : ((charText bytes).length : Int).bmod (2 ^ 32) =
      (charText bytes).length - 2 ^ 32 := by
    rw [Int.bmod]
    split <;> omega
  intro read
  rw [decode, size] at read
  by_cases negative : (charText bytes).length < 2 ^ 32
  · obtain ⟨sextets, pads, parts, few, proper⟩ := charText_eq_append bytes
    have lengths := congrArg List.length parts
    rw [List.length_append, List.length_map, List.length_replicate] at lengths
    have beyond : decodeLoop ⟨0, stack, []⟩ ((charText bytes).length - 2 ^ 32) 0
        (sextets.map charAt ++ List.replicate pads (ascii '=')) = none := by
      apply decodeLoop_negative proper
      all_goals
        try rw [INT_MIN]
        omega
    rw [← parts] at beyond
    rw [beyond] at read
    cases read
  · obtain ⟨final, ended, result⟩ := Option.map_eq_some_iff.mp read
    have bound := weight_decodeLoop (by decide : (0 : Nat) < 4) (by omega) ended
    have short := length_decodeRest_le final
    have start : Locals.weight ⟨0, stack, []⟩ = 0 := rfl
    rw [result] at short
    rw [start] at bound
    omega

end Overflow

end Base64

namespace YangParam

/-- A byte as a `char` of a string. -/
def charOf (byte : UInt8) : Char := Char.ofNat byte.toNat

/-- `valBinary`, which is empty when the data is of another type. -/
def valBinary (param : YangParam) : List UInt8 :=
  match param.data with
  | .binary encoded => encoded.toList.map fun char => UInt8.ofNat char.toNat
  | _ => []

/-- `YangParam::setBinary`, with what the stack holds. -/
def setBinary (stack : Base64.CharArray) (yangParam : YangParam) (param : List UInt8)
    (encoded : Bool) : YangParam :=
  let valBinary := if encoded then param else Base64.encode stack param
  { yangParam with data := .binary (String.ofList (valBinary.map charOf)) }

/-- `YangParam::getBinaryDecoded`, with what the stack holds. -/
def getBinaryDecoded (stack : Base64.CharArray) (param : YangParam) : Option (List UInt8) :=
  Base64.decode stack (valBinary param)

theorem ofNat_charOf (byte : UInt8) : UInt8.ofNat (charOf byte).toNat = byte := by
  have valid : byte.toNat.isValidChar := Or.inl (by have := byte.toNat_lt; omega)
  have code : (charOf byte).toNat = byte.toNat := by
    rw [charOf, Char.ofNat, dif_pos valid]
    rfl
  rw [code, UInt8.ofNat_toNat]

theorem valBinary_setBinary (stack : Base64.CharArray) (yangParam : YangParam)
    (param : List UInt8) (encoded : Bool) :
    valBinary (setBinary stack yangParam param encoded) =
      if encoded then param else Base64.encode stack param := by
  rw [setBinary, valBinary]
  dsimp only
  rw [String.toList_ofList, List.map_map]
  exact List.map_id'' ofNat_charOf _

theorem getBinaryDecoded_setBinary (stack stack' : Base64.CharArray) (yangParam : YangParam)
    (param : List UInt8) :
    getBinaryDecoded stack' (setBinary stack yangParam param false) =
      Base64.decode stack' (Base64.encode stack param) := by
  rw [getBinaryDecoded, valBinary_setBinary, if_neg Bool.false_ne_true]

end YangParam

namespace Base64

/-- The base 64 alphabet. -/
def alphabet (sextet : Nat) : UInt8 :=
  if sextet < 26 then ascii 'A' + UInt8.ofNat sextet
  else if sextet < 52 then ascii 'a' + UInt8.ofNat (sextet - 26)
  else if sextet < 62 then ascii '0' + UInt8.ofNat (sextet - 52)
  else if sextet = 62 then ascii '+'
  else ascii '/'

/-- The padded base 64 text of a byte string. -/
def base64Text (data : List UInt8) : List UInt8 := text alphabet (ascii '=') data

theorem charAt_eq_alphabet : ∀ sextet < 64, charAt sextet = alphabet sextet := by
  decide

theorem charText_eq (data : List UInt8) : charText data = base64Text data :=
  text_congr charAt (ascii '=') charAt_eq_alphabet data

/-- A byte string is encoded as its text, which is read back, also from a parameter,
whatever the stack holds. -/
structure RoundTrip (data : List UInt8) : Prop where
  encoded : ∀ stack, encode stack data = base64Text data
  padded : ∀ stack, 4 ∣ (encode stack data).length
  decoded : ∀ stack stack', decode stack' (encode stack data) = some data
  binary : ∀ stack stack' yangParam,
    YangParam.getBinaryDecoded stack' (YangParam.setBinary stack yangParam data false) = some data

theorem roundTrip_of_lt {data : List UInt8} (small : 4 * ((data.length + 2) / 3) < 2 ^ 31) :
    RoundTrip data := by
  have length := length_charText data
  have encoded (stack : CharArray) := @encode_of_lt stack data (by omega)
  have decoded (stack stack' : CharArray) : decode stack' (encode stack data) = some data := by
    rw [encoded stack]
    exact decode_of_lt stack' (by omega)
  constructor
  · intro stack
    rw [encoded stack, charText_eq]
  · intro stack
    rw [encoded stack, length]
    exact Nat.dvd_mul_right 4 _
  · exact decoded
  · intro stack stack' yangParam
    rw [YangParam.getBinaryDecoded_setBinary, decoded]

theorem not_roundTrip_of_le {data : List UInt8} (large : 2 ^ 31 ≤ 4 * ((data.length + 2) / 3)) :
    ¬ RoundTrip data := by
  intro roundTrip
  by_cases fits : data.length < 2 ^ 32
  · have read := roundTrip.decoded (fun _ => 0) (fun _ => 0)
    rw [encode_of_lt _ fits] at read
    exact decode_ne_of_le _ fits (by rw [length_charText]; exact large) read
  · have encoded := roundTrip.encoded fun _ => 0
    rw [← charText_eq] at encoded
    exact encode_ne_of_le _ (by omega) encoded

/-- Byte strings go there and back when the size of the text is an `int`. -/
theorem roundTrip_iff (data : List UInt8) :
    RoundTrip data ↔ 4 * ((data.length + 2) / 3) < 2 ^ 31 := by
  constructor
  · intro roundTrip
    by_contra large
    exact not_roundTrip_of_le (by omega) roundTrip
  · exact roundTrip_of_lt

/-- A string of 2³² bytes is encoded as the empty text. -/
theorem large_string_is_not_encoded : ¬ ∀ data, RoundTrip data := by
  intro roundTrip
  have encoded := (roundTrip (List.replicate (2 ^ 32) 0)).encoded fun _ => 0
  have size : (List.replicate (2 ^ 32) (0 : UInt8)).length = 2 ^ 32 := List.length_replicate
  rw [← charText_eq] at encoded
  exact encode_ne_of_le _ (Nat.le_of_eq size.symm) encoded

end Base64

end OpenMplane
