import Mathlib.Data.List.Induction
import Mathlib.Algebra.Order.Ring.Nat

/-!
# Bytes written with six bits a character

Three bytes are four groups of six bits, and a character of an alphabet stands for each.
One or two bytes at the end get zero bits on the right up to a whole group, and are
filled up with a padding character.  The digits of a number carry the regrouping.
-/

namespace OpenMplane

namespace RadixText

section Digits

variable {base : Nat}

/-- The last digits of a number, the most significant one first. -/
def digits (base : Nat) : Nat → Nat → List Nat
  | 0, _ => []
  | count + 1, number => digits base count (number / base) ++ [number % base]

/-- The number with these digits. -/
def value (base : Nat) (places : List Nat) : Nat :=
  places.foldl (fun number digit => number * base + digit) 0

@[simp]
theorem value_nil : value base [] = 0 :=
  rfl

theorem value_append_singleton (places : List Nat) (digit : Nat) :
    value base (places ++ [digit]) = value base places * base + digit := by
  rw [value, List.foldl_append]
  rfl

@[simp]
theorem length_digits (count number : Nat) : (digits base count number).length = count := by
  induction count generalizing number with
  | zero => rfl
  | succ count ih => rw [digits, List.length_append, ih, List.length_singleton]

theorem lt_of_mem_digits (positive : 0 < base) {count number digit : Nat}
    (member : digit ∈ digits base count number) : digit < base := by
  induction count generalizing number with
  | zero => simp [digits] at member
  | succ count ih =>
      rw [digits, List.mem_append, List.mem_singleton] at member
      rcases member with member | rfl
      · exact ih member
      · exact Nat.mod_lt number positive

theorem value_digits (count number : Nat) :
    value base (digits base count number) = number % base ^ count := by
  induction count generalizing number with
  | zero => rw [digits, value_nil, pow_zero, Nat.mod_one]
  | succ count ih =>
      rw [digits, value_append_singleton, ih, pow_succ', Nat.mod_mul, Nat.add_comm, Nat.mul_comm]

theorem value_lt {places : List Nat} (proper : ∀ digit ∈ places, digit < base) :
    value base places < base ^ places.length := by
  induction places using List.reverseRecOn with
  | nil => exact Nat.one_pos
  | append_singleton places digit ih =>
      have front := ih fun other member => proper other (List.mem_append_left _ member)
      have last : digit < base := proper digit (by simp)
      rw [value_append_singleton, List.length_append, List.length_singleton, pow_succ]
      calc value base places * base + digit < (value base places + 1) * base := by
            rw [Nat.add_mul, Nat.one_mul]
            omega
        _ ≤ base ^ places.length * base := Nat.mul_le_mul_right base front

theorem digits_value {places : List Nat} (proper : ∀ digit ∈ places, digit < base) :
    digits base places.length (value base places) = places := by
  induction places using List.reverseRecOn with
  | nil => rfl
  | append_singleton places digit ih =>
      have front := ih fun other member => proper other (List.mem_append_left _ member)
      have last : digit < base := proper digit (by simp)
      have quotient : (value base places * base + digit) / base = value base places := by
        rw [Nat.add_comm, Nat.add_mul_div_right _ _ (by omega), Nat.div_eq_of_lt last, Nat.zero_add]
      have remainder : (value base places * base + digit) % base = digit := by
        rw [Nat.add_comm, Nat.add_mul_mod_self_right, Nat.mod_eq_of_lt last]
      rw [value_append_singleton, List.length_append, List.length_singleton, digits, quotient,
        remainder, front]

end Digits

/-- A group of bytes as groups of six bits. -/
def pack (bytes : List Nat) : List Nat :=
  digits 64 (bytes.length + 1) (value 256 bytes * 4 ^ (3 - bytes.length))

/-- The bytes of a group, without the bits on the right. -/
def unpack (sextets : List Nat) : List Nat :=
  digits 256 (sextets.length - 1) (value 64 sextets / 4 ^ (4 - sextets.length))

theorem length_pack (bytes : List Nat) : (pack bytes).length = bytes.length + 1 :=
  length_digits _ _

theorem lt_of_mem_pack {bytes : List Nat} {sextet : Nat} (member : sextet ∈ pack bytes) :
    sextet < 64 :=
  lt_of_mem_digits (by decide) member

theorem unpack_pack {bytes : List Nat} (few : bytes.length ≤ 3)
    (proper : ∀ byte ∈ bytes, byte < 256) : unpack (pack bytes) = bytes := by
  have bound := value_lt proper
  have power : 256 ^ bytes.length * 4 ^ (3 - bytes.length) = 64 ^ (bytes.length + 1) := by
    obtain length | length | length | length :
        bytes.length = 0 ∨ bytes.length = 1 ∨ bytes.length = 2 ∨ bytes.length = 3 := by omega
    all_goals rw [length]; rfl
  have fits : value 256 bytes * 4 ^ (3 - bytes.length) < 64 ^ (bytes.length + 1) := by
    rw [← power]
    exact Nat.mul_lt_mul_of_pos_right bound (Nat.pow_pos (by decide))
  have places : 4 - (bytes.length + 1) = 3 - bytes.length := by omega
  rw [unpack, length_pack, Nat.add_sub_cancel, pack, value_digits, Nat.mod_eq_of_lt fits, places,
    Nat.mul_div_cancel _ (Nat.pow_pos (by decide)), digits_value proper]

theorem pack_one (first : Nat) : pack [first] = [first * 16 / 64 % 64, first * 16 % 64] := by
  simp [pack, digits, value]

theorem pack_two (first second : Nat) :
    pack [first, second] = [(first * 256 + second) * 4 / 64 / 64 % 64,
      (first * 256 + second) * 4 / 64 % 64, (first * 256 + second) * 4 % 64] := by
  simp [pack, digits, value]

theorem pack_three (first second third : Nat) :
    pack [first, second, third] =
      [((first * 256 + second) * 256 + third) / 64 / 64 / 64 % 64,
        ((first * 256 + second) * 256 + third) / 64 / 64 % 64,
        ((first * 256 + second) * 256 + third) / 64 % 64,
        ((first * 256 + second) * 256 + third) % 64] := by
  simp [pack, digits, value]

/-- Zero bits on the right of a byte or two are those of zero bytes. -/
theorem pack_one_eq_take (first : Nat) : pack [first] = (pack [first, 0, 0]).take 2 := by
  rw [pack_one, pack_three]
  simp only [List.take_succ_cons, List.take_zero, List.cons.injEq, and_true]
  omega

theorem pack_two_eq_take (first second : Nat) :
    pack [first, second] = (pack [first, second, 0]).take 3 := by
  rw [pack_two, pack_three]
  simp only [List.take_succ_cons, List.take_zero, List.cons.injEq, and_true]
  omega

theorem unpack_two (first second : Nat) :
    unpack [first, second] = [(first * 64 + second) / 16 % 256] := by
  simp [unpack, digits, value]

theorem unpack_three (first second third : Nat) :
    unpack [first, second, third] =
      [((first * 64 + second) * 64 + third) / 4 / 256 % 256,
        ((first * 64 + second) * 64 + third) / 4 % 256] := by
  simp [unpack, digits, value]

theorem unpack_four (first second third fourth : Nat) :
    unpack [first, second, third, fourth] =
      [(((first * 64 + second) * 64 + third) * 64 + fourth) / 256 / 256 % 256,
        (((first * 64 + second) * 64 + third) * 64 + fourth) / 256 % 256,
        (((first * 64 + second) * 64 + third) * 64 + fourth) % 256] := by
  simp [unpack, digits, value]

section Text

variable {α : Type} (symbol : Nat → α) (pad : α)

/-- A group of bytes in the characters of an alphabet. -/
def groupText (bytes : List UInt8) : List α :=
  (pack (bytes.map UInt8.toNat)).map symbol

/-- The text of a byte string. -/
def text : List UInt8 → List α
  | [] => []
  | [first] => groupText symbol [first] ++ [pad, pad]
  | [first, second] => groupText symbol [first, second] ++ [pad]
  | first :: second :: third :: rest => groupText symbol [first, second, third] ++ text rest

theorem text_group (first second third : UInt8) (rest : List UInt8) :
    text symbol pad (first :: second :: third :: rest) =
      groupText symbol [first, second, third] ++ text symbol pad rest :=
  rfl

theorem length_groupText (bytes : List UInt8) :
    (groupText symbol bytes).length = bytes.length + 1 := by
  rw [groupText, List.length_map, length_pack, List.length_map]

/-- The length is that of whole groups of four. -/
theorem length_text (bytes : List UInt8) :
    (text symbol pad bytes).length = 4 * ((bytes.length + 2) / 3) := by
  induction bytes using text.induct with
  | case1 => rfl
  | case2 first => simp [text, length_groupText]
  | case3 first second => simp [text, length_groupText]
  | case4 first second third rest ih =>
      rw [text_group, List.length_append, length_groupText, ih]
      simp only [List.length_cons, List.length_nil]
      omega

/-- Only at the end stand up to two padding characters. -/
theorem text_eq_append (bytes : List UInt8) :
    ∃ sextets pads, text symbol pad bytes = List.map symbol sextets ++ List.replicate pads pad ∧
      pads ≤ 2 ∧ ∀ sextet ∈ sextets, sextet < 64 := by
  induction bytes using text.induct with
  | case1 => exact ⟨[], 0, rfl, by decide, by simp⟩
  | case2 first => exact ⟨_, 2, rfl, by decide, fun _ => lt_of_mem_pack⟩
  | case3 first second => exact ⟨_, 1, rfl, by decide, fun _ => lt_of_mem_pack⟩
  | case4 first second third rest ih =>
      obtain ⟨sextets, pads, rest_eq, few, proper⟩ := ih
      refine ⟨pack ([first, second, third].map UInt8.toNat) ++ sextets, pads, ?_, few, ?_⟩
      · rw [text_group, rest_eq, groupText, List.map_append, List.append_assoc]
      · intro sextet member
        rcases List.mem_append.mp member with member | member
        · exact lt_of_mem_pack member
        · exact proper sextet member

/-- Only the characters of groups of six bits are used. -/
theorem text_congr {other : Nat → α} (same : ∀ sextet < 64, symbol sextet = other sextet)
    (bytes : List UInt8) : text symbol pad bytes = text other pad bytes := by
  have group (bytes : List UInt8) : groupText symbol bytes = groupText other bytes :=
    List.map_congr_left fun sextet member => same sextet (lt_of_mem_pack member)
  induction bytes using text.induct with
  | case1 => rfl
  | case2 first => rw [text, text, group]
  | case3 first second => rw [text, text, group]
  | case4 first second third rest ih => rw [text_group, text_group, group, ih]

end Text

end RadixText

end OpenMplane
