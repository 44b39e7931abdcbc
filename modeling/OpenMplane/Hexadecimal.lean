import Mathlib.Algebra.Group.Nat.Defs
import Mathlib.Algebra.Ring.Int.Defs
import Mathlib.Data.List.Induction
import Mathlib.Data.List.Infix

/-!
# Hexadecimal numerals of a fixed width

Numbers printed with a fixed count of hexadecimal digits, filled with zeros,
and such digits read back.  Reading accepts both cases of a letter, printing
uses small letters, so that a numeral survives up to the case of its letters.
-/

namespace Hexadecimal

/-- The digits that `find_first_not_of` lets through. -/
def hexLetters : List Char := "0123456789abcdefABCDEF".toList

def hexDigit (value : Nat) : Char :=
  "0123456789abcdef".toList.getD value '0'

def digitValue (digit : Char) : Nat :=
  if digit.isDigit then digit.toNat - '0'.toNat
  else digit.toLower.toNat - 'a'.toNat + 10

/-- A number with a fixed count of digits. -/
def hexDigits : Nat → Nat → List Char
  | 0, _ => []
  | count + 1, value => hexDigits count (value / 16) ++ [hexDigit (value % 16)]

/-- The value of a row of digits. -/
def hexValue (digits : List Char) : Nat :=
  digits.foldl (fun value digit => 16 * value + digitValue digit) 0

theorem digitValue_hexDigit : ∀ value < 16, digitValue (hexDigit value) = value := by
  decide

theorem hexDigit_mem : ∀ value < 16, hexDigit value ∈ hexLetters := by
  decide

theorem digitValue_lt : ∀ digit ∈ hexLetters, digitValue digit < 16 :=
  List.forall_iff_forall_mem.mp (by decide)

theorem hexDigit_digitValue : ∀ digit ∈ hexLetters,
    hexDigit (digitValue digit) = digit.toLower :=
  List.forall_iff_forall_mem.mp (by decide)

theorem length_hexDigits (count value : Nat) : (hexDigits count value).length = count := by
  induction count generalizing value with
  | zero => rfl
  | succ count ih => simp [hexDigits, ih]

theorem mem_hexLetters_of_mem_hexDigits {count value : Nat} {digit : Char}
    (member : digit ∈ hexDigits count value) : digit ∈ hexLetters := by
  induction count generalizing value with
  | zero => simp [hexDigits] at member
  | succ count ih =>
      rw [hexDigits, List.mem_append, List.mem_singleton] at member
      rcases member with front | rfl
      · exact ih front
      · exact hexDigit_mem _ (Nat.mod_lt value (by decide))

theorem hexValue_append_singleton (digits : List Char) (digit : Char) :
    hexValue (digits ++ [digit]) = 16 * hexValue digits + digitValue digit := by
  simp [hexValue]

theorem hexValue_hexDigits {count value : Nat} (below : value < 16 ^ count) :
    hexValue (hexDigits count value) = value := by
  induction count generalizing value with
  | zero =>
      have zero : value = 0 := by simpa using below
      rw [zero]
      rfl
  | succ count ih =>
      have front : value / 16 < 16 ^ count := by
        rw [pow_succ] at below
        omega
      rw [hexDigits, hexValue_append_singleton, ih front,
        digitValue_hexDigit _ (Nat.mod_lt value (by decide))]
      omega

theorem hexValue_lt {digits : List Char} (hex : ∀ digit ∈ digits, digit ∈ hexLetters) :
    hexValue digits < 16 ^ digits.length := by
  induction digits using List.reverseRecOn with
  | nil => decide
  | append_singleton digits digit ih =>
      have front := ih fun other member => hex other (List.mem_append_left _ member)
      have last := digitValue_lt digit (hex digit (by simp))
      rw [hexValue_append_singleton, List.length_append, List.length_singleton, pow_succ]
      omega

/-- Digits that are read and printed again lose the case of their letters. -/
theorem hexDigits_hexValue {digits : List Char} (hex : ∀ digit ∈ digits, digit ∈ hexLetters) :
    hexDigits digits.length (hexValue digits) = digits.map Char.toLower := by
  induction digits using List.reverseRecOn with
  | nil => rfl
  | append_singleton digits digit ih =>
      have front := ih fun other member => hex other (List.mem_append_left _ member)
      have member := hex digit (by simp)
      have last := digitValue_lt digit member
      have quotient : (16 * hexValue digits + digitValue digit) / 16 = hexValue digits := by
        omega
      have remainder : (16 * hexValue digits + digitValue digit) % 16 = digitValue digit := by
        omega
      rw [hexValue_append_singleton, List.length_append, List.length_singleton, hexDigits,
        quotient, remainder, front, hexDigit_digitValue digit member, List.map_append]
      rfl

end Hexadecimal
