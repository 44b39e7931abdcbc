import OpenMplane.Hexadecimal
import OpenMplane.StdString
import Mathlib.Data.List.Basic
import Mathlib.Tactic.IntervalCases

/-!
# Addresses as text

The models of `macToStr`, which prints an address as six groups of two digits, and of
`strToMac`, which reads such a text.  The reader checks one position after the other in a
copy in upper case, which ends at the first zero character of the text.
-/

namespace OpenMplane

open Hexadecimal

/-- `toUpper` of `stringfunc.hpp`, which copies a C string. -/
def toUpper (str : List Char) : List Char := (str.takeWhile (· ≠ '\x00')).map Char.toUpper

def macToStr (macid : UInt64) : List Char :=
  (List.range 6).flatMap fun i =>
    let byte := (macid >>> (8 * (6 - i - 1)).toUInt64) &&& 0xff
    (if i > 0 then [':'] else []) ++ (hexDigits 2 byte.toNat).map Char.toUpper

/-- What follows the prefix that `strtol` allows with base 16. -/
def afterPrefix : List Char → List Char
  | '0' :: mark :: digit :: rest =>
      if (mark = 'x' ∨ mark = 'X') ∧ digit ∈ hexLetters then digit :: rest
      else '0' :: mark :: digit :: rest
  | text => text

/-- `std::stoi` with base 16. -/
def stoiHex (text : List Char) : Except StdException Int :=
  let unspaced := text.dropWhile isSpace
  let (negative, unsigned) := match unspaced with
    | '-' :: rest => (true, rest)
    | '+' :: rest => (false, rest)
    | rest => (false, rest)
  let digits := (afterPrefix unsigned).takeWhile (· ∈ hexLetters)
  if digits = [] then .error .invalidArgument
  else
    let value : Int := if negative then -hexValue digits else hexValue digits
    if value < -2 ^ 31 ∨ 2 ^ 31 ≤ value then .error .outOfRange else .ok value

/-- The digits that `strToMac` takes for valid. -/
def validDigits : List Char := "0123456789ABCDEF".toList

/-- Looks at a position with `at` and goes on when the character there is good. -/
def checkAt (macstr : List Char) (pos : Nat) (good : Char → Bool)
    (next : Except StdException UInt64) : Except StdException UInt64 :=
  match macstr[pos]? with
  | none => .error .outOfRange
  | some letter => if good letter then next else .ok 0

/-- The loop of `strToMac` over the groups. -/
def strToMacLoop (macstr : List Char) : List Nat → UInt64 → Except StdException UInt64
  | [], macid => .ok macid
  | i :: rest, macid =>
      let group :=
        checkAt macstr (3 * i) (· ∈ validDigits) <|
          checkAt macstr (3 * i + 1) (· ∈ validDigits) <|
            match stoiHex ((macstr.drop (3 * i)).take 2) with
            | .error exception => .error exception
            | .ok byte =>
                if byte < 0 then .ok 0
                else
                  strToMacLoop macstr rest
                    (macid + (byte.toNat.toUInt64 <<< (8 * (6 - i - 1)).toUInt64))
      if i > 0 then checkAt macstr (3 * i - 1) (· = ':') group else group

def strToMac (str : List Char) : Except StdException UInt64 :=
  if str.length ≠ 6 * 3 - 1 then .ok 0 else strToMacLoop (toUpper str) (List.range 6) 0

/-- What can stand at a position of an address. -/
def fits (pos : Nat) (letter : Char) : Prop :=
  if pos % 3 = 2 then letter = ':' else letter ∈ hexLetters

/-- Six groups of two hexadecimal digits with colons between them. -/
def SixGroups (str : List Char) : Prop :=
  str.length = 17 ∧ ∀ pos letter, str[pos]? = some letter → fits pos letter

/-- What is expected of the text of an address and of its reader. -/
structure ReadsMac (str : List Char) : Prop where
  returns : ∃ macid, strToMac str = .ok macid ∧
    (macid = 0 ∨ macToStr macid = str.map Char.toUpper)
  refuses : ¬ SixGroups str → strToMac str = .ok 0

variable {str macstr : List Char} {letter : Char} {macid : UInt64} {pos i : Nat} {rest : List Nat}

section Letters

theorem toUpper_of_large (large : 128 ≤ letter.toNat) : letter.toUpper = letter := by
  delta Char.toUpper
  split
  · next small =>
      have bound : letter.toNat ≤ 122 := small.2
      omega
  · rfl

/-- A test of letters that holds below 128, and of no letter from there on. -/
theorem toUpper_test {before after : Char → Prop}
    (small : ∀ code < 128, before (Char.ofNat code).toUpper ↔ after (Char.ofNat code))
    (above : ∀ letter : Char, 128 ≤ letter.toNat → ¬ before letter ∧ ¬ after letter)
    (letter : Char) : before letter.toUpper ↔ after letter := by
  by_cases below : letter.toNat < 128
  · have same := small letter.toNat below
    rwa [Char.ofNat_toNat] at same
  · rw [toUpper_of_large (Nat.not_lt.mp below)]
    obtain ⟨first, second⟩ := above letter (Nat.not_lt.mp below)
    exact iff_of_false first second

theorem toNat_lt_of_mem_hexLetters : ∀ letter ∈ hexLetters, letter.toNat < 128 :=
  List.forall_iff_forall_mem.mp (by decide)

theorem toNat_lt_of_mem_validDigits : ∀ letter ∈ validDigits, letter.toNat < 128 :=
  List.forall_iff_forall_mem.mp (by decide)

theorem toUpper_mem_validDigits (letter : Char) :
    letter.toUpper ∈ validDigits ↔ letter ∈ hexLetters :=
  @toUpper_test (· ∈ validDigits) (· ∈ hexLetters) (by decide)
    (fun letter large =>
      ⟨fun member => absurd (toNat_lt_of_mem_validDigits letter member) (Nat.not_lt.mpr large),
        fun member => absurd (toNat_lt_of_mem_hexLetters letter member) (Nat.not_lt.mpr large)⟩)
    letter

theorem toUpper_eq_colon (letter : Char) : letter.toUpper = ':' ↔ letter = ':' :=
  @toUpper_test (· = ':') (· = ':') (by decide)
    (fun letter large => by
      have other : letter ≠ ':' := by
        rintro rfl
        exact absurd large (by decide)
      exact ⟨other, other⟩)
    letter

/-- What `strToMac` accepts at a position. -/
def accepts (pos : Nat) (letter : Char) : Bool :=
  if pos % 3 = 2 then letter = ':' else letter ∈ validDigits

theorem accepts_toUpper (pos : Nat) (letter : Char) :
    accepts pos letter.toUpper = true ↔ fits pos letter := by
  rw [accepts, fits]
  split
  · rw [decide_eq_true_eq]
    exact toUpper_eq_colon letter
  · rw [decide_eq_true_eq]
    exact toUpper_mem_validDigits letter

theorem validDigits_subset : ∀ letter ∈ validDigits, letter ∈ hexLetters :=
  List.forall_iff_forall_mem.mp (by decide)

theorem isSpace_of_mem_validDigits : ∀ letter ∈ validDigits,
    isSpace letter = false ∧ letter ≠ '-' ∧ letter ≠ '+' :=
  List.forall_iff_forall_mem.mp (by decide)

theorem digitValue_lt_of_valid (valid : letter ∈ validDigits) : digitValue letter < 16 :=
  digitValue_lt letter (validDigits_subset letter valid)

/-- Two digits are read as a byte. -/
theorem stoiHex_pair {first second : Char} (firstValid : first ∈ validDigits)
    (secondValid : second ∈ validDigits) :
    stoiHex [first, second] = .ok ((16 * digitValue first + digitValue second : Nat) : Int) := by
  obtain ⟨space, minus, plus⟩ := isSpace_of_mem_validDigits first firstValid
  have below := digitValue_lt_of_valid firstValid
  have below' := digitValue_lt_of_valid secondValid
  have unspaced : [first, second].dropWhile isSpace = [first, second] := by
    rw [List.dropWhile_cons, if_neg (by rw [space]; exact Bool.false_ne_true)]
  have digits : [first, second].takeWhile (· ∈ hexLetters) = [first, second] := by
    rw [List.takeWhile_eq_self_iff]
    intro letter member
    rw [decide_eq_true_eq]
    rcases List.mem_pair.mp member with rfl | rfl
    · exact validDigits_subset _ firstValid
    · exact validDigits_subset _ secondValid
  have value : hexValue [first, second] = 16 * digitValue first + digitValue second := by
    simp [hexValue]
  rw [stoiHex, unspaced]
  split
  next negative unsigned signs =>
  have plain : negative = false ∧ unsigned = [first, second] := by
    split at signs
    · next same => exact absurd (List.cons.inj same).1 minus
    · next same => exact absurd (List.cons.inj same).1 plus
    · cases signs
      exact ⟨rfl, rfl⟩
  obtain ⟨rfl, rfl⟩ := plain
  have alone : afterPrefix [first, second] = [first, second] := by
    rw [afterPrefix.eq_def]
    split
    · next same => simp at same
    · rfl
  dsimp only
  rw [alone, digits, value, if_neg (List.cons_ne_nil _ _), if_neg Bool.false_ne_true, if_neg]
  omega

end Letters

section Scan

/-- The byte that two digits of a text make. -/
def groupByte (macstr : List Char) (i : Nat) : Nat :=
  16 * digitValue (macstr.getD (3 * i) '0') + digitValue (macstr.getD (3 * i + 1) '0')

/-- What a group adds to an address. -/
def addGroup (macstr : List Char) (macid : UInt64) (i : Nat) : UInt64 :=
  macid + ((groupByte macstr i).toUInt64 <<< (8 * (6 - i - 1)).toUInt64)

/-- What stands at a position is accepted there. -/
def AcceptedAt (macstr : List Char) (pos : Nat) : Prop :=
  ∃ letter, macstr[pos]? = some letter ∧ accepts pos letter = true

theorem accepts_digit (digit : pos % 3 ≠ 2) :
    accepts pos = fun letter => decide (letter ∈ validDigits) := by
  funext letter
  rw [accepts, if_neg digit]

theorem accepts_colon (colon : pos % 3 = 2) : accepts pos = fun letter => decide (letter = ':') := by
  funext letter
  rw [accepts, if_pos colon]

theorem checkAt_of_accepted {next : Except StdException UInt64} (accepted : AcceptedAt macstr pos) :
    checkAt macstr pos (accepts pos) next = next := by
  obtain ⟨letter, there, good⟩ := accepted
  rw [checkAt, there]
  exact if_pos good

/-- What a check that fails returns. -/
def refusal (macstr : List Char) (pos : Nat) : Except StdException UInt64 :=
  if macstr[pos]? = none then .error .outOfRange else .ok 0

theorem checkAt_of_refused {next : Except StdException UInt64}
    (refused : ¬ AcceptedAt macstr pos) :
    checkAt macstr pos (accepts pos) next = refusal macstr pos := by
  rw [checkAt, refusal]
  cases there : macstr[pos]? with
  | none => rfl
  | some letter =>
      have bad : ¬ accepts pos letter = true := fun good => refused ⟨letter, there, good⟩
      rw [if_neg (Option.some_ne_none letter)]
      exact if_neg bad

/-- The loop checks the colon before a group and its two digits. -/
theorem strToMacLoop_cons (macstr : List Char) (i : Nat) (rest : List Nat) (macid : UInt64) :
    strToMacLoop macstr (i :: rest) macid =
      let group :=
        checkAt macstr (3 * i) (accepts (3 * i)) <|
          checkAt macstr (3 * i + 1) (accepts (3 * i + 1)) <|
            match stoiHex ((macstr.drop (3 * i)).take 2) with
            | .error exception => .error exception
            | .ok byte =>
                if byte < 0 then .ok 0
                else
                  strToMacLoop macstr rest
                    (macid + (byte.toNat.toUInt64 <<< (8 * (6 - i - 1)).toUInt64))
      if i > 0 then checkAt macstr (3 * i - 1) (accepts (3 * i - 1)) group else group := by
  rw [strToMacLoop]
  dsimp only
  rw [@accepts_digit (3 * i) (by omega), @accepts_digit (3 * i + 1) (by omega)]
  split
  · rw [@accepts_colon (3 * i - 1) (by omega)]
  · rfl

theorem strToMacLoop_of_accepted (colon : i > 0 → AcceptedAt macstr (3 * i - 1))
    (first : AcceptedAt macstr (3 * i)) (second : AcceptedAt macstr (3 * i + 1)) :
    strToMacLoop macstr (i :: rest) macid =
      strToMacLoop macstr rest (addGroup macstr macid i) := by
  have group : ∃ a b, macstr[3 * i]? = some a ∧ macstr[3 * i + 1]? = some b ∧
      a ∈ validDigits ∧ b ∈ validDigits := by
    obtain ⟨a, there, good⟩ := first
    obtain ⟨b, there', good'⟩ := second
    rw [@accepts_digit (3 * i) (by omega), decide_eq_true_eq] at good
    rw [@accepts_digit (3 * i + 1) (by omega), decide_eq_true_eq] at good'
    exact ⟨a, b, there, there', good, good'⟩
  obtain ⟨a, b, there, there', good, good'⟩ := group
  have two : (macstr.drop (3 * i)).take 2 = [a, b] := by
    obtain ⟨bound, value⟩ := List.getElem?_eq_some_iff.mp there
    obtain ⟨bound', value'⟩ := List.getElem?_eq_some_iff.mp there'
    rw [List.drop_eq_getElem_cons bound, List.drop_eq_getElem_cons bound', value, value']
    rfl
  have byte : groupByte macstr i = 16 * digitValue a + digitValue b := by
    rw [groupByte, List.getD_eq_getElem?_getD, List.getD_eq_getElem?_getD, there, there']
    rfl
  rw [strToMacLoop_cons]
  dsimp only
  rw [checkAt_of_accepted first, checkAt_of_accepted second, two, stoiHex_pair good good']
  dsimp only
  have positive : ¬ ((16 * digitValue a + digitValue b : Nat) : Int) < 0 := by omega
  rw [if_neg positive, Int.toNat_natCast, addGroup, byte]
  split
  · next later => rw [checkAt_of_accepted (colon later)]
  · rfl

/-- The loop stops at the first position that is not accepted. -/
theorem strToMacLoop_of_refused {count : Nat} (whole : i + count = 6) (reached : 3 * i ≤ pos + 1)
    (inside : pos < 17) (refused : ¬ AcceptedAt macstr pos)
    (before : ∀ earlier < pos, AcceptedAt macstr earlier) :
    strToMacLoop macstr (List.range' i count) macid = refusal macstr pos := by
  induction count generalizing i macid with
  | zero => omega
  | succ count ih =>
      rw [List.range'_succ]
      by_cases later : 3 * (i + 1) ≤ pos + 1
      · rw [strToMacLoop_of_accepted (fun _ => before _ (by omega)) (before _ (by omega))
          (before _ (by omega))]
        exact ih (by omega) later
      · rw [strToMacLoop_cons]
        dsimp only
        by_cases colon : 3 * i = pos + 1
        · have same : 3 * i - 1 = pos := by omega
          rw [if_pos (by omega), same, checkAt_of_refused refused]
        · have passed : i > 0 → AcceptedAt macstr (3 * i - 1) := fun _ => before _ (by omega)
          by_cases first : 3 * i = pos
          · rw [first, checkAt_of_refused refused]
            split
            · next positive =>
                have accepted := passed positive
                rw [first] at accepted
                rw [checkAt_of_accepted accepted]
            · rfl
          · have same : 3 * i + 1 = pos := by omega
            have zero : AcceptedAt macstr (3 * i) := before _ (by omega)
            rw [checkAt_of_accepted zero, same, checkAt_of_refused refused]
            split
            · next positive => rw [checkAt_of_accepted (passed positive)]
            · rfl

/-- Where all positions are accepted, the loop adds all bytes. -/
theorem strToMacLoop_of_all {count : Nat} (whole : i + count = 6)
    (all : ∀ pos < 17, AcceptedAt macstr pos) :
    strToMacLoop macstr (List.range' i count) macid =
      .ok ((List.range' i count).foldl (addGroup macstr) macid) := by
  induction count generalizing i macid with
  | zero => rfl
  | succ count ih =>
      rw [List.range'_succ, List.foldl_cons, strToMacLoop_of_accepted (fun _ => all _ (by omega))
        (all _ (by omega)) (all _ (by omega))]
      exact ih (by omega)

end Scan

section Text

/-- The text of an address with the given bytes. -/
def addressText (bytes : Nat → Nat) : List Char :=
  (List.range 6).flatMap fun i =>
    (if i > 0 then [':'] else []) ++ (hexDigits 2 (bytes i)).map Char.toUpper

variable {bytes : Nat → Nat}

theorem toUpper_hexDigit : ∀ value < 16,
    (hexDigit value).toUpper ∈ validDigits ∧ digitValue (hexDigit value).toUpper = value := by
  decide

theorem hexDigit_of_valid : ∀ letter ∈ validDigits,
    (hexDigit (digitValue letter)).toUpper = letter :=
  List.forall_iff_forall_mem.mp (by decide)

theorem length_addressText (bytes : Nat → Nat) : (addressText bytes).length = 17 := rfl

theorem addressText_first (inside : i < 6) :
    (addressText bytes)[3 * i]? = some (hexDigit (bytes i / 16 % 16)).toUpper := by
  interval_cases i <;> rfl

theorem addressText_second (inside : i < 6) :
    (addressText bytes)[3 * i + 1]? = some (hexDigit (bytes i % 16)).toUpper := by
  interval_cases i <;> rfl

theorem addressText_colon (inside : i < 5) : (addressText bytes)[3 * i + 2]? = some ':' := by
  interval_cases i <;> rfl

theorem position_cases (inside : pos < 17) :
    ∃ i < 6, pos = 3 * i ∨ pos = 3 * i + 1 ∨ i < 5 ∧ pos = 3 * i + 2 :=
  ⟨pos / 3, by omega, by omega⟩

theorem acceptedAt_addressText (inside : pos < 17) : AcceptedAt (addressText bytes) pos := by
  obtain ⟨i, small, rfl | rfl | ⟨less, rfl⟩⟩ := position_cases inside
  · refine ⟨_, addressText_first small, ?_⟩
    rw [accepts_digit (by omega), decide_eq_true_eq]
    exact (toUpper_hexDigit _ (Nat.mod_lt _ (by decide))).1
  · refine ⟨_, addressText_second small, ?_⟩
    rw [accepts_digit (by omega), decide_eq_true_eq]
    exact (toUpper_hexDigit _ (Nat.mod_lt _ (by decide))).1
  · refine ⟨_, addressText_colon less, ?_⟩
    rw [accepts_colon (by omega), decide_eq_true_eq]

theorem groupByte_addressText (inside : i < 6) (byte : bytes i < 256) :
    groupByte (addressText bytes) i = bytes i := by
  rw [groupByte, List.getD_eq_getElem?_getD, List.getD_eq_getElem?_getD,
    addressText_first inside, addressText_second inside, Option.getD_some, Option.getD_some,
    (toUpper_hexDigit _ (Nat.mod_lt _ (by decide))).2,
    (toUpper_hexDigit _ (Nat.mod_lt _ (by decide))).2]
  omega

theorem groupByte_of_accepted (first : AcceptedAt macstr (3 * i))
    (second : AcceptedAt macstr (3 * i + 1)) :
    groupByte macstr i < 256 ∧
      macstr[3 * i]? = some (hexDigit (groupByte macstr i / 16 % 16)).toUpper ∧
        macstr[3 * i + 1]? = some (hexDigit (groupByte macstr i % 16)).toUpper := by
  obtain ⟨a, there, good⟩ := first
  obtain ⟨b, there', good'⟩ := second
  rw [accepts_digit (by omega), decide_eq_true_eq] at good good'
  have below := digitValue_lt_of_valid good
  have below' := digitValue_lt_of_valid good'
  have byte : groupByte macstr i = 16 * digitValue a + digitValue b := by
    rw [groupByte, List.getD_eq_getElem?_getD, List.getD_eq_getElem?_getD, there, there']
    rfl
  have high : groupByte macstr i / 16 % 16 = digitValue a := by omega
  have low : groupByte macstr i % 16 = digitValue b := by omega
  rw [high, low, hexDigit_of_valid a good, hexDigit_of_valid b good']
  exact ⟨by omega, there, there'⟩

theorem addressText_groupByte (length : macstr.length = 17)
    (all : ∀ pos < 17, AcceptedAt macstr pos) : addressText (groupByte macstr) = macstr := by
  apply List.ext_getElem?
  intro pos
  by_cases inside : pos < 17
  · obtain ⟨i, small, rfl | rfl | ⟨less, rfl⟩⟩ := position_cases inside
    · rw [addressText_first small]
      exact (groupByte_of_accepted (all _ (by omega)) (all _ (by omega))).2.1.symm
    · rw [addressText_second small]
      exact (groupByte_of_accepted (all _ (by omega)) (all _ (by omega))).2.2.symm
    · obtain ⟨letter, there, good⟩ := all _ inside
      rw [accepts_colon (by omega), decide_eq_true_eq] at good
      rw [addressText_colon less, there, good]
  · rw [List.getElem?_eq_none (by rw [length_addressText]; omega),
      List.getElem?_eq_none (by omega)]

theorem toNat_shift (inside : i < 6) : (8 * (6 - i - 1)).toUInt64.toNat % 64 = 8 * (5 - i) := by
  interval_cases i <;> rfl

theorem toNat_addGroup (inside : i < 6) (byte : groupByte macstr i < 256)
    (room : macid.toNat + groupByte macstr i * 2 ^ (8 * (5 - i)) < 2 ^ 64) :
    (addGroup macstr macid i).toNat = macid.toNat + groupByte macstr i * 2 ^ (8 * (5 - i)) := by
  have small : (groupByte macstr i).toUInt64.toNat = groupByte macstr i :=
    Nat.mod_eq_of_lt (Nat.lt_trans byte (by decide))
  have part : groupByte macstr i * 2 ^ (8 * (5 - i)) < 2 ^ 64 := by omega
  rw [addGroup, UInt64.toNat_add, UInt64.toNat_shiftLeft, toNat_shift inside, small,
    Nat.shiftLeft_eq, Nat.mod_eq_of_lt part, Nat.mod_eq_of_lt room]

/-- The number that six bytes make. -/
theorem toNat_addGroups (small : ∀ i < 6, groupByte macstr i < 256) :
    ((List.range 6).foldl (addGroup macstr) 0).toNat =
      groupByte macstr 0 * 2 ^ 40 + groupByte macstr 1 * 2 ^ 32 + groupByte macstr 2 * 2 ^ 24 +
        groupByte macstr 3 * 2 ^ 16 + groupByte macstr 4 * 2 ^ 8 + groupByte macstr 5 := by
  have groups : (List.range 6).foldl (addGroup macstr) 0 =
      addGroup macstr (addGroup macstr (addGroup macstr (addGroup macstr (addGroup macstr
        (addGroup macstr 0 0) 1) 2) 3) 4) 5 := rfl
  have bytes := And.intro (small 0 (by omega)) (And.intro (small 1 (by omega))
    (And.intro (small 2 (by omega)) (And.intro (small 3 (by omega))
      (And.intro (small 4 (by omega)) (small 5 (by omega))))))
  have zero : (0 : UInt64).toNat = 0 := rfl
  have one := @toNat_addGroup macstr 0 0 (by omega) (small 0 (by omega)) (by omega)
  have two := @toNat_addGroup macstr (addGroup macstr 0 0) 1 (by omega) (small 1 (by omega))
    (by omega)
  have three := @toNat_addGroup macstr (addGroup macstr (addGroup macstr 0 0) 1) 2 (by omega)
    (small 2 (by omega)) (by omega)
  have four := @toNat_addGroup macstr _ 3 (by omega) (small 3 (by omega))
    (by rw [three]; omega)
  have five := @toNat_addGroup macstr _ 4 (by omega) (small 4 (by omega)) (by rw [four]; omega)
  have six := @toNat_addGroup macstr _ 5 (by omega) (small 5 (by omega)) (by rw [five]; omega)
  rw [groups, six, five, four, three, two, one]
  omega

theorem macToStr_eq (parts : ∀ i < 6, macid.toNat / 2 ^ (8 * (5 - i)) % 256 = bytes i) :
    macToStr macid = addressText bytes := by
  rw [macToStr, addressText, List.flatMap_eq_foldl, List.flatMap_eq_foldl]
  apply List.foldl_ext
  intro text i member
  have inside := List.mem_range.mp member
  have mask : (0xff : UInt64).toNat = 2 ^ 8 - 1 := rfl
  dsimp only
  rw [UInt64.toNat_and, UInt64.toNat_shiftRight, toNat_shift inside, mask,
    Nat.and_two_pow_sub_one_eq_mod, Nat.shiftRight_eq_div_pow, ← parts i inside]

end Text

section Reader

/-- A character that may stand at a position stands there. -/
def FitsAt (str : List Char) (pos : Nat) : Prop :=
  ∃ letter, str[pos]? = some letter ∧ fits pos letter

/-- A zero character ends what may be an address so far. -/
def CutShort (str : List Char) : Prop :=
  str.length = 17 ∧ ∃ pos, str[pos]? = some '\x00' ∧ ∀ earlier < pos, FitsAt str earlier

theorem not_fits_zero (pos : Nat) : ¬ fits pos '\x00' := by
  rw [fits]
  split
  · decide
  · decide

/-- The copy in upper case has all characters before the first zero. -/
theorem getElem?_toUpper (before : ∀ earlier < pos, str[earlier]? ≠ some '\x00') :
    (toUpper str)[pos]? =
      if str[pos]? = some '\x00' then none else str[pos]?.map Char.toUpper := by
  rw [toUpper, List.getElem?_map]
  induction str generalizing pos with
  | nil => simp
  | cons head tail ih =>
      by_cases zero : head = '\x00'
      · have here : pos = 0 := by
          by_contra later
          exact before 0 (Nat.pos_of_ne_zero later) (by rw [zero]; rfl)
        simp [here, zero]
      · rw [List.takeWhile_cons, if_pos (by rw [decide_eq_true_eq]; exact zero)]
        cases pos with
        | zero => simp [zero]
        | succ pos =>
            rw [List.getElem?_cons_succ, List.getElem?_cons_succ]
            apply ih
            intro earlier less
            have other := before (earlier + 1) (Nat.succ_lt_succ less)
            rwa [List.getElem?_cons_succ] at other

theorem ne_zero_of_fitsAt (fit : FitsAt str pos) : str[pos]? ≠ some '\x00' := by
  obtain ⟨letter, there, fitting⟩ := fit
  intro zero
  rw [there] at zero
  cases zero
  exact not_fits_zero pos fitting

theorem acceptedAt_toUpper (before : ∀ earlier < pos, FitsAt str earlier) :
    AcceptedAt (toUpper str) pos ↔ FitsAt str pos := by
  have upper := getElem?_toUpper fun earlier less => ne_zero_of_fitsAt (before earlier less)
  constructor
  · rintro ⟨letter, there, good⟩
    rw [upper] at there
    split at there
    · cases there
    · obtain ⟨original, original_there, rfl⟩ := Option.map_eq_some_iff.mp there
      exact ⟨original, original_there, (accepts_toUpper pos original).mp good⟩
  · intro fit
    have other := ne_zero_of_fitsAt fit
    obtain ⟨letter, there, fitting⟩ := fit
    refine ⟨letter.toUpper, ?_, (accepts_toUpper pos letter).mpr fitting⟩
    rw [upper, if_neg other, there]
    rfl

theorem strToMac_of_sixGroups (groups : ∀ pos < 17, FitsAt str pos) (length : str.length = 17) :
    ∃ macid, strToMac str = .ok macid ∧ macToStr macid = str.map Char.toUpper := by
  have upper : toUpper str = str.map Char.toUpper := by
    rw [toUpper, List.takeWhile_eq_self_iff.mpr]
    intro letter member
    obtain ⟨pos, bound, rfl⟩ := List.mem_iff_getElem.mp member
    have other := ne_zero_of_fitsAt (groups pos (by omega))
    rw [decide_eq_true_eq]
    intro zero
    exact other (by rw [List.getElem?_eq_getElem bound, zero])
  have all : ∀ pos < 17, AcceptedAt (toUpper str) pos := fun pos inside =>
    (acceptedAt_toUpper fun earlier less => groups earlier (Nat.lt_trans less inside)).mpr
      (groups pos inside)
  have small : ∀ i < 6, groupByte (toUpper str) i < 256 := fun i inside =>
    (groupByte_of_accepted (all _ (by omega)) (all _ (by omega))).1
  refine ⟨(List.range 6).foldl (addGroup (toUpper str)) 0, ?_, ?_⟩
  · rw [strToMac, if_neg (not_not.mpr length), List.range_eq_range',
      strToMacLoop_of_all (by rfl) all]
  · have value := toNat_addGroups small
    have text := addressText_groupByte (by rw [upper, List.length_map, length]) all
    rw [← upper]
    refine (macToStr_eq ?_).trans text
    intro i inside
    have bytes := And.intro (small 0 (by omega)) (And.intro (small 1 (by omega))
      (And.intro (small 2 (by omega)) (And.intro (small 3 (by omega))
        (And.intro (small 4 (by omega)) (small 5 (by omega))))))
    rw [value]
    interval_cases i <;> omega

/-- The first position that does not fit decides what is returned. -/
theorem strToMac_of_unfit (length : str.length = 17) (inside : pos < 17) (unfit : ¬ FitsAt str pos)
    (before : ∀ earlier < pos, FitsAt str earlier) :
    strToMac str = if str[pos]? = some '\x00' then .error .outOfRange else .ok 0 := by
  have refused : ¬ AcceptedAt (toUpper str) pos :=
    fun accepted => unfit ((acceptedAt_toUpper before).mp accepted)
  have accepted : ∀ earlier < pos, AcceptedAt (toUpper str) earlier := fun earlier less =>
    (acceptedAt_toUpper fun first lesser => before first (Nat.lt_trans lesser less)).mpr
      (before earlier less)
  have upper := getElem?_toUpper fun earlier less => ne_zero_of_fitsAt (before earlier less)
  have there : str[pos]? = some str[pos] := List.getElem?_eq_getElem (by omega)
  rw [strToMac, if_neg (not_not.mpr length), List.range_eq_range',
    strToMacLoop_of_refused (by rfl) (by omega) inside refused accepted, refusal, upper, there]
  split
  · rfl
  · rw [Option.map_some, if_neg (Option.some_ne_none _)]

theorem fits_or_unfit (str : List Char) :
    (∀ pos < 17, FitsAt str pos) ∨
      ∃ pos < 17, ¬ FitsAt str pos ∧ ∀ earlier < pos, FitsAt str earlier := by
  by_cases all : ∀ pos < 17, FitsAt str pos
  · exact Or.inl all
  · simp only [not_forall] at all
    classical
    have found : ∃ pos, ∃ _ : pos < 17, ¬ FitsAt str pos := all
    obtain ⟨inside, unfit⟩ := Nat.find_spec found
    refine Or.inr ⟨Nat.find found, inside, unfit, fun earlier less => ?_⟩
    by_contra before
    exact Nat.find_min found less ⟨Nat.lt_trans less inside, before⟩

/-- An address of 48 bits is read back from its text. -/
def ReadsBack (macid : UInt64) : Prop :=
  macid.toNat < 2 ^ 48 → strToMac (macToStr macid) = .ok macid

theorem upper_of_accepts (good : accepts pos letter = true) :
    letter.toUpper = letter ∧ letter ≠ '\x00' := by
  have digits : ∀ letter ∈ validDigits, letter.toUpper = letter ∧ letter ≠ '\x00' :=
    List.forall_iff_forall_mem.mp (by decide)
  rw [accepts] at good
  split at good
  · rw [of_decide_eq_true good]
    decide
  · exact digits letter (of_decide_eq_true good)

theorem toUpper_of_accepted (length : str.length = 17) (all : ∀ pos < 17, AcceptedAt str pos) :
    toUpper str = str := by
  have same : ∀ letter ∈ str, letter.toUpper = letter ∧ letter ≠ '\x00' := by
    intro letter member
    obtain ⟨pos, bound, rfl⟩ := List.mem_iff_getElem.mp member
    obtain ⟨other, there, good⟩ := all pos (by omega)
    rw [List.getElem?_eq_getElem bound] at there
    cases there
    exact upper_of_accepts good
  have whole : str.takeWhile (· ≠ '\x00') = str := by
    rw [List.takeWhile_eq_self_iff]
    intro letter member
    rw [decide_eq_true_eq]
    exact (same letter member).2
  rw [toUpper, whole]
  calc str.map Char.toUpper
    _ = str.map id := List.map_congr_left fun letter member => (same letter member).1
    _ = str := List.map_id str

theorem readsBack (macid : UInt64) : ReadsBack macid := by
  intro address
  have text : macToStr macid = addressText fun i => macid.toNat / 2 ^ (8 * (5 - i)) % 256 :=
    macToStr_eq fun _ _ => rfl
  have all : ∀ pos < 17, AcceptedAt (macToStr macid) pos := by
    rw [text]
    exact fun pos inside => acceptedAt_addressText inside
  have length : (macToStr macid).length = 17 := by
    rw [text, length_addressText]
  have bytes : ∀ i < 6, groupByte (macToStr macid) i = macid.toNat / 2 ^ (8 * (5 - i)) % 256 := by
    intro i inside
    rw [text, groupByte_addressText inside (Nat.mod_lt _ (by decide))]
  have value := toNat_addGroups fun i inside => by
    rw [bytes i inside]
    exact Nat.mod_lt _ (by decide)
  rw [bytes 0 (by omega), bytes 1 (by omega), bytes 2 (by omega), bytes 3 (by omega),
    bytes 4 (by omega), bytes 5 (by omega)] at value
  rw [strToMac, if_neg (not_not.mpr length), toUpper_of_accepted length all, List.range_eq_range',
    strToMacLoop_of_all (by rfl) all, ← List.range_eq_range']
  congr 1
  apply UInt64.toNat_inj.mp
  rw [value]
  omega

/-- Each text is read as it should be unless a zero character cuts an address short. -/
theorem readsMac_iff (str : List Char) (macid : UInt64) :
    ReadsBack macid ∧ (ReadsMac str ↔ ¬ CutShort str) := by
  refine ⟨readsBack macid, ?_⟩
  constructor
  · rintro ⟨⟨address, returned, -⟩, -⟩ ⟨length, pos, zero, before⟩
    have bound := (List.getElem?_eq_some_iff.mp zero).1
    have unfit : ¬ FitsAt str pos := fun fit => ne_zero_of_fitsAt fit zero
    rw [strToMac_of_unfit length (by omega) unfit before, if_pos zero] at returned
    cases returned
  · intro whole
    by_cases length : str.length = 17
    · rcases fits_or_unfit str with all | ⟨pos, inside, unfit, before⟩
      · obtain ⟨address, returned, text⟩ := strToMac_of_sixGroups all length
        refine ⟨⟨address, returned, Or.inr text⟩, fun other => absurd ⟨length, ?_⟩ other⟩
        intro pos letter there
        obtain ⟨same, stands, fitting⟩ := all pos (by
          have bound := (List.getElem?_eq_some_iff.mp there).1
          omega)
        rw [there] at stands
        cases stands
        exact fitting
      · have other : str[pos]? ≠ some '\x00' := fun zero => whole ⟨length, pos, zero, before⟩
        have zero := strToMac_of_unfit length inside unfit before
        rw [if_neg other] at zero
        exact ⟨⟨0, zero, Or.inl rfl⟩, fun _ => zero⟩
    · have zero : strToMac str = .ok 0 := if_pos length
      exact ⟨⟨0, zero, Or.inl rfl⟩, fun _ => zero⟩

/-- Seventeen zero characters are not refused but end in an exception. -/
theorem zeros_are_not_refused : ¬ ∀ str, ReadsMac str := by
  intro all
  obtain ⟨address, returned, -⟩ := (all (List.replicate 17 '\x00')).returns
  have thrown : strToMac (List.replicate 17 '\x00') = .error .outOfRange := rfl
  rw [thrown] at returned
  cases returned

end Reader

end OpenMplane
