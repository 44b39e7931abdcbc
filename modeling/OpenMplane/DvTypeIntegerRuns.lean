import OpenMplane.DvTypeInteger

/-!
# The text and the number of an integer value

A value of an integer type is set from texts and from numbers in any order.  Its text and
its number are written separately; they stay in agreement as long as each text that the
type lets through is a numeral that it also reads as a whole.
-/

namespace OpenMplane

open NumeralText Hexadecimal

/-- The calls that change the value of a variant. -/
inductive ValueCall
  | set (value : List Char)
  | setInt (value : Int32)
  | setUint (value : UInt32)
  | setLong (value : Int64)
  | clear
  deriving DecidableEq

namespace DvTypeInteger

variable {type : IntegerType}

/-- A call to a variant of an integer type. -/
def call (dv : DvTypeInteger type) : ValueCall → DvTypeInteger type
  | .set value => (dv.set value).2
  | .setInt value => dv.fromInterInt value.toInt
  | .setUint value => dv.fromInterInt value.toNat
  | .setLong value => dv.fromInterInt value.toInt
  | .clear => dv.clear

/-- `toInt`, `toUint` or `toLong`, whichever belongs to the type. -/
def toValue (dv : DvTypeInteger type) : Int := type.cast dv.toInterInt

/-- A text is a numeral that denotes a number.  Hexadecimal digits are the pattern of the
number in 32 bits. -/
def Denotes (type : IntegerType) (text : List Char) (value : Int) : Prop :=
  IsDecimal text ∧ decimalValue text = value ∨
    IsHexadecimal text ∧ hexadecimalValue text < 2 ^ 32 ∧
      type.cast (hexadecimalValue text) = value

/-- The text and the number of a variant agree. -/
def Agrees (dv : DvTypeInteger type) : Prop :=
  if dv.mIsSet then Denotes type dv.mStr dv.toValue else dv.mStr = [] ∧ dv.toValue = 0

/-- The digits behind the prefix of a hexadecimal number that a text begins with. -/
def hexPrefix : List Char → List Char
  | '0' :: mark :: rest =>
      if mark = 'x' ∨ mark = 'X' then rest.takeWhile isHexLetter
      else []
  | _ => []

/-- A text is a numeral for a number of the type, as long as it can be, with units behind
it or not. -/
def IsNumber (type : IntegerType) (text : List Char) : Prop :=
  ∃ numeral units, text = numeral ++ units ∧ (∀ letter ∈ units, isUnitsLetter letter = true) ∧
    if hexPrefix text = [] then
      IsDecimal numeral ∧ (∀ letter ∈ units.head?, letter.isDigit = false) ∧
        type.Represents (decimalValue numeral)
    else
      IsHexadecimal numeral ∧ (∀ letter ∈ units.head?, letter ∉ hexLetters) ∧
        hexadecimalValue numeral < 2 ^ 32

/-- A call takes no text that is not a numeral for a number of the type. -/
def Refuses (dv : DvTypeInteger type) : ValueCall → Prop
  | .set value => (dv.set value).1 = true → IsNumber type value
  | .setInt _ => True
  | .setUint _ => True
  | .setLong _ => True
  | .clear => True

/-- The text and the number agree in all states of a run, and no call of it takes a text
that it has to refuse. -/
def AgreesThroughout (dv : DvTypeInteger type) : List ValueCall → Prop
  | [] => Agrees dv
  | call :: rest => Agrees dv ∧ Refuses dv call ∧ AgreesThroughout (dv.call call) rest

/-- The digits of a hexadecimal number that the type reads are all that count. -/
def ReadsDigits (type : IntegerType) (digits : List Char) : Prop :=
  match type with
  | .int => hexValue (digits.take 8) = hexValue digits
  | .unsigned => hexValue (digits.take 8) = hexValue digits
  | .longLong => hexValue digits = 0

/-- What a text may be without its units: a decimal numeral only for a number of the type, a
hexadecimal one only with digits that are read.  `DvTypeLong` looks at the start only, so
that for it the text has to be a numeral. -/
def Suits (type : IntegerType) (valueStr : List Char) : Prop :=
  (strIsHex valueStr = true → ReadsDigits type (valueStr.drop 2)) ∧
    match type with
    | .int => strIsInt valueStr = true → type.Represents (decimalValue valueStr)
    | .unsigned => strIsInt valueStr = true → strIsUnsigned valueStr = true →
        type.Represents (decimalValue valueStr)
    | .longLong => strIsNumber valueStr = true → strIsHex valueStr = false →
        strIsInt valueStr = true ∧ type.Represents (decimalValue valueStr)

def SuitsCall (dv : DvTypeInteger type) : ValueCall → Prop
  | .set value => Suits type (dv.unitsFromStr value).1 ∧
      (type.isValid (dv.unitsFromStr value).1 = true → hexValue (hexPrefix value) < 2 ^ 32)
  | .setInt _ => True
  | .setUint _ => True
  | .setLong _ => True
  | .clear => True

/-- Each text of a run suits the variant at its time. -/
def SuitsThroughout (dv : DvTypeInteger type) : List ValueCall → Prop
  | [] => True
  | call :: rest => SuitsCall dv call ∧ SuitsThroughout (dv.call call) rest

section Reading

variable {value valueStr : List Char}

theorem hexValue_take_lt {digits : List Char} (hex : ∀ letter ∈ digits, letter ∈ hexLetters) :
    hexValue (digits.take 8) < 2 ^ 32 := by
  have front : ∀ letter ∈ digits.take 8, letter ∈ hexLetters :=
    fun letter member => hex letter (List.mem_of_mem_take member)
  have bound := hexValue_lt front
  calc hexValue (digits.take 8) < 16 ^ (digits.take 8).length := bound
    _ ≤ 16 ^ 8 := Nat.pow_le_pow_right (by decide) (List.length_take_le _ _)
    _ = 2 ^ 32 := by decide

/-- What `DvTypeLong` reads of a hexadecimal number is the zero at its start. -/
theorem strtol_hexadecimal (hex : IsHexadecimal valueStr) : strtol valueStr = 0 := by
  obtain ⟨mark, digits, rfl, marked, -, -⟩ := hex
  have stops : ∀ letter ∈ (mark :: digits).head?, letter.isDigit = false := by
    intro letter member
    cases member
    rcases marked with rfl | rfl <;> rfl
  have read := @integerValue_append ['0'] (mark :: digits) (strIsInt_iff.mp rfl) stops
  rw [List.singleton_append] at read
  rw [strtol, read]
  rfl

theorem denotes_hexadecimal_iff (hex : strIsHex valueStr = true) (value : Int) :
    Denotes type valueStr value ↔
      hexadecimalValue valueStr < 2 ^ 32 ∧ type.cast (hexadecimalValue valueStr) = value := by
  have noDecimal : ¬ IsDecimal valueStr := by
    rw [← strIsInt_iff, not_strIsInt_of_strIsHex hex]
    exact Bool.false_ne_true
  constructor
  · rintro (⟨decimal, -⟩ | ⟨-, denotes⟩)
    · exact absurd decimal noDecimal
    · exact denotes
  · exact fun denotes => .inr ⟨strIsHex_iff.mp hex, denotes⟩

theorem denotes_decimal_iff (noHex : strIsHex valueStr = false) (value : Int) :
    Denotes type valueStr value ↔ strIsInt valueStr = true ∧ decimalValue valueStr = value := by
  rw [strIsInt_iff]
  constructor
  · rintro (denotes | ⟨hex, -⟩)
    · exact denotes
    · rw [strIsHex_iff.mpr hex] at noHex
      cases noHex
  · exact .inl

/-- A text that is let through denotes the number that is read from it just when it suits
the type. -/
theorem denotes_readValue_iff (valid : type.isValid valueStr = true) :
    Denotes type valueStr (type.cast (readValue type valueStr)) ↔ Suits type valueStr := by
  cases hex : strIsHex valueStr with
  | true =>
      have noInt := not_strIsInt_of_strIsHex hex
      obtain ⟨mark, digits, same, marked, nonempty, letters⟩ := strIsHex_iff.mp hex
      have drop : valueStr.drop 2 = digits := by rw [same]; rfl
      have bound := hexValue_take_lt letters
      have scanned := scanHex_digits letters
      rw [denotes_hexadecimal_iff hex, hexadecimalValue, drop]
      unfold Suits
      rw [drop]
      cases type with
      | int =>
          simp only [IntegerType.cast, readValue, hex, if_true, drop, scanned, ReadsDigits, noInt,
            Bool.false_eq_true, false_imp_iff, and_true, true_imp_iff, toInt32]
          omega
      | unsigned =>
          simp only [IntegerType.cast, readValue, hex, if_true, drop, scanned, ReadsDigits, noInt,
            Bool.false_eq_true, false_imp_iff, and_true, true_imp_iff, toUint32]
          omega
      | longLong =>
          have zero := strtol_hexadecimal (strIsHex_iff.mp hex)
          simp only [IntegerType.cast, readValue, atoll, zero, hex, ReadsDigits, true_imp_iff,
            Bool.true_eq_false, false_imp_iff, imp_true_iff, and_true, toInt64]
          omega
  | false =>
      rw [denotes_decimal_iff hex]
      unfold Suits
      cases type with
      | int =>
          have integer := (IntegerType.isValid_int.mp valid).resolve_right (by simp [hex])
          have read := strtol_decimal (strIsInt_iff.mp integer)
          simp only [IntegerType.cast, readValue, hex, Bool.false_eq_true, if_false, false_imp_iff,
            true_and, integer, true_imp_iff, atoi, read, toInt32, IntegerType.Represents]
          omega
      | unsigned =>
          obtain ⟨numeral, positive⟩ := IntegerType.isValid_unsigned.mp valid
          have integer := numeral.resolve_right (by simp [hex])
          have read := strtol_decimal (strIsInt_iff.mp integer)
          simp only [IntegerType.cast, readValue, hex, Bool.false_eq_true, if_false, false_imp_iff,
            true_and, integer, positive, true_imp_iff, atoi, read, toInt32, toUint32,
            IntegerType.Represents]
          omega
      | longLong =>
          have number : strIsNumber valueStr = true := valid
          simp only [IntegerType.cast, readValue, hex, Bool.false_eq_true, false_imp_iff, true_and,
            number, true_imp_iff, atoll]
          refine and_congr_right fun integer => ?_
          have read := strtol_decimal (strIsInt_iff.mp integer)
          simp only [read, toInt64, IntegerType.Represents]
          omega

/-- A text that is not let through suits every type. -/
theorem suits_of_invalid (invalid : type.isValid valueStr = false) : Suits type valueStr := by
  have refused : ¬ type.isValid valueStr = true := by
    rw [invalid]
    exact Bool.false_ne_true
  cases type with
  | int =>
      rw [IntegerType.isValid_int] at refused
      exact ⟨fun hex => absurd (.inr hex) refused, fun integer => absurd (.inl integer) refused⟩
  | unsigned =>
      rw [IntegerType.isValid_unsigned] at refused
      refine ⟨fun hex => absurd ⟨.inr hex, ?_⟩ refused,
        fun integer positive => absurd ⟨.inl integer, positive⟩ refused⟩
      obtain ⟨mark, digits, rfl, -, -, -⟩ := strIsHex_iff.mp hex
      rfl
  | longLong =>
      exact ⟨fun hex => absurd (strIsNumber_of_strIsHex hex) refused,
        fun number => absurd number refused⟩

end Reading

section Numbers

variable {value valueStr units rest : List Char} {mark : Char}

theorem represents_of_suits (valid : type.isValid valueStr = true) (suits : Suits type valueStr)
    (noHex : strIsHex valueStr = false) :
    IsDecimal valueStr ∧ type.Represents (decimalValue valueStr) := by
  rw [← strIsInt_iff]
  cases type with
  | int =>
      have integer := (IntegerType.isValid_int.mp valid).resolve_right (by simp [noHex])
      exact ⟨integer, suits.2 integer⟩
  | unsigned =>
      obtain ⟨numeral, positive⟩ := IntegerType.isValid_unsigned.mp valid
      have integer := numeral.resolve_right (by simp [noHex])
      exact ⟨integer, suits.2 integer positive⟩
  | longLong => exact suits.2 valid noHex

/-- What is let through is the text without its units. -/
theorem unitsFromStr_of_valid (dv : DvTypeInteger type)
    (valid : type.isValid (dv.unitsFromStr value).1 = true) :
    (dv.unitsFromStr value).1 = (splitUnits value).1 := by
  unfold unitsFromStr at valid ⊢
  dsimp only at valid ⊢
  split at valid
  · next none => rw [if_pos none]
  · next some =>
      rw [if_neg some]
      split at valid
      · cases type <;> cases valid
      · next kept => rw [if_neg kept]

theorem hexPrefix_cons (marked : mark = 'x' ∨ mark = 'X') :
    hexPrefix ('0' :: mark :: rest) = rest.takeWhile isHexLetter := by
  rw [hexPrefix, if_pos marked]

theorem hexPrefix_ne_nil (hex : IsHexadecimal valueStr) : hexPrefix (valueStr ++ units) ≠ [] := by
  obtain ⟨mark, digits, rfl, marked, nonempty, letters⟩ := hex
  cases digits with
  | nil => exact absurd rfl nonempty
  | cons first digits =>
      have taken : isHexLetter first = true := decide_eq_true (letters first List.mem_cons_self)
      rw [List.cons_append, List.cons_append, hexPrefix_cons marked, List.cons_append,
        List.takeWhile_cons_of_pos taken]
      exact List.cons_ne_nil _ _

theorem eq_of_hexPrefix_ne_nil (some : hexPrefix value ≠ []) :
    ∃ mark rest, value = '0' :: mark :: rest ∧ (mark = 'x' ∨ mark = 'X') := by
  unfold hexPrefix at some
  split at some
  · next mark rest =>
      split at some
      · next marked => exact ⟨mark, rest, rfl, marked⟩
      · exact absurd rfl some
  · exact absurd rfl some

/-- Behind the digits of a hexadecimal number stand only letters of its units. -/
theorem mem_units_of_hexPrefix (marked : mark = 'x' ∨ mark = 'X')
    (whole : '0' :: mark :: rest = valueStr ++ units)
    (numeral : IsDecimal valueStr ∨ IsHexadecimal valueStr) {letter : Char}
    (member : letter ∈ rest.dropWhile isHexLetter) :
    letter ∈ units := by
  have inRest := (List.dropWhile_sublist _).mem member
  rcases numeral with decimal | ⟨other, digits, rfl, -, -, letters⟩
  · have noMark : mark ∉ valueStr := by
      rcases marked with rfl | rfl <;> exact not_mem_of_isDecimal decimal (by decide) rfl
    match valueStr with
    | [] => exact absurd rfl decimal.1
    | [first] =>
        obtain ⟨-, same⟩ := List.cons.inj whole
        have rest_eq : mark :: rest = units := same
        exact rest_eq ▸ List.mem_cons_of_mem mark inRest
    | first :: second :: tail =>
        obtain ⟨-, same⟩ := List.cons.inj whole
        obtain ⟨rfl, -⟩ := List.cons.inj same
        exact absurd (List.mem_cons_of_mem _ List.mem_cons_self) noMark
  · obtain ⟨-, same⟩ := List.cons.inj whole
    have rest_eq : rest = digits ++ units := (List.cons.inj same).2
    have all : ∀ letter ∈ digits, isHexLetter letter = true :=
      fun letter inside => decide_eq_true (letters letter inside)
    rw [rest_eq, List.dropWhile_append_of_pos all] at member
    exact (List.dropWhile_sublist _).mem member

theorem isNumber_of_suits (dv : DvTypeInteger type)
    (valid : type.isValid (dv.unitsFromStr value).1 = true)
    (suits : SuitsCall dv (.set value)) : IsNumber type value := by
  obtain ⟨suits, short⟩ := suits
  have few := short valid
  have front := dv.unitsFromStr_of_valid valid
  rw [front] at valid suits
  clear short front
  obtain ⟨whole, letters, stops⟩ := splitUnits_spec value
  generalize (splitUnits value).1 = valueStr at valid suits whole
  generalize (splitUnits value).2 = units at whole letters stops
  by_cases none : hexPrefix value = []
  · have noHex : strIsHex valueStr = false := by
      rw [Bool.eq_false_iff, ne_eq, strIsHex_iff]
      exact fun hex => hexPrefix_ne_nil hex (whole ▸ none)
    obtain ⟨decimal, fits⟩ := represents_of_suits valid suits noHex
    refine ⟨valueStr, units, whole, letters, ?_⟩
    rw [if_pos none]
    refine ⟨decimal, fun letter first => ?_, fits⟩
    have other := stops letter first
    rw [isNumberLetter, Bool.or_eq_false_iff, Bool.or_eq_false_iff] at other
    exact other.1.1
  · obtain ⟨mark, rest, rfl, marked⟩ := eq_of_hexPrefix_ne_nil none
    have numeral : IsDecimal valueStr ∨ IsHexadecimal valueStr := by
      rw [← strIsHex_iff]
      cases hex : strIsHex valueStr with
      | true => exact .inr rfl
      | false => exact .inl (represents_of_suits valid suits hex).1
    rw [hexPrefix_cons marked] at none few
    refine ⟨'0' :: mark :: rest.takeWhile isHexLetter,
      rest.dropWhile isHexLetter, ?_, ?_, ?_⟩
    · rw [List.cons_append, List.cons_append, List.takeWhile_append_dropWhile]
    · exact fun letter member => letters letter (mem_units_of_hexPrefix marked whole numeral member)
    · rw [hexPrefix_cons marked, if_neg none]
      refine ⟨⟨mark, _, rfl, marked, none, fun letter member => ?_⟩, fun letter first => ?_, few⟩
      · have hex := List.mem_takeWhile_imp member
        exact of_decide_eq_true hex
      · have stops := List.head?_dropWhile_not isHexLetter rest
        rw [Option.mem_def.mp first] at stops
        exact of_decide_eq_false stops

end Numbers

section Calls

theorem agrees_clear (dv : DvTypeInteger type) : Agrees dv.clear := by
  cases type <;> exact ⟨rfl, rfl⟩

theorem agrees_fromInterInt (dv : DvTypeInteger type) (value : Int) :
    Agrees (dv.fromInterInt value) := by
  show Denotes type (valueText type dv.mIsHex (type.cast value)) (type.cast (type.cast value))
  rw [type.cast_cast]
  have fits := type.represents_cast value
  generalize type.cast value = number at fits
  obtain ⟨decimal, same⟩ := isDecimal_intText number
  obtain ⟨letters, whole⟩ := hexValue_hexText (toUint32 number).toNat
  have hex : IsHexadecimal ('0' :: 'x' :: hexText (toUint32 number).toNat) :=
    ⟨'x', _, rfl, .inl rfl, hexText_ne_nil _, letters⟩
  have digits : hexadecimalValue ('0' :: 'x' :: hexText (toUint32 number).toNat) =
      (toUint32 number).toNat := whole
  cases type with
  | int =>
      rw [valueText]
      split
      · refine .inr ⟨hex, ?_⟩
        rw [digits]
        simp only [IntegerType.Represents, IntegerType.cast, toInt32, toUint32] at fits ⊢
        omega
      · rw [intToStr_eq]
        exact .inl ⟨decimal, same⟩
  | unsigned =>
      rw [valueText]
      split
      · refine .inr ⟨hex, ?_⟩
        rw [digits]
        simp only [IntegerType.Represents, IntegerType.cast, toUint32] at fits ⊢
        omega
      · exact .inl ⟨decimal, same⟩
  | longLong => exact .inl ⟨decimal, same⟩

theorem set_of_valid (dv : DvTypeInteger type) {value : List Char}
    (valid : type.isValid (dv.unitsFromStr value).1 = true) :
    dv.set value = (true, { (dv.unitsFromStr value).2 with
      mVal := readValue type (dv.unitsFromStr value).1
      mIsHex := readsHex type (dv.unitsFromStr value).1 }.setStr (dv.unitsFromStr value).1) := by
  rw [set]
  exact if_pos valid

theorem set_of_invalid (dv : DvTypeInteger type) {value : List Char}
    (invalid : type.isValid (dv.unitsFromStr value).1 = false) :
    dv.set value = (false, (dv.unitsFromStr value).2.clear) := by
  have refused : ¬ type.isValid (dv.unitsFromStr value).1 = true := by
    rw [invalid]
    exact Bool.false_ne_true
  rw [set]
  exact if_neg refused

/-- Set from a text, the text and the number agree just when the text suits the type. -/
theorem agrees_set_iff (dv : DvTypeInteger type) (value : List Char) :
    Agrees (dv.set value).2 ↔ Suits type (dv.unitsFromStr value).1 := by
  cases valid : type.isValid (dv.unitsFromStr value).1 with
  | true =>
      rw [dv.set_of_valid valid]
      exact denotes_readValue_iff valid
  | false =>
      rw [dv.set_of_invalid valid]
      exact iff_of_true (agrees_clear _) (suits_of_invalid valid)

/-- A hexadecimal number of more than 32 bits is not a number of any type. -/
theorem hexPrefix_lt_of_isNumber {value : List Char} (number : IsNumber type value) :
    hexValue (hexPrefix value) < 2 ^ 32 := by
  obtain ⟨numeral, units, rfl, -, reads⟩ := number
  split at reads
  · next none =>
      rw [none]
      decide
  · obtain ⟨⟨mark, digits, rfl, marked, -, letters⟩, stops, small⟩ := reads
    have all : ∀ letter ∈ digits, isHexLetter letter = true :=
      fun letter inside => decide_eq_true (letters letter inside)
    have none : units.takeWhile isHexLetter = [] := by
      cases units with
      | nil => rfl
      | cons first units =>
          have stop : isHexLetter first = false := decide_eq_false (stops first rfl)
          rw [List.takeWhile_cons, stop]
          rfl
    rw [List.cons_append, List.cons_append, hexPrefix_cons marked,
      List.takeWhile_append_of_pos all, none, List.append_nil]
    exact small

/-- After a call the text and the number agree, and the call has taken no text that it has
to refuse, just when its text suits the variant. -/
theorem call_iff (dv : DvTypeInteger type) (call : ValueCall) :
    Agrees (dv.call call) ∧ Refuses dv call ↔ SuitsCall dv call := by
  cases call with
  | set value =>
      constructor
      · rintro ⟨agrees, refuses⟩
        refine ⟨(dv.agrees_set_iff value).mp agrees, fun valid => ?_⟩
        apply hexPrefix_lt_of_isNumber
        apply refuses
        rw [dv.set_of_valid valid]
      · intro suits
        refine ⟨(dv.agrees_set_iff value).mpr suits.1, fun taken => ?_⟩
        cases valid : type.isValid (dv.unitsFromStr value).1 with
        | true => exact dv.isNumber_of_suits valid suits
        | false =>
            rw [dv.set_of_invalid valid] at taken
            cases taken
  | setInt value => exact iff_of_true ⟨dv.agrees_fromInterInt _, trivial⟩ trivial
  | setUint value => exact iff_of_true ⟨dv.agrees_fromInterInt _, trivial⟩ trivial
  | setLong value => exact iff_of_true ⟨dv.agrees_fromInterInt _, trivial⟩ trivial
  | clear => exact iff_of_true ⟨dv.agrees_clear, trivial⟩ trivial

/-- From a variant whose text and number agree, they do so throughout a run just when each
text of the run suits the variant. -/
theorem agreesThroughout_iff_of_agrees {dv : DvTypeInteger type} (agrees : Agrees dv)
    (calls : List ValueCall) : AgreesThroughout dv calls ↔ SuitsThroughout dv calls := by
  induction calls generalizing dv with
  | nil => exact iff_of_true agrees trivial
  | cons call rest ih =>
      rw [AgreesThroughout, SuitsThroughout, ← dv.call_iff call]
      constructor
      · rintro ⟨-, refuses, later⟩
        have next : Agrees (dv.call call) := by
          cases rest with
          | nil => exact later
          | cons other rest => exact later.1
        exact ⟨⟨next, refuses⟩, (ih next).mp later⟩
      · rintro ⟨⟨next, refuses⟩, later⟩
        exact ⟨agrees, refuses, (ih next).mpr later⟩

end Calls

/-- A variant as it is made from the text of its type and its units. -/
def made (type : IntegerType) (typeStr units : List Char) : DvTypeInteger type :=
  (construct type typeStr).setUnits units

/-- The text and the number of a variant agree throughout a run just when each text of the
run suits the variant. -/
theorem agreesThroughout_iff (type : IntegerType) (typeStr units : List Char)
    (calls : List ValueCall) :
    AgreesThroughout (made type typeStr units) calls ↔
      SuitsThroughout (made type typeStr units) calls :=
  agreesThroughout_iff_of_agrees (by cases type <;> exact ⟨rfl, rfl⟩) calls

/-- A `LONG` is set from the text of a fraction, and its number is another one. -/
theorem fraction_is_taken : ¬ ∀ (type : IntegerType) (typeStr units : List Char)
    (calls : List ValueCall), AgreesThroughout (made type typeStr units) calls := by
  intro all
  have agrees := (all .longLong "LONG".toList [] [.set ['1', '.', '5']]).2.2
  have suits := ((made .longLong "LONG".toList []).agrees_set_iff ['1', '.', '5']).mp agrees
  exact absurd (suits.2 rfl rfl).1 (by decide)

end DvTypeInteger

end OpenMplane
