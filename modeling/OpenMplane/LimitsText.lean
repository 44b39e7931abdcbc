import OpenMplane.DvTypeInteger

/-!
# Limits read from their text

A limits text `min..max/step` in which some parts are numerals and the others are left out,
and what a variant makes of it: which values it lets through, and the text that it shows
for the limits, from which they are read again.
-/

namespace OpenMplane

open NumeralText StringFunc ListCut

section Find

variable {word before after text : List Char} {first : Char}

/-- A word is found where its first letter stands for the first time. -/
theorem findStr_of_append (absent : first ∉ before) :
    findStr (first :: word) (before ++ (first :: word) ++ after) 0 = some before.length := by
  have cut := @cutWord_append Char _ (first :: word) before after (by
    rintro start rest split nonempty ⟨tail, whole⟩
    cases rest with
    | nil => exact nonempty rfl
    | cons letter rest =>
        rw [List.cons_append, List.cons_append, List.cons_append] at whole
        obtain ⟨rfl, -⟩ := List.cons.inj whole
        exact absent (split ▸ List.mem_append_right start List.mem_cons_self))
  rw [findStr, if_pos (Nat.zero_le _), List.drop_zero, cut, Option.map_some, Nat.zero_add]

theorem findStr_eq_none (absent : first ∉ text) : findStr (first :: word) text 0 = none := by
  have uncut : cutWord (first :: word) text = none := by
    cases cut : cutWord (first :: word) text with
    | none => rfl
    | some parts =>
        have whole := (cutWord_eq_some cut).1
        rw [whole] at absent
        exact absurd (List.mem_append_left _ (List.mem_append_right _ List.mem_cons_self)) absent
  rw [findStr, if_pos (Nat.zero_le _), List.drop_zero, uncut, Option.map_none]

end Find

/-- The text of limits: numerals for some of the parts, and whether the dots and the slash
are written although nothing stands beside them. -/
structure LimitsText (type : IntegerType) where
  min : Option (List Char)
  max : Option (List Char)
  step : Option (List Char)
  dots : Bool
  slash : Bool
  numeral : ∀ part ∈ [min, max, step], ∀ text ∈ part,
    IsDecimal text ∧ type.Represents (decimalValue text)
  given : min.isSome ∨ max.isSome ∨ step.isSome

namespace LimitsText

variable {type : IntegerType} (parts : LimitsText type)

/-- `min..max`. -/
def rangeText : List Char :=
  if parts.min = none ∧ parts.max = none ∧ parts.dots = false then []
  else parts.min.getD [] ++ ['.', '.'] ++ parts.max.getD []

/-- `/step`. -/
def stepText : List Char :=
  if parts.step = none ∧ parts.slash = false then [] else '/' :: parts.step.getD []

/-- `min..max/step`. -/
def text : List Char := parts.rangeText ++ parts.stepText

theorem not_mem_part (letter : Char) (other : letter ≠ '-') (noDigit : letter.isDigit = false)
    {part : Option (List Char)} (member : part ∈ [parts.min, parts.max, parts.step]) :
    letter ∉ part.getD [] := by
  cases part with
  | none => exact List.not_mem_nil
  | some text => exact not_mem_of_isDecimal (parts.numeral _ member text rfl).1 other noDigit

theorem slash_not_mem_rangeText : '/' ∉ parts.rangeText := by
  have inPart := @not_mem_part type parts '/' (by decide) rfl
  have inMin := @inPart parts.min (by simp)
  have inMax := @inPart parts.max (by simp)
  rw [rangeText]
  split
  · exact List.not_mem_nil
  · simp [inMin, inMax]

theorem dot_not_mem_stepText : '.' ∉ parts.stepText := by
  have inStep := @not_mem_part type parts '.' (by decide) rfl parts.step (by simp)
  rw [stepText]
  split
  · exact List.not_mem_nil
  · simp [inStep]

theorem findStr_dots : findStr ['.', '.'] parts.text 0 =
    if parts.min = none ∧ parts.max = none ∧ parts.dots = false then none
    else some (parts.min.getD []).length := by
  have inMin := @not_mem_part type parts '.' (by decide) rfl parts.min (by simp)
  rw [text, rangeText]
  split
  · exact findStr_eq_none parts.dot_not_mem_stepText
  · rw [List.append_assoc]
    exact findStr_of_append inMin

theorem findStr_slash : findStr ['/'] parts.text 0 =
    if parts.step = none ∧ parts.slash = false then none else some parts.rangeText.length := by
  rw [text, stepText]
  split
  · rw [List.append_nil]
    exact findStr_eq_none parts.slash_not_mem_rangeText
  · have found := @findStr_of_append [] parts.rangeText (parts.step.getD []) '/'
      parts.slash_not_mem_rangeText
    rwa [List.append_assoc] at found

theorem minPart_text : Limits.minPart parts.text = parts.min.getD [] := by
  rw [Limits.minPart, findStr_dots]
  by_cases absent : parts.min = none ∧ parts.max = none ∧ parts.dots = false
  · rw [if_pos absent, absent.1]
    rfl
  · rw [if_neg absent, text, rangeText, if_neg absent]
    dsimp only
    rw [List.append_assoc, List.append_assoc, List.take_left]

theorem stepPart_text : Limits.stepPart parts.text = parts.step.getD [] := by
  rw [Limits.stepPart, findStr_slash]
  by_cases absent : parts.step = none ∧ parts.slash = false
  · rw [if_pos absent, absent.1]
    rfl
  · rw [if_neg absent, text, stepText, if_neg absent]
    dsimp only
    rw [← List.drop_drop, List.drop_left]
    rfl

theorem maxPart_text : Limits.maxPart parts.text = parts.max.getD [] := by
  rw [Limits.maxPart, findStr_dots, findStr_slash]
  by_cases absent : parts.min = none ∧ parts.max = none ∧ parts.dots = false
  · rw [if_pos absent, absent.2.1]
    rfl
  · have range : parts.rangeText = parts.min.getD [] ++ ['.', '.'] ++ parts.max.getD [] := by
      rw [rangeText, if_neg absent]
    have behind : parts.text.drop ((parts.min.getD []).length + 2) =
        parts.max.getD [] ++ parts.stepText := by
      rw [text, range, ← List.drop_drop, List.append_assoc, List.append_assoc, List.drop_left]
      rfl
    rw [if_neg absent]
    by_cases unwritten : parts.step = none ∧ parts.slash = false
    · rw [if_pos unwritten]
      dsimp only
      rw [behind, stepText, if_pos unwritten, List.append_nil]
    · have size : parts.rangeText.length =
          (parts.min.getD []).length + 2 + (parts.max.getD []).length := by
        rw [range, List.length_append, List.length_append]
        rfl
      rw [if_neg unwritten]
      dsimp only
      rw [if_pos (by omega), behind, size, Nat.add_sub_cancel_left, List.take_left]

/-- The limit that a part is read as. -/
def limit (part : Option (List Char)) : LimitVal Int :=
  match part with
  | none => LimitVal.cleared
  | some text => LimitVal.set (decimalValue text) text

theorem isVariable_of_isDecimal {text : List Char} (decimal : IsDecimal text) :
    isVariable text = false := by
  have absent : '$' ∉ text := not_mem_of_isDecimal decimal (by decide) rfl
  have unlike : ¬ ['$', '{'] <+: text := fun front => absent (front.subset List.mem_cons_self)
  rw [isVariable, decide_eq_false unlike, Bool.and_false, Bool.false_and]

/-- Where a converter is there, a numeral of the type is read as its number. -/
theorem read_part (other : type ≠ .longLong) {part : Option (List Char)}
    (member : part ∈ [parts.min, parts.max, parts.step]) :
    LimitVal.read (valConvert type) (part.getD []) = limit part := by
  cases part with
  | none => rfl
  | some text =>
      obtain ⟨decimal, fits⟩ := parts.numeral _ member text rfl
      have nonempty : text ≠ [] := by
        rintro rfl
        exact decimal.1 rfl
      have read := stol_decimal decimal fits.long.1 fits.long.2
      have converted : valConvert type text = some (decimalValue text) := by
        rw [← IntegerType.cast_of_represents fits]
        cases type with
        | int => rw [valConvert, read]
        | unsigned => rw [valConvert, read]
        | longLong => exact absurd rfl other
      rw [Option.getD_some, LimitVal.read, if_neg nonempty, converted]
      rfl

/-- Are both bounds given, the larger one first. -/
def reversed : Bool :=
  match parts.min, parts.max with
  | some min, some max => decide (decimalValue max < decimalValue min)
  | _, _ => false

/-- The text of the same limits with the smaller bound first, and nothing but its parts. -/
def ordered : LimitsText type where
  min := if parts.reversed then parts.max else parts.min
  max := if parts.reversed then parts.min else parts.max
  step := parts.step
  dots := false
  slash := false
  numeral := by
    intro part member
    apply parts.numeral
    split at member
    · simp only [List.mem_cons] at member ⊢
      tauto
    · exact member
  given := by
    have given := parts.given
    split
    · tauto
    · exact given

/-- The limits that are read. -/
def limits (units : List Char) : Limits Int where
  mMin := limit parts.ordered.min
  mMax := limit parts.ordered.max
  mStep := limit parts.ordered.step
  mUnitsStr := units

theorem isSet_limit (part : Option (List Char)) : (limit part).isSet = part.isSome := by
  cases part <;> rfl

theorem mVal_limit (part : Option (List Char)) :
    (limit part).mVal = part.map decimalValue := by
  cases part <;> rfl

theorem isVariable_limit {part : Option (List Char)}
    (member : part ∈ [parts.min, parts.max, parts.step]) : (limit part).mIsVariable = false := by
  cases part with
  | none => rfl
  | some text => exact isVariable_of_isDecimal (parts.numeral _ member text rfl).1

theorem set_text (other : type ≠ .longLong) (before : Limits Int) :
    before.set (valConvert type) parts.text = (true, parts.limits before.mUnitsStr) := by
  have minMember : parts.min ∈ [parts.min, parts.max, parts.step] := by simp
  have maxMember : parts.max ∈ [parts.min, parts.max, parts.step] := by simp
  have stepMember : parts.step ∈ [parts.min, parts.max, parts.step] := by simp
  have some : ¬ (!parts.min.isSome && !parts.max.isSome && !parts.step.isSome) = true := by
    have given := parts.given
    simp only [Bool.and_eq_true, Bool.not_eq_true']
    rintro ⟨⟨noMin, noMax⟩, noStep⟩
    simp [noMin, noMax, noStep] at given
  rw [Limits.set, minPart_text, maxPart_text, stepPart_text, parts.read_part other minMember,
    parts.read_part other maxMember, parts.read_part other stepMember]
  dsimp only
  rw [isSet_limit, isSet_limit, isSet_limit, if_neg some, parts.isVariable_limit minMember,
    parts.isVariable_limit maxMember, mVal_limit, mVal_limit]
  have minPlain := parts.isVariable_limit minMember
  have maxPlain := parts.isVariable_limit maxMember
  unfold limits ordered reversed
  dsimp only
  cases min : parts.min with
  | none => rfl
  | some minText =>
      cases max : parts.max with
      | none => rfl
      | some maxText =>
          rw [min, limit, LimitVal.set] at minPlain
          rw [max, limit, LimitVal.set] at maxPlain
          dsimp only at minPlain maxPlain ⊢
          rw [Option.map_some, Option.map_some]
          dsimp only
          by_cases less : decimalValue maxText < decimalValue minText
          · rw [if_pos (by simp [less])]
            simp only [less, decide_true, if_true, limit, LimitVal.set, LimitVal.swap, minPlain,
              maxPlain]
          · rw [if_neg (by simp [less])]
            simp only [less, decide_false, Bool.false_eq_true, if_false]

theorem reversed_ordered : parts.ordered.reversed = false := by
  unfold reversed ordered
  dsimp only
  unfold reversed
  cases min : parts.min with
  | none => cases max : parts.max <;> rfl
  | some minText =>
      cases max : parts.max with
      | none => rfl
      | some maxText =>
          dsimp only
          by_cases less : decimalValue maxText < decimalValue minText
          · simp only [less, decide_true, if_true, decide_eq_false_iff_not]
            omega
          · simp only [less, decide_false, Bool.false_eq_true, if_false]

theorem limits_ordered (units : List Char) : parts.ordered.limits units = parts.limits units := by
  have still : ¬ parts.ordered.reversed = true := by
    rw [reversed_ordered]
    exact Bool.false_ne_true
  have min : parts.ordered.ordered.min = parts.ordered.min := if_neg still
  have max : parts.ordered.ordered.max = parts.ordered.max := if_neg still
  rw [limits, min, max]
  rfl

theorem shown_limits (units : List Char) : (parts.limits units).shown = parts.ordered.text := by
  have noDots : parts.ordered.dots = false := rfl
  have noSlash : parts.ordered.slash = false := rfl
  rw [Limits.shown, limits, text, rangeText, stepText, noDots, noSlash]
  dsimp only
  rw [isSet_limit, isSet_limit, isSet_limit]
  cases parts.ordered.min <;> cases parts.ordered.max <;> cases parts.ordered.step <;>
    simp [limit, LimitVal.set]

theorem text_ne_nil : parts.text ≠ [] := by
  intro empty
  have given := parts.given
  rw [text, List.append_eq_nil_iff, rangeText, stepText] at empty
  obtain ⟨noRange, noStep⟩ := empty
  split at noRange
  · next absent =>
      split at noStep
      · next unwritten => simp [absent.1, absent.2.1, unwritten.1] at given
      · cases noStep
  · simp at noRange

/-- Is a value not below the smaller and not above the larger one of the bounds that are
given. -/
def Admits (value : Int) : Prop :=
  match parts.min, parts.max with
  | none, none => True
  | some min, none => decimalValue min ≤ value
  | none, some max => value ≤ decimalValue max
  | some min, some max =>
      Min.min (decimalValue min) (decimalValue max) ≤ value ∧
        value ≤ Max.max (decimalValue min) (decimalValue max)

/-- The limits let through what their text admits. -/
theorem check_limits (print : Int → List Char) (units : List Char) (value : Int) :
    (parts.limits units).check print value = none ↔ parts.Admits value := by
  rw [Limits.check_eq_none, limits]
  dsimp only
  rw [mVal_limit, mVal_limit]
  unfold Admits ordered reversed
  dsimp only
  cases min : parts.min with
  | none => cases max : parts.max <;> simp
  | some minText =>
      cases max : parts.max with
      | none => simp
      | some maxText =>
          dsimp only
          by_cases less : decimalValue maxText < decimalValue minText
          · simp only [less, decide_true, if_true, Option.map_some, Option.mem_some_iff,
              forall_eq']
            omega
          · simp only [less, decide_false, Bool.false_eq_true, if_false, Option.map_some,
              Option.mem_some_iff, forall_eq']
            omega

end LimitsText

/-- What is expected of the limits of a variant that are set from a text: that they are
set, that they let through the values that the text admits, and that another variant gets
the same limits from the text that they show without its braces. -/
structure KeepsLimits {type : IntegerType} (parts : LimitsText type)
    (dv other : DvTypeInteger type) : Prop where
  returns : (dv.setLimits parts.text).1 = true
  checks : ∀ value, type.Represents value →
    (((dv.setLimits parts.text).2.fromInterInt value).checkLimits = none ↔ parts.Admits value)
  again : let limits := (dv.setLimits parts.text).2
    let read := (other.setLimits (limits.getLimitsStr.tail.dropLast)).2
    read.mLimits.mMin = limits.mLimits.mMin ∧ read.mLimits.mMax = limits.mLimits.mMax ∧
      read.mLimits.mStep = limits.mLimits.mStep

namespace LimitsText

variable {type : IntegerType} (parts : LimitsText type)

theorem setLimits_text (known : type ≠ .longLong) (dv : DvTypeInteger type) :
    dv.setLimits parts.text = (true, { dv with mLimits := parts.limits dv.mUnits }) := by
  rw [DvTypeInteger.setLimits, parts.set_text known]
  rfl

/-- `long long` has no converter, so that its limits are never set. -/
theorem setLimits_longLong (dv : DvTypeInteger .longLong) (limitsStr : List Char) :
    (dv.setLimits limitsStr).1 = false := by
  have read (part : List Char) : LimitVal.read (valConvert .longLong) part = LimitVal.cleared := by
    rw [LimitVal.read]
    split <;> rfl
  rw [DvTypeInteger.setLimits, Limits.set, read, read, read]
  rfl

theorem keepsLimits (known : type ≠ .longLong) (dv other : DvTypeInteger type) :
    KeepsLimits parts dv other where
  returns := by rw [parts.setLimits_text known]
  checks value fits := by
    rw [parts.setLimits_text known]
    show (parts.limits dv.mUnits).check intText (type.cast value) = none ↔ _
    rw [IntegerType.cast_of_represents fits]
    exact parts.check_limits intText dv.mUnits value
  again := by
    have shown : ((dv.setLimits parts.text).2.getLimitsStr).tail.dropLast = parts.ordered.text := by
      rw [parts.setLimits_text known, DvTypeInteger.getLimitsStr, Limits.formatLimits,
        shown_limits, if_pos parts.ordered.text_ne_nil]
      exact List.dropLast_concat
    dsimp only
    rw [shown, parts.setLimits_text known, parts.ordered.setLimits_text known, limits_ordered]
    exact ⟨rfl, rfl, rfl⟩

end LimitsText

/-- The limits of a value are kept unless its type is `long long`. -/
theorem keepsLimits_iff {type : IntegerType} (parts : LimitsText type)
    (dv other : DvTypeInteger type) : KeepsLimits parts dv other ↔ type ≠ .longLong := by
  constructor
  · rintro keeps rfl
    have refused := LimitsText.setLimits_longLong dv parts.text
    rw [keeps.returns] at refused
    cases refused
  · intro known
    exact parts.keepsLimits known dv other

/-- Limits of a `LONG` are not set. -/
theorem limits_of_long_are_not_set :
    ¬ ∀ (type : IntegerType) (parts : LimitsText type) (dv other : DvTypeInteger type),
      KeepsLimits parts dv other := by
  intro all
  have numeral : ∀ part ∈ [some ['1'], none, none], ∀ text ∈ part,
      IsDecimal text ∧ IntegerType.longLong.Represents (decimalValue text) := by
    intro part member text inside
    rcases List.mem_cons.mp member with rfl | member
    · cases inside
      exact ⟨strIsInt_iff.mp rfl, by decide⟩
    · rcases List.mem_pair.mp member with rfl | rfl <;> cases inside
  have keeps := all .longLong
    { min := some ['1'], max := none, step := none, dots := true, slash := false, numeral,
      given := .inl rfl }
    (DvTypeInteger.construct .longLong "LONG".toList)
    (DvTypeInteger.construct .longLong "LONG".toList)
  have refused := keeps.returns
  rw [LimitsText.setLimits_longLong] at refused
  cases refused

end OpenMplane
