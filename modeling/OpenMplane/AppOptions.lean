import OpenMplane.DataVariant
import OpenMplane.DvTypeCopy
import OpenMplane.StdString

/-!
# Options of an application

`AppOptions` reads the arguments of the program, then the environment, then the defaults, each
for the options that are not set before.  An argument that begins with a dash names an option;
the argument behind it is its value, unless the option is a truth value, which is then the
opposite of its default.

An option of one of the three types of the server is worth what was given to it last.  A text
that is no value of the type unsets the option, so that the environment or the default counts
again; a number keeps the units that came with it, and units are refused behind a number that
has none.
-/

namespace OpenMplane

open NumeralText

/-- How the program ends before there are options. -/
inductive OptionsEnd
  | exit (code : Nat)
  | abort
  | out_of_range
  deriving DecidableEq, Repr

/-- The types of the options. -/
inductive OptionType
  | bool
  | int
  | string
  deriving DecidableEq, Repr

/-- What an option is worth. -/
inductive OptionValue
  | bool (value : Bool)
  | int (value : Int)
  | string (value : List Char)
  deriving DecidableEq, Repr

def OptionType.dataType : OptionType → DataVariantType
  | bool => .bool
  | int => .integer .int
  | string => .string

/-- The value of an option, if it has one, and the units that came with a number. -/
structure Held where
  value : Option OptionValue
  units : List Char
  deriving DecidableEq, Repr

namespace Held

def unset : Held := ⟨none, []⟩

/-- A text is given to an option. -/
def give (held : Held) : OptionType → List Char → Held
  | .bool, text => ⟨if strIsBool text then some (.bool (strToBool text)) else none, []⟩
  | .int, text =>
      let (valueStr, units) := splitUnits text
      if units ≠ [] ∧ held.value.isSome ∧ held.units = [] then ⟨none, []⟩
      else
        ⟨if IntegerType.isValid .int valueStr then
            some (.int (DvTypeInteger.readValue .int valueStr))
          else none,
          if units = [] then held.units else units⟩
  | .string, text => ⟨if text = [] then none else some (.string text), []⟩

end Held

def truthText (value : Bool) : List Char := if value then "true".toList else "false".toList

/-- The two enumerations of a truth value. -/
def truthLabels : BoolLabels where
  typeStr := []
  falseStr := truthText false
  trueStr := truthText true
  items := by decide

theorem toInt32_readValue (valueStr : List Char) :
    toInt32 (DvTypeInteger.readValue .int valueStr) = DvTypeInteger.readValue .int valueStr := by
  have again : ∀ value, toInt32 (toInt32 value) = toInt32 value := fun value =>
    IntegerType.cast_of_represents (IntegerType.represents_cast .int value)
  unfold DvTypeInteger.readValue
  dsimp only
  split
  · exact again _
  · exact again _

/-- A truth value is found among its two texts, or read as a number. -/
theorem set_bool (dv : DvTypeEnum) (items : dv.mEnum = [truthText false, truthText true])
    (text : List Char) : (DvTypeBool.set dv text).2 =
      if strIsBool text then dv.choose (strToBool text).toNat else dv.clear := by
  have falseLower : toLower truthLabels.falseStr = "false".toList := by decide
  have trueLower : toLower truthLabels.trueStr = "true".toList := by decide
  have found := @DvTypeBool.findEnum_labels truthLabels dv items text
  rw [falseLower, trueLower] at found
  rw [DvTypeBool.set, DvTypeEnum.set, found]
  unfold strIsBool strToBool
  have length : dv.clear.mEnum.length = 2 := by
    change dv.mEnum.length = 2
    rw [items]
    rfl
  by_cases isFalse : "false".toList = toLower text
  · rw [if_pos isFalse, ← isFalse]
    rfl
  · rw [if_neg isFalse]
    by_cases isTrue : "true".toList = toLower text
    · rw [if_pos isTrue, ← isTrue]
      rfl
    · rw [if_neg isTrue]
      by_cases isOne : toLower text = ['1']
      · rw [isOne]
        change (dv.clear.setEnumValue 1).2 = _
        rw [DvTypeEnum.setEnumValue, if_pos (by omega)]
        rfl
      · by_cases isZero : toLower text = ['0']
        · rw [isZero]
          change (dv.clear.setEnumValue 0).2 = _
          rw [DvTypeEnum.setEnumValue, if_pos (by omega)]
          rfl
        · have other : toLower text ∉ ["true".toList, "false".toList, ['1'], ['0']] := by
            simp only [List.mem_cons, List.not_mem_nil, or_false, not_or]
            exact ⟨Ne.symm isTrue, Ne.symm isFalse, isOne, isZero⟩
          simp only [other, decide_false, Bool.false_eq_true, ↓reduceIte]
          rfl

variable [FloatLib]

/-- The constructor of `DataVariantBase` from a type, which throws for an enumeration. -/
def DataVariantBase.constructTyped (type : DataVariantType) (name value : List Char) :
    Option DataVariantBase :=
  if type = .enum then none
  else
    let dv := { DataVariantBase.construct name with mDv := DvTypeFactory.construct type [] }
    some (if value = [] then dv else dv.set value)

/-- The constructor of `DataVariant` from a type. -/
def DataVariant.constructTyped (type : DataVariantType) (name value : List Char) :
    Option DataVariant :=
  (DataVariantBase.constructTyped type name value).map fun base =>
    { toDataVariantBase := base
      mSet := base.isSet
      mIsVector := false
      mValues := []
      mNames := [] }

structure AppOptionSpec where
  mUseEnvVar : List Char
  mDefault : List Char
  mDataVariant : DataVariant

namespace AppOptionSpec

/-- The constructor; a truth value has a default. -/
def construct (name : List Char) (type : DataVariantType) (defaultValue useEnvVar : List Char) :
    Option AppOptionSpec :=
  (DataVariant.constructTyped type name []).map fun mDataVariant =>
    { mUseEnvVar := useEnvVar
      mDefault :=
        if defaultValue = [] ∧ mDataVariant.mDv.getType = .bool then "false".toList
        else defaultValue
      mDataVariant }

/-- The variant is set with a text. -/
def set (spec : AppOptionSpec) (value : List Char) : AppOptionSpec :=
  { spec with
    mDataVariant :=
      { spec.mDataVariant with
        toDataVariantBase := spec.mDataVariant.toDataVariantBase.set value } }

/-- The variant is set with a truth value, which is an `int`. -/
def setBool (spec : AppOptionSpec) (value : Bool) : AppOptionSpec :=
  { spec with
    mDataVariant :=
      { spec.mDataVariant with
        toDataVariantBase := spec.mDataVariant.toDataVariantBase.setInt (if value then 1 else 0) } }

/-- The opposite of the default, for a truth value that is named. -/
def opposite (spec : AppOptionSpec) : Bool :=
  match DataVariant.constructTyped .bool "default".toList spec.mDefault with
  | some defVal => if defVal.isSet then !defVal.toBool else true
  | none => true

end AppOptionSpec

/-- `mOptions`. -/
abbrev Options := StdMap AppOptionSpec

namespace AppOptions

/-- `processCmdline`, with `handleBuiltins` and `handleOption`. -/
def processCmdline (mOptions : Options) : List (List Char) → Except OptionsEnd Options
  | [] => .ok mOptions
  | arg :: rest =>
      if arg.head? ≠ some '-' then processCmdline mOptions rest
      else if arg.all (· = '-') then .error .out_of_range
      else
        let name := String.ofList (arg.dropWhile (· = '-'))
        if name = "help" then .error (.exit 0)
        else match mOptions[name]? with
          | none => .error (.exit 1)
          | some optionSpec =>
              match optionSpec.mDataVariant.mDv.getType with
              | .string | .integer .int | .real .float | .enum =>
                  match rest with
                  | [] => .error (.exit 1)
                  | value :: rest => processCmdline (mOptions.insert name (optionSpec.set value)) rest
              | .bool =>
                  processCmdline (mOptions.insert name (optionSpec.setBool optionSpec.opposite)) rest
              | _ => .error .abort

/-- What `processEnv` does for an option. -/
def processEnv (getenv : List Char → Option (List Char)) (spec : AppOptionSpec) : AppOptionSpec :=
  if spec.mDataVariant.isSet then spec
  else if spec.mUseEnvVar = [] then spec
  else match getenv spec.mUseEnvVar with
    | some env => spec.set env
    | none => spec

/-- What `processDefaults` does for an option. -/
def processDefaults (spec : AppOptionSpec) : AppOptionSpec :=
  if spec.mDataVariant.isSet then spec
  else if spec.mDefault = [] then spec
  else spec.set spec.mDefault

/-- `processOptions`, with the arguments behind the name of the program, if there are any:
`getInstance` gives none. -/
def processOptions (getenv : List Char → Option (List Char)) (mOptions : Options) :
    Option (List (List Char)) → Except OptionsEnd Options
  | none => .error .abort
  | some args =>
      (processCmdline mOptions args).map fun mOptions =>
        (mOptions.map fun _ => processEnv getenv).map fun _ => processDefaults

def byName (optionsSpecification : List AppOptionSpec) : Options :=
  optionsSpecification.foldl (fun mOptions entry =>
    mOptions.insert (String.ofList entry.mDataVariant.mName) entry) ∅

def construct (getenv : List Char → Option (List Char)) (optionsSpecification : List AppOptionSpec)
    (argv : Option (List (List Char))) : Except OptionsEnd Options :=
  processOptions getenv (byName optionsSpecification) argv

def getOption (mOptions : Options) (name : String) : Except OptionsEnd DataVariant :=
  match mOptions[name]? with
  | none => .error .abort
  | some entry => .ok (DataVariant.copy entry.mDataVariant.toDataVariantBase)

end AppOptions

/-- What a variant shows of its value. -/
def valueOf (dv : DataVariantBase) : Option OptionValue :=
  if dv.isSet then
    match dv.mDv.getType with
    | .bool => some (.bool dv.toBool)
    | .integer .int => some (.int dv.toInt)
    | .string => some (.string dv.toString)
    | _ => none
  else none

/-- A value of one of the three types and what it is worth. -/
inductive Displays : OptionType → Held → DvType → Prop
  | bool (dv : DvTypeEnum) (typeStr : dv.mTypeStr = DvTypeBool.boolTypeStr)
      (items : dv.mEnum = [truthText false, truthText true]) (value : Option Bool)
      (isSet : dv.mIsSet = value.isSome)
      (chosen : ∀ truth, value = some truth →
        dv.mEnumIdx = truth.toNat ∧ dv.mStr = truthText truth)
      (empty : value = none → dv.mStr = []) :
      Displays .bool ⟨value.map .bool, []⟩ (.bool dv)
  | int (dv : DvTypeInteger .int) (value : Option Int) (isSet : dv.mIsSet = value.isSome)
      (valid : ∀ number, value = some number → IntegerType.isValid .int dv.mStr = true ∧
        dv.mVal = number ∧ number = DvTypeInteger.readValue .int dv.mStr)
      (empty : value = none → dv.mStr = []) :
      Displays .int ⟨value.map .int, dv.mUnits⟩ (.integer .int dv)
  | string (dv : DvTypeBase) (value : Option (List Char)) (isSet : dv.mIsSet = value.isSome)
      (text : ∀ letters, value = some letters → dv.mStr = letters ∧ letters ≠ [])
      (empty : value = none → dv.mStr = []) :
      Displays .string ⟨value.map .string, []⟩ (.string dv)

namespace Displays

variable {type : OptionType} {held : Held} {dv : DvType}

theorem getType (shows : Displays type held dv) : dv.getType = type.dataType := by
  cases shows with
  | bool => rfl
  | int => rfl
  | string => rfl

theorem isSet (shows : Displays type held dv) : dv.isSet = held.value.isSome := by
  cases shows with
  | bool dv typeStr items value isSet => rw [Option.isSome_map]; exact isSet
  | int dv value isSet => rw [Option.isSome_map]; exact isSet
  | string dv value isSet => rw [Option.isSome_map]; exact isSet

theorem construct (type : OptionType) :
    Displays type .unset (DvTypeFactory.construct type.dataType []) := by
  cases type with
  | bool =>
      exact .bool (DvTypeBool.construct []) rfl (by decide) none rfl
        (fun _ impossible => by cases impossible) fun _ => rfl
  | int =>
      exact .int (DvTypeInteger.construct .int []) none rfl
        (fun _ impossible => by cases impossible) fun _ => rfl
  | string =>
      exact .string (DvTypeBase.construct []) none rfl
        (fun _ impossible => by cases impossible) fun _ => rfl

end Displays

namespace Displays

variable {type : OptionType} {held : Held} {dv : DvType}

theorem choose {dv : DvTypeEnum} (typeStr : dv.mTypeStr = DvTypeBool.boolTypeStr)
    (items : dv.mEnum = [truthText false, truthText true]) (truth : Bool) :
    Displays .bool ⟨some (.bool truth), []⟩ (.bool (dv.choose truth.toNat)) := by
  refine .bool (dv.choose truth.toNat) typeStr items (some truth) rfl (fun other same => ?_)
    fun impossible => by cases impossible
  cases same
  refine ⟨rfl, ?_⟩
  change dv.mEnum.getD truth.toNat [] = _
  rw [items]
  cases truth with
  | false => rfl
  | true => rfl

theorem read {dv : DvTypeInteger .int} (valueStr : List Char) :
    Displays .int ⟨if IntegerType.isValid .int valueStr then
        some (.int (DvTypeInteger.readValue .int valueStr)) else none, dv.mUnits⟩
      (.integer .int (if IntegerType.isValid .int valueStr then
        (true, { dv with
          mVal := DvTypeInteger.readValue .int valueStr
          mIsHex := DvTypeInteger.readsHex .int valueStr }.setStr valueStr)
      else (false, dv.clear)).2) := by
  cases valid : IntegerType.isValid .int valueStr with
  | true =>
      refine .int ({ dv with
        mVal := DvTypeInteger.readValue .int valueStr
        mIsHex := DvTypeInteger.readsHex .int valueStr }.setStr valueStr)
        (some (DvTypeInteger.readValue .int valueStr)) rfl (fun number same => ?_)
        fun impossible => by cases impossible
      cases same
      exact ⟨valid, rfl, rfl⟩
  | false =>
      exact .int dv.clear none rfl (fun _ impossible => by cases impossible) fun _ => rfl

theorem give (shows : Displays type held dv) (text : List Char) :
    Displays type (held.give type text) (dv.set text).2 := by
  cases shows with
  | bool dv typeStr items value isSet chosen empty =>
      rw [DvType.set, set_bool dv items]
      dsimp only
      rw [Held.give]
      cases strIsBool text with
      | true => exact choose typeStr items (strToBool text)
      | false =>
          exact .bool dv.clear typeStr items none rfl
            (fun _ impossible => by cases impossible) fun _ => rfl
  | int dv value isSet valid empty =>
      rw [DvType.set, DvTypeInteger.set, DvTypeInteger.unitsFromStr, Held.give]
      obtain ⟨valueStr, units⟩ := splitUnits text
      dsimp only
      rw [Option.isSome_map, ← isSet]
      by_cases noUnits : units = []
      · rw [if_pos noUnits, if_pos noUnits, if_neg fun refused => refused.1 noUnits]
        exact read valueStr
      · rw [if_neg noUnits, if_neg noUnits]
        by_cases refused : dv.mIsSet = true ∧ dv.mUnits = []
        · rw [if_pos refused, if_pos ⟨noUnits, refused⟩]
          have none' : Displays .int ⟨none, dv.mUnits⟩ (.integer .int dv.clear.clear) :=
            .int dv.clear.clear none rfl (fun _ impossible => by cases impossible) fun _ => rfl
          rw [refused.2] at none'
          exact none'
        · rw [if_neg refused, if_neg fun both => refused both.2]
          exact @read _ (dv.setUnits units) valueStr
  | string dv value isSet letters empty =>
      rw [DvType.set, DvTypeString.set, Held.give]
      dsimp only
      by_cases isEmpty : text = []
      · rw [if_pos isEmpty, if_pos isEmpty]
        exact .string dv.clear none rfl (fun _ impossible => by cases impossible) fun _ => rfl
      · rw [if_neg isEmpty, if_neg isEmpty]
        refine .string (dv.setStr text) (some text) rfl (fun other same => ?_)
          fun impossible => by cases impossible
        cases same
        exact ⟨rfl, isEmpty⟩

theorem flag (shows : Displays .bool held dv) (truth : Bool) :
    Displays .bool ⟨some (.bool truth), []⟩ (dv.fromInterInt (if truth then 1 else 0)) := by
  cases shows with
  | bool dv typeStr items value isSet chosen empty =>
      have length : dv.mEnum.length = 2 := by
        rw [items]
        rfl
      have made : (dv.setEnumValue (toUint32 (if truth then 1 else 0)).toNat).2 =
          dv.choose truth.toNat := by
        cases truth with
        | false => exact congrArg Prod.snd (if_pos (by rw [length]; decide))
        | true => exact congrArg Prod.snd (if_pos (by rw [length]; decide))
      rw [DvType.fromInterInt, made]
      exact choose typeStr items truth

theorem valueOf_eq {base : DataVariantBase} (shows : Displays type held base.mDv) :
    valueOf base = held.value := by
  rw [valueOf, DataVariantBase.isSet, shows.isSet, shows.getType]
  rw [DataVariantBase.toBool, DataVariantBase.toInt, DataVariantBase.toString]
  generalize base.mDv = dv at shows ⊢
  cases shows with
  | bool dv typeStr items value isSet chosen empty =>
      cases value with
      | none => rfl
      | some truth =>
          have index := (chosen truth rfl).1
          have known : decide (0 < (dv.mEnumIdx : Int)) = truth := by
            rw [index]
            cases truth with
            | false => rfl
            | true => rfl
          exact congrArg (fun truth => some (OptionValue.bool truth)) known
  | int dv value isSet valid empty =>
      cases value with
      | none => rfl
      | some number =>
          obtain ⟨-, same, read⟩ := valid number rfl
          have cast : toInt32 dv.mVal = number := by
            rw [same, read]
            exact toInt32_readValue dv.mStr
          exact congrArg (fun number => some (OptionValue.int number)) cast
  | string dv value isSet letters empty =>
      cases value with
      | none => rfl
      | some text => exact congrArg (fun text => some (OptionValue.string text)) (letters text rfl).1

theorem copy (shows : Displays type held dv) :
    ∃ other, Displays type other (DvTypeFactory.copy dv) ∧ other.value = held.value := by
  cases shows with
  | bool dv typeStr items value isSet chosen empty =>
      have copied := @copy_bool _ truthLabels dv typeStr
      obtain ⟨fresh, isFresh, freshType, freshItems⟩ : ∃ fresh : DvTypeEnum,
          fresh = { DvTypeBool.construct truthLabels.typeStr with mUnits := dv.mUnits } ∧
            fresh.mTypeStr = DvTypeBool.boolTypeStr ∧
              fresh.mEnum = [truthText false, truthText true] :=
        ⟨_, rfl, rfl, truthLabels.items⟩
      have made := set_bool fresh freshItems dv.mStr
      rw [← isFresh] at copied
      cases value with
      | none =>
          rw [empty rfl] at made copied
          rw [copied, made]
          exact ⟨⟨none, []⟩, .bool fresh.clear freshType freshItems none rfl
            (fun _ impossible => by cases impossible) fun _ => rfl, rfl⟩
      | some truth =>
          have text := (chosen truth rfl).2
          rw [text] at made copied
          have reads : strIsBool (truthText truth) = true ∧ strToBool (truthText truth) = truth := by
            cases truth with
            | false => decide
            | true => decide
          rw [reads.1, reads.2, if_pos rfl] at made
          rw [copied, made]
          exact ⟨_, choose freshType freshItems truth, rfl⟩
  | int dv value isSet valid empty =>
      cases value with
      | none =>
          rw [copy_integer_of_empty dv (empty rfl)]
          exact ⟨⟨none, _⟩, .int _ none rfl (fun _ impossible => by cases impossible) fun _ => rfl,
            rfl⟩
      | some number =>
          obtain ⟨isValid, -, read⟩ := valid number rfl
          rw [copy_integer dv isValid (DvTypeInteger.splitUnits_of_valid (by decide) isValid)]
          refine ⟨⟨some (.int number), _⟩, .int _ (some number) rfl (fun other same => ?_)
            (fun impossible => by cases impossible), rfl⟩
          cases same
          exact ⟨isValid, read.symm, read⟩
  | string dv value isSet letters empty =>
      rw [copy_string, DvTypeString.set]
      cases value with
      | none =>
          rw [empty rfl, if_pos rfl]
          exact ⟨⟨none, []⟩, .string _ none rfl (fun _ impossible => by cases impossible)
            fun _ => rfl, rfl⟩
      | some text =>
          obtain ⟨same, nonempty⟩ := letters text rfl
          rw [same, if_neg nonempty]
          refine ⟨⟨some (.string text), []⟩, .string _ (some text) rfl (fun other equal => ?_)
            (fun impossible => by cases impossible), rfl⟩
          cases equal
          exact ⟨rfl, nonempty⟩

end Displays

end OpenMplane
