import OpenMplane.KeyEncoding

/-!
# Licensed features

A `GenericFeature` knows features by names with a bit each and keeps the bits of those
that are enabled.  Bits come in through a mask, a name or a text that was encoded under
a license key; a mask with a bit of no feature is refused.  This file models the class
and follows an object through any calls.
-/

namespace OpenMplane

open WordBits

structure GenericFeature where
  mKey : Option Key
  mFeatures : UInt32
  mFeatureNames : StdMap Nat
  mValidFeatures : UInt32
  mInvalidFeatures : UInt32

namespace GenericFeature

def NO_FEATURES : UInt32 := 0

/-- `static_cast<GenericFeatureType>(1 << bit)`. -/
def featureOf (bit : Nat) : UInt32 := 1 <<< UInt32.ofNat bit

def init (feature : GenericFeature) : GenericFeature :=
  let mValidFeatures := feature.mFeatureNames.toList.foldl
    (fun valid entry => valid ||| featureOf entry.2) feature.mValidFeatures
  { feature with
    mValidFeatures := mValidFeatures
    mInvalidFeatures := ~~~mValidFeatures }

/-- The constructor with names and bits. -/
def new (featureNames : StdMap Nat) : GenericFeature :=
  init ⟨none, NO_FEATURES, featureNames, NO_FEATURES, NO_FEATURES⟩

/-- The bits by the places of the names in a vector. -/
def bitsOf (featureNames : List String) : StdMap Nat :=
  featureNames.zipIdx.foldl (fun names entry => names.insert entry.1 entry.2) ∅

/-- The constructor with a vector of names. -/
def newOfVector (featureNames : List String) : GenericFeature :=
  new (bitsOf featureNames)

def nameToFeature (feature : GenericFeature) (featureName : String) : UInt32 :=
  match feature.mFeatureNames[featureName]? with
  | none => NO_FEATURES
  | some bit => featureOf bit

/-- `enableFeature` with a mask. -/
def enableFeature (feature : GenericFeature) (features : UInt32) : Bool × GenericFeature :=
  if features &&& feature.mInvalidFeatures ≠ NO_FEATURES then (false, feature)
  else
    (true, { feature with
      mFeatures := feature.mFeatures ||| (feature.mValidFeatures &&& features) })

/-- `enableFeature` with a name. -/
def enableFeatureName (feature : GenericFeature) (featureName : String) :
    Bool × GenericFeature :=
  if feature.nameToFeature featureName = NO_FEATURES then (false, feature)
  else feature.enableFeature (feature.nameToFeature featureName)

def encodeFeatures (feature : GenericFeature) (draws : Key.Draws) : String :=
  match feature.mKey with
  | none => ""
  | some key => key.encode32bits draws feature.mFeatures

def setFeatures (feature : GenericFeature) (encodedFeatures : String) : Bool × GenericFeature :=
  match feature.mKey with
  | none => (false, feature)
  | some key =>
      match key.decode32bits encodedFeatures with
      | none => (false, feature)
      | some decoded32bits =>
          if decoded32bits &&& feature.mInvalidFeatures ≠ 0 then (false, feature)
          else (true, { feature with mFeatures := decoded32bits })

def supportedFeatures (feature : GenericFeature) : UInt32 :=
  feature.mFeatures

def setKey (feature : GenericFeature) (key : Option Key) : GenericFeature :=
  { feature with mKey := key }

def checkSupported (feature : GenericFeature) (featureName : String) : Bool :=
  if feature.nameToFeature featureName = NO_FEATURES then false
  else decide (feature.nameToFeature featureName &&& feature.mFeatures ≠ NO_FEATURES)

/-- The calls that change an object. -/
inductive Call
  | enableFeature (features : UInt32)
  | enableFeatureName (featureName : String)
  | setFeatures (encodedFeatures : String)
  | setKey (key : Option Key)

/-- A call with its result; `setKey` has none. -/
def call (feature : GenericFeature) : Call → Bool × GenericFeature
  | .enableFeature features => feature.enableFeature features
  | .enableFeatureName featureName => feature.enableFeatureName featureName
  | .setFeatures encodedFeatures => feature.setFeatures encodedFeatures
  | .setKey key => (true, feature.setKey key)

/-- The object after calls. -/
def run (feature : GenericFeature) (calls : List Call) : GenericFeature :=
  calls.foldl (fun feature call => (feature.call call).2) feature

/-- Names of features with distinct bits of a word. -/
structure FeatureNames where
  bits : StdMap Nat
  below : ∀ (name : String) (bit : Nat), bits[name]? = some bit → bit < 32
  distinct : ∀ (first second : String) (bit : Nat), bits[first]? = some bit → bits[second]? = some bit →
    first = second

section Vectors

/-- A name that has a bit stands at that place of the vector. -/
theorem getElem_of_bitsOf {featureNames : List String} {name : String} {bit : Nat}
    (found : (bitsOf featureNames)[name]? = some bit) : featureNames[bit]? = some name := by
  induction featureNames using List.reverseRecOn with
  | nil =>
      rw [bitsOf, List.zipIdx_nil, List.foldl_nil] at found
      simp at found
  | append_singleton featureNames last ih =>
      rw [bitsOf, List.zipIdx_append, List.foldl_append, List.zipIdx_singleton, List.foldl_cons,
        List.foldl_nil, Nat.zero_add, Std.ExtTreeMap.getElem?_insert] at found
      by_cases same : compare last name = .eq
      · rw [if_pos same, Option.some.injEq] at found
        rw [← found, List.getElem?_concat_length, Std.LawfulEqCmp.eq_of_compare same]
      · rw [if_neg same] at found
        have before := ih found
        rw [List.getElem?_append_left (List.getElem?_eq_some_iff.mp before).1]
        exact before

/-- The names of a vector that fits a word. -/
def FeatureNames.ofVector (featureNames : List String) (few : featureNames.length ≤ 32) :
    FeatureNames where
  bits := bitsOf featureNames
  below := by
    intro name bit found
    obtain ⟨below, -⟩ := List.getElem?_eq_some_iff.mp (getElem_of_bitsOf found)
    omega
  distinct := by
    intro first second bit firstFound secondFound
    have firstPlace := getElem_of_bitsOf firstFound
    have secondPlace := getElem_of_bitsOf secondFound
    rw [firstPlace] at secondPlace
    exact Option.some.inj secondPlace

theorem newOfVector_eq (featureNames : List String) (few : featureNames.length ≤ 32) :
    newOfVector featureNames = new (FeatureNames.ofVector featureNames few).bits := rfl

end Vectors

section Bits

theorem testBit_or {bit : Nat} (below : bit < 32) (first second : UInt32) :
    testBit (first ||| second) bit = (testBit first bit || testBit second bit) := by
  rw [testBit_eq_toNat below, testBit_eq_toNat below, testBit_eq_toNat below, UInt32.toNat_or,
    Nat.testBit_or]

theorem testBit_and {bit : Nat} (below : bit < 32) (first second : UInt32) :
    testBit (first &&& second) bit = (testBit first bit && testBit second bit) := by
  rw [testBit_eq_toNat below, testBit_eq_toNat below, testBit_eq_toNat below, UInt32.toNat_and,
    Nat.testBit_and]

theorem testBit_not {bit : Nat} (below : bit < 32) (word : UInt32) :
    testBit (~~~word) bit = !testBit word bit := by
  have bits := @BitVec.getLsbD_not 32 bit word.toBitVec
  rw [decide_eq_true below, Bool.true_and] at bits
  rw [testBit_eq_toNat below, testBit_eq_toNat below]
  exact bits

theorem testBit_featureOf {bit other : Nat} (below : bit < 32) (otherBelow : other < 32) :
    testBit (featureOf bit) other = decide (bit = other) := by
  rw [testBit_eq_toNat otherBelow, featureOf, toNat_one_shiftLeft below, Nat.testBit_two_pow]

theorem featureOf_ne_zero {bit : Nat} (below : bit < 32) : featureOf bit ≠ NO_FEATURES := by
  intro zero
  have set := testBit_featureOf below below
  rw [zero, NO_FEATURES, testBit_zero below, decide_eq_true rfl] at set
  cases set

theorem ne_zero_iff (word : UInt32) : word ≠ 0 ↔ ∃ bit < 32, testBit word bit = true := by
  constructor
  · intro nonzero
    by_contra none
    apply nonzero
    apply eq_of_testBit
    intro bit below
    rw [testBit_zero below]
    by_contra set
    exact none ⟨bit, below, (Bool.not_eq_false _).mp set⟩
  · rintro ⟨bit, below, set⟩ rfl
    rw [testBit_zero below] at set
    cases set

/-- The bits that a loop over entries collects. -/
theorem testBit_foldl_featureOf {entries : List (String × Nat)} {other : Nat}
    (otherBelow : other < 32) (below : ∀ entry ∈ entries, entry.2 < 32) (valid : UInt32) :
    testBit (entries.foldl (fun valid entry => valid ||| featureOf entry.2) valid) other = true ↔
      testBit valid other = true ∨ ∃ entry ∈ entries, entry.2 = other := by
  induction entries generalizing valid with
  | nil => simp
  | cons entry entries ih =>
      have here := below entry List.mem_cons_self
      have rest : ∀ entry ∈ entries, entry.2 < 32 :=
        fun entry member => below entry (List.mem_cons_of_mem _ member)
      rw [List.foldl_cons, ih rest, testBit_or otherBelow, testBit_featureOf here otherBelow,
        Bool.or_eq_true, decide_eq_true_eq, List.exists_mem_cons_iff, or_assoc]

end Bits

section Invariant

/-- The masks of an object are those of its names. -/
structure Masked (names : FeatureNames) (feature : GenericFeature) : Prop where
  sameNames : feature.mFeatureNames = names.bits
  valid : ∀ bit < 32, testBit feature.mValidFeatures bit = true ↔
    ∃ name : String, names.bits[name]? = some bit
  invalid : ∀ bit < 32, testBit feature.mInvalidFeatures bit =
    !testBit feature.mValidFeatures bit

variable {names : FeatureNames} {feature : GenericFeature}

theorem masked_new : Masked names (new names.bits) := by
  constructor
  · rfl
  · intro bit below
    have entryBelow : ∀ entry ∈ names.bits.toList, entry.2 < 32 := by
      intro entry member
      exact names.below entry.1 entry.2 (Std.ExtTreeMap.mem_toList_iff_getElem?_eq_some.mp member)
    have collected := testBit_foldl_featureOf below entryBelow NO_FEATURES
    rw [NO_FEATURES, testBit_zero below] at collected
    rw [new, init]
    dsimp only
    rw [NO_FEATURES, collected]
    constructor
    · rintro (none | ⟨entry, member, rfl⟩)
      · cases none
      · exact ⟨entry.1, Std.ExtTreeMap.mem_toList_iff_getElem?_eq_some.mp member⟩
    · rintro ⟨name, found⟩
      exact Or.inr ⟨(name, bit), Std.ExtTreeMap.mem_toList_iff_getElem?_eq_some.mpr found, rfl⟩
  · intro bit below
    exact testBit_not below _

/-- A mask goes through when all its bits are those of features. -/
theorem Masked.no_invalid_iff (masked : Masked names feature) (mask : UInt32) :
    ¬ mask &&& feature.mInvalidFeatures ≠ 0 ↔
      ∀ bit < 32, testBit mask bit = true → ∃ name : String, names.bits[name]? = some bit := by
  rw [ne_zero_iff]
  constructor
  · intro none bit below set
    by_contra unnamed
    have unset : testBit feature.mValidFeatures bit = false :=
      (Bool.not_eq_true _).mp (mt (masked.valid bit below).mp unnamed)
    apply none
    refine ⟨bit, below, ?_⟩
    rw [testBit_and below, set, masked.invalid bit below, unset]
    rfl
  · rintro named ⟨bit, below, set⟩
    rw [testBit_and below, masked.invalid bit below, Bool.and_eq_true, Bool.not_eq_true'] at set
    have valid := (masked.valid bit below).mpr (named bit below set.1)
    rw [set.2] at valid
    cases valid

theorem Masked.nameToFeature_of_find (masked : Masked names feature) {name : String} {bit : Nat}
    (found : names.bits[name]? = some bit) : feature.nameToFeature name = featureOf bit := by
  rw [nameToFeature, masked.sameNames, found]

theorem Masked.nameToFeature_of_none (masked : Masked names feature) {name : String}
    (unknown : names.bits[name]? = none) : feature.nameToFeature name = NO_FEATURES := by
  rw [nameToFeature, masked.sameNames, unknown]

def Sets (feature : GenericFeature) (bit : Nat) : Call → Prop
  | .enableFeature features =>
      (feature.enableFeature features).1 = true ∧ testBit features bit = true
  | .enableFeatureName featureName =>
      (feature.enableFeatureName featureName).1 = true ∧
        feature.mFeatureNames[featureName]? = some bit
  | .setFeatures encodedFeatures =>
      (feature.setFeatures encodedFeatures).1 = true ∧
        ∃ key value, feature.mKey = some key ∧ key.decode32bits encodedFeatures = some value ∧
          testBit value bit = true
  | .setKey _ => False

/-- The call is a successful `setFeatures`. -/
def Replaces (feature : GenericFeature) : Call → Prop
  | .setFeatures encodedFeatures => (feature.setFeatures encodedFeatures).1 = true
  | _ => False

theorem enableFeature_cases (feature : GenericFeature) (features : UInt32) :
    (features &&& feature.mInvalidFeatures ≠ 0 ∧
        feature.enableFeature features = (false, feature)) ∨
      (¬ features &&& feature.mInvalidFeatures ≠ 0 ∧ feature.enableFeature features =
        (true, { feature with
          mFeatures := feature.mFeatures ||| (feature.mValidFeatures &&& features) })) := by
  by_cases invalid : features &&& feature.mInvalidFeatures ≠ 0
  · exact Or.inl ⟨invalid, if_pos invalid⟩
  · exact Or.inr ⟨invalid, if_neg invalid⟩

theorem setFeatures_cases (feature : GenericFeature) (encodedFeatures : String) :
    feature.setFeatures encodedFeatures = (false, feature) ∨
      ∃ key value, feature.mKey = some key ∧ key.decode32bits encodedFeatures = some value ∧
        ¬ value &&& feature.mInvalidFeatures ≠ 0 ∧
        feature.setFeatures encodedFeatures = (true, { feature with mFeatures := value }) := by
  rw [setFeatures]
  cases set : feature.mKey with
  | none => exact Or.inl rfl
  | some key =>
      dsimp only
      cases decoded : key.decode32bits encodedFeatures with
      | none => exact Or.inl rfl
      | some value =>
          dsimp only
          by_cases invalid : value &&& feature.mInvalidFeatures ≠ 0
          · exact Or.inl (if_pos invalid)
          · exact Or.inr ⟨key, value, rfl, decoded, invalid, if_neg invalid⟩

/-- A name enables the feature it stands for; an unknown one enables none. -/
theorem enableFeatureName_cases (masked : Masked names feature) (featureName : String) :
    (names.bits[featureName]? = none ∧
        feature.enableFeatureName featureName = (false, feature)) ∨
      ∃ bit, names.bits[featureName]? = some bit ∧
        feature.enableFeatureName featureName = feature.enableFeature (featureOf bit) ∧
        (feature.enableFeature (featureOf bit)).1 = true := by
  rw [enableFeatureName]
  cases found : names.bits[featureName]? with
  | none =>
      rw [masked.nameToFeature_of_none found, if_pos rfl]
      exact Or.inl ⟨rfl, rfl⟩
  | some bit =>
      have below := names.below featureName bit found
      rw [masked.nameToFeature_of_find found, if_neg (featureOf_ne_zero below)]
      have noInvalid : ¬ featureOf bit &&& feature.mInvalidFeatures ≠ 0 := by
        rw [masked.no_invalid_iff]
        intro other otherBelow set
        rw [testBit_featureOf below otherBelow, decide_eq_true_eq] at set
        subst set
        exact ⟨featureName, found⟩
      have enabled : (feature.enableFeature (featureOf bit)).1 = true := by
        rcases enableFeature_cases feature (featureOf bit) with ⟨invalid, -⟩ | ⟨-, done⟩
        · exact absurd invalid noInvalid
        · rw [done]
      exact Or.inr ⟨bit, rfl, rfl, enabled⟩

/-- What a call needs to succeed, by its arguments and the key. -/
def Accepted (names : FeatureNames) (mKey : Option Key) : Call → Prop
  | .enableFeature features => ∀ bit < 32, testBit features bit = true →
      ∃ name : String, names.bits[name]? = some bit
  | .enableFeatureName featureName => ∃ bit, names.bits[featureName]? = some bit
  | .setFeatures encodedFeatures => ∃ key value, mKey = some key ∧
      key.decode32bits encodedFeatures = some value ∧
      ∀ bit < 32, testBit value bit = true → ∃ name : String, names.bits[name]? = some bit
  | .setKey _ => True

theorem enableFeature_iff (masked : Masked names feature) (features : UInt32) :
    (feature.enableFeature features).1 = true ↔
      ∀ bit < 32, testBit features bit = true → ∃ name : String, names.bits[name]? = some bit := by
  rw [← masked.no_invalid_iff features]
  rcases enableFeature_cases feature features with ⟨invalid, refused⟩ | ⟨fine, enabled⟩
  · rw [refused]
    exact ⟨fun impossible => (Bool.false_ne_true impossible).elim, fun fine => absurd invalid fine⟩
  · rw [enabled]
    exact ⟨fun _ => fine, fun _ => rfl⟩

theorem setFeatures_iff (masked : Masked names feature) (encodedFeatures : String) :
    (feature.setFeatures encodedFeatures).1 = true ↔
      Accepted names feature.mKey (.setFeatures encodedFeatures) := by
  constructor
  · intro accepted
    rcases setFeatures_cases feature encodedFeatures with
      refused | ⟨key, value, set, decoded, fine, -⟩
    · rw [refused] at accepted
      cases accepted
    · exact ⟨key, value, set, decoded, (masked.no_invalid_iff value).mp fine⟩
  · rintro ⟨key, value, set, decoded, named⟩
    rw [setFeatures, set]
    dsimp only
    rw [decoded]
    dsimp only
    rw [if_neg ((masked.no_invalid_iff value).mpr named)]

/-- A call succeeds just if its bits are those of features. -/
theorem call_iff_accepted (masked : Masked names feature) (call : Call) :
    (feature.call call).1 = true ↔ Accepted names feature.mKey call := by
  cases call with
  | enableFeature features => exact enableFeature_iff masked features
  | enableFeatureName featureName =>
      rw [GenericFeature.call, Accepted]
      rcases enableFeatureName_cases masked featureName with
        ⟨unknown, refused⟩ | ⟨bit, found, same, enabled⟩
      · rw [refused, unknown]
        simp
      · rw [same, enabled]
        exact ⟨fun _ => ⟨bit, found⟩, fun _ => rfl⟩
  | setFeatures encodedFeatures => exact setFeatures_iff masked encodedFeatures
  | setKey key => exact ⟨fun _ => trivial, fun _ => rfl⟩

theorem masked_call (masked : Masked names feature) (call : Call) :
    Masked names (feature.call call).2 := by
  have enable : ∀ features, Masked names (feature.enableFeature features).2 := by
    intro features
    rcases enableFeature_cases feature features with ⟨-, refused⟩ | ⟨-, enabled⟩
    · rw [refused]
      exact masked
    · rw [enabled]
      exact ⟨masked.sameNames, masked.valid, masked.invalid⟩
  cases call with
  | enableFeature features => exact enable features
  | enableFeatureName featureName =>
      rw [GenericFeature.call]
      rcases enableFeatureName_cases masked featureName with ⟨-, refused⟩ | ⟨bit, -, same, -⟩
      · rw [refused]
        exact masked
      · rw [same]
        exact enable (featureOf bit)
  | setFeatures encodedFeatures =>
      rw [GenericFeature.call]
      rcases setFeatures_cases feature encodedFeatures with
        refused | ⟨key, value, -, -, -, done⟩
      · rw [refused]
        exact masked
      · rw [done]
        exact ⟨masked.sameNames, masked.valid, masked.invalid⟩
  | setKey key => exact ⟨masked.sameNames, masked.valid, masked.invalid⟩

theorem call_of_failed (masked : Masked names feature) {call : Call}
    (failed : (feature.call call).1 = false) : (feature.call call).2 = feature := by
  cases call with
  | enableFeature features =>
      rw [GenericFeature.call] at failed ⊢
      rcases enableFeature_cases feature features with ⟨-, refused⟩ | ⟨-, enabled⟩
      · rw [refused]
      · rw [enabled] at failed
        cases failed
  | enableFeatureName featureName =>
      rw [GenericFeature.call] at failed ⊢
      rcases enableFeatureName_cases masked featureName with ⟨-, refused⟩ | ⟨bit, -, same, enabled⟩
      · rw [refused]
      · rw [same, enabled] at failed
        cases failed
  | setFeatures encodedFeatures =>
      rw [GenericFeature.call] at failed ⊢
      rcases setFeatures_cases feature encodedFeatures with
        refused | ⟨key, value, -, -, -, done⟩
      · rw [refused]
      · rw [done] at failed
        cases failed
  | setKey key => cases failed

theorem testBit_enableFeature (masked : Masked names feature) {bit : Nat} (below : bit < 32)
    (features : UInt32) :
    testBit (feature.enableFeature features).2.mFeatures bit = true ↔
      ((feature.enableFeature features).1 = true ∧ testBit features bit = true) ∨
        testBit feature.mFeatures bit = true := by
  rcases enableFeature_cases feature features with ⟨-, refused⟩ | ⟨fine, enabled⟩
  · rw [refused]
    simp
  · rw [enabled]
    dsimp only
    rw [testBit_or below, testBit_and below, Bool.or_eq_true, Bool.and_eq_true]
    constructor
    · rintro (old | ⟨-, new⟩)
      · exact Or.inr old
      · exact Or.inl ⟨rfl, new⟩
    · rintro (⟨-, new⟩ | old)
      · have named := (masked.no_invalid_iff features).mp fine bit below new
        exact Or.inr ⟨(masked.valid bit below).mpr named, new⟩
      · exact Or.inl old

/-- What a call makes of a bit: it sets it, or keeps it where it replaces nothing. -/
theorem testBit_call (masked : Masked names feature) {bit : Nat} (below : bit < 32)
    (call : Call) :
    testBit (feature.call call).2.mFeatures bit = true ↔
      Sets feature bit call ∨
        (testBit feature.mFeatures bit = true ∧ ¬ Replaces feature call) := by
  cases call with
  | enableFeature features =>
      rw [GenericFeature.call, testBit_enableFeature masked below]
      simp [Sets, Replaces]
  | enableFeatureName featureName =>
      have keeps : ¬ Replaces feature (.enableFeatureName featureName) := id
      rw [GenericFeature.call, Sets, masked.sameNames]
      rcases enableFeatureName_cases masked featureName with
        ⟨unknown, refused⟩ | ⟨other, found, same, enabled⟩
      · rw [refused, unknown]
        simp [keeps]
      · have otherBelow := names.below featureName other found
        rw [same, testBit_enableFeature masked below, enabled, found,
          testBit_featureOf otherBelow below]
        simp [keeps]
  | setFeatures encodedFeatures =>
      rw [GenericFeature.call, Sets, Replaces]
      rcases setFeatures_cases feature encodedFeatures with
        refused | ⟨key, value, set, decoded, -, done⟩
      · rw [refused]
        simp
      · rw [done, set]
        simp [decoded]
  | setKey key =>
      have keeps : ¬ Replaces feature (.setKey key) := id
      rw [GenericFeature.call, Sets]
      simp [setKey, keeps]

theorem named_call (masked : Masked names feature)
    (named : ∀ bit < 32, testBit feature.mFeatures bit = true →
      ∃ name : String, names.bits[name]? = some bit) (call : Call) :
    ∀ bit < 32, testBit (feature.call call).2.mFeatures bit = true →
      ∃ name : String, names.bits[name]? = some bit := by
  intro bit below set
  rcases (testBit_call masked below call).mp set with sets | ⟨old, -⟩
  · cases call with
    | enableFeature features =>
        rcases enableFeature_cases feature features with ⟨-, refused⟩ | ⟨fine, -⟩
        · have failed := sets.1
          rw [refused] at failed
          cases failed
        · exact (masked.no_invalid_iff features).mp fine bit below sets.2
    | enableFeatureName featureName =>
        have found := sets.2
        rw [masked.sameNames] at found
        exact ⟨featureName, found⟩
    | setFeatures encodedFeatures =>
        obtain ⟨accepted, key, value, set, decoded, bitSet⟩ := sets
        rcases setFeatures_cases feature encodedFeatures with
          refused | ⟨key', value', set', decoded', fine, -⟩
        · rw [refused] at accepted
          cases accepted
        · rw [set] at set'
          cases set'
          rw [decoded] at decoded'
          cases decoded'
          exact (masked.no_invalid_iff value).mp fine bit below bitSet
    | setKey key => exact absurd sets id
  · exact named bit below old

end Invariant

section Runs

variable (names : FeatureNames)

theorem run_append (feature : GenericFeature) (first second : List Call) :
    run feature (first ++ second) = run (run feature first) second :=
  List.foldl_append

/-- The key that a call leaves. -/
def keyAfter (mKey : Option Key) : Call → Option Key
  | .setKey key => key
  | _ => mKey

theorem mKey_call (feature : GenericFeature) (call : Call) :
    (feature.call call).2.mKey = keyAfter feature.mKey call := by
  have enabled : ∀ features, (feature.enableFeature features).2.mKey = feature.mKey := by
    intro features
    rcases enableFeature_cases feature features with ⟨-, same⟩ | ⟨-, same⟩
    · rw [same]
    · rw [same]
  cases call with
  | enableFeature features => exact enabled features
  | enableFeatureName featureName =>
      rw [GenericFeature.call, enableFeatureName]
      split
      · rfl
      · exact enabled _
  | setFeatures encodedFeatures =>
      rw [GenericFeature.call]
      rcases setFeatures_cases feature encodedFeatures with same | ⟨_, _, -, -, -, same⟩
      · rw [same]
        rfl
      · rw [same]
        rfl
  | setKey key => rfl

/-- The key of an object is the one that was set last. -/
theorem mKey_run (calls : List Call) :
    (run (new names.bits) calls).mKey = calls.foldl keyAfter none := by
  induction calls using List.reverseRecOn with
  | nil => rfl
  | append_singleton calls call ih =>
      rw [run_append, List.foldl_append, ← ih]
      exact mKey_call _ call

/-- What holds of an object after any calls. -/
structure Reached (feature : GenericFeature) : Prop where
  masked : Masked names feature
  named : ∀ bit < 32, testBit feature.mFeatures bit = true →
    ∃ name : String, names.bits[name]? = some bit

theorem reached_run (calls : List Call) : Reached names (run (new names.bits) calls) := by
  induction calls using List.reverseRecOn with
  | nil =>
      refine ⟨masked_new, ?_⟩
      intro bit below set
      have none : testBit (new names.bits).mFeatures bit = false := testBit_zero below
      rw [run, List.foldl_nil, none] at set
      cases set
  | append_singleton calls call ih =>
      rw [run_append]
      exact ⟨masked_call ih.masked call, named_call ih.masked ih.named call⟩

/-- A call among these set the bit, and no successful `setFeatures` came after it. -/
def LastSet (start : GenericFeature) (bit : Nat) (calls : List Call) : Prop :=
  ∃ before call after, calls = before ++ call :: after ∧ Sets (run start before) bit call ∧
    ∀ between later rest, after = between ++ later :: rest →
      ¬ Replaces (run start (before ++ call :: between)) later

theorem lastSet_nil (start : GenericFeature) (bit : Nat) : ¬ LastSet start bit [] := by
  rintro ⟨before, call, after, none, -⟩
  cases before <;> cases none

/-- The last call set the bit, or it was set before and the last call kept it. -/
theorem lastSet_append (start : GenericFeature) (bit : Nat) (calls : List Call) (last : Call) :
    LastSet start bit (calls ++ [last]) ↔
      Sets (run start calls) bit last ∨
        (LastSet start bit calls ∧ ¬ Replaces (run start calls) last) := by
  constructor
  · rintro ⟨before, call, after, split, sets, kept⟩
    induction after using List.reverseRecOn with
    | nil =>
        obtain ⟨rfl, same⟩ := List.append_inj' split rfl
        cases same
        exact Or.inl sets
    | append_singleton after final ih =>
        rw [← List.cons_append, ← List.append_assoc] at split
        obtain ⟨rfl, same⟩ := List.append_inj' split rfl
        cases same
        refine Or.inr ⟨⟨before, call, after, rfl, sets, ?_⟩, kept after last [] rfl⟩
        rintro between later rest rfl
        exact kept between later (rest ++ [last]) (by simp)
  · rintro (sets | ⟨⟨before, call, after, rfl, sets, kept⟩, keeps⟩)
    · refine ⟨calls, last, [], rfl, sets, ?_⟩
      intro between later rest none
      cases between <;> cases none
    · refine ⟨before, call, after ++ [last], by simp, sets, ?_⟩
      intro between later rest split
      induction rest using List.reverseRecOn with
      | nil =>
          obtain ⟨rfl, same⟩ := List.append_inj' split rfl
          cases same
          exact keeps
      | append_singleton rest final ih =>
          rw [← List.cons_append, ← List.append_assoc] at split
          obtain ⟨same, -⟩ := List.append_inj' split rfl
          exact kept between later rest same

/-- The bits of an object are those that were set last. -/
theorem testBit_run (calls : List Call) {bit : Nat} (below : bit < 32) :
    testBit (run (new names.bits) calls).mFeatures bit = true ↔
      LastSet (new names.bits) bit calls := by
  induction calls using List.reverseRecOn with
  | nil =>
      have none : testBit (new names.bits).mFeatures bit = false := testBit_zero below
      rw [run, List.foldl_nil, none]
      simp [lastSet_nil]
  | append_singleton calls call ih =>
      have masked := (reached_run names calls).masked
      rw [lastSet_append, ← ih, run_append]
      exact testBit_call masked below call

theorem checkSupported_iff {feature : GenericFeature} (masked : Masked names feature)
    (featureName : String) :
    feature.checkSupported featureName = true ↔
      ∃ bit, names.bits[featureName]? = some bit ∧ testBit feature.mFeatures bit = true := by
  rw [checkSupported]
  cases found : names.bits[featureName]? with
  | none =>
      rw [masked.nameToFeature_of_none found, if_pos rfl]
      simp
  | some bit =>
      have below := names.below featureName bit found
      rw [masked.nameToFeature_of_find found, if_neg (featureOf_ne_zero below), decide_eq_true_eq,
        NO_FEATURES, ne_zero_iff]
      constructor
      · rintro ⟨other, otherBelow, set⟩
        rw [testBit_and otherBelow, testBit_featureOf below otherBelow, Bool.and_eq_true,
          decide_eq_true_eq] at set
        obtain ⟨rfl, set⟩ := set
        exact ⟨bit, rfl, set⟩
      · rintro ⟨other, same, set⟩
        cases same
        refine ⟨bit, below, ?_⟩
        rw [testBit_and below, testBit_featureOf below below, set, decide_eq_true rfl]
        rfl

/-- Both keys have a license key, the same one, and the same type. -/
structure SameKey (first second : Key) : Prop where
  firstSet : first.mKeySet = true
  secondSet : second.mKeySet = true
  license : second.mLicenseKey = first.mLicenseKey
  type : second.mKeyType = first.mKeyType

/-- An object with the same key takes over the encoded features. -/
theorem setFeatures_encodeFeatures {feature other : GenericFeature}
    (reached : Reached names feature) (masked : Masked names other) {key otherKey : Key}
    (set : feature.mKey = some key) (otherSet : other.mKey = some otherKey)
    (same : SameKey key otherKey) (draws : Key.Draws) :
    other.setFeatures (feature.encodeFeatures draws) =
      (true, { other with mFeatures := feature.mFeatures }) := by
  have decoded : otherKey.decode32bits (feature.encodeFeatures draws) = some feature.mFeatures := by
    rw [encodeFeatures, set]
    exact Key.decode32bits_encode32bits same.firstSet same.secondSet same.license
      (by rw [same.type]) draws feature.mFeatures
  have fine := (masked.no_invalid_iff feature.mFeatures).mpr reached.named
  rw [setFeatures, otherSet]
  dsimp only
  rw [decoded]
  exact if_neg fine

/-- Names, bits and codes agree over every history of an object. -/
theorem features_agree (calls : List Call) :
    (∀ bit < 32, testBit (run (new names.bits) calls).mFeatures bit = true →
        ∃ name : String, names.bits[name]? = some bit) ∧
      (∀ call, ((run (new names.bits) calls).call call).1 = true ↔
        Accepted names (calls.foldl keyAfter none) call) ∧
      (∀ call, ((run (new names.bits) calls).call call).1 = false →
        ((run (new names.bits) calls).call call).2.mFeatures =
          (run (new names.bits) calls).mFeatures) ∧
      (∀ featureName, (run (new names.bits) calls).checkSupported featureName = true ↔
        ∃ bit, names.bits[featureName]? = some bit ∧ LastSet (new names.bits) bit calls) ∧
      ∀ otherCalls key otherKey draws, calls.foldl keyAfter none = some key →
        otherCalls.foldl keyAfter none = some otherKey → SameKey key otherKey →
        let (accepted, other) := (run (new names.bits) otherCalls).setFeatures
          ((run (new names.bits) calls).encodeFeatures draws)
        accepted = true ∧
          other.supportedFeatures = (run (new names.bits) calls).supportedFeatures := by
  have reached := reached_run names calls
  refine ⟨reached.named, ?_, ?_, ?_, ?_⟩
  · intro call
    rw [← mKey_run names calls]
    exact call_iff_accepted reached.masked call
  · intro call failed
    rw [call_of_failed reached.masked failed]
  · intro featureName
    rw [checkSupported_iff names reached.masked]
    constructor
    · rintro ⟨bit, found, set⟩
      exact ⟨bit, found, (testBit_run names calls (names.below featureName bit found)).mp set⟩
    · rintro ⟨bit, found, set⟩
      exact ⟨bit, found, (testBit_run names calls (names.below featureName bit found)).mpr set⟩
  · intro otherCalls key otherKey draws set otherSet same
    rw [← mKey_run names] at set otherSet
    have otherMasked := (reached_run names otherCalls).masked
    rw [setFeatures_encodeFeatures names reached otherMasked set otherSet same draws]
    exact ⟨rfl, rfl⟩

end Runs

end GenericFeature

end OpenMplane
