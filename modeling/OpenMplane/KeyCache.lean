import OpenMplane.GuardedRuns
import OpenMplane.KeyEncoding

/-!
# The cached encoding of a license key

`Key::encodedKey` keeps its result in a member that `setLicenseKey` leaves
alone.  This file follows a key through any calls and proves in which runs
every state hands out the encoding of the license key it holds.
-/

namespace OpenMplane

open GuardedRuns

namespace Key

/-- The calls that change a key or its cache. -/
inductive KeyCall
  | setLicenseKey (licenseKey : String)
  | setLicenseKeyInfo (info : List String)
  | setLicenseKeyBoard (serialNum hostid ctrlHostid : String)
  | setFromEncodedKey (encodedKey : String)
  | encodedKey
  | clear

section Runs

variable (getHashString : String → String)

def step (key : Key) : KeyCall → Key
  | .setLicenseKey licenseKey => (Key.setLicenseKey licenseKey key).2
  | .setLicenseKeyInfo info => (Key.setLicenseKeyInfo getHashString info key).2
  | .setLicenseKeyBoard serialNum hostid ctrlHostid =>
      (Key.setLicenseKeyBoard getHashString serialNum hostid ctrlHostid key).2
  | .setFromEncodedKey encodedKey => (Key.setFromEncodedKey encodedKey key).2
  | .encodedKey => key.encodedKey.2
  | .clear => key.clear

/-- A second key that is given the encoding takes it, holds the license key and
decodes what the first one encodes, as long as its type has as many random
copies; a key that is not set gives none. -/
structure EncodingCurrent (key : Key) : Prop where
  set : key.mKeySet = true → ∀ second : Key,
    let (accepted, told) := Key.setFromEncodedKey key.encodedKey.1 second
    accepted = true ∧ told.mLicenseKey = key.mLicenseKey ∧
      (key.mKeyType.toInt ≤ second.mKeyType.toInt → ∀ draws bits,
        told.decode32bits (key.encode32bits draws bits) = some bits)
  unset : key.mKeySet = false → key.encodedKey.1 = "0"

/-- The license key that comes from a collection of strings. -/
def infoLicense (info : List String) : Option Words :=
  match compressHash (getHashString (join info "/")) (keyCompressTable.take 16) with
  | .ok licenseKey => stringToUints licenseKey
  | .error _ => none

/-- The license key that a call of a `setLicenseKey` puts in place. -/
def newLicense : KeyCall → Option Words
  | .setLicenseKey licenseKey => stringToUints licenseKey
  | .setLicenseKeyInfo info => infoLicense getHashString info
  | .setLicenseKeyBoard serialNum hostid _ => infoLicense getHashString [serialNum, hostid]
  | .setFromEncodedKey _ | .encodedKey | .clear => none

/-- The call does not put another license key under an encoding that is
cached. -/
def KeepsEncoding (key : Key) (call : KeyCall) : Prop :=
  ∀ words, newLicense getHashString call = some words →
    key.mEncodedKey = "" ∨ words = key.mLicenseKey

/-- A cached encoding is that of the license key. -/
def CacheCurrent (key : Key) : Prop :=
  key.mEncodedKey ≠ "" → key.mKeySet = true ∧
    stringToUints key.mEncodedKey = some (encryptWords ⟨mPrivateKey⟩ key.mLicenseKey)

variable {getHashString} {key : Key}

def withLicense (key : Key) (license : Option Words) : Key :=
  license.elim key key.holding

theorem setLicenseKey_snd (licenseKey : String) (key : Key) :
    (Key.setLicenseKey licenseKey key).2 = key.withLicense (stringToUints licenseKey) := by
  rw [Key.setLicenseKey]
  cases stringToUints licenseKey with
  | none => rfl
  | some words => rfl

theorem setLicenseKeyInfo_snd (info : List String) (key : Key) :
    (Key.setLicenseKeyInfo getHashString info key).2 =
      key.withLicense (infoLicense getHashString info) := by
  rw [Key.setLicenseKeyInfo, infoLicense]
  cases compressHash (getHashString (join info "/")) (keyCompressTable.take 16) with
  | error exception => rfl
  | ok licenseKey => exact setLicenseKey_snd licenseKey key

/-- What a call does: it sets a license key, takes an encoding, hands one out
or clears the key. -/
theorem step_cases (key : Key) (call : KeyCall) :
    step getHashString key call = key.withLicense (newLicense getHashString call) ∨
      newLicense getHashString call = none ∧
        ((∃ encodedKey, step getHashString key call =
            (Key.setFromEncodedKey encodedKey key).2) ∨
          step getHashString key call = key.encodedKey.2 ∨
          step getHashString key call = key.clear) := by
  cases call with
  | setLicenseKey licenseKey => exact Or.inl (setLicenseKey_snd licenseKey key)
  | setLicenseKeyInfo info => exact Or.inl (setLicenseKeyInfo_snd info key)
  | setLicenseKeyBoard serialNum hostid ctrlHostid =>
      exact Or.inl (setLicenseKeyInfo_snd [serialNum, hostid] key)
  | setFromEncodedKey encodedKey => exact Or.inr ⟨rfl, Or.inl ⟨encodedKey, rfl⟩⟩
  | encodedKey => exact Or.inr ⟨rfl, Or.inr (Or.inl rfl)⟩
  | clear => exact Or.inr ⟨rfl, Or.inr (Or.inr rfl)⟩

theorem step_of_newLicense {call : KeyCall} {words : Words}
    (sets : newLicense getHashString call = some words) :
    step getHashString key call = key.holding words := by
  rcases @step_cases getHashString key call with licensed | ⟨other, _⟩
  · rw [licensed, sets]
    rfl
  · rw [other] at sets
    contradiction

theorem encodedKey_of_cached (set : key.mKeySet = true) (cached : key.mEncodedKey ≠ "") :
    key.encodedKey = (key.mEncodedKey, key) := by
  rw [encodedKey, if_neg (by simp [set]), if_neg cached]

theorem encodedKey_of_empty (set : key.mKeySet = true) (empty : key.mEncodedKey = "") :
    key.encodedKey = (uintsToString (encryptWords ⟨mPrivateKey⟩ key.mLicenseKey),
      { key with
        mEncodedKey := uintsToString (encryptWords ⟨mPrivateKey⟩ key.mLicenseKey) }) := by
  rw [encodedKey, if_neg (by simp [set]), if_pos empty]

/-- What a key with a current cache hands out reads as its license key. -/
theorem stringToUints_encodedKey (current : CacheCurrent key) (set : key.mKeySet = true) :
    stringToUints key.encodedKey.1 = some (encryptWords ⟨mPrivateKey⟩ key.mLicenseKey) := by
  by_cases empty : key.mEncodedKey = ""
  · rw [encodedKey_of_empty set empty]
    exact stringToUints_uintsToString _
  · rw [encodedKey_of_cached set empty]
    exact (current empty).2

/-- A text that reads as a license key under the private key gives it. -/
theorem setFromEncodedKey_eq {encodedKey : String} {words : Words}
    (read : stringToUints encodedKey = some (encryptWords ⟨mPrivateKey⟩ words)) (key : Key) :
    Key.setFromEncodedKey encodedKey key =
      (true, { key.holding words with mEncodedKey := encodedKey }) := by
  rw [Key.setFromEncodedKey, read]
  dsimp only
  congr 2
  all_goals rw [decryptWords_encryptWords]

theorem encodingCurrent_of_cacheCurrent (current : CacheCurrent key) : EncodingCurrent key := by
  constructor
  · intro set second
    rw [setFromEncodedKey_eq (stringToUints_encodedKey current set) second]
    refine ⟨rfl, rfl, ?_⟩
    intro moreRandom draws bits
    have secondSet : (second.holding key.mLicenseKey).mKeySet = true := rfl
    exact decode32bits_encode32bits set secondSet rfl moreRandom draws bits
  · intro unset
    rw [encodedKey, if_pos unset]

theorem cacheCurrent_new (type : KeyEncodeType) : CacheCurrent (Key.new type) :=
  fun cached => absurd rfl cached

theorem cacheCurrent_step (current : CacheCurrent key) {call : KeyCall}
    (keeps : KeepsEncoding getHashString key call) :
    CacheCurrent (step getHashString key call) := by
  rcases @step_cases getHashString key call with
    licensed | ⟨_, ⟨encodedKey, taken⟩ | handed | cleared⟩
  · rw [licensed]
    cases sets : newLicense getHashString call with
    | none => exact current
    | some words =>
        -- the cache is empty or belongs to the license key that is set again
        intro cached
        rcases keeps words sets with empty | rfl
        · exact absurd empty cached
        · exact ⟨rfl, (current cached).2⟩
  · rw [taken, Key.setFromEncodedKey]
    cases read : stringToUints encodedKey with
    | none => exact current
    | some encoded =>
        intro _
        refine ⟨rfl, ?_⟩
        have again := encryptWords_decryptWords ⟨mPrivateKey⟩ encoded
        calc stringToUints encodedKey = some encoded := read
          _ = some (encryptWords ⟨mPrivateKey⟩ (decryptWords ⟨mPrivateKey⟩ encoded)) := by
              rw [again]
  · rw [handed]
    cases set : key.mKeySet with
    | false =>
        rw [encodedKey, if_pos set]
        exact current
    | true =>
        by_cases empty : key.mEncodedKey = ""
        · rw [encodedKey_of_empty set empty]
          intro _
          exact ⟨set, stringToUints_uintsToString _⟩
        · rw [encodedKey_of_cached set empty]
          exact current
  · rw [cleared]
    exact fun cached => absurd rfl cached

/-- A call leaves the key with the right encoding exactly when it keeps it. -/
theorem keepsEncoding_iff (current : CacheCurrent key) (call : KeyCall) :
    KeepsEncoding getHashString key call ↔
      EncodingCurrent (step getHashString key call) := by
  constructor
  · intro keeps
    exact encodingCurrent_of_cacheCurrent (cacheCurrent_step current keeps)
  · intro next words sets
    by_cases empty : key.mEncodedKey = ""
    · exact Or.inl empty
    · -- the second key still gets the license key of before the call
      rw [step_of_newLicense sets] at next
      have set : (key.holding words).mKeySet = true := rfl
      have cached : (key.holding words).mEncodedKey ≠ "" := empty
      have held : (key.holding words).encodedKey.1 = key.mEncodedKey := by
        rw [encodedKey_of_cached set cached]
        rfl
      have told := next.set set (Key.new .KEY_DUP4)
      rw [held, setFromEncodedKey_eq (current empty).2] at told
      exact Or.inr told.2.1.symm

end Runs

/-- The runs in which every state hands out the encoding of its license key. -/
theorem encodingCurrent_iff (getHashString : String → String) (type : KeyEncodeType)
    (calls : List KeyCall) :
    (∀ reached, reached <+: calls →
        EncodingCurrent (reached.foldl (step getHashString) (Key.new type))) ↔
      Guarded (KeepsEncoding getHashString) (step getHashString) (Key.new type) calls := by
  have starts := cacheCurrent_new type
  have nextCurrent :
      Guarded (KeepsEncoding getHashString) (step getHashString) (Key.new type) calls ↔
      Guarded (fun key call => EncodingCurrent (step getHashString key call))
        (step getHashString) (Key.new type) calls :=
    guarded_iff_of_invariant
      (fun key call (current : CacheCurrent key) => keepsEncoding_iff current call)
      (fun key call (current : CacheCurrent key) keeps => cacheCurrent_step current keeps)
      starts calls
  rw [nextCurrent, guarded_next_iff (encodingCurrent_of_cacheCurrent starts)]

/-- The license key one. -/
def firstLicense : String := uintsToString ![1, 0, 0, 0]

/-- The license key two. -/
def secondLicense : String := uintsToString ![2, 0, 0, 0]

/-- The encoding of a license key that is replaced is still handed out. -/
theorem encoding_of_replaced_key_is_kept :
    ¬ ∀ (getHashString : String → String) (type : KeyEncodeType) (calls : List KeyCall),
      EncodingCurrent (calls.foldl (step getHashString) (Key.new type)) := by
  intro always
  let key := (Key.new .KEY_DUP4).holding ![1, 0, 0, 0]
  have first : stringToUints firstLicense = some ![1, 0, 0, 0] := stringToUints_uintsToString _
  have second : stringToUints secondLicense = some ![2, 0, 0, 0] := stringToUints_uintsToString _
  have set : step id (Key.new .KEY_DUP4) (.setLicenseKey firstLicense) = key :=
    step_of_newLicense first
  have handed : step id key .encodedKey = { key with
      mEncodedKey := uintsToString (encryptWords ⟨mPrivateKey⟩ ![1, 0, 0, 0]) } :=
    congrArg Prod.snd (encodedKey_of_empty rfl rfl)
  have current : CacheCurrent (step id key .encodedKey) :=
    cacheCurrent_step (fun cached => absurd rfl cached) (fun _ sets => by simp [newLicense] at sets)
  -- the second license key comes while the encoding of the first is cached
  have next := always id .KEY_DUP4
    [.setLicenseKey firstLicense, .encodedKey, .setLicenseKey secondLicense]
  rw [List.foldl_cons, set, List.foldl_cons, List.foldl_cons, List.foldl_nil,
    ← keepsEncoding_iff current] at next
  rcases next _ second with empty | same
  · have letters := (isHex32_uintsToString (encryptWords ⟨mPrivateKey⟩ ![1, 0, 0, 0])).1
    rw [handed] at empty
    dsimp only at empty
    rw [empty] at letters
    contradiction
  · rw [handed] at same
    have word := congrFun same 0
    revert word
    decide

end Key

end OpenMplane
