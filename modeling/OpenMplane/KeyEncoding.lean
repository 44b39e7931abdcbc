import Mathlib.Data.List.Nodup
import OpenMplane.Key

/-!
# Values encoded under a license key

The table of `Key::expand32` has no repetition, so that every index keeps its
own bit; the cipher is invertible; and a numeral survives printing and reading.
The copies of a bit that are not random then decide what `decode32bits` makes
of a text: it is the value whose bits all of them show, and every text that
decodes to a value is an encoding of it for some random bits.
-/

namespace OpenMplane

open Hexadecimal WordBits

namespace Key

section Table

theorem expansionBits_perm : expansionBits.Perm (List.range 128) := by
  decide +kernel

theorem expansionBitTable_eq {idx : Nat} (below : idx < expansionBits.length) :
    expansionBitTable idx = expansionBits[idx] := by
  rw [expansionBitTable, List.getD_eq_getElem _ _ below]

theorem expansionBitTable_lt : ∀ idx ∈ List.range 128, expansionBitTable idx < 32 * 4 := by
  intro idx member
  have below : idx < expansionBits.length := List.mem_range.mp member
  rw [expansionBitTable_eq below]
  exact List.mem_range.mp (expansionBits_perm.mem_iff.mp (List.getElem_mem below))

theorem expansionBitTable_injective : ∀ first ∈ List.range 128, ∀ second ∈ List.range 128,
    expansionBitTable first = expansionBitTable second → first = second := by
  intro first firstMember second secondMember same
  have firstBelow : first < expansionBits.length := List.mem_range.mp firstMember
  have secondBelow : second < expansionBits.length := List.mem_range.mp secondMember
  have distinct : expansionBits.Nodup := expansionBits_perm.nodup_iff.mpr List.nodup_range
  rw [expansionBitTable_eq firstBelow, expansionBitTable_eq secondBelow] at same
  exact (List.Nodup.getElem_inj_iff distinct).mp same

/-- Every place of the result belongs to an index. -/
theorem exists_expansionBitTable_eq {bitpos : Nat} (below : bitpos < 32 * 4) :
    ∃ idx < 128, expansionBitTable idx = bitpos := by
  have member := expansionBits_perm.mem_iff.mpr (List.mem_range.mpr below)
  obtain ⟨idx, inside, place⟩ := List.getElem_of_mem member
  exact ⟨idx, inside, by rw [expansionBitTable_eq inside, place]⟩

end Table

section Bits

variable {mKeyType : KeyEncodeType}

theorem bitAt_expand32 (draws : Draws) (src : UInt32) {idx : Nat} (below : idx < 128) :
    bitAt (expand32 mKeyType draws src) (expansionBitTable idx) =
      expandedBit mKeyType draws src idx :=
  bitAt_scatter_of_injective expansionBitTable_lt expansionBitTable_injective
    (List.mem_range.mpr below) (testBit_zero (Nat.mod_lt _ (by decide)))

/-- Some copy of each bit is never random. -/
theorem injected_last (mKeyType : KeyEncodeType) (bit : Nat) :
    injected mKeyType (4 * bit + 3) = false := by
  have block : (4 * bit + 3) % 4 = 3 := by omega
  rw [injected, block]
  cases mKeyType <;> decide

theorem injected_block (mKeyType : KeyEncodeType) (bit : Nat) {block : Nat} (below : block < 4) :
    injected mKeyType (4 * bit + block) = decide ((block : Int) ≤ mKeyType.toInt) := by
  have index : (4 * bit + block) % 4 = block := by omega
  rw [injected, index]

/-- The copies that are not random show a bit. -/
def Shows (mKeyType : KeyEncodeType) (src : Words) (bit : Nat) (value : Bool) : Prop :=
  ∀ block < 4, injected mKeyType (4 * bit + block) = false →
    bitAt src (expansionBitTable (4 * bit + block)) = value

theorem shows_unique {src : Words} {bit : Nat} {first second : Bool}
    (showsFirst : Shows mKeyType src bit first) (showsSecond : Shows mKeyType src bit second) :
    first = second := by
  rw [← showsFirst 3 (by decide) (injected_last mKeyType bit),
    ← showsSecond 3 (by decide) (injected_last mKeyType bit)]

theorem all_copies_iff (src : Words) (bit : Nat) :
    (List.range 4).all (copies mKeyType src bit) = true ↔ Shows mKeyType src bit true := by
  rw [List.all_eq_true]
  constructor
  · intro all block below notInjected
    have copy := all block (List.mem_range.mpr below)
    rw [copies, if_neg (by simp [notInjected])] at copy
    exact copy
  · intro shows block member
    unfold copies
    split
    · rfl
    · next notInjected =>
      exact shows block (List.mem_range.mp member) (by simpa using notInjected)

theorem no_clearedCopies_iff (src : Words) (bit : Nat) :
    (List.range 4).any (clearedCopies mKeyType src bit) = false ↔
      Shows mKeyType src bit false := by
  rw [List.any_eq_false]
  constructor
  · intro none block below notInjected
    have copy := none block (List.mem_range.mpr below)
    have position := injected_block mKeyType bit below
    rw [notInjected] at position
    have kept : ¬ (block : Int) ≤ mKeyType.toInt := of_decide_eq_false position.symm
    rw [clearedCopies, if_neg kept, copies, if_neg (by simp [notInjected])] at copy
    simpa using copy
  · intro shows block member
    have below := List.mem_range.mp member
    have position := injected_block mKeyType bit below
    unfold clearedCopies
    split
    · simp
    · next kept =>
      rw [decide_eq_false kept] at position
      rw [copies, if_neg (by simp [position]), shows block below position]
      simp

/-- Copies of which none is set show a zero. -/
theorem shows_false_of_no_copies {src : Words} {bit : Nat}
    (none : (List.range 4).any (copies mKeyType src bit) = false) :
    Shows mKeyType src bit false := by
  intro block below notInjected
  have copy := List.any_eq_false.mp none block (List.mem_range.mpr below)
  rw [copies, if_neg (by simp [notInjected])] at copy
  simpa using copy

theorem compressBits_cons_eq_some_iff {src : Words} {bit : Nat} {bits : List Nat}
    {decoded value : UInt32} :
    compressBits mKeyType src (bit :: bits) decoded = some value ↔
      Shows mKeyType src bit true ∧
          compressBits mKeyType src bits (orBit decoded bit) = some value ∨
        Shows mKeyType src bit false ∧
          compressBits mKeyType src bits decoded = some value := by
  rw [compressBits]
  by_cases ones : Shows mKeyType src bit true
  · have notZeros : ¬ Shows mKeyType src bit false := by
      intro zeros
      exact Bool.noConfusion (shows_unique ones zeros)
    rw [if_pos ((all_copies_iff src bit).mpr ones)]
    simp [ones, notZeros]
  · rw [if_neg fun all => ones ((all_copies_iff src bit).mp all)]
    by_cases zeros : Shows mKeyType src bit false
    · have cleared := (no_clearedCopies_iff src bit).mpr zeros
      rw [if_pos cleared, ite_self]
      simp [ones, zeros]
    · rw [if_neg fun none => zeros (shows_false_of_no_copies none),
        if_neg fun none => zeros ((no_clearedCopies_iff src bit).mp none)]
      simp [ones, zeros]

theorem compressBits_eq_some_iff {src : Words} {bits : List Nat} (distinct : bits.Nodup)
    (bitsBelow : ∀ bit ∈ bits, bit < 32) {decoded value : UInt32}
    (clear : ∀ bit ∈ bits, testBit decoded bit = false) :
    compressBits mKeyType src bits decoded = some value ↔
      (∀ bit ∈ bits, Shows mKeyType src bit (testBit value bit)) ∧
        ∀ bit < 32, bit ∉ bits → testBit value bit = testBit decoded bit := by
  induction bits generalizing decoded with
  | nil =>
      rw [compressBits, Option.some.injEq]
      constructor
      · rintro rfl
        simp
      · rintro ⟨-, same⟩
        exact (eq_of_testBit fun bit below => same bit below (by simp)).symm
  | cons bit bits ih =>
      have bitBelow := bitsBelow bit List.mem_cons_self
      have restBelow : ∀ other ∈ bits, other < 32 := fun other member =>
        bitsBelow other (List.mem_cons_of_mem bit member)
      have restClear : ∀ other ∈ bits, testBit decoded other = false := fun other member =>
        clear other (List.mem_cons_of_mem bit member)
      obtain ⟨fresh, restDistinct⟩ := List.nodup_cons.mp distinct
      have setBit : ∀ other < 32, testBit (orBit decoded bit) other =
          (testBit decoded other || decide (bit = other)) := fun other below =>
        testBit_orBit bitBelow below decoded
      have setClear : ∀ other ∈ bits, testBit (orBit decoded bit) other = false := by
        intro other member
        have different : bit ≠ other := fun same => fresh (same ▸ member)
        rw [setBit other (restBelow other member), restClear other member,
          decide_eq_false different]
        rfl
      rw [compressBits_cons_eq_some_iff, ih restDistinct restBelow setClear,
        ih restDistinct restBelow restClear]
      constructor
      · rintro (⟨one, shows, outside⟩ | ⟨zero, shows, outside⟩)
        · have own : testBit value bit = true := by
            rw [outside bit bitBelow fresh, setBit bit bitBelow]
            simp
          refine ⟨List.forall_mem_cons.mpr ⟨by rw [own]; exact one, shows⟩, ?_⟩
          intro other below notMember
          rw [List.mem_cons, not_or] at notMember
          rw [outside other below notMember.2, setBit other below,
            decide_eq_false (Ne.symm notMember.1), Bool.or_false]
        · have own : testBit value bit = false := by
            rw [outside bit bitBelow fresh, clear bit List.mem_cons_self]
          refine ⟨List.forall_mem_cons.mpr ⟨by rw [own]; exact zero, shows⟩, ?_⟩
          intro other below notMember
          exact outside other below fun member => notMember (List.mem_cons_of_mem bit member)
      · rintro ⟨shows, outside⟩
        have own := shows bit List.mem_cons_self
        have rest := fun other (member : other ∈ bits) =>
          shows other (List.mem_cons_of_mem bit member)
        cases bitValue : testBit value bit with
        | true =>
            rw [bitValue] at own
            refine Or.inl ⟨own, rest, ?_⟩
            intro other below notMember
            rw [setBit other below]
            by_cases same : bit = other
            · rw [← same, bitValue]
              simp
            · rw [outside other below (by simp [notMember, Ne.symm same]),
                decide_eq_false same, Bool.or_false]
        | false =>
            rw [bitValue] at own
            refine Or.inr ⟨own, rest, ?_⟩
            intro other below notMember
            by_cases same : bit = other
            · rw [← same, bitValue, clear bit List.mem_cons_self]
            · exact outside other below (by simp [notMember, Ne.symm same])

/-- `compress32` reads the value whose bits all the copies show. -/
theorem compress32_eq_some_iff {src : Words} {value : UInt32} :
    compress32 mKeyType src = some value ↔
      ∀ bit < 32, Shows mKeyType src bit (testBit value bit) := by
  have below : ∀ bit ∈ List.range 32, bit < 32 := fun bit member => List.mem_range.mp member
  have clear : ∀ bit ∈ List.range 32, testBit 0 bit = false := fun bit member =>
    testBit_zero (below bit member)
  rw [compress32, compressBits_eq_some_iff List.nodup_range below clear]
  simp only [List.mem_range]
  constructor
  · rintro ⟨shows, -⟩
    exact shows
  · intro shows
    refine ⟨shows, ?_⟩
    intro bit inside outside
    exact absurd inside outside

/-- An expanded value shows its bits, also under a type with more random
copies. -/
theorem compress32_expand32 {second : KeyEncodeType} (draws : Draws) (src : UInt32)
    (moreRandom : mKeyType.toInt ≤ second.toInt) :
    compress32 second (expand32 mKeyType draws src) = some src := by
  rw [compress32_eq_some_iff]
  intro bit bitBelow block blockBelow notInjected
  have position : (4 * bit + block) / 4 = bit := by omega
  have own : injected mKeyType (4 * bit + block) = false := by
    have kept := of_decide_eq_false notInjected
    exact decide_eq_false fun less => kept (le_trans less moreRandom)
  rw [bitAt_expand32 draws src (by omega), expandedBit, own, if_neg (by simp), position]

/-- Draws that give the copies of a row. -/
def drawsOf (src : Words) : Draws := fun idx =>
  if bitAt src (expansionBitTable idx) then 0 else Fin.last BIT_DIST

theorem expand32_drawsOf {src : Words} {value : UInt32}
    (compressed : compress32 mKeyType src = some value) :
    expand32 mKeyType (drawsOf src) value = src := by
  rw [compress32_eq_some_iff] at compressed
  apply eq_of_bitAt
  intro bitpos below
  obtain ⟨idx, inside, rfl⟩ := exists_expansionBitTable_eq below
  rw [bitAt_expand32 _ _ inside, expandedBit]
  cases random : injected mKeyType idx with
  | true =>
      rw [if_pos rfl, drawsOf]
      cases bitAt src (expansionBitTable idx) <;> decide
  | false =>
      have split : 4 * (idx / 4) + idx % 4 = idx := by omega
      have shown := compressed (idx / 4) (by omega) (idx % 4) (Nat.mod_lt _ (by decide))
      rw [split] at shown
      rw [if_neg (by simp), shown random]

/-- The rows that are read as a value are its expansions. -/
theorem compress32_eq_some_iff_exists_draws {src : Words} {value : UInt32} :
    compress32 mKeyType src = some value ↔
      ∃ draws, expand32 mKeyType draws value = src := by
  constructor
  · intro compressed
    exact ⟨drawsOf src, expand32_drawsOf compressed⟩
  · rintro ⟨draws, rfl⟩
    exact compress32_expand32 draws value le_rfl

end Bits

section Texts

/-- Thirty-two hexadecimal digits. -/
def IsHex32 (str : String) : Prop :=
  str.length = 32 ∧ ∀ letter ∈ str.toList, letter ∈ hexLetters

/-- The same letters up to their case. -/
def SameUpToCase (first second : String) : Prop :=
  first.toList.map Char.toLower = second.toList.map Char.toLower

theorem stringToUints_eq_some_iff_isHex32 {str : String} {words : Words} :
    stringToUints str = some words ↔
      IsHex32 str ∧ ∀ block, UInt32.ofNat (hexValue (wordDigits str block)) = words block := by
  unfold stringToUints IsHex32
  by_cases length : str.length = 32
  · rw [if_neg (not_not_intro length)]
    by_cases hex : ∀ letter ∈ str.toList, letter ∈ hexLetters
    · rw [if_neg (by simpa using hex)]
      simp only [Option.some.injEq, funext_iff, length, true_and]
      exact ⟨fun same => ⟨hex, same⟩, fun both => both.2⟩
    · rw [if_pos (by simpa using hex)]
      simp [hex]
  · rw [if_pos length]
    simp [length]

/-- A text of thirty-two letters is its four words. -/
theorem toList_eq_wordDigits {str : String} (length : str.length = 32) :
    str.toList = wordDigits str 3 ++ wordDigits str 2 ++ wordDigits str 1 ++
      wordDigits str 0 := by
  have letters : str.toList.length = 32 := by rw [String.length_toList, length]
  have last : (str.toList.drop 24).take 8 = str.toList.drop 24 :=
    List.take_of_length_le (by rw [List.length_drop, letters])
  have third : str.toList.drop 16 = (str.toList.drop 16).take 8 ++ str.toList.drop 24 := by
    have split := (List.take_append_drop 8 (str.toList.drop 16)).symm
    rwa [List.drop_drop] at split
  have second : str.toList.drop 8 = (str.toList.drop 8).take 8 ++ str.toList.drop 16 := by
    have split := (List.take_append_drop 8 (str.toList.drop 8)).symm
    rwa [List.drop_drop] at split
  calc str.toList
      = str.toList.take 8 ++ str.toList.drop 8 := (List.take_append_drop 8 _).symm
    _ = str.toList.take 8 ++ ((str.toList.drop 8).take 8 ++
          ((str.toList.drop 16).take 8 ++ (str.toList.drop 24).take 8)) := by
        rw [last, ← third, ← second]
    _ = wordDigits str 3 ++ wordDigits str 2 ++ wordDigits str 1 ++ wordDigits str 0 := by
        rw [List.append_assoc, List.append_assoc]
        rfl

theorem length_wordDigits {str : String} (length : str.length = 32) (block : Fin 4) :
    (wordDigits str block).length = 8 := by
  have letters : str.toList.length = 32 := by rw [String.length_toList, length]
  have inside := block.isLt
  rw [wordDigits, List.length_take, List.length_drop, letters]
  omega

theorem toList_uintsToString (words : Words) :
    (uintsToString words).toList = hexDigits 8 (words 3).toNat ++ hexDigits 8 (words 2).toNat ++
      hexDigits 8 (words 1).toNat ++ hexDigits 8 (words 0).toNat := by
  rw [uintsToString, String.toList_ofList]

theorem isHex32_uintsToString (words : Words) : IsHex32 (uintsToString words) := by
  constructor
  · rw [← String.length_toList, toList_uintsToString]
    simp [length_hexDigits]
  · intro letter member
    rw [toList_uintsToString] at member
    simp only [List.mem_append] at member
    rcases member with ((member | member) | member) | member <;>
      exact mem_hexLetters_of_mem_hexDigits member

theorem wordDigits_uintsToString (words : Words) (block : Fin 4) :
    wordDigits (uintsToString words) block = hexDigits 8 (words block).toNat := by
  have whole : ∀ value, (hexDigits 8 value).take 8 = hexDigits 8 value := fun value =>
    List.take_of_length_le (length_hexDigits 8 value).le
  have past : ∀ value count, (hexDigits 8 value).drop (count + 8) = [] := fun value count =>
    List.drop_eq_nil_of_le (by rw [length_hexDigits]; omega)
  rw [wordDigits, toList_uintsToString]
  match block with
  | 0 | 1 | 2 | 3 => simp [List.drop_append, length_hexDigits, whole, past]

/-- What is printed is read back. -/
theorem stringToUints_uintsToString (words : Words) :
    stringToUints (uintsToString words) = some words := by
  rw [stringToUints_eq_some_iff_isHex32]
  refine ⟨isHex32_uintsToString words, ?_⟩
  intro block
  rw [wordDigits_uintsToString, hexValue_hexDigits (words block).toNat_lt, UInt32.ofNat_toNat]

theorem uintsToString_injective {first second : Words}
    (same : uintsToString first = uintsToString second) : first = second := by
  have read := stringToUints_uintsToString first
  rw [same, stringToUints_uintsToString, Option.some.injEq] at read
  exact read.symm

/-- What is read is printed in small letters. -/
theorem toList_uintsToString_of_stringToUints {str : String} {words : Words}
    (read : stringToUints str = some words) :
    (uintsToString words).toList = str.toList.map Char.toLower := by
  obtain ⟨⟨length, hex⟩, values⟩ := stringToUints_eq_some_iff_isHex32.mp read
  have printed : ∀ block, hexDigits 8 (words block).toNat =
      (wordDigits str block).map Char.toLower := by
    intro block
    have digits : ∀ letter ∈ wordDigits str block, letter ∈ hexLetters := fun letter member =>
      hex letter (List.mem_of_mem_drop (List.mem_of_mem_take member))
    have below := hexValue_lt digits
    have again := hexDigits_hexValue digits
    rw [length_wordDigits length block] at below again
    rw [← values block, UInt32.toNat_ofNat_of_lt' below, again]
  rw [toList_uintsToString, printed, printed, printed, printed, toList_eq_wordDigits length]
  simp only [List.map_append]

theorem map_toLower_uintsToString (words : Words) :
    (uintsToString words).toList.map Char.toLower = (uintsToString words).toList :=
  (toList_uintsToString_of_stringToUints (stringToUints_uintsToString words)).symm

/-- A text is read as the words that print as it up to case. -/
theorem stringToUints_eq_some_iff {str : String} {words : Words} :
    stringToUints str = some words ↔
      IsHex32 str ∧ SameUpToCase (uintsToString words) str := by
  unfold SameUpToCase
  rw [map_toLower_uintsToString]
  constructor
  · intro read
    exact ⟨(stringToUints_eq_some_iff_isHex32.mp read).1,
      toList_uintsToString_of_stringToUints read⟩
  · rintro ⟨hex, same⟩
    have read := stringToUints_eq_some_iff_isHex32.mpr ⟨hex, fun _ => rfl⟩
    have printed := toList_uintsToString_of_stringToUints read
    have equal := uintsToString_injective (String.toList_inj.mp (same.trans printed.symm))
    rw [read, equal]

end Texts

section Values

variable {key : Key}

theorem decryptWords_encryptWords (crypt : Crypt) (words : Words) :
    decryptWords crypt (encryptWords crypt words) = words := by
  funext block
  match block with
  | 0 | 1 | 2 | 3 => simp [decryptWords, encryptWords, Crypt.decrypt_encrypt]

theorem encryptWords_decryptWords (crypt : Crypt) (words : Words) :
    encryptWords crypt (decryptWords crypt words) = words := by
  funext block
  match block with
  | 0 | 1 | 2 | 3 => simp [decryptWords, encryptWords, Crypt.encrypt_decrypt]

theorem crypt_eq (set : key.mKeySet = true) : key.crypt set = ⟨key.mLicenseKey⟩ :=
  Option.get_of_eq_some _ (key.engine set)

theorem encode32bits_of_set (set : key.mKeySet = true) (draws : Draws) (bits : UInt32) :
    key.encode32bits draws bits =
      uintsToString (encryptWords ⟨key.mLicenseKey⟩ (expand32 key.mKeyType draws bits)) := by
  rw [encode32bits, dif_pos set, crypt_eq]

theorem decode32bits_eq_some_iff (set : key.mKeySet = true) {str : String} {value : UInt32} :
    key.decode32bits str = some value ↔
      ∃ row, compress32 key.mKeyType row = some value ∧
        stringToUints str = some (encryptWords ⟨key.mLicenseKey⟩ row) := by
  rw [decode32bits, dif_pos set, crypt_eq]
  cases read : stringToUints str with
  | none => simp
  | some words =>
      dsimp only
      constructor
      · intro compressed
        exact ⟨_, compressed, by rw [encryptWords_decryptWords]⟩
      · rintro ⟨row, compressed, same⟩
        rw [Option.some.injEq] at same
        rw [same, decryptWords_encryptWords, compressed]

/-- A value decodes under a key with the same license key whose type has at
least as many random copies. -/
theorem decode32bits_encode32bits {first second : Key} (firstSet : first.mKeySet = true)
    (secondSet : second.mKeySet = true) (sameLicense : second.mLicenseKey = first.mLicenseKey)
    (moreRandom : first.mKeyType.toInt ≤ second.mKeyType.toInt) (draws : Draws) (bits : UInt32) :
    second.decode32bits (first.encode32bits draws bits) = some bits := by
  rw [decode32bits_eq_some_iff secondSet, sameLicense, encode32bits_of_set firstSet]
  exact ⟨_, compress32_expand32 draws bits moreRandom, stringToUints_uintsToString _⟩

/-- The texts that decode to a value are its encodings, and each encoding
decodes. -/
theorem decode32bits_exact (first second : Key) (firstSet : first.mKeySet = true)
    (secondSet : second.mKeySet = true) (sameLicense : second.mLicenseKey = first.mLicenseKey)
    (sameType : second.mKeyType = first.mKeyType) :
    (∀ draws bits, second.decode32bits (first.encode32bits draws bits) = some bits) ∧
      ∀ str, IsHex32 str → ∀ bits, second.decode32bits str = some bits ↔
        ∃ draws, SameUpToCase (first.encode32bits draws bits) str := by
  constructor
  · intro draws bits
    exact decode32bits_encode32bits firstSet secondSet sameLicense (by rw [sameType]) draws bits
  · intro str hex bits
    rw [decode32bits_eq_some_iff secondSet, sameLicense, sameType]
    constructor
    · rintro ⟨row, compressed, read⟩
      obtain ⟨draws, rfl⟩ := compress32_eq_some_iff_exists_draws.mp compressed
      refine ⟨draws, ?_⟩
      rw [encode32bits_of_set firstSet]
      exact (stringToUints_eq_some_iff.mp read).2
    · rintro ⟨draws, same⟩
      rw [encode32bits_of_set firstSet] at same
      exact ⟨_, compress32_expand32 draws bits le_rfl,
        stringToUints_eq_some_iff.mpr ⟨hex, same⟩⟩

/-- A key of three copies with a license key. -/
def licensed : Key := (Key.new .KEY_DUP3).holding ![1, 2, 3, 4]

theorem decode32bits_exact_licensed :
    (∀ draws bits, licensed.decode32bits (licensed.encode32bits draws bits) = some bits) ∧
      ∀ str, IsHex32 str → ∀ bits, licensed.decode32bits str = some bits ↔
        ∃ draws, SameUpToCase (licensed.encode32bits draws bits) str :=
  decode32bits_exact licensed licensed rfl rfl rfl rfl

end Values

end Key

end OpenMplane
