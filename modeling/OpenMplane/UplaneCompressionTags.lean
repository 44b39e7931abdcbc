import OpenMplane.LastWriteWins
import OpenMplane.UplaneCompressionParity

/-!
# The tag of a compression record

A compression record has a format, which tells which member of its union is in
use.  The leaves of a format write their member, and no update writes the
format: it stays at `NO_COMPRESSION`.  A record that is handed over describes
itself only as long as no leaf of a format has been written.
-/

namespace OpenMplane

open LastWriteWins StatePrograms

/-- The text of a format; `MODULATION` stands in the place of the beam space. -/
def CType.formatName : CType → String
  | .NO_COMPRESSION => "no-compression"
  | .BLOCK_FLOATING_POINT => "block-floating-point"
  | .BLOCK_FLOATING_POINT_SRES => "block-floating-point-selective-re-sending"
  | .BLOCK_SCALING => "block-scaling"
  | .U_LAW => "u-law"
  | .MODULATION => "beam-space-compression"
  | .MODULATION_COMPRESSION => "modulation-compression"
  | .MODULATION_COMPRESSION_SRES => "modulation-compression-selective-re-sending"

namespace Compression

/-- What the member of a leaf holds. -/
def member (compression : Compression) (leaf : String) : Option Nat :=
  if leaf ∈ ["exponent", "sres-exponent", "block-scalar", "comp-bit-width",
      "active-beam-space-coeficient-mask", "csf", "sres-csf"] then
    some compression.byte0.toNat
  else if leaf ∈ ["comp-shift", "block-scaler"] then some compression.byte1.toNat
  else if leaf ∈ ["mod-comp-scaler", "sres-mod-comp-scaler"] then some compression.half1.toNat
  else none

/-- The formats with one value. -/
def onePartFormats : List String :=
  ["block-floating-point", "block-floating-point-selective-re-sending", "block-scaling"]

/-- A store that leaves the format alone. -/
def Untagged (store : Compression → Int → Compression) : Prop :=
  ∀ compression value, (store compression value).compression_format =
    compression.compression_format

/-- The writes of the values of a two-part format. -/
def storeBoth : Direction → String → String → (Compression → Int → Compression) →
    (Compression → Int → Compression) → EStateM StdException Compression Unit
  | .rx, val1, val2, store1, store2 => do
      storeNonempty val1 store1
      storeNonempty val2 store2
  | .tx, val1, val2, store1, store2 => do
      storeField val1 store1
      storeField val2 store2

section Shapes

variable (direction : Direction) (iqBitwidth compressionType val1 val2 : String)

theorem update_noFormat :
    update direction iqBitwidth compressionType "" val1 val2 =
      updateCommon iqBitwidth compressionType := by
  cases direction <;> simp [update, updateRx, updateTx]

theorem update_onePart {compressionFormat : String} (onePart : compressionFormat ∈ onePartFormats) :
    ∃ store, Untagged store ∧
      update direction iqBitwidth compressionType compressionFormat val1 val2 = (do
        updateCommon iqBitwidth compressionType
        storeField val1 store) := by
  simp only [onePartFormats, List.mem_cons, List.not_mem_nil, or_false] at onePart
  rcases onePart with rfl | rfl | rfl
  · exact ⟨setExponent, fun _ _ => rfl, by cases direction <;> rfl⟩
  · exact ⟨setSresExponent, fun _ _ => rfl, by cases direction <;> rfl⟩
  · exact ⟨setBlockScalar, fun _ _ => rfl, by cases direction <;> rfl⟩

theorem update_twoPart {compressionFormat : String} (twoPart : compressionFormat ∈ twoPartFormats) :
    ∃ store1 store2, Untagged store1 ∧ Untagged store2 ∧
      update direction iqBitwidth compressionType compressionFormat val1 val2 = (do
        updateCommon iqBitwidth compressionType
        storeBoth direction val1 val2 store1 store2) := by
  simp only [twoPartFormats, List.mem_cons, List.not_mem_nil, or_false] at twoPart
  rcases twoPart with rfl | rfl | rfl | rfl
  · exact ⟨setCompBitWidth, setCompShift, fun _ _ => rfl, fun _ _ => rfl, by
      cases direction <;> rfl⟩
  · cases direction with
    | rx => exact ⟨setActiveBeamSpaceCoeficientMask, setBlockScaler, fun _ _ => rfl,
        fun _ _ => rfl, rfl⟩
    | tx => exact ⟨setActiveBeamSpaceCoeficientMask, setBlockScalar, fun _ _ => rfl,
        fun _ _ => rfl, rfl⟩
  · exact ⟨setCsf, setModCompScaler, fun _ _ => rfl, fun _ _ => rfl, by cases direction <;> rfl⟩
  · exact ⟨setSresCsf, setSresModCompScaler, fun _ _ => rfl, fun _ _ => rfl, by
      cases direction <;> rfl⟩

end Shapes

/-- The texts of formats that a leaf gives. -/
def Known (compressionFormat : String) : Prop :=
  compressionFormat = "" ∨ compressionFormat ∈ onePartFormats ∨
    compressionFormat ∈ twoPartFormats

section Format

/-- The states with the same format. -/
abbrev SameFormat : Compression → Compression → Prop := Same compression_format

theorem within_storeField {text : String} {store : Compression → Int → Compression}
    (untagged : Untagged store) : Within SameFormat (storeField text store) := by
  refine Within.bind ?_ fun value => Within.modify fun compression => untagged compression value
  unfold stoiM
  split
  · exact Within.pure _
  · exact Within.throw _

theorem within_storeNonempty {text : String} {store : Compression → Int → Compression}
    (untagged : Untagged store) : Within SameFormat (storeNonempty text store) :=
  Within.ite (fun _ => Within.pure _) fun _ => within_storeField untagged

theorem within_updateCommon (iqBitwidth compressionType : String) :
    Within SameFormat (updateCommon iqBitwidth compressionType) := by
  refine Within.bind (within_storeNonempty fun _ _ => rfl) fun _ => ?_
  refine Within.ite (fun _ => Within.modify fun _ => rfl) fun _ => ?_
  exact Within.ite (fun _ => Within.modify fun _ => rfl) fun _ => Within.pure _

theorem within_update (direction : Direction) (iqBitwidth compressionType val1 val2 : String)
    {compressionFormat : String} (known : Known compressionFormat) :
    Within SameFormat
      (update direction iqBitwidth compressionType compressionFormat val1 val2) := by
  have common := within_updateCommon iqBitwidth compressionType
  rcases known with rfl | onePart | twoPart
  · rw [update_noFormat]
    exact common
  · obtain ⟨store, untagged, shape⟩ :=
      update_onePart direction iqBitwidth compressionType val1 val2 onePart
    rw [shape]
    exact common.bind fun _ => within_storeField untagged
  · obtain ⟨store1, store2, untagged1, untagged2, shape⟩ :=
      update_twoPart direction iqBitwidth compressionType val1 val2 twoPart
    rw [shape]
    refine common.bind fun _ => ?_
    cases direction with
    | rx => exact (within_storeNonempty untagged1).bind fun _ => within_storeNonempty untagged2
    | tx => exact (within_storeField untagged1).bind fun _ => within_storeField untagged2

end Format

section Conversions

/-- A text that `std::stoi` takes. -/
def Number (text : String) : Prop :=
  ∃ value, stoi text = .ok value

instance (text : String) : Decidable (Number text) :=
  match read : stoi text with
  | .ok value => isTrue ⟨value, read⟩
  | .error exception => isFalse fun number => by
      obtain ⟨value, other⟩ := number
      rw [read] at other
      contradiction

/-- The values of a format that the update function converts are numbers. -/
def ValuesConvert (direction : Direction) (compressionFormat val1 val2 : String) : Prop :=
  if compressionFormat ∈ twoPartFormats then
    match direction with
    | .rx => Readable val1 ∧ Readable val2
    | .tx => Number val1 ∧ Number val2
  else compressionFormat ∈ onePartFormats → Number val1

instance (direction : Direction) (compressionFormat val1 val2 : String) :
    Decidable (ValuesConvert direction compressionFormat val1 val2) :=
  match direction with
  | .rx => inferInstanceAs (Decidable (if compressionFormat ∈ twoPartFormats then
      Readable val1 ∧ Readable val2 else compressionFormat ∈ onePartFormats → Number val1))
  | .tx => inferInstanceAs (Decidable (if compressionFormat ∈ twoPartFormats then
      Number val1 ∧ Number val2 else compressionFormat ∈ onePartFormats → Number val1))

variable {text : String}

theorem storeField_throws (notNumber : ¬ Number text) (store : Compression → Int → Compression) :
    Throws (storeField text store) := by
  intro record
  cases read : stoi text with
  | ok value => exact absurd ⟨value, read⟩ notNumber
  | error exception => exact ⟨exception, record, by simp [storeField, stoiM, read, bind_apply]⟩

theorem storeNonempty_throws (unreadable : ¬ Readable text)
    (store : Compression → Int → Compression) : Throws (storeNonempty text store) := by
  intro record
  obtain ⟨exception, thrown⟩ := storeNonempty_of_not_readable store record unreadable
  exact ⟨exception, _, thrown⟩

/-- A pair of steps that return or throw by their conditions. -/
theorem pair_exits {first second : EStateM StdException Compression Unit}
    {firstOk secondOk : Prop} (firstReturns : firstOk → Returns first)
    (firstThrows : ¬ firstOk → Throws first) (secondReturns : secondOk → Returns second)
    (secondThrows : ¬ secondOk → Throws second) :
    (firstOk ∧ secondOk → Returns (first >>= fun _ => second)) ∧
      (¬ (firstOk ∧ secondOk) → Throws (first >>= fun _ => second)) := by
  constructor
  · intro both
    exact (firstReturns both.1).bind fun _ => secondReturns both.2
  · intro notBoth
    by_cases firstHolds : firstOk
    · exact Throws.bind_right _ fun _ => secondThrows fun holds => notBoth ⟨firstHolds, holds⟩
    · exact (firstThrows firstHolds).bind_left _

theorem storeBoth_exits (val1 val2 : String) (direction : Direction)
    (store1 store2 : Compression → Int → Compression)
    {compressionFormat : String} (twoPart : compressionFormat ∈ twoPartFormats) :
    (ValuesConvert direction compressionFormat val1 val2 →
        Returns (storeBoth direction val1 val2 store1 store2)) ∧
      (¬ ValuesConvert direction compressionFormat val1 val2 →
        Throws (storeBoth direction val1 val2 store1 store2)) := by
  unfold ValuesConvert
  rw [if_pos twoPart]
  cases direction with
  | rx =>
      exact pair_exits (fun readable => storeNonempty_returns readable store1)
        (fun unreadable => storeNonempty_throws unreadable store1)
        (fun readable => storeNonempty_returns readable store2)
        (fun unreadable => storeNonempty_throws unreadable store2)
  | tx =>
      exact pair_exits (fun ⟨_, read⟩ => storeField_returns read store1)
        (fun notNumber => storeField_throws notNumber store1)
        (fun ⟨_, read⟩ => storeField_returns read store2)
        (fun notNumber => storeField_throws notNumber store2)

theorem updateCommon_exits (iqBitwidth compressionType : String) :
    (Readable iqBitwidth → Returns (updateCommon iqBitwidth compressionType)) ∧
      (¬ Readable iqBitwidth → Throws (updateCommon iqBitwidth compressionType)) := by
  constructor
  · intro readable
    exact (storeNonempty_returns readable _).bind fun _ =>
      Returns.ite (fun _ => Returns.modify _) fun _ =>
        Returns.ite (fun _ => Returns.modify _) fun _ => Returns.pure _
  · intro unreadable
    exact (storeNonempty_throws unreadable _).bind_left _

/-- An update returns from every record or throws at every record. -/
theorem update_exits (direction : Direction) (iqBitwidth compressionType val1 val2 : String)
    {compressionFormat : String} (known : Known compressionFormat) :
    (Readable iqBitwidth ∧ ValuesConvert direction compressionFormat val1 val2 →
        Returns (update direction iqBitwidth compressionType compressionFormat val1 val2)) ∧
      (¬ (Readable iqBitwidth ∧ ValuesConvert direction compressionFormat val1 val2) →
        Throws (update direction iqBitwidth compressionType compressionFormat val1 val2)) := by
  obtain ⟨commonReturns, commonThrows⟩ := updateCommon_exits iqBitwidth compressionType
  rcases known with rfl | onePart | twoPart
  · have nothing : ValuesConvert direction "" val1 val2 := by
      have noFormat : "" ∉ onePartFormats := by decide
      unfold ValuesConvert
      rw [if_neg (by decide)]
      exact fun onePart => absurd onePart noFormat
    rw [update_noFormat]
    exact ⟨fun both => commonReturns both.1, fun notBoth => commonThrows fun readable =>
      notBoth ⟨readable, nothing⟩⟩
  · obtain ⟨store, -, shape⟩ :=
      update_onePart direction iqBitwidth compressionType val1 val2 onePart
    have single : ValuesConvert direction compressionFormat val1 val2 ↔ Number val1 := by
      have notTwo : compressionFormat ∉ twoPartFormats := by
        simp only [onePartFormats, List.mem_cons, List.not_mem_nil, or_false] at onePart
        rcases onePart with rfl | rfl | rfl <;> decide
      unfold ValuesConvert
      rw [if_neg notTwo]
      exact ⟨fun converts => converts onePart, fun number _ => number⟩
    rw [shape, single]
    exact pair_exits commonReturns commonThrows
      (fun number => number.elim fun _ read => storeField_returns read store)
      fun notNumber => storeField_throws notNumber store
  · obtain ⟨store1, store2, -, -, shape⟩ :=
      update_twoPart direction iqBitwidth compressionType val1 val2 twoPart
    obtain ⟨bothReturn, bothThrow⟩ :=
      storeBoth_exits val1 val2 direction store1 store2 twoPart
    rw [shape]
    exact pair_exits commonReturns commonThrows bothReturn bothThrow

end Conversions

end Compression

namespace OranUplaneConfHandler

section Tags

/-- The format that a leaf is specific to. -/
def formatWrite (update : String × String) : Option String :=
  match compressionArguments update.1 update.2 with
  | none => none
  | some (_, _, compressionFormat, _, _) =>
      if compressionFormat = "" then none else some compressionFormat

/-- The value that a leaf of the format gets. -/
def leafWrite (compressionFormat leaf : String) (update : String × String) : Option String :=
  if update.1 = leaf ∧ formatWrite update = some compressionFormat then some update.2 else none

/-- The leaf is one of compression, and the update function converts what it is
given for it. -/
def Converts (direction : Direction) (update : String × String) : Prop :=
  match compressionArguments update.1 update.2 with
  | none => False
  | some (iqBitwidth, _, compressionFormat, val1, val2) =>
      Readable iqBitwidth ∧ Compression.ValuesConvert direction compressionFormat val1 val2

instance (direction : Direction) (update : String × String) :
    Decidable (Converts direction update) := by
  unfold Converts
  split <;> infer_instance

/-- The record names the format of the last leaf that was specific to one, and
has in its members what the leaves of that format got last. -/
def Describes (record : Compression) (updates : List (String × String)) : Prop :=
  ∀ compressionFormat, lastWrite formatWrite updates = some compressionFormat →
    record.compression_format.formatName = compressionFormat ∧
      ∀ leaf value, lastWrite (leafWrite compressionFormat leaf) updates = some value →
        record.member leaf = some (digitsValue value.toList)

variable (env : UplaneEnv) (endpointName : String) (direction : Direction)

/-- The state after a row of updates; an exception ends the update it is thrown
in. -/
def afterCompression (updates : List (String × String)) : UplaneState :=
  updates.foldl (fun state update =>
    finalState (handleCompression env endpointName update.1 update.2 direction state))
    UplaneState.constructed

/-- Every record that an update hands over describes itself. -/
def SelfDescribing (updates : List (String × String)) : Prop :=
  ∀ done update, done ++ [update] <+: updates → ∀ record result,
    (afterCompression env endpointName direction (done ++ [update])).trace =
        (afterCompression env endpointName direction done).trace ++
          [.hal (.updateEndpointCompression direction endpointName record) result] →
      Describes record (done ++ [update])

variable {direction} {update : String × String}
  {iqBitwidth compressionType compressionFormat val1 val2 : String}

theorem known_of_arguments (arguments : compressionArguments update.1 update.2 =
    some (iqBitwidth, compressionType, compressionFormat, val1, val2)) :
    Compression.Known compressionFormat := by
  have handled : compressionArguments update.1 update.2 ≠ none := by
    rw [arguments]
    exact Option.some_ne_none _
  obtain ⟨leaf, value⟩ := update
  have member := leaf_mem_of_arguments handled
  simp only [onePartLeaves, twoPartLeaves, List.cons_append, List.nil_append, List.mem_cons,
    List.not_mem_nil, or_false] at member
  rcases member with rfl | rfl | rfl | rfl | rfl | rfl | rfl | rfl | rfl | rfl | rfl | rfl | rfl
  all_goals
    simp only [compressionArguments, String.reduceEq, ↓reduceIte, Option.some.injEq,
      Prod.mk.injEq] at arguments
    obtain ⟨rfl, rfl, rfl, rfl, rfl⟩ := arguments
    simp [Compression.Known, Compression.onePartFormats, Compression.twoPartFormats]

/-- The tag that the records have is no format of a leaf. -/
theorem noCompression_ne_format (formatted : formatWrite update = some compressionFormat) :
    CType.NO_COMPRESSION.formatName ≠ compressionFormat := by
  unfold formatWrite at formatted
  split at formatted
  · contradiction
  · next arguments =>
      split at formatted
      · contradiction
      next nonempty =>
        obtain rfl := Option.some.inj formatted
        rcases known_of_arguments arguments with empty | onePart | twoPart
        · exact absurd empty nonempty
        · exact fun same => absurd (same ▸ onePart) (by decide)
        · exact fun same => absurd (same ▸ twoPart) (by decide)

/-- An update whose conversions throw keeps its record and hands nothing over. -/
theorem handleCompression_of_error (arguments : compressionArguments update.1 update.2 =
      some (iqBitwidth, compressionType, compressionFormat, val1, val2))
    {state : UplaneState} {record : Compression} {exception : StdException}
    (thrown : Compression.update direction iqBitwidth compressionType compressionFormat val1
      val2 ((kept endpointName direction state).getD Compression.zero) =
        .error exception record) :
    ∃ after,
      handleCompression env endpointName update.1 update.2 direction state =
        .error exception after ∧
      kept endpointName direction after = some record ∧ after.trace = state.trace := by
  rw [kept, ← Std.ExtTreeMap.getD_eq_getD_getElem?] at thrown
  have stored := updateRecord_of_error endpointName Compression.zero
    ((UplaneState.mEndpointComps.comp (TxRx.one direction)).get state) thrown
  rw [handleCompression_eq env arguments, OranYangCarrierMgr.updateEndpointCompression,
    bind_error (focus_error _ stored)]
  refine ⟨_, rfl, ?_, rfl⟩
  simp [kept, UplaneState.mEndpointComps, Member.comp, TxRx.one]

theorem kept_handleCompression (arguments : compressionArguments update.1 update.2 =
    some (iqBitwidth, compressionType, compressionFormat, val1, val2)) (state : UplaneState) :
    kept endpointName direction
        (finalState (handleCompression env endpointName update.1 update.2 direction state)) =
      some (finalState (Compression.update direction iqBitwidth compressionType compressionFormat
        val1 val2 ((kept endpointName direction state).getD Compression.zero))) := by
  cases run : Compression.update direction iqBitwidth compressionType compressionFormat val1
      val2 ((kept endpointName direction state).getD Compression.zero) with
  | ok value record =>
      obtain ⟨after, result, runs, keeps, -⟩ := handleCompression_of_ok env arguments direction run
      rw [runs, finalState_ok, finalState_ok, keeps]
  | error exception record =>
      obtain ⟨after, runs, keeps, -⟩ := handleCompression_of_error env endpointName arguments run
      rw [runs, finalState_error, finalState_error, keeps]

theorem handleCompression_unhandled (unhandled : compressionArguments update.1 update.2 = none)
    (state : UplaneState) :
    finalState (handleCompression env endpointName update.1 update.2 direction state) = state := by
  unfold handleCompression
  rw [unhandled]
  rfl

/-- The record of the endpoint has no format. -/
def Tagless (endpointName : String) (direction : Direction) (state : UplaneState) : Prop :=
  ((kept endpointName direction state).getD Compression.zero).compression_format =
    .NO_COMPRESSION

theorem Tagless.step {state : UplaneState} (tagless : Tagless endpointName direction state)
    (update : String × String) :
    Tagless endpointName direction
      (finalState (handleCompression env endpointName update.1 update.2 direction state)) := by
  cases arguments : compressionArguments update.1 update.2 with
  | none =>
      rw [handleCompression_unhandled env endpointName arguments]
      exact tagless
  | some tuple =>
      obtain ⟨iqBitwidth, compressionType, compressionFormat, val1, val2⟩ := tuple
      have unwritten := Compression.within_update direction iqBitwidth compressionType val1 val2
        (known_of_arguments arguments) ((kept endpointName direction state).getD Compression.zero)
      rw [Tagless, kept_handleCompression env endpointName arguments, Option.getD_some]
      exact unwritten.trans tagless

theorem afterCompression_append_singleton (updates : List (String × String))
    (update : String × String) :
    afterCompression env endpointName direction (updates ++ [update]) =
      finalState (handleCompression env endpointName update.1 update.2 direction
        (afterCompression env endpointName direction updates)) := by
  simp only [afterCompression, List.foldl_append, List.foldl_cons, List.foldl_nil]

theorem tagless_afterCompression (direction : Direction) (updates : List (String × String)) :
    Tagless endpointName direction (afterCompression env endpointName direction updates) := by
  induction updates using List.reverseRecOn with
  | nil =>
      cases direction <;>
        simp [afterCompression, Tagless, kept, UplaneState.constructed, TxRx.get, Compression.zero]
  | append_singleton updates update ih =>
      rw [afterCompression_append_singleton]
      exact ih.step env endpointName update

theorem handed_of_converts (converts : Converts direction update) (state : UplaneState) :
    ∃ record result,
      kept endpointName direction
        (finalState (handleCompression env endpointName update.1 update.2 direction state)) =
        some record ∧
      (finalState (handleCompression env endpointName update.1 update.2 direction state)).trace =
        state.trace ++ [.hal (.updateEndpointCompression direction endpointName record) result] := by
  unfold Converts at converts
  split at converts
  · exact converts.elim
  · next arguments =>
      obtain ⟨value, record, run⟩ := (Compression.update_exits direction _ _ _ _
        (known_of_arguments arguments)).1 converts
          ((kept endpointName direction state).getD Compression.zero)
      obtain ⟨after, result, runs, keeps, traces⟩ :=
        handleCompression_of_ok env arguments direction run
      rw [runs, finalState_ok]
      exact ⟨record, result, keeps, traces⟩

/-- An update that does not convert hands nothing over. -/
theorem trace_of_not_converts (fails : ¬ Converts direction update) (state : UplaneState) :
    (finalState (handleCompression env endpointName update.1 update.2 direction state)).trace =
      state.trace := by
  unfold Converts at fails
  split at fails
  · next unhandled => rw [handleCompression_unhandled env endpointName unhandled]
  · next arguments =>
      obtain ⟨exception, record, run⟩ := (Compression.update_exits direction _ _ _ _
        (known_of_arguments arguments)).2 fails
          ((kept endpointName direction state).getD Compression.zero)
      obtain ⟨after, runs, -, traces⟩ := handleCompression_of_error env endpointName arguments run
      rw [runs, finalState_error, traces]

/-- The records describe themselves exactly when nothing is handed over once a
leaf of a format has been written. -/
theorem selfDescribing_iff (env : UplaneEnv) (endpointName : String) (direction : Direction)
    (updates : List (String × String)) :
    SelfDescribing env endpointName direction updates ↔
      ∀ done update, done ++ [update] <+: updates → Converts direction update →
        ∀ earlier ∈ done ++ [update], formatWrite earlier = none := by
  constructor
  · intro describing done update prior converts
    obtain ⟨record, result, keeps, traces⟩ := handed_of_converts env endpointName converts
      (afterCompression env endpointName direction done)
    rw [← afterCompression_append_singleton] at keeps traces
    have describes := describing done update prior record result traces
    apply lastWrite_eq_none_iff.mp
    by_contra formatted
    obtain ⟨compressionFormat, last⟩ := Option.ne_none_iff_exists'.mp formatted
    obtain ⟨earlier, -, writes⟩ := exists_of_lastWrite last
    have tagless := tagless_afterCompression env endpointName direction
      (done ++ [update])
    rw [Tagless, keeps, Option.getD_some] at tagless
    have named := (describes compressionFormat last).1
    rw [tagless] at named
    exact noCompression_ne_format writes named
  · intro untagged done update prior record result traces compressionFormat last
    by_cases converts : Converts direction update
    · rw [lastWrite_eq_none_iff.mpr (untagged done update prior converts)] at last
      contradiction
    · rw [afterCompression_append_singleton, trace_of_not_converts env endpointName converts] at traces
      simp at traces

/-- The record with an exponent does not name block floating point. -/
theorem exponent_is_untagged : ¬ SelfDescribing agreeable "ep0" .rx [("exponent", "14")] := by
  intro claim
  have describes := claim [] ("exponent", "14") (List.prefix_refl _)
    ⟨0, .STATIC, .NO_COMPRESSION, 14, 0, 0⟩ 0 (by decide +kernel)
  exact absurd (describes "block-floating-point" (by decide)).1 (by decide)

end Tags

end OranUplaneConfHandler

end OpenMplane
