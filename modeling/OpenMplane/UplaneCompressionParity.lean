import OpenMplane.UplaneValidate

/-!
# Compression updates in the two directions

The receive and the transmit function convert the texts of a compression leaf
alike but for the two-part formats: there the transmit function converts both
texts, of which a leaf gives only one, and throws at the other.  Without leaves
of those formats the two directions keep the same record and hand the same
records to the hardware.
-/

namespace OpenMplane

open StatePrograms

namespace Compression

/-- The formats that a leaf fills one of two values of. -/
def twoPartFormats : List String :=
  ["u-law", "beam-space-compression", "modulation-compression",
    "modulation-compression-selective-re-sending"]

/-- The two update functions differ in the two-part formats only. -/
theorem updateTx_eq_updateRx {compressionFormat : String}
    (onePart : compressionFormat ∉ twoPartFormats)
    (iqBitwidth compressionType val1 val2 : String) :
    updateTx iqBitwidth compressionType compressionFormat val1 val2 =
      updateRx iqBitwidth compressionType compressionFormat val1 val2 := by
  simp only [twoPartFormats, List.mem_cons, List.not_mem_nil, or_false, not_or] at onePart
  obtain ⟨notULaw, notBeam, notModulation, notSelective⟩ := onePart
  simp only [updateTx, updateRx, notULaw, notBeam, notModulation, notSelective, ↓reduceIte]

theorem storeNonempty_returns {ρ : Type} {text : String} (readable : Readable text)
    (store : ρ → Int → ρ) : Returns (storeNonempty text store) :=
  fun record => ⟨(), _, storeNonempty_of_readable store record readable⟩

theorem storeField_returns {ρ : Type} {text : String} {value : Int}
    (read : stoi text = .ok value) (store : ρ → Int → ρ) : Returns (storeField text store) := by
  intro record
  refine ⟨(), store record value, ?_⟩
  simp [storeField, stoiM, read, bind_apply]

theorem storeField_empty_throws {ρ : Type} (store : ρ → Int → ρ) :
    Throws (storeField "" store) := by
  intro record
  refine ⟨.invalidArgument, record, ?_⟩
  simp [storeField, stoiM, stoi_empty, bind_apply]

/-- The receive function returns when it can convert what it is given. -/
theorem updateRx_returns {iqBitwidth compressionFormat val1 val2 : String}
    (compressionType : String) (iqReadable : Readable iqBitwidth) (readable1 : Readable val1)
    (readable2 : Readable val2)
    (onePart : compressionFormat ≠ "" → compressionFormat ∉ twoPartFormats →
      ∃ value, stoi val1 = .ok value) :
    Returns (updateRx iqBitwidth compressionType compressionFormat val1 val2) := by
  have single : ∀ format ∉ twoPartFormats, format ≠ "" → compressionFormat = format →
      ∀ store : Compression → Int → Compression, Returns (storeField val1 store) := by
    rintro format notTwo nonempty rfl store
    obtain ⟨value, read⟩ := onePart nonempty notTwo
    exact storeField_returns read store
  have double : ∀ store1 store2 : Compression → Int → Compression,
      Returns (storeNonempty val1 store1 >>= fun _ => storeNonempty val2 store2) :=
    fun store1 store2 => (storeNonempty_returns readable1 store1).bind fun _ =>
      storeNonempty_returns readable2 store2
  have common : Returns (updateCommon iqBitwidth compressionType) :=
    (storeNonempty_returns iqReadable _).bind fun _ =>
      Returns.ite (fun _ => Returns.modify _) fun _ =>
        Returns.ite (fun _ => Returns.modify _) fun _ => Returns.pure _
  refine common.bind fun _ => ?_
  refine Returns.ite (fun same => single _ (by decide) (by decide) same _) fun _ => ?_
  refine Returns.ite (fun same => single _ (by decide) (by decide) same _) fun _ => ?_
  refine Returns.ite (fun same => single _ (by decide) (by decide) same _) fun _ => ?_
  refine Returns.ite (fun _ => double _ _) fun _ => ?_
  refine Returns.ite (fun _ => double _ _) fun _ => ?_
  refine Returns.ite (fun _ => double _ _) fun _ => ?_
  exact Returns.ite (fun _ => double _ _) fun _ => Returns.pure _

/-- The transmit function throws at a two-part format with one value. -/
theorem updateTx_throws {compressionFormat val1 val2 : String}
    (twoPart : compressionFormat ∈ twoPartFormats) (half : val1 = "" ∨ val2 = "")
    (iqBitwidth compressionType : String) :
    Throws (updateTx iqBitwidth compressionType compressionFormat val1 val2) := by
  have both : ∀ store1 store2 : Compression → Int → Compression,
      Throws (storeField val1 store1 >>= fun _ => storeField val2 store2) := by
    intro store1 store2
    rcases half with rfl | rfl
    · exact (storeField_empty_throws store1).bind_left _
    · exact Throws.bind_right _ fun _ => storeField_empty_throws store2
  refine Throws.bind_right _ fun _ => ?_
  simp only [twoPartFormats, List.mem_cons, List.not_mem_nil, or_false] at twoPart
  rcases twoPart with rfl | rfl | rfl | rfl <;> exact both _ _

end Compression

namespace OranUplaneConfHandler

section Leaves

/-- The leaves that give one of the two values of a two-part format. -/
def twoPartLeaves : List String :=
  ["comp-bit-width", "comp-shift", "active-beam-space-coeficient-mask", "block-scaler", "csf",
    "mod-comp-scaler", "sres-csf", "sres-mod-comp-scaler"]

/-- The other leaves that `handleCompression` has a branch for. -/
def onePartLeaves : List String :=
  ["iq-bitwidth", "compression-type", "exponent", "sres-exponent", "block-scalar"]

/-- What the field of a compression leaf can hold. -/
def fieldBound (leaf : String) : Nat :=
  if leaf = "mod-comp-scaler" ∨ leaf = "sres-mod-comp-scaler" then 2 ^ 16 else 2 ^ 8

/-- A leaf that `handleCompression` has a branch for, with a decimal value that
fits its field; the type is no number. -/
structure WellFormedUpdate (update : String × String) : Prop where
  handled : compressionArguments update.1 update.2 ≠ none
  fits : update.1 ≠ "compression-type" → Decimal (fieldBound update.1) update.2

variable {leaf value iqBitwidth compressionType compressionFormat val1 val2 : String}

theorem leaf_mem_of_arguments (handled : compressionArguments leaf value ≠ none) :
    leaf ∈ onePartLeaves ++ twoPartLeaves := by
  by_contra absent
  apply handled
  simp only [onePartLeaves, twoPartLeaves, List.cons_append, List.nil_append, List.mem_cons,
    List.not_mem_nil, or_false, not_or] at absent
  simp only [compressionArguments, absent, ↓reduceIte]

theorem compressionArguments_cases
    (arguments : compressionArguments leaf value =
      some (iqBitwidth, compressionType, compressionFormat, val1, val2)) :
    (iqBitwidth = "" ∨ leaf ≠ "compression-type" ∧ iqBitwidth = value) ∧
      (val1 = "" ∨ leaf ≠ "compression-type" ∧ val1 = value) ∧
      (val2 = "" ∨ leaf ≠ "compression-type" ∧ val2 = value) ∧
      (compressionFormat ∈ Compression.twoPartFormats ∧ leaf ∈ twoPartLeaves ∧
          (val1 = "" ∨ val2 = "") ∨
        compressionFormat ∉ Compression.twoPartFormats ∧ leaf ∉ twoPartLeaves ∧
          (compressionFormat ≠ "" → leaf ≠ "compression-type" ∧ val1 = value)) := by
  have handled : compressionArguments leaf value ≠ none := by
    rw [arguments]
    exact Option.some_ne_none _
  have member := leaf_mem_of_arguments handled
  simp only [onePartLeaves, twoPartLeaves, List.cons_append, List.nil_append, List.mem_cons,
    List.not_mem_nil, or_false] at member
  rcases member with rfl | rfl | rfl | rfl | rfl | rfl | rfl | rfl | rfl | rfl | rfl | rfl | rfl
  all_goals
    simp only [compressionArguments, String.reduceEq, ↓reduceIte, Option.some.injEq,
      Prod.mk.injEq] at arguments
    obtain ⟨rfl, rfl, rfl, rfl, rfl⟩ := arguments
    simp [Compression.twoPartFormats, twoPartLeaves]

theorem exists_stoi_of_fits
    (fits : leaf ≠ "compression-type" → Decimal (fieldBound leaf) value)
    (number : leaf ≠ "compression-type") : ∃ read, stoi value = .ok read := by
  refine ⟨_, stoi_decimal ?_ (fits number)⟩
  unfold fieldBound
  split <;> decide

theorem readable_of_fits {text : String}
    (fits : leaf ≠ "compression-type" → Decimal (fieldBound leaf) value)
    (part : text = "" ∨ leaf ≠ "compression-type" ∧ text = value) : Readable text := by
  rcases part with empty | ⟨number, rfl⟩
  · exact Or.inl empty
  · exact Or.inr (exists_stoi_of_fits fits number)

end Leaves

section Runs

variable (env : UplaneEnv) (endpointName : String)

/-- The record kept for the endpoint. -/
def kept (direction : Direction) (state : UplaneState) : Option Compression :=
  (state.carrierMgr.mEndpointComps.get direction)[endpointName]?

/-- The records of the endpoint among the effects, as handed to the hardware. -/
def handedRecords (direction : Direction) (effects : List Effect) : List Compression :=
  effects.filterMap fun effect =>
    match effect with
    | .hal (.updateEndpointCompression other name compression) _ =>
        if other = direction ∧ name = endpointName then some compression else none
    | _ => none

/-- Updates of compression leaves of the endpoint, by leaf and value. -/
def updateAll (direction : Direction) (updates : List (String × String)) : UplaneM Unit :=
  forM updates fun update => handleCompression env endpointName update.1 update.2 direction

/-- The two directions do the same work: neither throws, and after every step
they keep and have handed over the same records. -/
def SameWork (updates : List (String × String)) (state : UplaneState) : Prop :=
  ∀ done, done <+: updates → ∃ received transmitted,
    updateAll env endpointName .rx done state = .ok () received ∧
    updateAll env endpointName .tx done state = .ok () transmitted ∧
    kept endpointName .rx received = kept endpointName .tx transmitted ∧
    handedRecords endpointName .rx (newEffects state received) =
      handedRecords endpointName .tx (newEffects state transmitted)

variable {endpointName} {leaf value iqBitwidth compressionType compressionFormat val1 val2 : String}

theorem handleCompression_eq
    (arguments : compressionArguments leaf value =
      some (iqBitwidth, compressionType, compressionFormat, val1, val2)) (direction : Direction) :
    handleCompression env endpointName leaf value direction =
      OranYangCarrierMgr.updateEndpointCompression env direction endpointName iqBitwidth
        compressionType compressionFormat val1 val2 := by
  unfold handleCompression
  rw [arguments]
  cases direction <;> rfl

/-- An update whose conversions return keeps one record and hands it over. -/
theorem handleCompression_of_ok
    (arguments : compressionArguments leaf value =
      some (iqBitwidth, compressionType, compressionFormat, val1, val2))
    (direction : Direction) {state : UplaneState} {record : Compression}
    (returned : Compression.update direction iqBitwidth compressionType compressionFormat val1
      val2 ((kept endpointName direction state).getD Compression.zero) = .ok () record) :
    ∃ after result,
      handleCompression env endpointName leaf value direction state = .ok () after ∧
      kept endpointName direction after = some record ∧
      after.trace = state.trace ++
        [.hal (.updateEndpointCompression direction endpointName record) result] := by
  rw [kept, ← Std.ExtTreeMap.getD_eq_getD_getElem?] at returned
  have stored := updateRecord_of_ok endpointName Compression.zero
    ((UplaneState.mEndpointComps.comp (TxRx.one direction)).get state) returned
  rw [handleCompression_eq env arguments, OranYangCarrierMgr.updateEndpointCompression,
    bind_ok (focus_ok _ stored)]
  refine ⟨_, _, rfl, ?_, rfl⟩
  simp [kept, UplaneState.mEndpointComps, Member.comp, TxRx.one]

theorem handleCompression_throws
    (arguments : compressionArguments leaf value =
      some (iqBitwidth, compressionType, compressionFormat, val1, val2))
    {direction : Direction}
    (throws : Throws (Compression.update direction iqBitwidth compressionType compressionFormat
      val1 val2)) :
    Throws (handleCompression env endpointName leaf value direction) := by
  rw [handleCompression_eq env arguments, OranYangCarrierMgr.updateEndpointCompression]
  apply Throws.bind_left
  intro state
  obtain ⟨exception, record, thrown⟩ := throws
    (((UplaneState.mEndpointComps.comp (TxRx.one direction)).get state).getD endpointName
      Compression.zero)
  exact ⟨exception, _, focus_error _ (updateRecord_of_error endpointName Compression.zero _
    thrown)⟩

/-- A leaf of a one-part format gives both directions the same record. -/
theorem handleCompression_same {update : String × String} (wellFormed : WellFormedUpdate update)
    (onePart : update.1 ∉ twoPartLeaves) {received transmitted : UplaneState}
    (agree : kept endpointName .rx received = kept endpointName .tx transmitted) :
    ∃ record received' transmitted' result result',
      handleCompression env endpointName update.1 update.2 .rx received = .ok () received' ∧
      handleCompression env endpointName update.1 update.2 .tx transmitted =
        .ok () transmitted' ∧
      kept endpointName .rx received' = some record ∧
      kept endpointName .tx transmitted' = some record ∧
      received'.trace = received.trace ++
        [.hal (.updateEndpointCompression .rx endpointName record) result] ∧
      transmitted'.trace = transmitted.trace ++
        [.hal (.updateEndpointCompression .tx endpointName record) result'] := by
  obtain ⟨⟨iqBitwidth, compressionType, compressionFormat, val1, val2⟩, arguments⟩ :=
    Option.ne_none_iff_exists'.mp wellFormed.handled
  obtain ⟨iqPart, part1, part2, ⟨-, twoPart, -⟩ | ⟨format, -, single⟩⟩ :=
    compressionArguments_cases arguments
  · exact absurd twoPart onePart
  have returns : Returns (Compression.updateRx iqBitwidth compressionType compressionFormat val1
      val2) := by
    refine Compression.updateRx_returns compressionType (readable_of_fits wellFormed.fits iqPart)
      (readable_of_fits wellFormed.fits part1) (readable_of_fits wellFormed.fits part2) ?_
    intro nonempty _
    obtain ⟨number, rfl⟩ := single nonempty
    exact exists_stoi_of_fits wellFormed.fits number
  obtain ⟨_, record, receives⟩ :=
    returns ((kept endpointName .rx received).getD Compression.zero)
  have transmits : Compression.updateTx iqBitwidth compressionType compressionFormat val1 val2
      ((kept endpointName .tx transmitted).getD Compression.zero) = .ok () record := by
    rw [Compression.updateTx_eq_updateRx format, ← agree, receives]
  obtain ⟨received', result, runs, keeps, traces⟩ :=
    handleCompression_of_ok env arguments .rx receives
  obtain ⟨transmitted', result', runs', keeps', traces'⟩ :=
    handleCompression_of_ok env arguments .tx transmits
  exact ⟨record, received', transmitted', result, result', runs, runs', keeps, keeps', traces,
    traces'⟩

/-- Any row of such leaves does the same work in both directions. -/
theorem updateAll_same {updates : List (String × String)}
    (wellFormed : ∀ update ∈ updates, WellFormedUpdate update)
    (onePart : ∀ update ∈ updates, update.1 ∉ twoPartLeaves)
    {received transmitted : UplaneState}
    (agree : kept endpointName .rx received = kept endpointName .tx transmitted) :
    ∃ received' transmitted' effects effects',
      updateAll env endpointName .rx updates received = .ok () received' ∧
      updateAll env endpointName .tx updates transmitted = .ok () transmitted' ∧
      kept endpointName .rx received' = kept endpointName .tx transmitted' ∧
      received'.trace = received.trace ++ effects ∧
      transmitted'.trace = transmitted.trace ++ effects' ∧
      handedRecords endpointName .rx effects = handedRecords endpointName .tx effects' := by
  induction updates generalizing received transmitted with
  | nil => exact ⟨received, transmitted, [], [], rfl, rfl, agree, by simp, by simp, rfl⟩
  | cons update updates ih =>
      obtain ⟨record, received', transmitted', result, result', runs, runs', keeps, keeps',
        traces, traces'⟩ := handleCompression_same env (wellFormed update (by simp))
          (onePart update (by simp)) agree
      obtain ⟨last, last', effects, effects', rest, rest', agrees, more, more', same⟩ :=
        ih (fun other member => wellFormed other (by simp [member]))
          (fun other member => onePart other (by simp [member])) (keeps.trans keeps'.symm)
      refine ⟨last, last',
        .hal (.updateEndpointCompression .rx endpointName record) result :: effects,
        .hal (.updateEndpointCompression .tx endpointName record) result' :: effects',
        ?_, ?_, agrees, ?_, ?_, ?_⟩
      · rw [updateAll, List.forM_cons, bind_ok runs, ← updateAll, rest]
      · rw [updateAll, List.forM_cons, bind_ok runs', ← updateAll, rest']
      · rw [more, traces, List.append_assoc, List.singleton_append]
      · rw [more', traces', List.append_assoc, List.singleton_append]
      · simpa [handedRecords] using same

/-- A leaf of a two-part format makes the transmit direction throw. -/
theorem handleCompression_tx_throws {update : String × String}
    (handled : compressionArguments update.1 update.2 ≠ none)
    (twoPart : update.1 ∈ twoPartLeaves) :
    Throws (handleCompression env endpointName update.1 update.2 .tx) := by
  obtain ⟨⟨iqBitwidth, compressionType, compressionFormat, val1, val2⟩, arguments⟩ :=
    Option.ne_none_iff_exists'.mp handled
  obtain ⟨-, -, -, ⟨format, -, half⟩ | ⟨-, single, -⟩⟩ := compressionArguments_cases arguments
  · exact handleCompression_throws env arguments (Compression.updateTx_throws format half _ _)
  · exact absurd twoPart single

/-- The two directions do the same work exactly when no leaf is one of a
two-part format. -/
theorem sameWork_iff (env : UplaneEnv) (endpointName : String)
    (updates : List (String × String)) (state : UplaneState)
    (wellFormed : ∀ update ∈ updates, WellFormedUpdate update)
    (agree : kept endpointName .rx state = kept endpointName .tx state) :
    SameWork env endpointName updates state ↔
      ∀ update ∈ updates, update.1 ∉ twoPartLeaves := by
  constructor
  · intro same update member twoPart
    obtain ⟨before, after, rfl⟩ := List.append_of_mem member
    obtain ⟨_, transmitted, -, run, -⟩ := same (before ++ [update]) ⟨after, by simp⟩
    rw [updateAll, List.forM_append, bind_eq_ok] at run
    obtain ⟨_, middle, -, last⟩ := run
    rw [List.forM_cons, bind_eq_ok] at last
    obtain ⟨_, _, returned, -⟩ := last
    obtain ⟨exception, _, thrown⟩ := handleCompression_tx_throws env
      (wellFormed update member).handled twoPart middle
    rw [returned] at thrown
    contradiction
  · intro onePart done prior
    obtain ⟨received, transmitted, effects, effects', runs, runs', agrees, traces, traces',
      handed⟩ := updateAll_same env
        (fun update member => wellFormed update (prior.subset member))
        (fun update member => onePart update (prior.subset member)) agree
    refine ⟨received, transmitted, runs, runs', agrees, ?_⟩
    rwa [newEffects, newEffects, traces, traces', List.drop_left, List.drop_left]

/-- Updates of one-part formats. -/
def exponentUpdates : List (String × String) :=
  [("iq-bitwidth", "9"), ("compression-type", "DYNAMIC"), ("exponent", "14")]

theorem sameWork_exponentUpdates :
    SameWork agreeable "ep0" exponentUpdates UplaneState.constructed := by
  refine (sameWork_iff agreeable "ep0" exponentUpdates UplaneState.constructed ?_ rfl).mpr
    (by decide)
  intro update member
  simp only [exponentUpdates, List.mem_cons, List.not_mem_nil, or_false] at member
  rcases member with rfl | rfl | rfl
  · exact ⟨by decide, fun _ => decimal_of_all (by decide) (by decide) (by decide)⟩
  · exact ⟨by decide, fun number => absurd rfl number⟩
  · exact ⟨by decide, fun _ => decimal_of_all (by decide) (by decide) (by decide)⟩

/-- The bit width of the u-law format makes the transmit direction throw. -/
theorem compBitWidth_differs :
    ¬ (WellFormedUpdate ("comp-bit-width", "8") →
      SameWork agreeable "ep0" [("comp-bit-width", "8")] UplaneState.constructed) := by
  intro claim
  have same := claim ⟨by decide, fun _ => decimal_of_all (by decide) (by decide) (by decide)⟩
  obtain ⟨_, transmitted, -, run, -⟩ := same _ (List.prefix_refl _)
  have thrown : (match updateAll agreeable "ep0" .tx [("comp-bit-width", "8")]
      UplaneState.constructed with
    | .ok _ _ => true
    | .error _ _ => false) = false := by
    decide +kernel
  rw [run] at thrown
  contradiction

end Runs

end OranUplaneConfHandler

end OpenMplane
