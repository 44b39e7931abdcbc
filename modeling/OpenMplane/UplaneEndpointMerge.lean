import OpenMplane.LastWriteWins
import OpenMplane.UplaneReplay

/-!
# Merging the updates of an endpoint

The carrier manager keeps one eaxc record for each endpoint and direction, and
one dynamic compression record for each of these and each id.  An update writes
one leaf of one record and hands the whole record to the hardware.  With values
that fit their fields the record last handed over has, in every leaf, the last
value of that leaf among the record's own updates; but the text of a compression
method is freed before the record that points to it is handed over.
-/

namespace OpenMplane

open LastWriteWins StatePrograms

/-- An update of an eaxc leaf, or of a leaf of a dynamic compression
configuration. -/
inductive EndpointUpdate
  | eaxc (direction : Direction) (endpointName leaf value : String)
  | dynComp (direction : Direction) (endpointName id leaf value : String)
  deriving DecidableEq

/-- A row of decimal digits. -/
def Digits (text : String) : Prop :=
  text.toList ≠ [] ∧ ∀ letter ∈ text.toList, letter.isDigit = true

instance (text : String) : Decidable (Digits text) :=
  @instDecidableAnd _ _ _ (List.decidableBAll _ _)

theorem Digits.decimal {text : String} (digits : Digits text) {bound : Nat}
    (below : digitsValue text.toList < bound) : Decimal bound text :=
  ⟨digits.1, digits.2, below⟩

/-- The number a field holds. -/
def EaxcField.read (eaxc : EAxcid) : EaxcField → Nat
  | .oDuPort => eaxc.o_du_port_bitmask.toNat
  | .bandSector => eaxc.band_sector_bitmask.toNat
  | .ccid => eaxc.ccid_bitmask.toNat
  | .ruPort => eaxc.ru_port_bitmask.toNat
  | .eaxcId => eaxc.eaxc_id.toNat

theorem EaxcField.read_lt (field : EaxcField) (eaxc : EAxcid) : field.read eaxc < 2 ^ 16 := by
  cases field <;> exact UInt16.toNat_lt _

theorem castUInt16_toNat {number : Nat} (fits : number < 2 ^ 16) :
    (castUInt16 number).toNat = number := by
  have same : ((number : Int) % 2 ^ 16).toNat = number := by omega
  rw [castUInt16, same, UInt16.toNat_ofNat', Nat.mod_eq_of_lt fits]

theorem castUInt8_toNat {number : Nat} (fits : number < 2 ^ 8) :
    (castUInt8 number).toNat = number := by
  have same : ((number : Int) % 2 ^ 8).toNat = number := by omega
  rw [castUInt8, same, UInt8.toNat_ofNat', Nat.mod_eq_of_lt fits]

theorem EaxcField.read_store (field other : EaxcField) (eaxc : EAxcid) {number : Nat}
    (fits : number < 2 ^ 16) :
    other.read (field.store eaxc number) = if field = other then number else other.read eaxc := by
  have stored := castUInt16_toNat fits
  cases field <;> cases other <;> simp [EaxcField.read, EaxcField.store, stored]

namespace EndpointUpdate

/-- The function of the handler that the leaf is handed to. -/
def run (env : UplaneEnv) : EndpointUpdate → UplaneM Unit
  | .eaxc direction endpointName leaf value =>
      OranUplaneConfHandler.handleEaxc env endpointName leaf value direction
  | .dynComp direction endpointName id leaf value =>
      OranUplaneConfHandler.handleDynCompConfig env endpointName id leaf value direction

/-- A leaf that has a branch, with a decimal number; the method is a text. -/
def WellFormed : EndpointUpdate → Prop
  | .eaxc _ _ leaf value => EaxcField.ofLeaf leaf ≠ none ∧ Digits value
  | .dynComp _ _ id leaf value =>
      Digits id ∧ (leaf = "iq-bitwidth" ∧ Digits value ∨ leaf = "compression-method")

/-- The value and the id fit their fields, and it is not the method. -/
def Fits : EndpointUpdate → Prop
  | .eaxc _ _ _ value => digitsValue value.toList < 2 ^ 16
  | .dynComp _ _ id leaf value =>
      leaf ≠ "compression-method" ∧ digitsValue id.toList < 2 ^ 16 ∧
        digitsValue value.toList < 2 ^ 8

/-- The number that an update writes to an eaxc leaf. -/
def eaxcWrite (direction : Direction) (endpointName : String) (field : EaxcField) :
    EndpointUpdate → Option Nat
  | .eaxc other name leaf value =>
      if other = direction ∧ name = endpointName ∧ EaxcField.ofLeaf leaf = some field then
        some (digitsValue value.toList)
      else none
  | .dynComp .. => none

/-- The update is one of the dynamic configuration. -/
def OfDynComp (direction : Direction) (endpointName : String) (id : Nat) : EndpointUpdate → Prop
  | .eaxc .. => False
  | .dynComp other name text _ _ =>
      other = direction ∧ name = endpointName ∧ digitsValue text.toList = id

/-- The update is one of the eaxc record. -/
def OfEaxc (direction : Direction) (endpointName : String) : EndpointUpdate → Prop
  | .eaxc other name _ _ => other = direction ∧ name = endpointName
  | .dynComp .. => False

/-- The text that an update writes to a leaf of a dynamic configuration. -/
def dynCompWrite (direction : Direction) (endpointName : String) (id : Nat) (written : String) :
    EndpointUpdate → Option String
  | .eaxc .. => none
  | .dynComp other name text leaf value =>
      if other = direction ∧ name = endpointName ∧ digitsValue text.toList = id ∧
          leaf = written then
        some value
      else none

section Writes

variable {direction : Direction} {endpointName : String} {id : Nat} {update : EndpointUpdate}

theorem fits_of_dynCompWrite {written value : String} (fits : update.Fits)
    (writes : update.dynCompWrite direction endpointName id written = some value) :
    digitsValue value.toList < 2 ^ 8 := by
  cases update with
  | eaxc => contradiction
  | dynComp other name text leaf text' =>
      rw [dynCompWrite] at writes
      split at writes
      · obtain rfl := Option.some.inj writes
        exact fits.2.2
      · contradiction

theorem dynCompWrite_method (fits : update.Fits) :
    update.dynCompWrite direction endpointName id "compression-method" = none := by
  cases update with
  | eaxc => rfl
  | dynComp other name text leaf value => exact if_neg fun all => fits.1 all.2.2.2

/-- An update of a dynamic configuration that is not the method is the bit
width. -/
theorem dynCompWrite_of_ofDynComp (wellFormed : update.WellFormed) (fits : update.Fits)
    (own : update.OfDynComp direction endpointName id) :
    ∃ value, update.dynCompWrite direction endpointName id "iq-bitwidth" = some value := by
  cases update with
  | eaxc => exact own.elim
  | dynComp other name text leaf value =>
      obtain ⟨-, ⟨width, -⟩ | method⟩ := wellFormed
      · exact ⟨value, if_pos ⟨own.1, own.2.1, own.2.2, width⟩⟩
      · exact absurd method fits.1

end Writes

instance (update : EndpointUpdate) : Decidable update.WellFormed :=
  match update with
  | .eaxc _ _ leaf value =>
      inferInstanceAs (Decidable (EaxcField.ofLeaf leaf ≠ none ∧ Digits value))
  | .dynComp .. => inferInstanceAs (Decidable (_ ∧ (_ ∧ _ ∨ _)))

instance (update : EndpointUpdate) : Decidable update.Fits :=
  match update with
  | .eaxc _ _ _ value => inferInstanceAs (Decidable (digitsValue value.toList < 2 ^ 16))
  | .dynComp .. => inferInstanceAs (Decidable (_ ∧ _ ∧ _))

end EndpointUpdate

namespace OranUplaneConfHandler

section Handed

variable (direction : Direction) (endpointName : String)

/-- The eaxc record that an effect hands over for the endpoint. -/
def handedEaxc : Effect → Option EAxcid
  | .hal (.updateEaxc other name eaxc) _ =>
      if other = direction ∧ name = endpointName then some eaxc else none
  | _ => none

/-- The dynamic compression record that an effect hands over for the id. -/
def handedDynComp (id : Nat) : Effect → Option DynCompConfig
  | .hal (.updateEndpointCompressionDynConfig other name config) _ =>
      if other = direction ∧ name = endpointName ∧ config.id.toNat = id then some config
      else none
  | _ => none

/-- The records kept for the endpoint. -/
def keptEaxc (state : UplaneState) : Option EAxcid :=
  (state.carrierMgr.mEndpointEaxcs.get direction)[endpointName]?

def keptDynComp (id : Nat) (state : UplaneState) : Option DynCompConfig :=
  ((state.carrierMgr.mEndpointDynComps.get direction).getD endpointName ∅)[(id : Int)]?

theorem id_of_handedDynComp {direction : Direction} {endpointName : String} {id : Nat}
    {effect : Effect} {record : DynCompConfig}
    (handed : handedDynComp direction endpointName id effect = some record) :
    record.id.toNat = id := by
  unfold handedDynComp at handed
  split at handed
  · split at handed
    · next here =>
        obtain rfl := Option.some.inj handed
        exact here.2.2
    · contradiction
  · contradiction

end Handed

/-- The state after a row of updates; an exception ends the update it is thrown
in. -/
def afterUpdates (env : UplaneEnv) (updates : List EndpointUpdate) : UplaneState :=
  updates.foldl (fun state update => finalState (update.run env state)) UplaneState.constructed

/-- After every update, what was last handed over for a record that has had
updates is the merge of these, and nothing else. -/
structure Merged (env : UplaneEnv) (updates : List EndpointUpdate) : Prop where
  eaxc : ∀ done, done <+: updates → ∀ direction endpointName,
    (∃ update ∈ done, update.OfEaxc direction endpointName) →
      ∃ record, lastWrite (handedEaxc direction endpointName) (afterUpdates env done).trace =
          some record ∧
        ∀ field : EaxcField, field.read record =
          (lastWrite (EndpointUpdate.eaxcWrite direction endpointName field) done).getD 0
  dynComp : ∀ done, done <+: updates → ∀ direction endpointName id,
    (∃ update ∈ done, update.OfDynComp direction endpointName id) →
      ∃ record,
        lastWrite (handedDynComp direction endpointName id) (afterUpdates env done).trace =
          some record ∧
        record.iq_bitwidth.toNat =
          ((lastWrite (EndpointUpdate.dynCompWrite direction endpointName id "iq-bitwidth")
            done).map fun text => digitsValue text.toList).getD 0 ∧
        record.compression_method.Holds
          (lastWrite (EndpointUpdate.dynCompWrite direction endpointName id "compression-method")
            done)

section Steps

variable (env : UplaneEnv) (direction : Direction) (endpointName : String)
  {id leaf value : String}

/-- An eaxc update stores its number and hands the record over. -/
theorem run_eaxc {field : EaxcField} (written : EaxcField.ofLeaf leaf = some field)
    (digits : Digits value) (fits : digitsValue value.toList < 2 ^ 16) (state : UplaneState) :
    let eaxcs := UplaneState.mEndpointEaxcs.comp (TxRx.one direction)
    let record := field.store ((keptEaxc direction endpointName state).getD EAxcid.zero)
      (digitsValue value.toList)
    ∃ result, finalState ((EndpointUpdate.eaxc direction endpointName leaf value).run env state) =
      (eaxcs.put state ((eaxcs.get state).insert endpointName record)).withTrace
        [.hal (.updateEaxc direction endpointName record) result] := by
  have read := stoi_decimal (by decide) (digits.decimal fits)
  have nonempty : value ≠ "" := fun empty => digits.1 (by simp [empty])
  have stored : eaxcRecord state direction endpointName field value =
      field.store ((keptEaxc direction endpointName state).getD EAxcid.zero)
        (digitsValue value.toList) := by
    simp only [eaxcRecord, storedRecord, nonempty, ↓reduceIte, read,
      Std.ExtTreeMap.getD_eq_getD_getElem?]
    rfl
  obtain ⟨result, updated⟩ := updateEaxcField_of_readable env direction endpointName field
    (Or.inr ⟨_, read⟩) state
  refine ⟨result, ?_⟩
  rw [EndpointUpdate.run, handleEaxc_eq, written]
  dsimp only
  rw [updated, finalState_ok, stored]

/-- The record that a bit width leaves in a dynamic configuration. -/
def dynCompRecord (direction : Direction) (endpointName id value : String) (state : UplaneState) :
    DynCompConfig :=
  { (keptDynComp direction endpointName (digitsValue id.toList) state).getD DynCompConfig.zero with
    id := castUInt16 (digitsValue id.toList)
    iq_bitwidth := castUInt8 (digitsValue value.toList) }

/-- A bit width is stored in the record of its id, which is handed over. -/
theorem run_dynComp (idDigits : Digits id) (idFits : digitsValue id.toList < 2 ^ 16)
    (digits : Digits value) (fits : digitsValue value.toList < 2 ^ 8) (state : UplaneState) :
    let dynComps := UplaneState.mEndpointDynComps.comp (TxRx.one direction)
    let record := dynCompRecord direction endpointName id value state
    ∃ result, finalState ((EndpointUpdate.dynComp direction endpointName id "iq-bitwidth"
        value).run env state) =
      (dynComps.put state ((dynComps.get state).insert endpointName
        (((dynComps.get state).getD endpointName ∅).insert (digitsValue id.toList : Int)
          record))).withTrace
        [.hal (.updateEndpointCompressionDynConfig direction endpointName record) result] := by
  have idRead := stoi_decimal (by decide) (idDigits.decimal idFits)
  have read := stoi_decimal (by decide) (digits.decimal fits)
  have nonempty : value ≠ "" := fun empty => digits.1 (by simp [empty])
  have converted : DynCompConfig.update (digitsValue id.toList) value ""
      ((keptDynComp direction endpointName (digitsValue id.toList) state).getD
        DynCompConfig.zero) = .ok () (dynCompRecord direction endpointName id value state) := by
    simp [DynCompConfig.update, storeNonempty, nonempty, storeField, stoiM, read, bind_apply,
      dynCompRecord]
  let dynComps := UplaneState.mEndpointDynComps.comp (TxRx.one direction)
  have stored : OranYangCarrierMgr.updateDynComps endpointName id value "" (dynComps.get state) =
      .ok (dynCompRecord direction endpointName id value state)
        ((dynComps.get state).insert endpointName
          (((dynComps.get state).getD endpointName ∅).insert (digitsValue id.toList : Int)
            (dynCompRecord direction endpointName id value state))) := by
    rw [OranYangCarrierMgr.updateDynComps, idRead]
    dsimp only
    rw [Std.ExtTreeMap.getD_eq_getD_getElem? (a := (digitsValue id.toList : Int))]
    have same : (((dynComps.get state).getD endpointName ∅)[(digitsValue id.toList : Int)]?).getD
        DynCompConfig.zero = (keptDynComp direction endpointName (digitsValue id.toList)
          state).getD DynCompConfig.zero := rfl
    rw [same, converted]
  have handled : handleDynCompConfig env endpointName id "iq-bitwidth" value direction =
      OranYangCarrierMgr.updateEndpointDynCompConfig env direction endpointName id value "" := by
    cases direction <;> rfl
  refine ⟨env.hal state.trace (.updateEndpointCompressionDynConfig direction endpointName
    (dynCompRecord direction endpointName id value state)), ?_⟩
  rw [EndpointUpdate.run, handled, OranYangCarrierMgr.updateEndpointDynCompConfig,
    bind_ok (focus_ok _ stored)]
  rfl

end Steps

section Views

variable {env : UplaneEnv} {direction : Direction} {endpointName : String} {id : Nat}
  {update : EndpointUpdate}

instance : Decidable (update.OfEaxc direction endpointName) :=
  match update with
  | .eaxc .. => inferInstanceAs (Decidable (_ ∧ _))
  | .dynComp .. => isFalse fun absurd => absurd

instance : Decidable (update.OfDynComp direction endpointName id) :=
  match update with
  | .eaxc .. => isFalse fun absurd => absurd
  | .dynComp .. => inferInstanceAs (Decidable (_ ∧ _ ∧ _))

/-- What an eaxc record that is put in its place changes. -/
theorem keptEaxc_insert (other : Direction) (name : String) (record : EAxcid)
    (effects : List Effect) (state : UplaneState) :
    let eaxcs := UplaneState.mEndpointEaxcs.comp (TxRx.one other)
    keptEaxc direction endpointName
        ((eaxcs.put state ((eaxcs.get state).insert name record)).withTrace effects) =
      if other = direction ∧ name = endpointName then some record
      else keptEaxc direction endpointName state := by
  have looked := TxRx.look_insert state.carrierMgr.mEndpointEaxcs other name record
    (direction, endpointName)
  simp only [Prod.mk.injEq] at looked
  exact looked

/-- What a dynamic compression record that is put in its place changes. -/
theorem keptDynComp_insert (other : Direction) (name : String) (number : Nat)
    (record : DynCompConfig) (effects : List Effect) (state : UplaneState) :
    let dynComps := UplaneState.mEndpointDynComps.comp (TxRx.one other)
    keptDynComp direction endpointName id ((dynComps.put state ((dynComps.get state).insert name
        (((dynComps.get state).getD name ∅).insert (number : Int) record))).withTrace effects) =
      if other = direction ∧ name = endpointName ∧ number = id then some record
      else keptDynComp direction endpointName id state := by
  have looked := TxRx.look_insert state.carrierMgr.mEndpointDynComps other name
    (((state.carrierMgr.mEndpointDynComps.get other).getD name ∅).insert (number : Int) record)
    (direction, endpointName)
  simp only [TxRx.look, Prod.mk.injEq] at looked
  have kept : ∀ state, keptDynComp direction endpointName id state =
      (((state.carrierMgr.mEndpointDynComps.get direction)[endpointName]?).getD
        ∅)[(id : Int)]? := by
    intro state
    rw [keptDynComp, Std.ExtTreeMap.getD_eq_getD_getElem?]
  intro dynComps
  rw [kept, kept state]
  refine (congrArg (fun held => (held.getD ∅)[(id : Int)]?) looked).trans ?_
  by_cases here : other = direction ∧ name = endpointName
  · obtain ⟨rfl, rfl⟩ := here
    simp only [and_self, ↓reduceIte, Option.getD_some, Std.ExtTreeMap.getElem?_insert,
      Std.LawfulEqCmp.compare_eq_iff_eq, Nat.cast_inj, true_and,
      Std.ExtTreeMap.getD_eq_getD_getElem?]
  · have elsewhere : ¬ (other = direction ∧ name = endpointName ∧ number = id) :=
      fun all => here ⟨all.1, all.2.1⟩
    simp only [here, elsewhere, ↓reduceIte]

/-- The last record handed over is the one that is kept. -/
structure HandedKept (state : UplaneState) : Prop where
  eaxc : ∀ direction endpointName,
    lastWrite (handedEaxc direction endpointName) state.trace =
      keptEaxc direction endpointName state
  dynComp : ∀ direction endpointName id,
    lastWrite (handedDynComp direction endpointName id) state.trace =
      keptDynComp direction endpointName id state

theorem handedKept_constructed : HandedKept UplaneState.constructed := by
  constructor
  · intro direction endpointName
    cases direction <;> simp [lastWrite, keptEaxc, UplaneState.constructed, TxRx.get]
  · intro direction endpointName id
    cases direction <;>
      simp [lastWrite, keptDynComp, UplaneState.constructed, TxRx.get]

/-- An update that fits keeps what was handed over and what is kept the same. -/
theorem HandedKept.step {state : UplaneState} (agree : HandedKept state)
    (wellFormed : update.WellFormed) (fits : update.Fits) :
    HandedKept (finalState (update.run env state)) := by
  cases update with
  | eaxc other name leaf value =>
      obtain ⟨field, written⟩ := Option.ne_none_iff_exists'.mp wellFormed.1
      obtain ⟨result, after⟩ := run_eaxc env other name written wellFormed.2 fits state
      rw [after]
      constructor
      · intro direction endpointName
        rw [UplaneState.withTrace_trace, lastWrite_append_singleton, keptEaxc_insert, handedEaxc]
        split
        · rfl
        · exact agree.eaxc direction endpointName
      · intro direction endpointName id
        rw [UplaneState.withTrace_trace, lastWrite_append_singleton]
        exact agree.dynComp direction endpointName id
  | dynComp other name text leaf value =>
      obtain ⟨notMethod, idFits, valueFits⟩ := fits
      obtain ⟨idDigits, ⟨rfl, digits⟩ | method⟩ := wellFormed
      · obtain ⟨result, after⟩ := run_dynComp env other name
          idDigits idFits digits valueFits state
        have idStored : (dynCompRecord other name text value state).id.toNat =
            digitsValue text.toList := castUInt16_toNat idFits
        rw [after]
        constructor
        · intro direction endpointName
          rw [UplaneState.withTrace_trace, lastWrite_append_singleton]
          exact agree.eaxc direction endpointName
        · intro direction endpointName id
          rw [UplaneState.withTrace_trace, lastWrite_append_singleton, keptDynComp_insert,
            handedDynComp, idStored]
          split
          · rfl
          · exact agree.dynComp direction endpointName id
      · exact absurd method notMethod

theorem read_keptEaxc_run (wellFormed : update.WellFormed) (fits : update.Fits)
    (field : EaxcField) (state : UplaneState) :
    field.read ((keptEaxc direction endpointName
        (finalState (update.run env state))).getD EAxcid.zero) =
      (update.eaxcWrite direction endpointName field).getD
        (field.read ((keptEaxc direction endpointName state).getD EAxcid.zero)) := by
  cases update with
  | eaxc other name leaf value =>
      obtain ⟨stored, written⟩ := Option.ne_none_iff_exists'.mp wellFormed.1
      obtain ⟨result, after⟩ := run_eaxc env other name
        written wellFormed.2 fits state
      rw [after, keptEaxc_insert, EndpointUpdate.eaxcWrite, written]
      by_cases here : other = direction ∧ name = endpointName
      · obtain ⟨rfl, rfl⟩ := here
        simp only [and_self, ↓reduceIte, Option.getD_some, true_and, Option.some.injEq,
          EaxcField.read_store _ _ _ fits]
        split <;> rfl
      · have elsewhere : ¬ (other = direction ∧ name = endpointName ∧ stored = field) :=
          fun all => here ⟨all.1, all.2.1⟩
        simp only [here, elsewhere, ↓reduceIte, Option.some.injEq, Option.getD_none]
  | dynComp other name text leaf value =>
      obtain ⟨notMethod, idFits, valueFits⟩ := fits
      obtain ⟨idDigits, ⟨rfl, digits⟩ | method⟩ := wellFormed
      · obtain ⟨result, after⟩ := run_dynComp env other name
          idDigits idFits digits valueFits state
        rw [after]
        rfl
      · exact absurd method notMethod

theorem isSome_keptEaxc_run (wellFormed : update.WellFormed) (fits : update.Fits)
    (state : UplaneState) :
    (keptEaxc direction endpointName (finalState (update.run env state))).isSome =
      (if update.OfEaxc direction endpointName then some true else none).getD
        (keptEaxc direction endpointName state).isSome := by
  cases update with
  | eaxc other name leaf value =>
      obtain ⟨stored, written⟩ := Option.ne_none_iff_exists'.mp wellFormed.1
      obtain ⟨result, after⟩ := run_eaxc env other name
        written wellFormed.2 fits state
      rw [after, keptEaxc_insert]
      by_cases here : other = direction ∧ name = endpointName
      · simp [EndpointUpdate.OfEaxc, here]
      · simp [EndpointUpdate.OfEaxc, here]
  | dynComp other name text leaf value =>
      obtain ⟨notMethod, idFits, valueFits⟩ := fits
      obtain ⟨idDigits, ⟨rfl, digits⟩ | method⟩ := wellFormed
      · obtain ⟨result, after⟩ := run_dynComp env other name
          idDigits idFits digits valueFits state
        rw [after]
        rfl
      · exact absurd method notMethod

theorem keptDynComp_run (wellFormed : update.WellFormed) (fits : update.Fits)
    (state : UplaneState) :
    keptDynComp direction endpointName id (finalState (update.run env state)) =
      match update.dynCompWrite direction endpointName id "iq-bitwidth" with
      | some value => some
          { (keptDynComp direction endpointName id state).getD DynCompConfig.zero with
            id := castUInt16 id
            iq_bitwidth := castUInt8 (digitsValue value.toList) }
      | none => keptDynComp direction endpointName id state := by
  cases update with
  | eaxc other name leaf value =>
      obtain ⟨stored, written⟩ := Option.ne_none_iff_exists'.mp wellFormed.1
      obtain ⟨result, after⟩ := run_eaxc env other name
        written wellFormed.2 fits state
      rw [after]
      rfl
  | dynComp other name text leaf value =>
      obtain ⟨notMethod, idFits, valueFits⟩ := fits
      obtain ⟨idDigits, ⟨rfl, digits⟩ | method⟩ := wellFormed
      · obtain ⟨result, after⟩ := run_dynComp env other name
          idDigits idFits digits valueFits state
        rw [after, keptDynComp_insert, EndpointUpdate.dynCompWrite]
        by_cases here : other = direction ∧ name = endpointName ∧ digitsValue text.toList = id
        · obtain ⟨rfl, rfl, rfl⟩ := here
          simp only [and_self, ↓reduceIte, dynCompRecord]
        · simp only [here, and_true, ↓reduceIte]
      · exact absurd method notMethod

end Views

section Merge

variable (env : UplaneEnv) {updates : List EndpointUpdate}

theorem handedKept_afterUpdates
    (legal : ∀ update ∈ updates, update.WellFormed ∧ update.Fits) :
    HandedKept (afterUpdates env updates) := by
  induction updates using List.reverseRecOn with
  | nil => exact handedKept_constructed
  | append_singleton updates update ih =>
      have before := ih fun other member => legal other (by simp [member])
      obtain ⟨wellFormed, fits⟩ := legal update (by simp)
      rw [afterUpdates, List.foldl_append]
      exact before.step wellFormed fits

theorem keptEaxc_afterUpdates (legal : ∀ update ∈ updates, update.WellFormed ∧ update.Fits)
    {direction : Direction} {endpointName : String}
    (own : ∃ update ∈ updates, update.OfEaxc direction endpointName) :
    ∃ record, keptEaxc direction endpointName (afterUpdates env updates) = some record ∧
      ∀ field : EaxcField, field.read record =
        (lastWrite (EndpointUpdate.eaxcWrite direction endpointName field) updates).getD 0 := by
  have present := view_foldl
    (fun state (update : EndpointUpdate) => finalState (update.run env state))
    (fun state => (keptEaxc direction endpointName state).isSome)
    (fun update => if update.OfEaxc direction endpointName then some true else none)
    updates UplaneState.constructed fun update member state =>
      isSome_keptEaxc_run (legal update member).1 (legal update member).2 state
  have written : lastWrite (fun update : EndpointUpdate =>
      if update.OfEaxc direction endpointName then some true else none) updates = some true := by
    obtain ⟨update, member, mine⟩ := own
    cases last : lastWrite (fun update : EndpointUpdate =>
        if update.OfEaxc direction endpointName then some true else none) updates with
    | none => simpa [mine] using lastWrite_eq_none_iff.mp last update member
    | some value =>
        obtain ⟨other, -, same⟩ := exists_of_lastWrite last
        split at same <;> simp_all
  rw [written, Option.getD_some] at present
  obtain ⟨record, kept⟩ := Option.isSome_iff_exists.mp present
  refine ⟨record, kept, fun field => ?_⟩
  have merged := view_foldl
    (fun state (update : EndpointUpdate) => finalState (update.run env state))
    (fun state => field.read ((keptEaxc direction endpointName state).getD EAxcid.zero))
    (EndpointUpdate.eaxcWrite direction endpointName field) updates UplaneState.constructed
    fun update member state =>
      read_keptEaxc_run (legal update member).1 (legal update member).2 field state
  have blank : field.read ((keptEaxc direction endpointName UplaneState.constructed).getD
      EAxcid.zero) = 0 := by
    cases direction <;> cases field <;>
      simp [keptEaxc, UplaneState.constructed, TxRx.get, EaxcField.read, EAxcid.zero]
  simpa only [kept, Option.getD_some, blank] using merged

/-- The dynamic compression record of an id is the merge of its updates. -/
theorem keptDynComp_afterUpdates (legal : ∀ update ∈ updates, update.WellFormed ∧ update.Fits)
    {direction : Direction} {endpointName : String} {id : Nat}
    (own : ∃ update ∈ updates, update.OfDynComp direction endpointName id) :
    ∃ record, keptDynComp direction endpointName id (afterUpdates env updates) = some record ∧
      record.iq_bitwidth.toNat =
        ((lastWrite (EndpointUpdate.dynCompWrite direction endpointName id "iq-bitwidth")
          updates).map fun text => digitsValue text.toList).getD 0 ∧
      record.compression_method = .null := by
  let step := fun state (update : EndpointUpdate) => finalState (update.run env state)
  have blank : keptDynComp direction endpointName id UplaneState.constructed = none := by
    cases direction <;> simp [keptDynComp, UplaneState.constructed, TxRx.get]
  have present := view_foldl step
    (fun state => (keptDynComp direction endpointName id state).isSome)
    (fun update => (update.dynCompWrite direction endpointName id "iq-bitwidth").map
      fun _ => true) updates UplaneState.constructed
    fun update member state => by
      rw [keptDynComp_run (legal update member).1 (legal update member).2]
      cases update.dynCompWrite direction endpointName id "iq-bitwidth" <;> rfl
  have widths := view_foldl step
    (fun state => ((keptDynComp direction endpointName id state).getD
      DynCompConfig.zero).iq_bitwidth.toNat)
    (fun update => (update.dynCompWrite direction endpointName id "iq-bitwidth").map
      fun text => digitsValue text.toList)
    updates UplaneState.constructed fun update member state => by
      rw [keptDynComp_run (legal update member).1 (legal update member).2]
      cases written : update.dynCompWrite direction endpointName id "iq-bitwidth" with
      | none => rfl
      | some value =>
          exact castUInt8_toNat
            (EndpointUpdate.fits_of_dynCompWrite (legal update member).2 written)
  have methods := view_foldl step
    (fun state => ((keptDynComp direction endpointName id state).getD
      DynCompConfig.zero).compression_method)
    (fun _ => none) updates UplaneState.constructed fun update member state => by
      rw [keptDynComp_run (legal update member).1 (legal update member).2]
      cases update.dynCompWrite direction endpointName id "iq-bitwidth" <;> rfl
  have wrote : lastWrite (EndpointUpdate.dynCompWrite direction endpointName id "iq-bitwidth")
      updates ≠ none := by
    intro nothing
    obtain ⟨update, member, mine⟩ := own
    have silent := lastWrite_eq_none_iff.mp nothing update member
    obtain ⟨value, written⟩ := EndpointUpdate.dynCompWrite_of_ofDynComp (legal update member).1
      (legal update member).2 mine
    rw [silent] at written
    contradiction
  obtain ⟨last, written⟩ := Option.ne_none_iff_exists'.mp wrote
  rw [lastWrite_map, written] at present
  obtain ⟨record, kept⟩ := Option.isSome_iff_exists.mp present
  refine ⟨record, kept, ?_, ?_⟩
  · rw [lastWrite_map, blank] at widths
    simpa only [step, kept, Option.getD_some, Option.getD_none, DynCompConfig.zero,
      UInt8.toNat_zero] using widths
  · rw [blank] at methods
    have silent : lastWrite (fun _ : EndpointUpdate => (none : Option CharPtr)) updates = none :=
      lastWrite_eq_none_iff.mpr fun _ _ => rfl
    simpa only [step, kept, silent, Option.getD_some, Option.getD_none, DynCompConfig.zero] using
      methods

/-- What is handed over is the merge of the updates exactly when every value and
every id fits its field and no compression method is set. -/
theorem merged_iff (env : UplaneEnv) (updates : List EndpointUpdate)
    (wellFormed : ∀ update ∈ updates, update.WellFormed) :
    Merged env updates ↔ ∀ update ∈ updates, update.Fits := by
  constructor
  · intro merged update member
    obtain ⟨before, after, rfl⟩ := List.append_of_mem member
    have prior : before ++ [update] <+: before ++ update :: after := ⟨after, by simp⟩
    cases update with
    | eaxc direction name leaf value =>
        obtain ⟨field, written⟩ := Option.ne_none_iff_exists'.mp (wellFormed _ member).1
        obtain ⟨record, -, fields⟩ := merged.eaxc _ prior direction name
          ⟨.eaxc direction name leaf value, by simp, rfl, rfl⟩
        have held := fields field
        rw [lastWrite_append_singleton, EndpointUpdate.eaxcWrite, if_pos ⟨rfl, rfl, written⟩,
          Option.some_or, Option.getD_some] at held
        rw [EndpointUpdate.Fits, ← held]
        exact field.read_lt record
    | dynComp direction name text leaf value =>
        obtain ⟨record, handed, width, method⟩ := merged.dynComp _ prior direction name
          (digitsValue text.toList)
          ⟨.dynComp direction name text leaf value, by simp, rfl, rfl, rfl⟩
        have idFits : digitsValue text.toList < 2 ^ 16 := by
          obtain ⟨effect, -, hands⟩ := exists_of_lastWrite handed
          rw [← id_of_handedDynComp hands]
          exact UInt16.toNat_lt _
        have notMethod : leaf ≠ "compression-method" := by
          rintro rfl
          rw [lastWrite_append_singleton, EndpointUpdate.dynCompWrite,
            if_pos ⟨rfl, rfl, rfl, rfl⟩, Option.some_or] at method
          exact CharPtr.not_holds_some method
        obtain ⟨-, ⟨rfl, -⟩ | isMethod⟩ := wellFormed _ member
        · rw [lastWrite_append_singleton, EndpointUpdate.dynCompWrite,
            if_pos ⟨rfl, rfl, rfl, rfl⟩, Option.some_or, Option.map_some,
            Option.getD_some] at width
          refine ⟨notMethod, idFits, ?_⟩
          rw [← width]
          exact UInt8.toNat_lt _
        · exact absurd isMethod notMethod
  · intro fits
    have legal : ∀ update ∈ updates, update.WellFormed ∧ update.Fits :=
      fun update member => ⟨wellFormed update member, fits update member⟩
    constructor
    · intro done prior direction endpointName own
      have doneLegal := fun update member => legal update (prior.subset member)
      obtain ⟨record, kept, fields⟩ := keptEaxc_afterUpdates env doneLegal own
      refine ⟨record, ?_, fields⟩
      rw [(handedKept_afterUpdates env doneLegal).eaxc, kept]
    · intro done prior direction endpointName id own
      have doneLegal := fun update member => legal update (prior.subset member)
      obtain ⟨record, kept, width, method⟩ := keptDynComp_afterUpdates env doneLegal own
      refine ⟨record, ?_, width, ?_⟩
      · rw [(handedKept_afterUpdates env doneLegal).dynComp, kept]
      · have noMethod : lastWrite (EndpointUpdate.dynCompWrite direction endpointName id
            "compression-method") done = none :=
          lastWrite_eq_none_iff.mpr fun update member =>
            EndpointUpdate.dynCompWrite_method (doneLegal update member).2
        rw [method, noMethod]
        trivial

/-- Two endpoints, two directions and two ids, in turns. -/
def interleavedUpdates : List EndpointUpdate :=
  [.eaxc .rx "ep0" "eaxc-id" "7", .dynComp .rx "ep0" "1" "iq-bitwidth" "9",
    .eaxc .tx "ep0" "eaxc-id" "8", .dynComp .rx "ep0" "2" "iq-bitwidth" "14",
    .eaxc .rx "ep1" "ccid-bitmask" "65535", .eaxc .rx "ep0" "o-du-port-bitmask" "61440",
    .eaxc .rx "ep0" "eaxc-id" "9"]

theorem merged_interleavedUpdates : Merged agreeable interleavedUpdates :=
  (merged_iff agreeable interleavedUpdates (by decide)).mpr (by decide)

/-- The text of a compression method cannot be read from the record. -/
theorem method_is_freed : ¬ ((∀ update ∈
    [EndpointUpdate.dynComp .rx "ep0" "1" "compression-method" "BLOCK_FLOATING_POINT"],
      update.WellFormed) →
    Merged agreeable
      [.dynComp .rx "ep0" "1" "compression-method" "BLOCK_FLOATING_POINT"]) := by
  intro claim
  obtain ⟨record, -, -, holds⟩ :=
    (claim (by decide)).dynComp _ (List.prefix_refl _) .rx "ep0" 1 (by decide)
  exact CharPtr.not_holds_some holds

end Merge

end OranUplaneConfHandler

end OpenMplane
