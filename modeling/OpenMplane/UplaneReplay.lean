import OpenMplane.ReplayedUpdates
import OpenMplane.UplaneDone

/-!
# Applying an accepted transaction twice

Validation has already applied the leaves of an accepted transaction when the
DONE phase applies them again.  This file shows that updates of links and eaxc
records overwrite what an earlier pass wrote, so that a second pass over the
same leaves changes none of them.
-/

namespace OpenMplane

open ReplayedUpdates StatePrograms

/-- What a direction and a name select in a pair of maps. -/
def TxRx.look {β : Type} (pair : TxRx (StdMap β)) (place : Direction × String) : Option β :=
  (pair.get place.1)[place.2]?

theorem TxRx.ext_look {β : Type} {first second : TxRx (StdMap β)}
    (equal : ∀ place, first.look place = second.look place) : first = second := by
  apply TxRx.ext_get
  intro direction
  apply Std.ExtTreeMap.ext_getElem?
  intro name
  exact equal (direction, name)

theorem TxRx.look_insert {β : Type} (pair : TxRx (StdMap β)) (direction : Direction)
    (name : String) (value : β) (place : Direction × String) :
    (pair.set direction ((pair.get direction).insert name value)).look place =
      if (direction, name) = place then some value else pair.look place := by
  obtain ⟨other, key⟩ := place
  simp only [TxRx.look, TxRx.get_set, Prod.mk.injEq]
  by_cases same : direction = other
  · subst same
    simp only [↓reduceIte, Std.ExtTreeMap.getElem?_insert, Std.LawfulEqCmp.compare_eq_iff_eq,
      true_and]
  · simp [same]

theorem TxRx.mem_insert {β : Type} (pair : TxRx (StdMap β)) (direction other : Direction)
    (name key : String) (value : β) :
    key ∈ (pair.set direction ((pair.get direction).insert name value)).get other ↔
      direction = other ∧ name = key ∨ key ∈ pair.get other := by
  simp only [TxRx.get_set]
  split
  · next same =>
      subst same
      simp only [Std.ExtTreeMap.mem_insert, Std.LawfulEqCmp.compare_eq_iff_eq, true_and]
  · next apart => simp [apart]

namespace Route

section Links

/-- A link after a leaf of it. -/
def linkAt (name endpointName carrierName : String) (held : Option Link) : Option Link :=
  let link := Link.mk name endpointName carrierName
  if link.empty then none
  else match held with
    | none => some link
    | some entry => some (entry.merge link)

theorem linkMap_getElem (links : StdMap Link) (name endpointName carrierName key : String) :
    (OranYangCarrierMgr.linkMap links name endpointName carrierName)[key]? =
      if name = key then linkAt name endpointName carrierName links[name]?
      else links[key]? := by
  unfold OranYangCarrierMgr.linkMap linkAt
  dsimp only
  cases held : links[name]? with
  | none =>
      by_cases empty : (Link.mk name endpointName carrierName).empty = true
      · simp only [empty, ↓reduceIte]
        split
        · next same =>
            rw [← same, held]
        · rfl
      · simp only [empty, Bool.false_eq_true, ↓reduceIte, Std.ExtTreeMap.getElem?_insert,
          Std.LawfulEqCmp.compare_eq_iff_eq]
  | some entry =>
      by_cases empty : (Link.mk name endpointName carrierName).empty = true
      · simp only [empty, ↓reduceIte, Std.ExtTreeMap.getElem?_erase,
          Std.LawfulEqCmp.compare_eq_iff_eq]
      · simp only [empty, Bool.false_eq_true, ↓reduceIte, Std.ExtTreeMap.getElem?_insert,
          Std.LawfulEqCmp.compare_eq_iff_eq]

def linkStep (links : TxRx (StdMap Link)) : Route → TxRx (StdMap Link)
  | .link direction name endpointName carrierName =>
      links.set direction
        (OranYangCarrierMgr.linkMap (links.get direction) name endpointName carrierName)
  | _ => links

def linkKey : Route → Option (Direction × String)
  | .link direction name _ _ => some (direction, name)
  | _ => none

def linkWrite : Route → Option Link → Option Link
  | .link _ name endpointName carrierName, held => linkAt name endpointName carrierName held
  | _, held => held

theorem linkStep_keyed : Keyed linkStep TxRx.look linkKey linkWrite where
  ext _ _ := TxRx.ext_look
  look_update links route place := by
    cases route with
    | link direction name endpointName carrierName =>
        obtain ⟨other, key⟩ := place
        simp only [linkStep, linkKey, linkWrite, TxRx.look, TxRx.get_set, Option.some.injEq,
          Prod.mk.injEq]
        by_cases same : direction = other
        · subst same
          simp only [↓reduceIte, linkMap_getElem, true_and]
          by_cases key : name = key
          · subst key
            rfl
          · simp only [key, ↓reduceIte]
        · simp [same]
    | refused | carrier | active | endpoint | idle => simp [linkStep, linkKey]

theorem linkStep_overwriting : Overwriting linkStep := by
  apply linkStep_keyed.overwriting
  · intro route held
    cases route with
    | link direction name endpointName carrierName =>
        simp only [linkWrite, linkAt, Link.empty, Link.merge]
        by_cases endpointEmpty : endpointName = "" <;> by_cases carrierEmpty : carrierName = "" <;>
          cases held <;> simp [endpointEmpty, carrierEmpty]
    | refused | carrier | active | endpoint | idle => rfl
  · intro first second sameKey held
    cases first with
    | link direction name endpointName carrierName =>
        cases second with
        | link otherDirection otherName otherEndpoint otherCarrier =>
            simp only [linkKey, Option.some.injEq, Prod.mk.injEq] at sameKey
            obtain ⟨-, rfl⟩ := sameKey
            simp only [linkWrite, linkAt, Link.empty, Link.merge]
            by_cases endpointEmpty : endpointName = "" <;>
              by_cases carrierEmpty : carrierName = "" <;>
              by_cases otherEndpointEmpty : otherEndpoint = "" <;>
              by_cases otherCarrierEmpty : otherCarrier = "" <;>
              cases held <;>
              simp [endpointEmpty, carrierEmpty, otherEndpointEmpty, otherCarrierEmpty]
        | refused | carrier | active | endpoint | idle => contradiction
    | refused | carrier | active | endpoint | idle => rfl

theorem apply_mLinks (state : UplaneState) (route : Route) :
    (apply state route).carrierMgr.mLinks = linkStep state.carrierMgr.mLinks route := by
  cases route with
  | refused => rfl
  | idle => rfl
  | link direction name endpointName carrierName => rfl
  | carrier direction name =>
      unfold apply
      dsimp only
      split_ifs <;> rfl
  | active direction name value =>
      unfold apply
      dsimp only
      split_ifs <;> rfl
  | endpoint direction name leaf value =>
      cases written : EaxcField.ofLeaf leaf <;> simp only [apply, written] <;> rfl

end Links

section Eaxcs

def eaxcStep (eaxcs : TxRx (StdMap EAxcid)) : Route → TxRx (StdMap EAxcid)
  | .endpoint direction name leaf value =>
      match EaxcField.ofLeaf leaf with
      | none => eaxcs
      | some field => eaxcs.set direction ((eaxcs.get direction).insert name
          (storedRecord value field.store ((eaxcs.get direction).getD name EAxcid.zero)))
  | _ => eaxcs

def eaxcKey : Route → Option (Direction × String)
  | .endpoint direction name leaf _ =>
      if (EaxcField.ofLeaf leaf).isSome then some (direction, name) else none
  | _ => none

def eaxcWrite : Route → Option EAxcid → Option EAxcid
  | .endpoint _ _ leaf value, held =>
      match EaxcField.ofLeaf leaf with
      | none => held
      | some field => some (storedRecord value field.store (held.getD EAxcid.zero))
  | _, held => held

theorem eaxcStep_keyed : Keyed eaxcStep TxRx.look eaxcKey eaxcWrite where
  ext _ _ := TxRx.ext_look
  look_update eaxcs route place := by
    cases route with
    | endpoint direction name leaf value =>
        cases written : EaxcField.ofLeaf leaf with
        | none => simp [eaxcStep, eaxcKey, written]
        | some field =>
            simp only [eaxcStep, eaxcKey, eaxcWrite, written, Option.isSome_some, ↓reduceIte,
              TxRx.look_insert, Option.some.injEq]
            by_cases here : (direction, name) = place
            · subst here
              simp only [↓reduceIte, TxRx.look, Std.ExtTreeMap.getD_eq_getD_getElem?]
            · simp only [here, ↓reduceIte]
    | refused | link | carrier | active | idle => simp [eaxcStep, eaxcKey]

theorem storedRecord_eq {ρ : Type} (text : String) (store : ρ → Int → ρ) :
    storedRecord text store = id ∨ ∃ value, storedRecord text store = fun record =>
      store record value := by
  unfold storedRecord
  by_cases empty : text = ""
  · exact Or.inl (by funext record; simp [empty])
  · cases stoi text with
    | ok value => exact Or.inr ⟨value, by simp [empty]⟩
    | error exception => exact Or.inl (by funext record; simp [empty])

theorem eaxcStep_overwriting : Overwriting eaxcStep := by
  apply eaxcStep_keyed.overwriting
  · intro route held
    cases route with
    | endpoint direction name leaf value =>
        cases written : EaxcField.ofLeaf leaf with
        | none => simp [eaxcWrite, written]
        | some field =>
            simp only [eaxcWrite, written, Option.getD_some, Option.some.injEq]
            rcases storedRecord_eq value field.store with same | ⟨number, same⟩
            · rw [same]
              rfl
            · rw [same]
              cases field <;> rfl
    | refused | link | carrier | active | idle => rfl
  · intro first second sameKey held
    cases first with
    | endpoint direction name leaf value =>
        cases second with
        | endpoint otherDirection otherName otherLeaf otherValue =>
            cases written : EaxcField.ofLeaf leaf with
            | none => simp [eaxcWrite, written]
            | some field =>
                cases otherWritten : EaxcField.ofLeaf otherLeaf with
                | none => simp [eaxcKey, written, otherWritten] at sameKey
                | some otherField =>
                    simp only [eaxcWrite, written, otherWritten, Option.getD_some,
                      Option.some.injEq]
                    rcases storedRecord_eq value field.store with same | ⟨number, same⟩
                    · rw [same]
                      rfl
                    · rcases storedRecord_eq otherValue otherField.store with
                        otherSame | ⟨otherNumber, otherSame⟩
                      · rw [same, otherSame]
                        cases field <;> rfl
                      · rw [same, otherSame]
                        cases field <;> cases otherField <;> rfl
        | refused | link | carrier | active | idle =>
            cases written : EaxcField.ofLeaf leaf with
            | none => simp [eaxcWrite, written]
            | some field => simp [eaxcKey, written] at sameKey
    | refused | link | carrier | active | idle => rfl

theorem apply_mEndpointEaxcs (state : UplaneState) (route : Route) :
    (apply state route).carrierMgr.mEndpointEaxcs =
      eaxcStep state.carrierMgr.mEndpointEaxcs route := by
  cases route with
  | refused => rfl
  | idle => rfl
  | link direction name endpointName carrierName => rfl
  | carrier direction name =>
      unfold apply
      dsimp only
      split_ifs <;> rfl
  | active direction name value =>
      unfold apply
      dsimp only
      split_ifs <;> rfl
  | endpoint direction name leaf value =>
      cases written : EaxcField.ofLeaf leaf with
      | none => simp only [apply, eaxcStep, written]
      | some field =>
          simp only [apply, eaxcStep, written]
          rfl

end Eaxcs

end Route

end OpenMplane
