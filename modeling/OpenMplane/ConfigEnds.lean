import OpenMplane.ConfigCounts
import OpenMplane.DoWhile

/-!
# The lookups of the configuration end

The loops of `commonGet`, `getChoiceCaseName` and `commonGetNumEntries` as they are written,
with element pointers that may be null and a condition that is looked at behind the body.
Behind the last segment of a path nothing is erased, so that the path does not get shorter
with every pass; what gets smaller is the tree below the element of the search.
-/

namespace OpenMplane

/-- `getElement` by type. -/
def YangElement.getElementOfType (element : YangElement) (type : String) : Option YangElement :=
  element.childElements.find? fun child => decide (type = child.elementType)

/-- What ends a lookup before its time. -/
inductive LookupFailure
  | nullElement
  | exception (thrown : StdException)

/-- The element that a method is called of. -/
def calledOf : Option YangElement → Except LookupFailure YangElement
  | none => .error .nullElement
  | some element => .ok element

/-- `std::stoi` within a lookup. -/
def indexOf (indexStr : String) : Except LookupFailure Nat :=
  match stoiAnyBase indexStr with
  | .error thrown => .error (.exception thrown)
  | .ok index => .ok (unsignedInt index)

/-- The variables of a lookup that outlive a pass of its loop. -/
structure Lookup (α : Type) where
  searchComplete : Bool
  searchAbort : Bool
  elementSearch : Option YangElement
  pathCopy : String
  result : α

namespace Lookup

variable {α : Type}

/-- The variables before the first pass. -/
def start (mConfig : YangElement) (path : String) (result : α) : Lookup α :=
  ⟨false, false, some mConfig, path, result⟩

/-- The condition of the loops; `commonGetNumEntries` has no `searchComplete`. -/
def again (lookup : Lookup α) : Bool :=
  !lookup.searchComplete && !lookup.searchAbort

def abort (lookup : Lookup α) : Lookup α := { lookup with searchAbort := true }

def complete (lookup : Lookup α) (result : α) : Lookup α :=
  { lookup with searchComplete := true, result }

/-- The move to the next segment. -/
def moveOn (lookup : Lookup α) (elementFound : Option YangElement)
    (pathDelimiterPos : Option Nat) : Lookup α :=
  { lookup with
    elementSearch := elementFound
    pathCopy := YangConfig.eraseComponent lookup.pathCopy pathDelimiterPos }

/-- `commonSearch` from an element that may be null: a path that starts with a delimiter is
not searched for. -/
def commonSearch (lookup : Lookup α) : Except LookupFailure CommonSearch :=
  let pathDelimiterPos := findChar '/' lookup.pathCopy.toList
  if pathDelimiterPos = some 0 ∨ findChar '-' lookup.pathCopy.toList = some 0 then
    .ok ⟨false, none, "", "", pathDelimiterPos⟩
  else do
    let elementSearch ← calledOf lookup.elementSearch
    return YangConfig.commonSearch elementSearch lookup.pathCopy

/-- The entry of a list that the index of a segment selects. -/
def entryOf (type : String) (search : CommonSearch) :
    Except LookupFailure (Option YangElement) := do
  let index ← indexOf search.index
  let list ← calledOf search.elementFound
  return list.getElementAt type index

/-- A pass of the loop of `commonGet`. -/
def commonGetPass (lookup : Lookup (String × String)) :
    Except LookupFailure (Lookup (String × String)) := do
  let search ← lookup.commonSearch
  if search.elementFound.isNone then return lookup.abort
  else if search.type = "leaf" then
    let leaf ← calledOf search.elementFound
    return lookup.complete (leaf.elementValue, leaf.elementAccessPermissions)
  else if search.type = "list" then
    if search.foundListDelimiter then
      let entry ← entryOf "listEntry" search
      if entry.isNone then return lookup.abort
      else return lookup.moveOn entry search.pathDelimiterPos
    else return lookup.abort
  else if search.type = "listLeaf" then
    if search.foundListDelimiter then
      let entry ← entryOf "entry" search
      if entry.isNone then return lookup.abort
      else
        let leaf ← calledOf entry
        return lookup.complete (leaf.elementValue, leaf.elementAccessPermissions)
    else return lookup.abort
  else if search.type = "feature" then
    let feature ← calledOf search.elementFound
    return lookup.complete (feature.elementValue, lookup.result.2)
  else return lookup.moveOn search.elementFound search.pathDelimiterPos

/-- A pass of the loop of `getChoiceCaseName`. -/
def getChoiceCaseNamePass (lookup : Lookup String) : Except LookupFailure (Lookup String) := do
  let search ← lookup.commonSearch
  if search.elementFound.isNone then return lookup.abort
  else if search.type = "choice" then
    let choice ← calledOf search.elementFound
    let found := choice.getElementOfType "case"
    if found.isNone then return (lookup.complete lookup.result).abort
    else
      let selected ← calledOf found
      return lookup.complete selected.elementName
  else if search.type = "list" then
    if search.foundListDelimiter then
      let entry ← entryOf "listEntry" search
      if entry.isNone then return lookup.abort
      else return lookup.moveOn entry search.pathDelimiterPos
    else return lookup.abort
  else return lookup.moveOn search.elementFound search.pathDelimiterPos

/-- The value that is returned, saved until a deeper list is found. -/
def numberOf (elementType : String) (search : CommonSearch) (returnValue : Nat) :
    Except LookupFailure Nat :=
  if search.type = elementType then do
    let list ← calledOf search.elementFound
    return list.getNumberOfChildElements
  else return returnValue

/-- A pass of the loop of `commonGetNumEntries`. -/
def commonGetNumEntriesPass (elementType : String) (lookup : Lookup Nat) :
    Except LookupFailure (Lookup Nat) := do
  let search ← lookup.commonSearch
  if search.elementFound.isNone then return lookup.abort
  else
    let returnValue ← numberOf elementType search lookup.result
    let lookup := { lookup with result := returnValue }
    if search.type = "list" ∧ search.foundListDelimiter = true then
      let entry ← entryOf "listEntry" search
      let lookup := if entry.isNone then lookup.abort else lookup
      return lookup.moveOn entry search.pathDelimiterPos
    else return lookup.moveOn search.elementFound search.pathDelimiterPos

section Passes

variable {lookup : Lookup α} {element found : YangElement}

/-- How much tree is below the element of the search. -/
def measure (lookup : Lookup α) : Nat := (lookup.elementSearch.map YangElement.size).getD 0

theorem measure_pos (here : lookup.elementSearch.isSome) : 0 < lookup.measure := by
  obtain ⟨element, found⟩ := Option.isSome_iff_exists.mp here
  rw [measure, found, Option.map_some, Option.getD_some, element.size_eq]
  exact Nat.succ_pos _

/-- What a pass may do: throw an exception, end the loop, or go on below the element. -/
abbrev Descends (before : Nat) (pass : Except LookupFailure (Lookup α)) : Prop :=
  DoWhile.Decreases (fun failure => failure ≠ .nullElement)
    (fun after : Lookup α => after.elementSearch.isSome) measure again before pass

theorem descends_of_searchAbort (before : Nat) (aborted : lookup.searchAbort = true) :
    Descends before (.ok lookup) := by
  intro more
  rw [again, aborted, Bool.not_true, Bool.and_false] at more
  exact absurd more Bool.false_ne_true

theorem descends_abort (before : Nat) : Descends before (.ok lookup.abort) :=
  descends_of_searchAbort before rfl

theorem descends_complete (result : α) (before : Nat) :
    Descends before (.ok (lookup.complete result)) := by
  intro more
  rw [again, complete, Bool.not_true, Bool.false_and] at more
  exact absurd more Bool.false_ne_true

theorem descends_moveOn {before : Nat} (smaller : found.size < before) (position : Option Nat) :
    Descends before (.ok (lookup.moveOn (some found) position)) :=
  fun _ => ⟨rfl, smaller⟩

theorem commonSearch_of_some (here : lookup.elementSearch = some element) :
    lookup.commonSearch = .ok (YangConfig.commonSearch element lookup.pathCopy) := by
  unfold commonSearch YangConfig.commonSearch
  dsimp only
  split
  · rfl
  · rw [here]
    rfl

/-- The entry that an index selects stands below the list; the index may be none. -/
theorem entryOf_cases (type : String) {search : CommonSearch}
    (there : search.elementFound = some found) :
    (∃ thrown, entryOf type search = .error (.exception thrown)) ∨
      entryOf type search = .ok none ∨
      ∃ entry, entryOf type search = .ok (some entry) ∧ entry.size < found.size := by
  unfold entryOf indexOf
  rw [there]
  cases stoiAnyBase search.index with
  | error thrown => exact Or.inl ⟨thrown, rfl⟩
  | ok index =>
      cases entry : found.getElementAt type (unsignedInt index) with
      | none => exact Or.inr (Or.inl (congrArg Except.ok entry))
      | some below =>
          have smaller := YangElement.size_lt_of_mem (YangElement.mem_of_getElementAt entry)
          exact Or.inr (Or.inr ⟨below, congrArg Except.ok entry, smaller⟩)

/-- The branch for a list, the same in two of the loops. -/
theorem descends_list {before : Nat} {search : CommonSearch}
    (there : search.elementFound = some found) (smaller : found.size < before) :
    Descends before (if search.foundListDelimiter = true then (do
        let entry ← entryOf "listEntry" search
        if entry.isNone then return lookup.abort
        else return lookup.moveOn entry search.pathDelimiterPos)
      else return lookup.abort) := by
  by_cases indexed : search.foundListDelimiter = true
  · rw [if_pos indexed]
    rcases entryOf_cases "listEntry" there with ⟨thrown, result⟩ | result | ⟨entry, result, below⟩
    · rw [result]
      exact LookupFailure.noConfusion
    · rw [result]
      exact descends_abort before
    · rw [result]
      exact descends_moveOn (Nat.lt_trans below smaller) _
  · rw [if_neg indexed]
    exact descends_abort before

/-- A pass of `commonGet` ends the loop or goes down. -/
theorem descends_commonGetPass {lookup : Lookup (String × String)}
    (here : lookup.elementSearch = some element) :
    Descends element.size (commonGetPass lookup) := by
  unfold commonGetPass
  rw [commonSearch_of_some here]
  generalize chosen : YangConfig.commonSearch element lookup.pathCopy = search
  cases there : search.elementFound with
  | none =>
      change Descends _ (if search.elementFound.isNone then _ else _)
      rw [if_pos (by rw [there]; rfl)]
      exact descends_abort _
  | some found =>
      have smaller := YangElement.size_lt_of_mem (mem_of_commonSearch (chosen ▸ there))
      change Descends _ (if search.elementFound.isNone then _ else if search.type = "leaf" then _
        else if search.type = "list" then _ else if search.type = "listLeaf" then _
        else if search.type = "feature" then _ else _)
      rw [if_neg (by rw [there]; exact Bool.false_ne_true)]
      split
      · rw [there]
        exact descends_complete _ _
      split
      · exact descends_list there smaller
      split
      · split
        · rcases entryOf_cases "entry" there with ⟨thrown, result⟩ | result | ⟨entry, result, below⟩
          · rw [result]
            exact LookupFailure.noConfusion
          · rw [result]
            exact descends_abort _
          · rw [result]
            exact descends_complete _ _
        · exact descends_abort _
      split
      · rw [there]
        exact descends_complete _ _
      · rw [there]
        exact descends_moveOn smaller _

theorem descends_getChoiceCaseNamePass {lookup : Lookup String}
    (here : lookup.elementSearch = some element) :
    Descends element.size (getChoiceCaseNamePass lookup) := by
  unfold getChoiceCaseNamePass
  rw [commonSearch_of_some here]
  generalize chosen : YangConfig.commonSearch element lookup.pathCopy = search
  cases there : search.elementFound with
  | none =>
      change Descends _ (if search.elementFound.isNone then _ else _)
      rw [if_pos (by rw [there]; rfl)]
      exact descends_abort _
  | some found =>
      have smaller := YangElement.size_lt_of_mem (mem_of_commonSearch (chosen ▸ there))
      change Descends _ (if search.elementFound.isNone then _ else if search.type = "choice" then _
        else if search.type = "list" then _ else _)
      rw [if_neg (by rw [there]; exact Bool.false_ne_true)]
      split
      · rw [there]
        cases selected : found.getElementOfType "case" with
        | none =>
            change Descends _ (if (found.getElementOfType "case").isNone then _ else _)
            rw [if_pos (by rw [selected]; rfl)]
            exact descends_abort _
        | some selectedCase =>
            change Descends _ (if (found.getElementOfType "case").isNone then _ else _)
            rw [if_neg (by rw [selected]; exact Bool.false_ne_true), selected]
            exact descends_complete _ _
      split
      · exact descends_list there smaller
      · rw [there]
        exact descends_moveOn smaller _

/-- A list without an index is gone into as any other element. -/
theorem descends_commonGetNumEntriesPass (elementType : String) {lookup : Lookup Nat}
    (here : lookup.elementSearch = some element) :
    Descends element.size (commonGetNumEntriesPass elementType lookup) := by
  unfold commonGetNumEntriesPass
  rw [commonSearch_of_some here]
  generalize chosen : YangConfig.commonSearch element lookup.pathCopy = search
  cases there : search.elementFound with
  | none =>
      change Descends _ (if search.elementFound.isNone then _ else _)
      rw [if_pos (by rw [there]; rfl)]
      exact descends_abort _
  | some found =>
      have smaller := YangElement.size_lt_of_mem (mem_of_commonSearch (chosen ▸ there))
      change Descends _ (if search.elementFound.isNone then _ else _)
      rw [if_neg (by rw [there]; exact Bool.false_ne_true)]
      have counted : ∃ number, numberOf elementType search lookup.result = .ok number := by
        unfold numberOf
        split
        · rw [there]
          exact ⟨_, rfl⟩
        · exact ⟨_, rfl⟩
      obtain ⟨number, counted⟩ := counted
      rw [counted]
      change Descends _ (if search.type = "list" ∧ search.foundListDelimiter = true then _ else _)
      split
      · rcases entryOf_cases "listEntry" there with ⟨thrown, result⟩ | result | ⟨entry, result, below⟩
        · rw [result]
          exact LookupFailure.noConfusion
        · rw [result]
          exact descends_of_searchAbort _ rfl
        · rw [result]
          exact descends_moveOn (Nat.lt_trans below smaller) _
      · rw [there]
        exact descends_moveOn smaller _

end Passes

/-- A loop ends, after some number of passes, and without a call to a null element. -/
def Ends (pass : Lookup α → Except LookupFailure (Lookup α)) (start : Lookup α) : Prop :=
  ∃ passes outcome, DoWhile.run pass again passes start = some outcome ∧
    outcome ≠ .error .nullElement

/-- A loop whose passes descend ends within as many passes as the tree is large. -/
theorem run_of_descends {pass : Lookup α → Except LookupFailure (Lookup α)}
    (descends : ∀ {lookup : Lookup α} {element : YangElement},
      lookup.elementSearch = some element → Descends element.size (pass lookup))
    (mConfig : YangElement) (path : String) (result : α) :
    ∃ outcome, DoWhile.run pass again mConfig.size (start mConfig path result) = some outcome ∧
      outcome ≠ .error .nullElement := by
  -- an element that is searched has at least itself, so that one pass less is enough
  have decreases : ∀ lookup : Lookup α, lookup.elementSearch.isSome →
      DoWhile.Decreases (fun failure => failure ≠ .nullElement)
        (fun after : Lookup α => after.elementSearch.isSome) (fun after => after.measure - 1)
        again (lookup.measure - 1) (pass lookup) := by
    intro lookup here
    obtain ⟨element, found⟩ := Option.isSome_iff_exists.mp here
    have size : lookup.measure = element.size := by rw [measure, found]; rfl
    have went := descends found
    cases result : pass lookup with
    | error failure =>
        rw [result] at went
        exact went
    | ok after =>
        rw [result] at went
        intro more
        obtain ⟨below, smaller⟩ := went more
        have positive := measure_pos below
        refine ⟨below, ?_⟩
        dsimp only
        omega
  have first : (start mConfig path result).elementSearch.isSome := rfl
  obtain ⟨outcome, ends, safe⟩ :=
    DoWhile.exists_outcome decreases (mConfig.size - 1) first (Nat.le_refl _)
  have whole : mConfig.size - 1 + 1 = mConfig.size := Nat.sub_add_cancel (measure_pos first)
  rw [whole] at ends
  exact ⟨outcome, ends, fun null => safe _ null rfl⟩

theorem ends_of_descends {pass : Lookup α → Except LookupFailure (Lookup α)}
    (descends : ∀ {lookup : Lookup α} {element : YangElement},
      lookup.elementSearch = some element → Descends element.size (pass lookup))
    (mConfig : YangElement) (path : String) (result : α) :
    Ends pass (start mConfig path result) :=
  ⟨mConfig.size, run_of_descends descends mConfig path result⟩

/-- The value of a loop that has ended without an exception. -/
def resultOf : Option (Except LookupFailure (Lookup α)) → Option α
  | some (.ok lookup) => some lookup.result
  | _ => none

end Lookup

section Refines

open Lookup YangConfig

variable {lookup : Lookup (String × String)} {element : YangElement}

/-- The passes from a state, followed by the rest of the loop. -/
theorem resultOf_run {α : Type} {pass : Lookup α → Except LookupFailure (Lookup α)}
    {lookup : Lookup α} (rounds : Nat) :
    resultOf (DoWhile.run pass again (rounds + 1) lookup) =
      match pass lookup with
      | .error _ => none
      | .ok after =>
          if after.again then resultOf (DoWhile.run pass again rounds after)
          else some after.result := by
  rw [DoWhile.run]
  cases pass lookup with
  | error failure => rfl
  | ok after =>
      dsimp only
      split
      · rfl
      · rfl

/-- The loop of `commonGet` gives what `YangConfig.commonGet` does. -/
theorem resultOf_commonGetPass (rounds : Nat) (path : String) :
    resultOf (DoWhile.run commonGetPass again rounds (start element path ("", ""))) =
      commonGetLoop rounds element path := by
  induction rounds generalizing element path with
  | zero => rfl
  | succ rounds ih =>
      have first := @commonSearch_of_some _ (start element path ("", "")) element rfl
      rw [commonGetLoop, resultOf_run, commonGetPass, first]
      rw [show (start element path ("", "")).pathCopy = path from rfl]
      generalize YangConfig.commonSearch element path = search
      cases there : search.elementFound with
      | none =>
          simp only [bind, Except.bind, there, pure, Except.pure, Option.isNone_none, if_true]
          rfl
      | some found =>
          simp only [bind, Except.bind, there, pure, Except.pure, calledOf, entryOf,
            Option.isNone_some, Bool.false_eq_true, if_false]
          split_ifs
          · rfl
          · unfold indexOf
            cases stoiAnyBase search.index with
            | error thrown => rfl
            | ok index =>
                dsimp only
                cases entry : found.getElementAt "listEntry" (unsignedInt index) with
                | none => rfl
                | some below => exact ih _
          · rfl
          · unfold indexOf
            cases stoiAnyBase search.index with
            | error thrown => rfl
            | ok index =>
                dsimp only
                cases entry : found.getElementAt "entry" (unsignedInt index) with
                | none => rfl
                | some below => rfl
          · rfl
          · rfl
          · exact ih _

/-- The loop of `commonGetNumEntries` gives what `YangConfig.commonGetNumEntries` does. -/
theorem resultOf_commonGetNumEntriesPass (elementType : String) (rounds : Nat) (path : String)
    (returnValue : Nat) :
    resultOf (DoWhile.run (commonGetNumEntriesPass elementType) again rounds
        (start element path returnValue)) =
      commonGetNumEntriesLoop elementType rounds element path returnValue := by
  induction rounds generalizing element path returnValue with
  | zero => rfl
  | succ rounds ih =>
      have first := @commonSearch_of_some _ (start element path returnValue) element rfl
      rw [commonGetNumEntriesLoop, commonGetNumEntriesRound, resultOf_run,
        commonGetNumEntriesPass, first]
      rw [show (start element path returnValue).pathCopy = path from rfl]
      generalize YangConfig.commonSearch element path = search
      cases there : search.elementFound with
      | none =>
          simp only [bind, Except.bind, there, pure, Except.pure, Option.isNone_none, if_true]
          rfl
      | some found =>
          have number : numberOf elementType search (start element path returnValue).result =
              .ok (if search.type = elementType then found.getNumberOfChildElements
                else returnValue) := by
            rw [numberOf, there]
            split
            · rfl
            · rfl
          simp only [bind, Except.bind, there, pure, Except.pure, number, Option.isNone_some,
            Bool.false_eq_true, if_false]
          generalize (if search.type = elementType then found.getNumberOfChildElements
            else returnValue) = value
          by_cases indexed : search.type = "list" ∧ search.foundListDelimiter = true
          · rw [if_pos indexed, if_pos indexed]
            unfold entryOf indexOf
            cases stoiAnyBase search.index with
            | error thrown => rfl
            | ok index =>
                simp only [bind, Except.bind, there, calledOf, pure, Except.pure]
                cases entry : found.getElementAt "listEntry" (unsignedInt index) with
                | none => rfl
                | some below => exact ih _ _
          · rw [if_neg indexed, if_neg indexed]
            exact ih _ _

/-- `YangConfig.commonGet` is not short of steps: its loop has ended by then, and it gives
nothing only where the loop has thrown. -/
theorem commonGet_ends (config : YangConfig) (path : String) :
    ∃ outcome, DoWhile.run commonGetPass again config.mConfig.size
        (start config.mConfig path ("", "")) = some outcome ∧
      outcome ≠ .error .nullElement ∧ config.commonGet path = resultOf (some outcome) := by
  obtain ⟨outcome, ends, safe⟩ :=
    run_of_descends descends_commonGetPass config.mConfig path ("", "")
  refine ⟨outcome, ends, safe, ?_⟩
  rw [← ends, resultOf_commonGetPass]
  rfl

theorem commonGetNumEntries_ends (config : YangConfig) (path elementType : String) :
    ∃ outcome, DoWhile.run (commonGetNumEntriesPass elementType) again config.mConfig.size
        (start config.mConfig path 0) = some outcome ∧
      outcome ≠ .error .nullElement ∧
      config.commonGetNumEntries path elementType = resultOf (some outcome) := by
  obtain ⟨outcome, ends, safe⟩ :=
    run_of_descends (descends_commonGetNumEntriesPass elementType) config.mConfig path 0
  refine ⟨outcome, ends, safe, ?_⟩
  rw [← ends, resultOf_commonGetNumEntriesPass]
  rfl

end Refines

open Lookup in
/-- The lookups end on every tree and every path, and call no method of a null element. -/
theorem lookups_end (mConfig : YangElement) (path : String) :
    Ends commonGetPass (start mConfig path ("", "")) ∧
      Ends getChoiceCaseNamePass (start mConfig path "") ∧
      ∀ elementType, Ends (commonGetNumEntriesPass elementType) (start mConfig path 0) :=
  ⟨ends_of_descends descends_commonGetPass mConfig path _,
    ends_of_descends descends_getChoiceCaseNamePass mConfig path _, fun elementType =>
    ends_of_descends (descends_commonGetNumEntriesPass elementType) mConfig path _⟩

end OpenMplane
