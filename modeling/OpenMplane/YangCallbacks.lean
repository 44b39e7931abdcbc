import OpenMplane.LastWriteWins
import OpenMplane.LongestPrefix
import OpenMplane.StdString

/-!
# The callbacks of a module

A `YangModule` keeps its callbacks in a map by the xpath they were registered
for.  `testCallback` goes through the map from its end and calls the first one
whose xpath the tested xpath begins with.  The order of the map makes this the
one with the longest xpath.
-/

namespace OpenMplane

open ListCut LastWriteWins LongestPrefix

/-- `std::string::find`: where a word first stands in a text. -/
def stdFind (text word : String) : Option Nat :=
  (cutWord word.toList text.toList).map fun cut => cut.1.length

theorem stdFind_eq_zero_iff {text word : String} :
    stdFind text word = some 0 ↔ word.toList <+: text.toList := by
  constructor
  · intro found
    obtain ⟨⟨before, after⟩, cut, length⟩ := Option.map_eq_some_iff.mp found
    have whole := (cutWord_eq_some cut).1
    have empty : before = [] := List.eq_nil_of_length_eq_zero length
    subst empty
    exact ⟨after, whole.symm⟩
  · rintro ⟨after, whole⟩
    have cut : cutWord word.toList ([] ++ word.toList ++ after) = some ([], after) :=
      cutWord_append after (by simp)
    rw [List.nil_append, whole] at cut
    rw [stdFind, cut]
    rfl

namespace YangModule

variable {Callback Value : Type}

/-- `YangModule::registerCallback` on `mCallbacks`; an inactive module only
warns. -/
def registerCallback (mCallbacks : StdMap Callback) (xpath : String) (callback : Callback) :
    Bool × StdMap Callback :=
  (true, mCallbacks.insert xpath callback)

/-- A call of a callback, with its arguments. -/
structure Invocation (Callback Value : Type) where
  callback : Callback
  xpath : String
  value : Value

variable (invoke : Callback → String → Value → Bool)

/-- The loop of `testCallback`: the calls it makes and its result. -/
def testCallbackLoop (xpath : String) (value : Value) :
    List (String × Callback) → List (Invocation Callback Value) × Bool
  | [] => ([], false)
  | it :: rest =>
      if stdFind xpath it.1 ≠ some 0 then testCallbackLoop xpath value rest
      else ([⟨it.2, xpath, value⟩], invoke it.2 xpath value)

def testCallback (mCallbacks : StdMap Callback) (xpath : String) (value : Value) :
    List (Invocation Callback Value) × Bool :=
  testCallbackLoop invoke xpath value mCallbacks.toList.reverse

/-- The callbacks of a module after some registrations. -/
def registered (calls : List (String × Callback)) : StdMap Callback :=
  calls.foldl (fun mCallbacks call => (registerCallback mCallbacks call.1 call.2).2) ∅

/-- The callback that was last registered for the xpath. -/
def latest (path : String) (calls : List (String × Callback)) : Option Callback :=
  lastWrite (fun call => if call.1 = path then some call.2 else none) calls

theorem registered_getElem? (calls : List (String × Callback)) (path : String) :
    (registered calls)[path]? = latest path calls := by
  have written := view_foldl
    (fun (mCallbacks : StdMap Callback) call => (registerCallback mCallbacks call.1 call.2).2)
    (fun mCallbacks => mCallbacks[path]?)
    (fun call => (if call.1 = path then some call.2 else none).map some) calls ∅
    (fun call _ mCallbacks => by
      by_cases same : call.1 = path <;>
        simp [registerCallback, Std.ExtTreeMap.getElem?_insert, same])
  rw [lastWrite_map] at written
  change (registered calls)[path]? = _ at written
  rw [written, latest]
  cases lastWrite (fun call => if call.1 = path then some call.2 else none) calls <;> simp

theorem registered_of_mem {calls : List (String × Callback)} {call : String × Callback}
    (member : call ∈ calls) : ∃ callback, latest call.1 calls = some callback := by
  rw [← Option.isSome_iff_exists, Option.isSome_iff_ne_none, latest, Ne, lastWrite_eq_none_iff]
  intro none
  have own := none call member
  rw [if_pos rfl] at own
  cases own

/-- The map lists its entries by the lexicographic order of their xpaths. -/
theorem toList_sorted (mCallbacks : StdMap Callback) :
    (mCallbacks.toList.map fun entry => (entry.1.toList, entry.2)).Pairwise
      fun first second => first.1 < second.1 := by
  rw [List.pairwise_map]
  refine List.Pairwise.imp ?_ Std.ExtTreeMap.ordered_keys_toList
  intro first second before
  have smaller : first.1 < second.1 := compareOfLessAndEq_eq_lt.mp before
  exact smaller

theorem testCallbackLoop_eq (xpath : String) (value : Value) (entries : List (String × Callback)) :
    testCallbackLoop invoke xpath value entries =
      match entries.find? fun entry => decide (stdFind xpath entry.1 = some 0) with
      | none => ([], false)
      | some entry => ([⟨entry.2, xpath, value⟩], invoke entry.2 xpath value) := by
  induction entries with
  | nil => rfl
  | cons entry entries ih =>
      by_cases meets : stdFind xpath entry.1 = some 0
      · simp [testCallbackLoop, meets]
      · simp [testCallbackLoop, meets, ih]

/-- The latest callback of the longest registered xpath that the tested one
begins with. -/
structure Closest (calls : List (String × Callback)) (xpath path : String)
    (callback : Callback) : Prop where
  isPrefix : path.toList <+: xpath.toList
  longest : ∀ call ∈ calls, call.1.toList <+: xpath.toList →
    call.1.toList.length ≤ path.toList.length
  latest : latest path calls = some callback

/-- Testing an xpath calls the latest callback of the longest registered xpath
it begins with, once, and returns its result; without such an xpath nothing is
called and the result is false. -/
theorem testCallback_closest (calls : List (String × Callback)) (xpath : String)
    (value : Value) :
    ((∀ call ∈ calls, ¬ call.1.toList <+: xpath.toList) ∧
        testCallback invoke (registered calls) xpath value = ([], false)) ∨
      ∃ path callback, Closest calls xpath path callback ∧
        testCallback invoke (registered calls) xpath value =
          ([⟨callback, xpath, value⟩], invoke callback xpath value) := by
  have entries : ∀ path callback, (path, callback) ∈ (registered calls).toList ↔
      latest path calls = some callback := by
    intro path callback
    rw [Std.ExtTreeMap.mem_toList_iff_getElem?_eq_some, registered_getElem?]
  rw [testCallback, testCallbackLoop_eq]
  cases search : (registered calls).toList.reverse.find?
      fun entry => decide (stdFind xpath entry.1 = some 0) with
  | none =>
      refine .inl ⟨?_, rfl⟩
      intro call member isPrefix
      obtain ⟨callback, last⟩ := registered_of_mem member
      have refused := List.find?_eq_none.mp search _
        (List.mem_reverse.mpr ((entries _ _).mpr last))
      simp [stdFind_eq_zero_iff, isPrefix] at refused
  | some found =>
      obtain ⟨path, callback⟩ := found
      refine .inr ⟨path, callback, ?_, rfl⟩
      have onLetters : ((registered calls).toList.map
            fun entry => (entry.1.toList, entry.2)).reverse.find?
          (fun entry => decide (entry.1 <+: xpath.toList)) = some (path.toList, callback) := by
        rw [← List.map_reverse, List.find?_map]
        simp only [stdFind_eq_zero_iff] at search
        rw [show ((fun entry : List Char × Callback => decide (entry.1 <+: xpath.toList)) ∘
          fun entry : String × Callback => (entry.1.toList, entry.2)) =
            fun entry => decide (entry.1.toList <+: xpath.toList) from rfl, search]
        rfl
      obtain ⟨-, isPrefix, longest⟩ := longest_of_find (toList_sorted _)
        (fun entry => decide_eq_true_iff) onLetters
      have member := List.mem_reverse.mp (List.mem_of_find?_eq_some search)
      refine ⟨isPrefix, ?_, (entries path callback).mp member⟩
      intro call registers callPrefix
      obtain ⟨other, last⟩ := registered_of_mem registers
      exact longest (call.1.toList, other)
        (List.mem_map.mpr ⟨(call.1, other), (entries _ _).mpr last, rfl⟩) callPrefix

end YangModule

end OpenMplane
