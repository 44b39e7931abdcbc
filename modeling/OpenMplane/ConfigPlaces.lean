import OpenMplane.ConfigCounts

/-!
# What a configuration has at a place

The handlers of the operational data read leaves by their path and count the entries of
lists.  On a path through containers, modules and list entries a leaf that stands there is
found with its value, and of a leaf that does not the value is empty.  The number of entries
of a list is that of its children, when none of them is a list of the same name.
-/

namespace OpenMplane

/-- The value of a leaf below an element, empty if there is none. -/
def YangElement.leafValue (element : YangElement) (leafName : String) : String :=
  ((element.getElement "leaf" leafName).map YangElement.elementValue).getD ""

namespace ConfigStep

open YangConfig

/-- A step that a lookup goes through: an element that does not end it, or an entry of a
list. -/
def Inner : ConfigStep → Prop
  | named type _ => type ∉ endingTypes
  | indexed type _ position => type = "list" ∧ position < 2 ^ 31

instance : ∀ step : ConfigStep, Decidable step.Plain := fun step =>
  decidable_of_iff (step.type.toList ≠ [] ∧ '-' ∉ step.type.toList ∧ '/' ∉ step.type.toList ∧
      step.name.toList ≠ [] ∧ '/' ∉ step.name.toList ∧ '[' ∉ step.name.toList)
    ⟨fun ⟨first, second, third, fourth, fifth, sixth⟩ =>
      ⟨first, second, third, fourth, fifth, sixth⟩,
      fun ⟨first, second, third, fourth, fifth, sixth⟩ =>
        ⟨first, second, third, fourth, fifth, sixth⟩⟩

instance : ∀ step : ConfigStep, Decidable step.Inner
  | named type _ => inferInstanceAs (Decidable (type ∉ endingTypes))
  | indexed type _ position => inferInstanceAs (Decidable (type = "list" ∧ position < 2 ^ 31))

section Places

variable {element : YangElement} {step : ConfigStep} {steps rest : List ConfigStep}
  {leafName listName : String}

/-- A search that finds nothing ends the lookup. -/
theorem answers_of_absent (plain : step.Plain)
    (absent : element.getElement step.type step.name = none) :
    Answers element (step :: rest) (some ("", "")) := by
  rw [Answers, element.size_eq, commonGetLoop, commonSearch_path plain, absent]

theorem answers_of_no_entry {found : YangElement} {position : Nat}
    (plain : (indexed "list" listName position).Plain)
    (there : element.getElement "list" listName = some found) (near : position < 2 ^ 31)
    (absent : found.getElementAt "listEntry" position = none) :
    Answers element (indexed "list" listName position :: rest) (some ("", "")) := by
  have number : stoiAnyBase (index (.indexed "list" listName position)) = .ok (position : Int) := by
    rw [index, stoiAnyBase_repr, if_pos near]
  rw [Answers, element.size_eq]
  simp [commonGetLoop, commonSearch_path plain, ConfigStep.type, ConfigStep.name, isIndexed, there,
    number, unsignedInt_of_lt near, absent]

theorem answers_belowEntryAt {found entry : YangElement} {position : Nat}
    {answer : Option (String × String)} (plain : (indexed "list" listName position).Plain)
    (there : element.getElement "list" listName = some found) (near : position < 2 ^ 31)
    (here : found.getElementAt "listEntry" position = some entry) (nonempty : rest ≠ [])
    (answers : Answers entry rest answer) :
    Answers element (indexed "list" listName position :: rest) answer := by
  have number : stoiAnyBase (index (.indexed "list" listName position)) = .ok (position : Int) := by
    rw [index, stoiAnyBase_repr, if_pos near]
  have smaller := YangElement.size_lt_of_mem (YangElement.mem_of_getElement there)
  have smallerEntry := YangElement.size_lt_of_mem (YangElement.mem_of_getElementAt here)
  have next : commonGetLoop (YangElement.sizes element.childElements) entry (path rest) = answer :=
    (commonGetLoop_eq_of_size_le _ (by rw [element.size_eq] at smaller; omega) le_rfl).trans answers
  rw [Answers, element.size_eq]
  simp [commonGetLoop, commonSearch_path plain, ConfigStep.type, ConfigStep.name, isIndexed, there,
    number, unsignedInt_of_lt near, here, eraseComponent_path nonempty, next]

/-- A leaf behind a row of inner steps is found where the steps lead. -/
theorem answers_leaf_behind (plain : ∀ step ∈ steps, step.Plain)
    (inner : ∀ step ∈ steps, step.Inner) (leaf : (named "leaf" leafName).Plain) :
    ∃ access, Answers element (steps ++ [.named "leaf" leafName])
      (some (((resolve steps element).map fun last => last.leafValue leafName).getD "",
        access)) := by
  induction steps generalizing element with
  | nil =>
      rw [List.nil_append, resolve, Option.map_some, Option.getD_some, YangElement.leafValue]
      cases there : element.getElement "leaf" leafName with
      | none => exact ⟨"", answers_of_absent leaf there⟩
      | some found => exact ⟨_, answers_leaf leaf there⟩
  | cons step steps ih =>
      have later := fun (last : YangElement) => @ih last
        (fun next member => plain next (List.mem_cons_of_mem step member))
        (fun next member => inner next (List.mem_cons_of_mem step member))
      have own := plain step List.mem_cons_self
      have goesOn := inner step List.mem_cons_self
      have nonempty : steps ++ [named "leaf" leafName] ≠ [] := by simp
      rw [List.cons_append, resolve]
      cases there : element.getElement step.type step.name with
      | none => exact ⟨"", answers_of_absent own there⟩
      | some found =>
          cases step with
          | named type name =>
              obtain ⟨access, answers⟩ := later found
              exact ⟨access, answers.below own goesOn there nonempty⟩
          | indexed type name position =>
              obtain ⟨rfl, near⟩ := goesOn
              rw [Option.bind_some, below]
              cases here : found.getElementAt "listEntry" position with
              | none => exact ⟨"", answers_of_no_entry own there near here⟩
              | some entry =>
                  obtain ⟨access, answers⟩ := later entry
                  exact ⟨access, answers_belowEntryAt own there near here nonempty answers⟩

theorem pathChars_behind (nonempty : steps ≠ []) (step : ConfigStep) :
    pathChars (steps ++ [step]) = pathChars steps ++ '/' :: step.chars := by
  induction steps with
  | nil => exact absurd rfl nonempty
  | cons first steps ih =>
      by_cases last : steps = []
      · subst last
        rfl
      · rw [List.cons_append, pathChars_cons (by simp), pathChars_cons last, ih last]
        simp only [List.append_assoc, List.cons_append]

/-- The path of an element behind a row of steps. -/
theorem path_behind (nonempty : steps ≠ []) (step : ConfigStep) :
    path steps ++ String.ofList ('/' :: step.chars) = path (steps ++ [step]) := by
  rw [path, path, pathChars_behind nonempty, ← String.ofList_append]

/-- `getValue` of a leaf behind a row of inner steps. -/
theorem getValue_leaf (config : YangConfig) (plain : ∀ step ∈ steps, step.Plain)
    (inner : ∀ step ∈ steps, step.Inner) (leaf : (named "leaf" leafName).Plain) :
    config.getValue (path (steps ++ [.named "leaf" leafName])) =
      some (((resolve steps config.mConfig).map fun last => last.leafValue leafName).getD "") := by
  obtain ⟨access, answers⟩ := @answers_leaf_behind config.mConfig _ _ plain inner leaf
  rw [getValue, commonGet, show commonGetLoop _ _ _ = _ from answers]
  rfl

theorem resolve_append (first second : List ConfigStep) (element : YangElement) :
    resolve (first ++ second) element = (resolve first element).bind (resolve second) := by
  induction first generalizing element with
  | nil => rfl
  | cons step first ih =>
      rw [List.cons_append, resolve, resolve, Option.bind_assoc]
      congr 1
      funext found
      rw [Option.bind_assoc]
      congr 1
      funext next
      exact ih next

theorem passed_of_types {type : String} (types : ∀ step ∈ steps, step.type ≠ type)
    (element : YangElement) : passed type steps element = [] := by
  induction steps generalizing element with
  | nil => rfl
  | cons step steps ih =>
      have later := ih fun next member => types next (List.mem_cons_of_mem step member)
      have other := types step List.mem_cons_self
      rw [passed]
      cases element.getElement step.type step.name with
      | none => rfl
      | some found =>
          dsimp only
          rw [if_neg other, List.nil_append]
          cases step.below found with
          | none => rfl
          | some next => exact later next

theorem inReach_of_unindexed (unindexed : ∀ step ∈ steps, step.isIndexed = false)
    (element : YangElement) : InReach steps element := by
  induction steps generalizing element with
  | nil => trivial
  | cons step steps ih =>
      have later := ih fun next member => unindexed next (List.mem_cons_of_mem step member)
      cases step with
      | indexed type name position => exact absurd (unindexed _ List.mem_cons_self) Bool.noConfusion
      | named type name =>
          rw [InReach]
          cases element.getElement (named type name).type (named type name).name with
          | none => trivial
          | some found => exact ⟨trivial, later found⟩

/-- The list that a path leads to is the only one that is noted on it, when it has no list of
its name in it. -/
theorem passed_walk_list (others : ∀ step ∈ steps, step.type ≠ "list") (element : YangElement)
    (flat : ∀ list, resolve (steps ++ [named "list" listName]) element = some list →
      list.getElement "list" listName = none) :
    passed "list" (walk (steps ++ [named "list" listName]) element) element =
      (resolve (steps ++ [named "list" listName]) element).toList := by
  rw [walk, passed_append, passed_append, passed_of_types others, List.nil_append]
  cases parent : resolve steps element with
  | none =>
      rw [resolve_append, parent]
      rfl
  | some above =>
      rw [resolve_append, parent, Option.bind_some] at flat ⊢
      cases there : above.getElement "list" listName with
      | none =>
          have absent : resolve [named "list" listName] above = none := by
            simp only [resolve, ConfigStep.type, ConfigStep.name, there, Option.bind_none]
          have passes : passed "list" [named "list" listName] above = [] := by
            simp only [passed, ConfigStep.type, ConfigStep.name, there]
          rw [absent, Option.map_some, passes]
          rfl
      | some list =>
          have found : resolve [named "list" listName] above = some list := by
            simp only [resolve, ConfigStep.type, ConfigStep.name, there, below, Option.bind_some]
          have passes : passed "list" [named "list" listName] above = [list] := by
            simp only [passed, ConfigStep.type, ConfigStep.name, there, below, if_true,
              List.append_nil]
          have ends : passed "list" (again element.size (steps ++ [named "list" listName])) list =
              [] := by
            rw [again, List.getLast?_append]
            cases element.size with
            | zero => rfl
            | succ copies =>
                change passed "list" (named "list" listName :: List.replicate copies _) list = []
                rw [passed, ConfigStep.type, ConfigStep.name, flat list found]
          rw [found, Option.map_some, Option.map_some, passes, Option.getD_some, Option.getD_some, ends]
          rfl

/-- `getNumOfListEntries` of a list behind a row of named steps, none of them a list. -/
theorem getNumOfListEntries_list (config : YangConfig) (plain : ∀ step ∈ steps, step.Plain)
    (others : ∀ step ∈ steps, step.type ≠ "list") (unindexed : ∀ step ∈ steps, step.isIndexed = false)
    (own : (named "list" listName).Plain)
    (flat : ∀ list, resolve (steps ++ [named "list" listName]) config.mConfig = some list →
      list.getElement "list" listName = none) :
    config.getNumOfListEntries (path (steps ++ [named "list" listName])) =
      some (((resolve (steps ++ [named "list" listName]) config.mConfig).map
        YangElement.getNumberOfChildElements).getD 0) := by
  have segments : Segments (steps ++ [named "list" listName]) := by
    refine ⟨by simp, fun step member => ?_, fun step member indexed => ?_⟩
    · rcases List.mem_append.mp member with inside | last
      · exact plain step inside
      · obtain rfl := List.mem_singleton.mp last
        exact own
    · rcases List.mem_append.mp member with inside | last
      · exact absurd indexed (by rw [unindexed step inside]; exact Bool.false_ne_true)
      · obtain rfl := List.mem_singleton.mp last
        exact absurd indexed Bool.false_ne_true
  have notes := notes_commonGetNumEntries config "list" segments
  have reach : InReach (walk (steps ++ [named "list" listName]) config.mConfig) config.mConfig := by
    refine inReach_of_unindexed (fun step member => ?_) _
    rcases List.mem_append.mp member with inside | repeated
    · rcases List.mem_append.mp inside with before | last
      · exact unindexed step before
      · obtain rfl := List.mem_singleton.mp last
        rfl
    · rw [again, List.getLast?_append] at repeated
      obtain rfl := List.eq_of_mem_replicate repeated
      rfl
  rw [getNumOfListEntries, notes.1 reach, passed_walk_list others _ flat, noted]
  cases resolve (steps ++ [named "list" listName]) config.mConfig with
  | none => rfl
  | some list => rfl

end Places

end ConfigStep

end OpenMplane
