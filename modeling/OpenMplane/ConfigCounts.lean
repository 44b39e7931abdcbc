import OpenMplane.ConfigPaths

/-!
# Numbers of list entries

`YangConfig::getNumOfListEntries` and `getNumOfListLeafEntries` walk down a path and
note the number of children of every list that they pass.  The walk ends when a search
fails: behind the last segment nothing is erased, so that segment is searched for again
inside what it has just found.  The number that comes back is that of the last list
that was passed, wherever the path itself ends.
-/

namespace OpenMplane

/-- `getNumberOfChildElements`, an `unsigned int`. -/
def YangElement.getNumberOfChildElements (element : YangElement) : Nat :=
  element.childElements.length % 2 ^ 32

namespace YangConfig

/-- A round of the loop of `commonGetNumEntries`: it ends with a value, or with nothing
when `std::stoi` throws, or goes on with an element, a path and a value. -/
def commonGetNumEntriesRound (elementType : String)
    (goOn : YangElement → String → Nat → Option Nat) (elementSearch : YangElement)
    (pathCopy : String) (returnValue : Nat) : Option Nat :=
  let search := commonSearch elementSearch pathCopy
  match search.elementFound with
  | none => some returnValue
  | some elementFound =>
      -- Saved as return value until a deeper list is found.
      let returnValue :=
        if search.type = elementType then elementFound.getNumberOfChildElements
        else returnValue
      let erased := eraseComponent pathCopy search.pathDelimiterPos
      if search.type = "list" ∧ search.foundListDelimiter = true then
        match stoiAnyBase search.index with
        | .error _ => none
        | .ok index =>
            match elementFound.getElementAt "listEntry" (unsignedInt index) with
            | none => some returnValue
            | some entry => goOn entry erased returnValue
      else goOn elementFound erased returnValue

/-- The loop of `commonGetNumEntries`. -/
def commonGetNumEntriesLoop (elementType : String) : Nat → YangElement → String → Nat → Option Nat
  | 0 => fun _ _ _ => none
  | steps + 1 => commonGetNumEntriesRound elementType (commonGetNumEntriesLoop elementType steps)

def commonGetNumEntries (config : YangConfig) (path elementType : String) : Option Nat :=
  commonGetNumEntriesLoop elementType config.mConfig.size config.mConfig path 0

def getNumOfListEntries (config : YangConfig) (path : String) : Option Nat :=
  config.commonGetNumEntries path "list"

def getNumOfListLeafEntries (config : YangConfig) (path : String) : Option Nat :=
  config.commonGetNumEntries path "listLeaf"

end YangConfig

namespace YangElement

variable {element found : YangElement} {type name : String} {number : Nat}

theorem elementType_of_getElement (there : element.getElement type name = some found) :
    found.elementType = type := by
  have same := List.find?_some there
  simp only [decide_eq_true_eq] at same
  exact same.1.symm

theorem elementType_of_getElementFrom {children : List YangElement} {iterNum : Nat}
    (there : getElementFrom type number iterNum children = some found) :
    found.elementType = type := by
  induction children generalizing iterNum with
  | nil => simp [getElementFrom] at there
  | cons child children ih =>
      rw [getElementFrom] at there
      split at there
      · next same =>
          obtain rfl := Option.some.inj there
          exact same.1.symm
      · exact ih there

theorem elementType_of_getElementAt (there : element.getElementAt type number = some found) :
    found.elementType = type :=
  elementType_of_getElementFrom there

end YangElement

namespace ConfigStep

/-- A path of segments: the type and the name of an element, or an entry of a list. -/
structure Segments (steps : List ConfigStep) : Prop where
  nonempty : steps ≠ []
  plain : ∀ step ∈ steps, step.Plain
  listed : ∀ step ∈ steps, step.isIndexed = true → step.type = "list"

/-- Where a segment leads once its element is found: to the element itself, or to the
entry at the position. -/
def below : ConfigStep → YangElement → Option YangElement
  | named _ _, found => some found
  | indexed _ _ position, found => found.getElementAt "listEntry" position

/-- The element that a row of segments leads to. -/
def resolve : List ConfigStep → YangElement → Option YangElement
  | [], element => some element
  | step :: rest, element =>
      (element.getElement step.type step.name).bind fun found =>
        (step.below found).bind (resolve rest)

/-- The elements of a type that a row of segments finds on its way. -/
def passed (type : String) : List ConfigStep → YangElement → List YangElement
  | [], _ => []
  | step :: rest, element =>
      match element.getElement step.type step.name with
      | none => []
      | some found =>
          (if step.type = type then [found] else []) ++
            (match step.below found with
              | none => []
              | some next => passed type rest next)

/-- Every list that an entry is taken of is asked for a position below `2 ^ 31`. -/
def InReach : List ConfigStep → YangElement → Prop
  | [], _ => True
  | step :: rest, element =>
      match element.getElement step.type step.name with
      | none => True
      | some found =>
          step.InRange ∧
            (match step.below found with
              | none => True
              | some next => InReach rest next)

/-- The last segment, over and over. -/
def again (copies : Nat) (steps : List ConfigStep) : List ConfigStep :=
  match steps.getLast? with
  | none => []
  | some last => List.replicate copies last

/-- The list that a whole path leads to. -/
def listAt (type : String) (steps : List ConfigStep) (element : YangElement) :
    Option YangElement :=
  (resolve steps element).filter fun found => decide (found.elementType = type)

/-- The number of children of the list that a whole path leads to, and 0 when it leads
to none. -/
def numberOfEntries (type : String) (steps : List ConfigStep) (element : YangElement) : Nat :=
  match listAt type steps element with
  | none => 0
  | some list => list.childElements.length

/-- The path and what its last segment finds when it is repeated: no further than the
tree is deep. -/
def walk (steps : List ConfigStep) (element : YangElement) : List ConfigStep :=
  steps ++ again element.size steps

section Follow

variable {step : ConfigStep} {rest : List ConfigStep}

theorem Plain.indexed {type name : String} (plain : (named type name).Plain)
    (position : Nat) : (ConfigStep.indexed type name position).Plain :=
  ⟨plain.type_nonempty, plain.type_dash, plain.type_slash, plain.name_nonempty,
    plain.name_slash, plain.name_bracket⟩

theorem Segments.tail (segments : Segments (step :: rest)) (nonempty : rest ≠ []) :
    Segments rest :=
  ⟨nonempty, fun next member => segments.plain next (List.mem_cons_of_mem step member),
    fun next member => segments.listed next (List.mem_cons_of_mem step member)⟩

theorem again_cons (copies : Nat) (nonempty : rest ≠ []) :
    again copies (step :: rest) = again copies rest := by
  obtain ⟨next, rest, rfl⟩ := List.exists_cons_of_ne_nil nonempty
  rw [again, again, List.getLast?_cons_cons]

/-- What stands in the path behind its first segment: the other segments or, behind the
last one, that segment again. -/
theorem exists_follow (segments : Segments (step :: rest)) (copies : Nat) :
    ∃ follow fewer, Segments follow ∧ copies ≤ fewer ∧
      YangConfig.eraseComponent (path (step :: rest)) (delimiter step rest) = path follow ∧
      (step :: rest) ++ again (copies + 1) (step :: rest) =
        step :: (follow ++ again fewer follow) := by
  by_cases last : rest = []
  · subst last
    exact ⟨[step], copies, segments, le_rfl, rfl, rfl⟩
  · refine ⟨rest, copies + 1, segments.tail last, by omega, eraseComponent_path last, ?_⟩
    rw [again_cons _ last, List.cons_append]

end Follow

end ConfigStep

namespace YangConfig

open ConfigStep

/-- The value that is left when the numbers of children are noted one after the other. -/
def noted (lists : List YangElement) (returnValue : Nat) : Nat :=
  (lists.getLast?.map YangElement.getNumberOfChildElements).getD returnValue

theorem noted_append (first second : List YangElement) (returnValue : Nat) :
    noted (first ++ second) returnValue = noted second (noted first returnValue) := by
  unfold noted
  rw [List.getLast?_append]
  cases second.getLast? with
  | none => simp
  | some last => simp

/-- An outcome of the loop on a row of segments: the number of children of the last
list passed, or an exception. -/
def Notes (outcome : Option Nat) (type : String) (steps : List ConfigStep)
    (element : YangElement) (returnValue : Nat) : Prop :=
  (InReach steps element → outcome = some (noted (passed type steps element) returnValue)) ∧
    (¬ InReach steps element → outcome = none)

section Notes

variable {element found : YangElement} {step : ConfigStep} {rest : List ConfigStep}
  {type : String} {outcome : Option Nat} {returnValue : Nat}

theorem notes_of_absent (absent : element.getElement step.type step.name = none) :
    Notes (some returnValue) type (step :: rest) element returnValue := by
  constructor
  · intro _
    rw [passed, absent]
    rfl
  · intro outside
    rw [InReach, absent] at outside
    exact absurd trivial outside

theorem notes_of_far (there : element.getElement step.type step.name = some found)
    (far : ¬ step.InRange) : Notes none type (step :: rest) element returnValue := by
  refine ⟨fun inside => ?_, fun _ => rfl⟩
  rw [InReach, there] at inside
  exact absurd inside.1 far

/-- What is noted once a segment has found its element. -/
def note (type : String) (step : ConfigStep) (found : YangElement) (returnValue : Nat) : Nat :=
  if step.type = type then found.getNumberOfChildElements else returnValue

theorem noted_here (type : String) (step : ConfigStep) (found : YangElement)
    (returnValue : Nat) :
    noted (if step.type = type then [found] else []) returnValue =
      note type step found returnValue := by
  unfold note
  split_ifs
  · rfl
  · rfl

theorem notes_of_no_entry (there : element.getElement step.type step.name = some found)
    (near : step.InRange) (ends : step.below found = none) :
    Notes (some (note type step found returnValue)) type (step :: rest) element
      returnValue := by
  constructor
  · intro _
    rw [passed, there]
    dsimp only
    rw [ends, noted_append, noted_here]
    rfl
  · intro outside
    rw [InReach, there] at outside
    dsimp only at outside
    rw [ends] at outside
    exact absurd ⟨near, trivial⟩ outside

theorem Notes.cons {next : YangElement}
    (there : element.getElement step.type step.name = some found) (near : step.InRange)
    (enters : step.below found = some next)
    (notes : Notes outcome type rest next (note type step found returnValue)) :
    Notes outcome type (step :: rest) element returnValue := by
  have reach : InReach (step :: rest) element ↔ InReach rest next := by
    rw [InReach, there]
    dsimp only
    rw [enters]
    exact and_iff_right near
  have lists : noted (passed type (step :: rest) element) returnValue =
      noted (passed type rest next) (note type step found returnValue) := by
    rw [passed, there]
    dsimp only
    rw [enters, noted_append, noted_here]
  rw [Notes, reach, lists]
  exact notes

end Notes

/-- The loop on the path of a row of segments, with the last segment searched for over
and over. -/
theorem notes_commonGetNumEntriesLoop (type : String) {rounds copies : Nat}
    {steps : List ConfigStep} {element : YangElement} (returnValue : Nat)
    (segments : Segments steps) (enough : element.size ≤ rounds)
    (deep : element.size ≤ copies) :
    Notes (commonGetNumEntriesLoop type rounds element (path steps) returnValue) type
      (steps ++ again copies steps) element returnValue := by
  induction rounds generalizing steps element copies returnValue with
  | zero =>
      have size := element.size_eq
      omega
  | succ rounds ih =>
      obtain ⟨step, rest, rfl⟩ := List.exists_cons_of_ne_nil segments.nonempty
      obtain ⟨copies, rfl⟩ := exists_round deep
      obtain ⟨follow, fewer, followed, more, erased, walked⟩ := exists_follow segments copies
      rw [walked, commonGetNumEntriesLoop, commonGetNumEntriesRound,
        commonSearch_path (segments.plain step (by simp))]
      dsimp only
      rw [erased]
      cases there : element.getElement step.type step.name with
      | none => exact notes_of_absent there
      | some found =>
          have smaller := YangElement.size_lt_of_mem (YangElement.mem_of_getElement there)
          have listed := segments.listed step (by simp)
          cases step with
          | named own name =>
              have walks := ih (note type (.named own name) found returnValue) followed
                (by omega : found.size ≤ rounds) (by omega : found.size ≤ fewer)
              have noIndex : ¬ ((ConfigStep.named own name).type = "list" ∧
                  (ConfigStep.named own name).isIndexed = true) := by simp [isIndexed]
              dsimp only
              rw [if_neg noIndex]
              exact walks.cons there trivial rfl
          | indexed own name position =>
              obtain rfl : own = "list" := listed rfl
              have indexed : (ConfigStep.indexed "list" name position).type = "list" ∧
                  (ConfigStep.indexed "list" name position).isIndexed = true := ⟨rfl, rfl⟩
              dsimp only
              rw [if_pos indexed, index, stoiAnyBase_repr]
              rcases Nat.lt_or_ge position (2 ^ 31) with near | far
              · rw [if_pos near]
                dsimp only
                rw [unsignedInt_of_lt near]
                cases entry : found.getElementAt "listEntry" position with
                | none => exact notes_of_no_entry there near entry
                | some next =>
                    have smallerNext := YangElement.size_lt_of_mem
                      (YangElement.mem_of_getElementAt entry)
                    have walks := ih (note type (.indexed "list" name position) found returnValue)
                      followed (by omega : next.size ≤ rounds) (by omega : next.size ≤ fewer)
                    exact walks.cons there near entry
              · rw [if_neg (by omega)]
                exact notes_of_far there (by simpa [InRange] using far)

/-- What the two functions return on a path of segments. -/
theorem notes_commonGetNumEntries (config : YangConfig) (type : String)
    {steps : List ConfigStep} (segments : Segments steps) :
    Notes (config.commonGetNumEntries (path steps) type) type (walk steps config.mConfig)
      config.mConfig 0 :=
  notes_commonGetNumEntriesLoop type 0 segments le_rfl le_rfl

end YangConfig

namespace ConfigStep

open YangConfig

section Ends

variable {element list : YangElement} {step : ConfigStep} {steps rest : List ConfigStep}
  {type : String}

theorem passed_append (type : String) (first second : List ConfigStep)
    (element : YangElement) :
    passed type (first ++ second) element =
      passed type first element ++
        ((resolve first element).map (passed type second)).getD [] := by
  induction first generalizing element with
  | nil => rfl
  | cons step first ih =>
      rw [List.cons_append, passed, passed, resolve]
      cases element.getElement step.type step.name with
      | none => rfl
      | some found =>
          dsimp only [Option.bind_some]
          rw [List.append_assoc]
          congr 1
          cases step.below found with
          | none => rfl
          | some next => exact ih next

theorem inReach_append (first second : List ConfigStep) (element : YangElement) :
    InReach (first ++ second) element ↔
      InReach first element ∧ ∀ next, resolve first element = some next → InReach second next := by
  induction first generalizing element with
  | nil =>
      simp [InReach, resolve]
  | cons step first ih =>
      rw [List.cons_append, InReach, InReach, resolve]
      cases element.getElement step.type step.name with
      | none => simp
      | some found =>
          dsimp only [Option.bind_some]
          cases step.below found with
          | none => simp
          | some next =>
              dsimp only [Option.bind_some]
              rw [ih next, and_assoc]

/-- A segment that leads to a list has found it by its type. -/
theorem passed_singleton (there : resolve [step] element = some list)
    (typed : list.elementType = type) (noEntry : type ≠ "listEntry") :
    passed type [step] element = [list] := by
  obtain ⟨found, search, enters⟩ := Option.bind_eq_some_iff.mp there
  obtain ⟨next, below, last⟩ := Option.bind_eq_some_iff.mp enters
  obtain rfl : next = list := Option.some.inj last
  rw [passed, search]
  dsimp only
  rw [below]
  cases step with
  | named own name =>
      obtain rfl : found = next := Option.some.inj below
      have same : own = type := (YangElement.elementType_of_getElement search).symm.trans typed
      simp [ConfigStep.type, same, passed]
  | indexed own name position =>
      have entry : next.elementType = "listEntry" :=
        YangElement.elementType_of_getElementAt below
      exact absurd (typed.symm.trans entry) noEntry

/-- The list that a path leads to is the last that is passed on it. -/
theorem getLast?_passed (nonempty : steps ≠ []) (there : resolve steps element = some list)
    (typed : list.elementType = type) (noEntry : type ≠ "listEntry") :
    (passed type steps element).getLast? = some list := by
  induction steps generalizing element with
  | nil => exact absurd rfl nonempty
  | cons step rest ih =>
      by_cases last : rest = []
      · subst last
        rw [passed_singleton there typed noEntry]
        rfl
      · obtain ⟨found, search, enters⟩ := Option.bind_eq_some_iff.mp there
        obtain ⟨next, below, onward⟩ := Option.bind_eq_some_iff.mp enters
        rw [passed, search]
        dsimp only
        rw [below, List.getLast?_append, ih last onward]
        rfl

end Ends

/-- The list that a whole path leads to, and the lists that its last segment finds in
there when it is repeated. -/
def listsFrom (type : String) (steps : List ConfigStep) (list : YangElement) (copies : Nat) :
    List YangElement :=
  list :: passed type (again copies steps) list

/-- When the count on a path is right: the positions are in range, and either the path
leads to a list and repeating the last segment in there finds no list of another size,
or it leads to none and the last list that is passed, if any, is empty. -/
def CountsRight (type : String) (steps : List ConfigStep) (element : YangElement) : Prop :=
  InReach (walk steps element) element ∧
    match listAt type steps element with
    | some list =>
        ∀ inner ∈ (listsFrom type steps list element.size).getLast?,
          inner.getNumberOfChildElements = list.childElements.length
    | none =>
        ∀ outer ∈ (passed type (walk steps element) element).getLast?,
          outer.getNumberOfChildElements = 0

end ConfigStep

namespace YangConfig

open ConfigStep

theorem noted_eq_iff {lists : List YangElement} {number : Nat} :
    noted lists number = number ↔
      ∀ last ∈ lists.getLast?, last.getNumberOfChildElements = number := by
  unfold noted
  cases lists.getLast? with
  | none => simp
  | some last => simp

theorem noted_cons (list : YangElement) (lists : List YangElement) (first second : Nat) :
    noted (list :: lists) first = noted (list :: lists) second := by
  simp [noted, List.getLast?_cons]

section Counts

variable {element list : YangElement} {steps : List ConfigStep} {type : String}
  {outcome : Option Nat}

theorem resolve_of_listAt (there : listAt type steps element = some list) :
    resolve steps element = some list ∧ list.elementType = type := by
  obtain ⟨resolves, typed⟩ := Option.filter_eq_some_iff.mp there
  exact ⟨resolves, by simpa using typed⟩

/-- On a path to a list the lists that its last segment finds in there decide. -/
theorem noted_walk (segments : Segments steps) (there : listAt type steps element = some list)
    (noEntry : type ≠ "listEntry") (returnValue : Nat) :
    noted (passed type (walk steps element) element) 0 =
      noted (listsFrom type steps list element.size) returnValue := by
  obtain ⟨resolves, typed⟩ := resolve_of_listAt there
  have last := getLast?_passed segments.nonempty resolves typed noEntry
  have here : noted (passed type steps element) 0 = noted [list] 0 := by
    rw [noted, last]
    rfl
  rw [walk, passed_append, resolves, noted_append, here, ← noted_append]
  exact noted_cons _ _ _ _

/-- The count on a path of segments is that of the list that the whole path leads to
exactly when the condition holds. -/
theorem Notes.eq_numberOfEntries_iff (segments : Segments steps) (noEntry : type ≠ "listEntry")
    (notes : Notes outcome type (walk steps element) element 0) :
    outcome = some (numberOfEntries type steps element) ↔ CountsRight type steps element := by
  unfold CountsRight numberOfEntries
  by_cases reach : InReach (walk steps element) element
  · rw [notes.1 reach, Option.some_inj, and_iff_right reach]
    cases there : listAt type steps element with
    | none => exact noted_eq_iff
    | some list =>
        rw [noted_walk segments there noEntry list.childElements.length]
        exact noted_eq_iff
  · rw [notes.2 reach]
    constructor
    · intro same
      cases same
    · intro right
      exact absurd right.1 reach

/-- Under an entry of an outer list that has no list of the wanted name the entries of
the outer list are counted. -/
theorem getNumOfListEntries_of_absent (config : YangConfig) {before : List ConfigStep}
    {parent outer entry : YangElement} {outerName innerName : String} {position : Nat}
    (segments : Segments
      (before ++ [.indexed "list" outerName position, .named "list" innerName]))
    (reach : InReach before config.mConfig)
    (there : resolve before config.mConfig = some parent)
    (list : parent.getElement "list" outerName = some outer) (near : position < 2 ^ 31)
    (here : outer.getElementAt "listEntry" position = some entry)
    (absent : entry.getElement "list" innerName = none) :
    config.getNumOfListEntries
        (path (before ++ [.indexed "list" outerName position, .named "list" innerName])) =
      some outer.getNumberOfChildElements := by
  have notes := notes_commonGetNumEntries config "list" segments
  rw [walk, List.append_assoc] at notes
  have inside : InReach (before ++ ([.indexed "list" outerName position,
      .named "list" innerName] ++ again config.mConfig.size (before ++
        [.indexed "list" outerName position, .named "list" innerName]))) config.mConfig := by
    rw [inReach_append]
    refine ⟨reach, fun next onward => ?_⟩
    obtain rfl : parent = next := Option.some.inj (there.symm.trans onward)
    simp only [List.cons_append, List.nil_append, InReach, ConfigStep.type, ConfigStep.name,
      list, below, here, absent, and_true]
    exact near
  rw [getNumOfListEntries, notes.1 inside, passed_append, there, noted_append]
  simp [passed, ConfigStep.type, ConfigStep.name, list, below, here, absent, noted]

end Counts

end YangConfig

/-! ## The loops over nested lists -/

namespace OranYangCarrierMgr

open ConfigStep

/-- The configuration paths that a loop over the entries of a list runs with. -/
def entryPaths (listPath : String) (numEntries : Nat) : List String :=
  (List.range numEntries).map fun i => listPath ++ "[" ++ i.repr ++ "]"

/-- The loops of `createEndpointTypes`: the configuration path of every endpoint type
that a container is added for, with those of its supported section types. -/
def createEndpointTypes (mConfig : YangConfig) : Option (List (String × List String)) := do
  let numEndpointTypes ← mConfig.getNumOfListEntries
    ("module-o-ran-uplane-conf/container-user-plane-configuration/" ++
      "list-endpoint-types")
  (List.range numEndpointTypes).mapM fun i => do
    let configPath :=
      "module-o-ran-uplane-conf/container-user-plane-configuration/" ++
        "list-endpoint-types[" ++ i.repr ++ "]"
    let numSupSecTypes ← mConfig.getNumOfListEntries
      (configPath ++ "/list-supported-section-types")
    return (configPath, entryPaths (configPath ++ "/list-supported-section-types") numSupSecTypes)

/-- The path of the user plane configuration. -/
def userPlane : List ConfigStep :=
  [.named "module" "o-ran-uplane-conf", .named "container" "user-plane-configuration"]

/-- The path of the endpoint types. -/
def endpointTypes : List ConfigStep :=
  userPlane ++ [ConfigStep.named "list" "endpoint-types"]

def endpointType (i : Nat) : List ConfigStep :=
  userPlane ++ [ConfigStep.indexed "list" "endpoint-types" i]

/-- The path of the section types that an endpoint type supports. -/
def supportedSectionTypes (i : Nat) : List ConfigStep :=
  userPlane ++ [ConfigStep.indexed "list" "endpoint-types" i,
    ConfigStep.named "list" "supported-section-types"]

/-- The loops with one round for every entry that exists. -/
def existingEntries (element : YangElement) : List (String × List String) :=
  (List.range (numberOfEntries "list" endpointTypes element)).map fun i =>
    (path (endpointType i), entryPaths (path (supportedSectionTypes i))
      (numberOfEntries "list" (supportedSectionTypes i) element))

theorem path_endpointTypes :
    "module-o-ran-uplane-conf/container-user-plane-configuration/" ++
        "list-endpoint-types" = path endpointTypes := by
  decide

theorem path_endpointType (i : Nat) :
    "module-o-ran-uplane-conf/container-user-plane-configuration/" ++
        "list-endpoint-types[" ++ i.repr ++ "]" = path (endpointType i) := by
  apply String.toList_injective
  simp [path, userPlane, endpointType, pathChars, chars, suffix, isIndexed, index, ConfigStep.type,
    ConfigStep.name]

theorem path_supportedSectionTypes (i : Nat) :
    path (endpointType i) ++ "/list-supported-section-types" =
      path (supportedSectionTypes i) := by
  apply String.toList_injective
  simp [path, userPlane, endpointType, supportedSectionTypes, pathChars, chars, suffix, isIndexed, index,
    ConfigStep.type, ConfigStep.name]

theorem segments_endpointTypes : Segments endpointTypes := by
  refine ⟨by decide, List.forall_iff_forall_mem.mp ?_, by decide⟩
  refine ⟨?_, ?_, ?_⟩ <;> exact ⟨by decide, by decide, by decide, by decide, by decide, by decide⟩

theorem segments_supportedSectionTypes (i : Nat) : Segments (supportedSectionTypes i) := by
  refine ⟨by simp [supportedSectionTypes, userPlane], List.forall_iff_forall_mem.mp ?_,
    List.forall_iff_forall_mem.mp ?_⟩
  · have before := segments_endpointTypes.plain
    have listed : (ConfigStep.named "list" "endpoint-types").Plain := before _ (by decide)
    refine ⟨before _ (by decide), before _ (by decide), listed.indexed i, ?_⟩
    exact ⟨by decide, by decide, by decide, by decide, by decide, by decide⟩
  · exact ⟨by decide, by decide, fun _ => rfl, by decide⟩

/-- The loops in terms of the segments of their paths. -/
theorem createEndpointTypes_eq (mConfig : YangConfig) :
    createEndpointTypes mConfig =
      (mConfig.getNumOfListEntries (path endpointTypes)).bind fun numEndpointTypes =>
        (List.range numEndpointTypes).mapM fun i =>
          (mConfig.getNumOfListEntries (path (supportedSectionTypes i))).map fun numSupSecTypes =>
            (path (endpointType i), entryPaths (path (supportedSectionTypes i)) numSupSecTypes) := by
  unfold createEndpointTypes
  simp only [path_endpointTypes, path_endpointType, path_supportedSectionTypes,
    Option.map_eq_bind]
  rfl

/-- A loop whose rounds may throw ends with a row of results exactly when its rounds
end with them. -/
theorem mapM_eq_some_iff {α β : Type} {round : α → Option β} {inputs : List α}
    {results : List β} :
    inputs.mapM round = some results ↔ inputs.map round = results.map some := by
  induction inputs generalizing results with
  | nil =>
      cases results with
      | nil => simp
      | cons result results => simp
  | cons input inputs ih =>
      rw [List.mapM_cons, List.map_cons]
      cases first : round input with
      | none =>
          cases results with
          | nil => simp
          | cons result results => simp
      | some value =>
          cases results with
          | nil =>
              cases inputs.mapM round with
              | none => simp
              | some values => simp
          | cons result results =>
              have behind := @ih results
              cases values : inputs.mapM round with
              | none => simp [← behind, values]
              | some values => simp [← behind, values]

theorem entryPaths_inj {listPath : String} {first second : Nat} :
    entryPaths listPath first = entryPaths listPath second ↔ first = second := by
  constructor
  · intro same
    have lengths := congrArg List.length same
    simpa [entryPaths] using lengths
  · rintro rfl
    rfl

/-- The loops run once for every entry that exists exactly when all their counts are
right. -/
theorem createEndpointTypes_iff (mConfig : YangConfig) :
    createEndpointTypes mConfig = some (existingEntries mConfig.mConfig) ↔
      mConfig.getNumOfListEntries (path endpointTypes) =
          some (numberOfEntries "list" endpointTypes mConfig.mConfig) ∧
        ∀ i < numberOfEntries "list" endpointTypes mConfig.mConfig,
          mConfig.getNumOfListEntries (path (supportedSectionTypes i)) =
            some (numberOfEntries "list" (supportedSectionTypes i) mConfig.mConfig) := by
  rw [createEndpointTypes_eq]
  cases count : mConfig.getNumOfListEntries (path endpointTypes) with
  | none => simp
  | some numEndpointTypes =>
      rw [Option.bind_some, mapM_eq_some_iff, Option.some_inj]
      constructor
      · intro same
        have lengths := congrArg List.length same
        obtain rfl : numEndpointTypes = numberOfEntries "list" endpointTypes mConfig.mConfig := by
          simpa [existingEntries] using lengths
        refine ⟨rfl, fun i inside => ?_⟩
        rw [existingEntries, List.map_map] at same
        have here := List.map_inj_left.mp same i (List.mem_range.mpr inside)
        obtain ⟨number, counted, pair⟩ := Option.map_eq_some_iff.mp here
        rw [counted, entryPaths_inj.mp (Prod.mk.inj pair).2]
      · rintro ⟨rfl, inner⟩
        rw [existingEntries, List.map_map]
        refine List.map_congr_left fun i member => ?_
        rw [inner i (List.mem_range.mp member)]
        rfl

end OranYangCarrierMgr

open ConfigStep YangConfig OranYangCarrierMgr

/-- Exactly when the counts on a path of segments are those of the list that the whole
path leads to, and when the loops run once for every entry that exists. -/
theorem numOfEntries_iff (config : YangConfig) {steps : List ConfigStep}
    (segments : Segments steps) :
    (config.getNumOfListEntries (path steps) =
        some (numberOfEntries "list" steps config.mConfig) ↔
          CountsRight "list" steps config.mConfig) ∧
      (config.getNumOfListLeafEntries (path steps) =
        some (numberOfEntries "listLeaf" steps config.mConfig) ↔
          CountsRight "listLeaf" steps config.mConfig) ∧
      (createEndpointTypes config = some (existingEntries config.mConfig) ↔
        CountsRight "list" endpointTypes config.mConfig ∧
          ∀ i < numberOfEntries "list" endpointTypes config.mConfig,
            CountsRight "list" (supportedSectionTypes i) config.mConfig) := by
  have counts : ∀ (type : String) {steps : List ConfigStep}, Segments steps →
      type ≠ "listEntry" → (config.commonGetNumEntries (path steps) type =
        some (numberOfEntries type steps config.mConfig) ↔
          CountsRight type steps config.mConfig) := by
    intro type steps segments noEntry
    exact (notes_commonGetNumEntries config type segments).eq_numberOfEntries_iff segments noEntry
  have outer := counts "list" segments_endpointTypes (by decide)
  have inner := fun i => counts "list" (segments_supportedSectionTypes i) (by decide)
  have loops := (createEndpointTypes_iff config).trans
    (and_congr outer (forall₂_congr fun i _ => inner i))
  exact ⟨counts "list" segments (by decide), counts "listLeaf" segments (by decide), loops⟩

/-- A list with one endpoint type, which supports no section type. -/
def oneEndpointType : YangElement :=
  ⟨"list", "endpoint-types", "", "", "", [⟨"listEntry", "", "", "", "", []⟩]⟩

def userPlaneConfiguration : YangElement :=
  ⟨"container", "user-plane-configuration", "", "", "", [oneEndpointType]⟩

/-- A configuration with that list. -/
def uplaneConfig : YangConfig :=
  { YangConfig.constructed with
    mConfig := ⟨"config", "", "", "", "",
      [⟨"module", "o-ran-uplane-conf", "", "", "", [userPlaneConfiguration]⟩]⟩ }

theorem numOfEntries_iff_endpointTypes :
    Segments endpointTypes ∧
      (uplaneConfig.getNumOfListEntries (path endpointTypes) = some 1 ↔
        CountsRight "list" endpointTypes uplaneConfig.mConfig) :=
  ⟨segments_endpointTypes, (numOfEntries_iff uplaneConfig segments_endpointTypes).1⟩

/-- The entries of the outer list are counted as section types of the endpoint type. -/
theorem absent_list_is_counted :
    ¬ ∀ (config : YangConfig) (steps : List ConfigStep), Segments steps →
      config.getNumOfListEntries (path steps) =
        some (numberOfEntries "list" steps config.mConfig) := by
  intro claimed
  have segments : Segments (userPlane ++ [ConfigStep.indexed "list" "endpoint-types" 0,
      ConfigStep.named "list" "supported-section-types"]) := segments_supportedSectionTypes 0
  have outer := getNumOfListEntries_of_absent uplaneConfig segments ⟨trivial, trivial, trivial⟩
    rfl rfl (by decide) rfl rfl
  have right := (claimed uplaneConfig _ segments).symm.trans outer
  exact absurd right (by decide)

end OpenMplane
