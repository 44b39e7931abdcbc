import OpenMplane.ConfigPaths
import OpenMplane.FileConfigRoundTrip
import OpenMplane.GuardedRuns

/-!
# The list of call home clients

`IpPortMgr` keeps the addresses of clients with their ports in two configurations: the list in
use and the list that was saved.  `save` takes over the list in use as the saved one before it
writes the file, so that they differ when the file cannot be opened, and `restore` brings back
what was never written.
-/

namespace OpenMplane

open FileConfigBase GuardedRuns

structure IpPortMgr where
  mError : String
  mCurrent : FileConfigBase
  mSaved : FileConfigBase

namespace IpPortMgr

/-- The constructor, with the file when it exists. -/
def construct (filePath : String) (file : Option (List Char)) : IpPortMgr :=
  let mSaved := FileConfigBase.construct filePath ∅
  let mSaved := if file.isSome then (mSaved.read file).2 else mSaved
  ⟨"", mSaved, mSaved⟩

/-- An entry of `list`; nothing when `stoi` throws. -/
def portOf (pair : String × String) : Option (String × Nat) :=
  match stoiAnyBase pair.2 with
  | .error _ => none
  | .ok port => some (pair.1, unsignedInt port)

def list (mgr : IpPortMgr) : Option (List (String × Nat)) := mgr.mCurrent.values.mapM portOf

def addEntry (mgr : IpPortMgr) (ip : String) (port : Nat) : IpPortMgr :=
  { mgr with mCurrent := mgr.mCurrent.setValue ip (Nat.repr port) }

def clear (mgr : IpPortMgr) : IpPortMgr :=
  { mgr with mCurrent := { mgr.mCurrent with mGlobals := ∅, mSections := ∅ } }

def setList (mgr : IpPortMgr) (list : List (String × Nat)) : IpPortMgr :=
  list.foldl (fun mgr pair => mgr.addEntry pair.1 pair.2) mgr.clear

def setError (mgr : IpPortMgr) (error : String) : IpPortMgr :=
  { mgr with mError := (if mgr.mError = "" then "" else mgr.mError ++ "\n") ++ error }

/-- `save`, with whether the file can be opened: what it returns, and the file afterwards. -/
def save (mgr : IpPortMgr) (isOpen : Bool) (file : Option (List Char)) :
    Bool × IpPortMgr × Option (List Char) :=
  let (saved, mSaved, file) := mgr.mCurrent.save isOpen file
  if saved then (true, { mgr with mSaved }, file)
  else
    (false, { mgr with mSaved := { mSaved with mError := "" } }.setError mSaved.mError, file)

def restore (mgr : IpPortMgr) : IpPortMgr := { mgr with mCurrent := mgr.mSaved }

end IpPortMgr

/-- An address that a client may have. -/
structure Address where
  text : String
  nonempty : text ≠ ""
  plain : ∀ letter ∈ text.toList, letter ∉ ['/', '=', ' ', '\t', '\n']
  unmarked : ∀ letter, text.toList.head? = some letter → letter ≠ '#' ∧ letter ≠ '['

structure Port where
  number : Nat
  positive : 1 ≤ number
  small : number ≤ 65535

/-- One port for each of some addresses. -/
@[ext]
structure PortList where
  entries : StdMap Nat
  addresses : ∀ ip ∈ entries, ∃ address : Address, address.text = ip
  ports : ∀ (ip : String) (port : Nat), entries[ip]? = some port → port ≤ 65535

/-- A call, and for `save` whether the file can be opened. -/
inductive PortCall
  | addEntry (ip : Address) (port : Port)
  | setList (list : List (Address × Port))
  | clear
  | save (isOpen : Bool)
  | restore

namespace PortList

def empty : PortList where
  entries := ∅
  addresses ip member := absurd member Std.ExtTreeMap.not_mem_empty
  ports ip port held := by simp at held

/-- The port that is set last stays. -/
def add (list : PortList) (ip : Address) (port : Port) : PortList where
  entries := list.entries.insert ip.text port.number
  addresses other member := by
    rcases Std.ExtTreeMap.mem_insert.mp member with same | member
    · exact ⟨ip, Std.LawfulEqCmp.eq_of_compare same⟩
    · exact list.addresses other member
  ports other number held := by
    rw [Std.ExtTreeMap.getElem?_insert] at held
    split at held
    · obtain rfl := Option.some.inj held
      exact port.small
    · exact list.ports other number held

def ofList (pairs : List (Address × Port)) : PortList :=
  pairs.foldl (fun list pair => list.add pair.1 pair.2) empty

end PortList

/-- The manager with its file, and the lists that it should have: the one in use, the one that
the last `save` was to write, and the one of the last `save` that returned true. -/
structure PortState where
  mgr : IpPortMgr
  file : Option (List Char)
  current : PortList
  tried : PortList
  saved : PortList

namespace PortState

def step (state : PortState) : PortCall → PortState
  | .addEntry ip port =>
      { state with
        mgr := state.mgr.addEntry ip.text port.number
        current := state.current.add ip port }
  | .setList list =>
      { state with
        mgr := state.mgr.setList (list.map fun pair => (pair.1.text, pair.2.number))
        current := PortList.ofList list }
  | .clear => { state with mgr := state.mgr.clear, current := PortList.empty }
  | .save isOpen =>
      let (saved, mgr, file) := state.mgr.save isOpen state.file
      { state with
        mgr
        file
        tried := state.current
        saved := if saved then state.current else state.saved }
  | .restore => { state with mgr := state.mgr.restore, current := state.saved }

/-- The file that an earlier manager wrote when it saved a list. -/
def fileOf (filePath : String) (earlier : List (Address × Port)) : Option (List Char) :=
  (((IpPortMgr.construct filePath none).setList
    (earlier.map fun pair => (pair.1.text, pair.2.number))).save true none).2.2

/-- The start, with no file or one that was saved earlier. -/
def start (filePath : String) (earlier : Option (List (Address × Port))) : PortState :=
  let file := earlier.bind (fileOf filePath)
  let list := (earlier.map PortList.ofList).getD PortList.empty
  ⟨IpPortMgr.construct filePath file, file, list, list, list⟩

/-- What is expected of a state: the list in use, and the list that a new manager reads. -/
structure Good (filePath : String) (state : PortState) : Prop where
  list : state.mgr.list = some state.current.entries.toList
  reread : (IpPortMgr.construct filePath state.file).list = some state.saved.entries.toList

/-- A list is brought back only when the last one that was to be written is that of the last
`save` that returned true. -/
def Meets (state : PortState) (call : PortCall) : Prop :=
  call = .restore → state.tried.entries = state.saved.entries

end PortState

namespace Address

variable (ip : Address)

theorem noSlash : '/' ∉ ip.text.toList := fun member => ip.plain '/' member (by decide)

theorem notBlank {letter : Char} (member : letter ∈ ip.text.toList) : letter ∉ WHITESPACE := by
  intro blank
  refine ip.plain letter member ?_
  rcases List.mem_cons.mp blank with rfl | tab
  · decide
  · obtain rfl := List.mem_singleton.mp tab
    decide

theorem plainName : PlainName ip.text where
  oneLine member := ip.plain '\n' member (by decide)
  startsPlain _ first := ip.notBlank (List.mem_of_mem_head? first)
  endsPlain _ last := ip.notBlank (List.mem_of_getLast? last)
  nonempty := ip.nonempty
  noAssignment member := ip.plain '=' member (by decide)
  noMark := ip.unmarked

theorem setValue (config : FileConfigBase) (value : String) : config.setValue ip.text value =
    { config with mGlobals := config.mGlobals.insert ip.text value } := by
  have noPath : nameIsPath ip.text = none := by
    rw [nameIsPath, ListCut.cutFirst_eq_none.mpr ip.noSlash]
    rfl
  rw [FileConfigBase.setValue, noPath]

end Address

theorem plainText_repr (number : Nat) : PlainText number.repr := by
  have digits := (decimal_repr (Nat.lt_succ_self number)).digits
  have notBlank : ∀ letter ∈ number.repr.toList, letter ∉ WHITESPACE := by
    intro letter member blank
    have digit := digits letter member
    rcases List.mem_cons.mp blank with rfl | tab
    · exact absurd digit (by decide)
    · obtain rfl := List.mem_singleton.mp tab
      exact absurd digit (by decide)
  refine ⟨fun member => absurd (digits _ member) (by decide), fun letter first => ?_,
    fun letter last => ?_⟩
  · exact notBlank letter (List.mem_of_mem_head? first)
  · exact notBlank letter (List.mem_of_getLast? last)

namespace PortList

/-- The entries as they stand in a configuration. -/
def texts (list : PortList) : StdMap String := list.entries.map fun _ port => Nat.repr port

theorem texts_add (list : PortList) (ip : Address) (port : Port) :
    (list.add ip port).texts = list.texts.insert ip.text (Nat.repr port.number) := by
  refine Std.ExtTreeMap.ext_getElem? fun other => ?_
  rw [texts, texts, add, Std.ExtTreeMap.getElem?_map, Std.ExtTreeMap.getElem?_insert,
    Std.ExtTreeMap.getElem?_insert, Std.ExtTreeMap.getElem?_map]
  split
  · rfl
  · rfl

/-- The list as a configuration whose names and values can stand in a file. -/
def plainConfig (list : PortList) (path : String) : PlainConfig where
  config := ⟨path, false, "", list.texts, ∅, ∅⟩
  globals name value held := by
    rw [texts, Std.ExtTreeMap.getElem?_map] at held
    obtain ⟨port, there, rfl⟩ := Option.map_eq_some_iff.mp held
    have member : name ∈ list.entries := Std.ExtTreeMap.isSome_getElem?_iff_mem.mp (by rw [there]; rfl)
    obtain ⟨ip, rfl⟩ := list.addresses name member
    exact ⟨ip.plainName, plainText_repr port⟩
  sections sect entries held := by simp at held

end PortList

/-- A configuration that holds a list and nothing else. -/
structure HasList (config : FileConfigBase) (list : PortList) : Prop where
  globals : config.mGlobals = list.texts
  sections : config.mSections = ∅
  defaults : config.mDefaults = ∅

section HasList

variable {config : FileConfigBase} {list : PortList}

theorem HasList.setValue (holds : HasList config list) (ip : Address) (port : Port) :
    HasList (config.setValue ip.text (Nat.repr port.number)) (list.add ip port) := by
  rw [ip.setValue]
  exact ⟨by rw [list.texts_add, ← holds.globals], holds.sections, holds.defaults⟩

theorem holds_clear (defaults : config.mDefaults = ∅) :
    HasList { config with mGlobals := ∅, mSections := ∅ } PortList.empty :=
  ⟨rfl, rfl, defaults⟩

theorem HasList.mapM_values (holds : HasList config list) :
    config.values.mapM IpPortMgr.portOf = some list.entries.toList := by
  have values : config.values =
      list.entries.toList.map fun entry => (entry.1, Nat.repr entry.2) := by
    rw [FileConfigBase.values, holds.globals, holds.sections, PortList.texts,
      Std.ExtTreeMap.toList_map, show (∅ : StdMap (StdMap String)).toList = [] from rfl,
      List.flatMap_nil, List.append_nil]
  have ports : ∀ entry ∈ list.entries.toList,
      IpPortMgr.portOf (entry.1, Nat.repr entry.2) = some entry := by
    intro entry member
    have small := list.ports entry.1 entry.2
      (Std.ExtTreeMap.mem_toList_iff_getElem?_eq_some.mp member)
    have fits : entry.2 < 2 ^ 31 := by omega
    rw [IpPortMgr.portOf, stoiAnyBase_repr, if_pos fits]
    dsimp only
    rw [unsignedInt_of_lt fits]
  rw [values]
  generalize list.entries.toList = entries at ports
  induction entries with
  | nil => rfl
  | cons entry entries ih =>
      have later := ih fun other member => ports other (List.mem_cons_of_mem entry member)
      rw [List.map_cons, List.mapM_cons, ports entry List.mem_cons_self, later]
      rfl

theorem HasList.fileText (holds : HasList config list) (path : String) :
    config.fileText = (list.plainConfig path).config.fileText := by
  rw [FileConfigBase.fileText, FileConfigBase.fileText, holds.globals, holds.sections]
  rfl

/-- A new manager reads the list that was written. -/
theorem holds_construct_fileText (path : String) :
    HasList (IpPortMgr.construct path (some (list.plainConfig path).config.fileText)).mCurrent
      list := by
  have back := savedAndRead_of_recognised (list.plainConfig path)
    fun sect member => absurd member Std.ExtTreeMap.not_mem_empty
  have reads : (IpPortMgr.construct path (some (list.plainConfig path).config.fileText)).mCurrent =
      (savedAndRead (list.plainConfig path).config).2 := rfl
  rw [reads, back]
  exact ⟨rfl, rfl, rfl⟩

end HasList

/-- The file has the list, or there is none and the list is empty. -/
def Written (path : String) (file : Option (List Char)) (list : PortList) : Prop :=
  (file = none ∧ list = PortList.empty) ∨ file = some (list.plainConfig path).config.fileText

theorem Written.holds {path : String} {file : Option (List Char)} {list : PortList}
    (written : Written path file list) : HasList (IpPortMgr.construct path file).mCurrent list := by
  rcases written with ⟨rfl, rfl⟩ | rfl
  · exact ⟨rfl, rfl, rfl⟩
  · exact holds_construct_fileText path

namespace PortState

/-- The two configurations and the file hold the lists. -/
structure Invariant (path : String) (state : PortState) : Prop where
  current : HasList state.mgr.mCurrent state.current
  tried : HasList state.mgr.mSaved state.tried
  written : Written path state.file state.saved

variable {path : String} {state : PortState} {call : PortCall}

theorem holds_setList {mgr : IpPortMgr} (defaults : mgr.mCurrent.mDefaults = ∅)
    (pairs : List (Address × Port)) :
    HasList (mgr.setList (pairs.map fun pair => (pair.1.text, pair.2.number))).mCurrent
        (PortList.ofList pairs) ∧
      (mgr.setList (pairs.map fun pair => (pair.1.text, pair.2.number))).mSaved = mgr.mSaved := by
  have adds : ∀ (cleared : IpPortMgr) (list : PortList), HasList cleared.mCurrent list →
      HasList ((pairs.map fun pair => (pair.1.text, pair.2.number)).foldl
          (fun mgr pair => mgr.addEntry pair.1 pair.2) cleared).mCurrent
        (pairs.foldl (fun list pair => list.add pair.1 pair.2) list) ∧
      ((pairs.map fun pair => (pair.1.text, pair.2.number)).foldl
          (fun mgr pair => mgr.addEntry pair.1 pair.2) cleared).mSaved = cleared.mSaved := by
    induction pairs with
    | nil => exact fun cleared list holds => ⟨holds, rfl⟩
    | cons pair pairs ih =>
        intro cleared list holds
        exact ih (cleared.addEntry pair.1.text pair.2.number) _ (holds.setValue pair.1 pair.2)
  exact adds mgr.clear PortList.empty (holds_clear defaults)

theorem Invariant.step (invariant : Invariant path state) (meets : Meets state call) :
    Invariant path (state.step call) := by
  obtain ⟨current, tried, written⟩ := invariant
  cases call with
  | addEntry ip port => exact ⟨current.setValue ip port, tried, written⟩
  | setList list =>
      obtain ⟨holds, same⟩ := holds_setList current.defaults list
      exact ⟨holds, same ▸ tried, written⟩
  | clear => exact ⟨holds_clear current.defaults, tried, written⟩
  | save isOpen =>
      cases isOpen with
      | true => exact ⟨current, current, Or.inr (congrArg some (current.fileText path))⟩
      | false =>
          have kept : HasList (state.step (.save false)).mgr.mSaved state.current :=
            ⟨current.globals, current.sections, current.defaults⟩
          exact ⟨current, kept, written⟩
  | restore =>
      have same : state.tried = state.saved := PortList.ext (meets rfl)
      have brought : HasList state.mgr.mSaved state.saved := same ▸ tried
      exact ⟨brought, tried, written⟩

theorem Invariant.good (invariant : Invariant path state) : Good path state :=
  ⟨invariant.current.mapM_values, invariant.written.holds.mapM_values⟩

/-- A call goes as it should exactly when it meets the condition. -/
theorem good_iff_meets (invariant : Invariant path state) :
    Good path (state.step call) ↔ Meets state call := by
  constructor
  · rintro good rfl
    have brought := good.list
    have held : (state.step .restore).mgr.list = some state.tried.entries.toList :=
      invariant.tried.mapM_values
    rw [held] at brought
    exact Std.ExtTreeMap.toList_inj.mp (Option.some.inj brought)
  · exact fun meets => (invariant.step meets).good

theorem invariant_start (path : String) (earlier : Option (List (Address × Port))) :
    Invariant path (start path earlier) := by
  cases earlier with
  | none =>
      have empty : HasList (IpPortMgr.construct path none).mCurrent PortList.empty := ⟨rfl, rfl, rfl⟩
      exact ⟨empty, empty, Or.inl ⟨rfl, rfl⟩⟩
  | some pairs =>
      have first : (IpPortMgr.construct path none).mCurrent.mDefaults = ∅ := rfl
      have file : (start path (some pairs)).file =
          some ((PortList.ofList pairs).plainConfig path).config.fileText :=
        congrArg some ((holds_setList first pairs).1.fileText path)
      have read := @holds_construct_fileText (PortList.ofList pairs) path
      rw [← file] at read
      exact ⟨read, read, Or.inr file⟩

end PortState

open PortState in
/-- The lists are as they should be in every state of a run exactly when a list is brought back
only while the last one that was to be written is that of the last `save` that returned true. -/
theorem lists_iff (path : String) (earlier : Option (List (Address × Port)))
    (calls : List PortCall) :
    (∀ reached, reached <+: calls → Good path (reached.foldl step (start path earlier))) ↔
      Guarded Meets step (start path earlier) calls := by
  rw [← guarded_next_iff (invariant_start path earlier).good]
  exact guarded_iff_of_invariant
    (fun state call (invariant : Invariant path state) => @good_iff_meets path state call invariant)
    (fun _ _ invariant good => invariant.step ((good_iff_meets invariant).mp good))
    (invariant_start path earlier) calls

/-- An address and a port. -/
def oneAddress : Address where
  text := "::1"
  nonempty := by decide
  plain letter member := by
    have shown : letter ∈ [':', ':', '1'] := member
    rcases List.mem_cons.mp shown with rfl | shown
    · decide
    · rcases List.mem_cons.mp shown with rfl | shown
      · decide
      · obtain rfl := List.mem_singleton.mp shown
        decide
  unmarked letter first := by
    obtain rfl : ':' = letter := Option.some.inj first
    decide

def onePort : Port := ⟨4334, by decide, by decide⟩

open PortState in
/-- A list that could not be saved is brought back. -/
theorem unsaved_list_is_restored : ¬ ∀ (path : String) (earlier : Option (List (Address × Port)))
    (calls : List PortCall), Good path (calls.foldl step (start path earlier)) := by
  intro always
  have added := (invariant_start "clients" none).step
    (nofun : Meets _ (.addEntry oneAddress onePort))
  have tried := added.step (nofun : Meets _ (.save false))
  have good := always "clients" none [.addEntry oneAddress onePort, .save false, .restore]
  have same := (@good_iff_meets _ _ .restore tried).mp good rfl
  have member : oneAddress.text ∈ (∅ : StdMap Nat) := by
    have inserted : oneAddress.text ∈ (∅ : StdMap Nat).insert oneAddress.text onePort.number :=
      Std.ExtTreeMap.mem_insert_self
    rw [show (∅ : StdMap Nat).insert oneAddress.text onePort.number = ∅ from same] at inserted
    exact inserted
  exact absurd member Std.ExtTreeMap.not_mem_empty

end OpenMplane
