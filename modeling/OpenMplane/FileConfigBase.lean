import OpenMplane.MacText
import OpenMplane.OrderedEntries

/-!
# Configuration files

The model of `FileConfigBase`: variables with their values, global ones and ones in
sections, that are written to a file as lines `variable = value` with a line `[section]`
before those of a section.  The library calls that make the directory and open the file
are outside: whether the file could be opened, and its text, are arguments.
-/

namespace OpenMplane

open ListCut

/-- `trim` of `stringfunc.hpp` with a set of characters to be cut off at both ends. -/
def trimOf (t source : List Char) : List Char :=
  (source.reverse.dropWhile (· ∈ t)).reverse.dropWhile (· ∈ t)

def WHITESPACE : List Char := [' ', '\t']

structure FileConfigBase where
  mPath : String
  mValid : Bool
  mError : String
  mGlobals : StdMap String
  mSections : StdMap (StdMap String)
  mDefaults : StdMap String

namespace FileConfigBase

def setError (config : FileConfigBase) (error : String) : FileConfigBase :=
  { config with
    mError := if config.mError = "" then error else config.mError ++ "\n" ++ error }

/-- `nameIsPath`: the section and the variable of a name with a slash. -/
def nameIsPath (varname : String) : Option (String × String) :=
  (cutFirst '/' varname.toList).map fun cut => (String.ofList cut.1, String.ofList cut.2)

def toPath (sect varname : String) : String := sect ++ "/" ++ varname

/-- `_setValue` with a section, which is made when it is not there. -/
def setValueIn (config : FileConfigBase) (sect varname value : String) : FileConfigBase :=
  { config with
    mSections := config.mSections.insert sect
      (((config.mSections[sect]?).getD ∅).insert varname value) }

/-- `_setValue` with a name alone. -/
def setValue (config : FileConfigBase) (varname value : String) : FileConfigBase :=
  match nameIsPath varname with
  | some (sect, sectionVarname) => config.setValueIn sect sectionVarname value
  | none => { config with mGlobals := config.mGlobals.insert varname value }

def applyDefaults (config : FileConfigBase) : FileConfigBase :=
  config.mDefaults.toList.foldl
    (fun config entry => { config.setValue entry.1 entry.2 with mValid := true })
    { config with mGlobals := ∅, mSections := ∅ }

def setPath (config : FileConfigBase) (path : String) : FileConfigBase :=
  { config with mValid := false, mPath := path, mError := "" }.applyDefaults

/-- The constructor with a path. -/
def construct (path : String) (defaults : StdMap String) : FileConfigBase :=
  (FileConfigBase.mk "" false "" ∅ ∅ defaults).applyDefaults.setPath path

theorem length_lt_of_nameIsPath {varname sect sectionVarname : String}
    (split : nameIsPath varname = some (sect, sectionVarname)) :
    sectionVarname.toList.length < varname.toList.length := by
  obtain ⟨cut, found, same⟩ := Option.map_eq_some_iff.mp split
  obtain ⟨whole, -⟩ := cutFirst_eq_some.mp (show _ = some (cut.1, cut.2) from found)
  obtain ⟨rfl, rfl⟩ := Prod.mk.inj same
  rw [whole, String.toList_ofList, List.length_append, List.length_cons]
  omega

mutual

/-- `find` with a name alone. -/
def find (config : FileConfigBase) (varname : String) : Option String :=
  match _ : nameIsPath varname with
  | some (sect, sectionVarname) => config.findIn sect sectionVarname
  | none => config.mGlobals[varname]?
termination_by 2 * varname.toList.length
decreasing_by
  have shorter := length_lt_of_nameIsPath ‹_›
  omega

/-- `find` with a section: a variable that is not in it may be a global one. -/
def findIn (config : FileConfigBase) (sect varname : String) : Option String :=
  match config.mSections[sect]? with
  | none => none
  | some entries =>
      match entries[varname]? with
      | some value => some value
      | none => config.find varname
termination_by 2 * varname.toList.length + 1

end

def value (config : FileConfigBase) (varname : String) : String :=
  (config.find varname).getD ""

def valueIn (config : FileConfigBase) (sect varname : String) : String :=
  (config.findIn sect varname).getD ""

def isVariable (config : FileConfigBase) (varname : String) : Bool :=
  (config.find varname).isSome

/-- `isVariable` with a section. -/
def isVariableIn (config : FileConfigBase) (sect varname : String) : Bool :=
  (config.findIn sect varname).isSome

def modifyValue (config : FileConfigBase) (varname value : String) : Bool × FileConfigBase :=
  if config.isVariable varname then (true, config.setValue varname value) else (false, config)

/-- `_modifyValue` with a section. -/
def modifyValueIn (config : FileConfigBase) (sect varname value : String) :
    Bool × FileConfigBase :=
  if config.isVariableIn sect varname then (true, config.setValueIn sect varname value)
  else (false, config)

def values (config : FileConfigBase) : List (String × String) :=
  config.mGlobals.toList ++ config.mSections.toList.flatMap fun sect =>
    sect.2.toList.map fun entry => (toPath sect.1 entry.1, entry.2)

def sections (config : FileConfigBase) : List String := config.mSections.keys

def isEqual (config rhs : FileConfigBase) : Bool :=
  if config.values ≠ rhs.values then false
  else if config.sections.length ≠ rhs.sections.length then false
  else true

section File

/-- The line of a variable. -/
def entryLine (entry : String × String) : List Char :=
  entry.1.toList ++ [' ', '=', ' '] ++ entry.2.toList

/-- The lines of a section: an empty one, its name, its variables. -/
def sectionLines (sect : String × StdMap String) : List (List Char) :=
  [] :: ('[' :: sect.1.toList ++ [']']) :: sect.2.toList.map entryLine

/-- What `_save` writes. -/
def fileText (config : FileConfigBase) : List Char :=
  (config.mGlobals.toList.map entryLine ++ config.mSections.toList.flatMap sectionLines).flatMap
    fun line => line ++ ['\n']

/-- `_save`: whether it succeeds, and the file afterwards. -/
def save (config : FileConfigBase) (isOpen : Bool) (file : Option (List Char)) :
    Bool × FileConfigBase × Option (List Char) :=
  if isOpen then (true, config, some config.fileText)
  else (false, config.setError ("Unable to write to " ++ config.mPath), file)

/-- What the reader goes on with: the configuration so far and the section that it stores
variables to, none for the global ones. -/
structure Reading where
  config : FileConfigBase
  store : Option String

/-- `(*storep)[var] = value`. -/
def Reading.put (reading : Reading) (var value : String) : Reading :=
  match reading.store with
  | none => { reading with
      config.mGlobals := reading.config.mGlobals.insert var value }
  | some sect => { reading with config := reading.config.setValueIn sect var value }

/-- The section line `[sect]`. -/
def Reading.enter (reading : Reading) (sect : String) : Reading :=
  if toUpper sect.toList = "GLOBAL".toList ∨ sect = "" then { reading with store := none }
  else if sect ∈ reading.config.mSections then { reading with store := some sect }
  else
    { reading with
      config.mSections := reading.config.mSections.insert sect ∅
      store := some sect }

def readLine (reading : Reading) (line : List Char) : Reading :=
  let line := trimOf WHITESPACE line
  if line = [] then reading
  else if line.head? = some '#' then reading
  else if line.length > 3 ∧ line.head? = some '[' ∧ line.getLast? = some ']' then
    reading.enter (String.ofList ((line.drop 1).take (line.length - 2)))
  else match cutFirst '=' line with
    | none => reading
    | some (var, value) =>
        reading.put (String.ofList (trimOf WHITESPACE var))
          (String.ofList (trimOf WHITESPACE value))

/-- `_read`, with the text of the file when it can be opened. -/
def read (config : FileConfigBase) (file : Option (List Char)) : Bool × FileConfigBase :=
  match file with
  | none => (false, config.setError "Unable to read control file")
  | some text =>
      (true, { ((pieces '\n' text).foldl readLine ⟨config, none⟩).config with mValid := true })

end File

section Clean

/-- A `for` over a map whose body changes no more of the map than the entry it is at: the
entries, the map in the state, and the body.  An iterator cannot be moved on from an entry
that is no longer in the map. -/
def forEntries {σ β : Type} (map : σ → StdMap β) (body : σ → String × β → σ) :
    List (String × β) → σ → Option σ
  | [], state => some state
  | entry :: entries, state =>
      let state := body state entry
      if entry.1 ∈ map state then forEntries map body entries state else none

/-- One global variable in `clean`. -/
def cleanGlobal (config : FileConfigBase) (entry : String × String) : FileConfigBase :=
  if entry.1 ∈ config.mDefaults then config
  else { config with mGlobals := config.mGlobals.erase entry.1 }

/-- One variable of a section in `clean`. -/
def cleanEntry (sect : String) (config : FileConfigBase) (entry : String × String) :
    FileConfigBase :=
  if toPath sect entry.1 ∈ config.mDefaults then config
  else
    { config with
      mSections := config.mSections.insert sect
        (((config.mSections[sect]?).getD ∅).erase entry.1) }

/-- One section in `clean`: the loop over its variables goes through a copy. -/
def cleanSection (config : FileConfigBase) (sect : String × StdMap String) : FileConfigBase :=
  let config := sect.2.toList.foldl (cleanEntry sect.1) config
  if ((config.mSections[sect.1]?).getD ∅).isEmpty then
    { config with mSections := config.mSections.erase sect.1 }
  else config

/-- `clean`; none where an iterator is used that has no meaning. -/
def clean (config : FileConfigBase) : Option (Bool × FileConfigBase) :=
  if config.mDefaults.isEmpty then some (false, config)
  else
    (forEntries mGlobals cleanGlobal config.mGlobals.toList config).bind fun config =>
      (forEntries mSections cleanSection config.mSections.toList config).map (true, ·)

end Clean

end FileConfigBase

end OpenMplane
