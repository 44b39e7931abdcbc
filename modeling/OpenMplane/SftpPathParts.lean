import OpenMplane.ReplaceStrs
import OpenMplane.StdString

/-!
# The parts of a remote path

The model of `SftpPath`, which takes `sftp://user@host:port/path` apart.  Each separator is
looked for on its own, and the parts are cut out before it is known in which order the
separators stand; the user, the host and the path are checked then, and the port is not.
-/

namespace OpenMplane

open ListCut StringFunc

/-- A valid `sftp://<username>@<host>[:port]/path`, as its callers read it. -/
structure SftpPath where
  mUser : String
  mHost : String
  mPath : String
  deriving DecidableEq, Repr

namespace SftpPath

def pathError : String :=
  "Invalid remote file path. Expected 'sftp://<username>@<host>[:port]/path'"

def hasAny (letters : List Char) (text : List Char) : Bool :=
  text.any (letters.contains ·)

/-- The members of a `SftpPath`, also of one that is not valid. -/
structure Members where
  mValid : Bool
  mUser : List Char
  mHost : List Char
  mPath : List Char
  mPort : UInt32
  mError : String
  deriving DecidableEq

/-- `std::size_t` subtraction. -/
def sizeSub (size other : Nat) : Nat :=
  if other ≤ size then size - other else 2 ^ 64 - (other - size)

def substr (str : List Char) (pos count : Nat) : Except StdException (List Char) :=
  if str.length < pos then .error .outOfRange else .ok ((str.drop pos).take count)

/-- `substr` up to the end. -/
def substrFrom (str : List Char) (pos : Nat) : Except StdException (List Char) :=
  substr str pos str.length

/-- What `mPort` is when a port is given: it stays 0 when `stoi` throws. -/
def portOf (portStr : List Char) : UInt32 :=
  match stoi (String.ofList portStr) with
  | .ok value => UInt32.ofInt value
  | .error _ => 0

/-- The checks of the parts. -/
def checked (path : Members) : Members :=
  if path.mUser = [] ∨ path.mHost = [] ∨ path.mPath = [] then { path with mError := pathError }
  else if hasAny [':', '/', '@'] path.mUser then { path with mError := "Invalid user name" }
  else if hasAny [':', '/', '@'] path.mHost then { path with mError := "Invalid host name" }
  else if hasAny [':', '@'] path.mPath then { path with mError := "Invalid path" }
  else { path with mValid := true }

/-- What the constructor does from the end of the scheme on. -/
def parts (remotePath : List Char) (spos : Nat) : Except StdException Members := do
  let path : Members := ⟨false, [], [], [], 0, ""⟩
  match findStr ['@'] remotePath spos with
  | none => return { path with mError := pathError }
  | some atpos =>
      let mUser ← substr remotePath spos (sizeSub atpos spos)
      match findStr ['/'] remotePath atpos with
      | none => return { path with mUser, mError := pathError }
      | some pathPos =>
          let mPath ← substrFrom remotePath (pathPos + 1)
          match findStr [':'] remotePath atpos with
          | some portPos =>
              let mHost ← substr remotePath (atpos + 1) (sizeSub (sizeSub portPos atpos) 1)
              let portStr ← substr remotePath (portPos + 1) (sizeSub (sizeSub pathPos portPos) 1)
              return checked { path with mUser, mHost, mPath, mPort := portOf portStr }
          | none =>
              let mHost ← substr remotePath (atpos + 1) (sizeSub (sizeSub pathPos atpos) 1)
              return checked { path with mUser, mHost, mPath }

def construct (remotePath : List Char) : Except StdException Members :=
  match findStr [':', '/', '/'] remotePath 0 with
  | none => parts remotePath 0
  | some spos => do
      let scheme ← substr remotePath 0 spos
      if scheme ≠ ['s', 'f', 't', 'p'] then
        return ⟨false, [], [], [], 0, "Unsupported scheme"⟩
      else parts remotePath (spos + 3)

/-- What a caller sees of an object: the parts of a valid one, the error of another. -/
def Members.outcome (path : Members) : Except String SftpPath :=
  if path.mValid then
    .ok ⟨String.ofList path.mUser, String.ofList path.mHost, String.ofList path.mPath⟩
  else .error path.mError

/-- A path and its error as the session takes them; the constructor throws nothing,
as `construct_eq` says. -/
def parse (remotePath : String) : Except String SftpPath :=
  match construct remotePath.toList with
  | .ok path => path.outcome
  | .error _ => .error ""

end SftpPath

/-- The parts of a remote path as a text of it gives them. -/
structure RemoteParts where
  scheme : List Char
  user : List Char
  host : List Char
  port : Option (List Char)
  path : List Char

namespace RemoteParts

/-- The port with its colon. -/
def portText (parts : RemoteParts) : List Char :=
  match parts.port with
  | none => []
  | some port => ':' :: port

def text (parts : RemoteParts) : List Char :=
  parts.scheme ++ parts.user ++ '@' :: (parts.host ++ parts.portText ++ '/' :: parts.path)

/-- The parts are what they may be, with any text without a slash for a port. -/
structure Formed (parts : RemoteParts) : Prop where
  scheme : parts.scheme = [] ∨ parts.scheme = "sftp://".toList
  user : parts.user ≠ [] ∧ ∀ letter ∈ [':', '/', '@'], letter ∉ parts.user
  host : parts.host ≠ [] ∧ ∀ letter ∈ [':', '/', '@'], letter ∉ parts.host
  path : parts.path ≠ [] ∧ ∀ letter ∈ [':', '@'], letter ∉ parts.path
  port : ∀ port, parts.port = some port → '/' ∉ port

/-- A port: a decimal number from 1 to 65535. -/
structure IsPort (port : List Char) : Prop where
  nonempty : port ≠ []
  digits : ∀ letter ∈ port, letter.isDigit = true
  positive : 1 ≤ digitsValue port
  small : digitsValue port ≤ 65535

def PortIsNumber (parts : RemoteParts) : Prop := ∀ port, parts.port = some port → IsPort port

/-- The number of the port, 0 when there is none. -/
def portNumber (parts : RemoteParts) : Nat :=
  match parts.port with
  | none => 0
  | some port => digitsValue port

/-- No text `://` could be taken for the end of a scheme when there is none. -/
def NoOtherScheme (parts : RemoteParts) : Prop :=
  parts.scheme = [] → ¬[':', '/', '/'] <:+: parts.text

end RemoteParts

/-- What is expected of the constructor: it throws nothing, it takes the texts of the form
`[sftp://]user@host[:port]/path` and no others, and gives their parts. -/
structure TakesApart (remotePath : List Char) : Prop where
  returns : ∃ path, SftpPath.construct remotePath = .ok path
  valid : ∀ path, SftpPath.construct remotePath = .ok path →
    (path.mValid = true ↔ ∃ parts : RemoteParts,
      remotePath = parts.text ∧ parts.Formed ∧ parts.PortIsNumber)
  gives : ∀ path, SftpPath.construct remotePath = .ok path →
    ∀ parts : RemoteParts, remotePath = parts.text → parts.Formed → parts.PortIsNumber →
      path.mUser = parts.user ∧ path.mHost = parts.host ∧ path.mPath = parts.path ∧
        path.mPort.toNat = parts.portNumber

variable {user host port path rest tail before after front : List Char}

section Cuts

theorem cutWord_singleton (letter : Char) (list : List Char) :
    cutWord [letter] list = cutFirst letter list := by
  induction list with
  | nil => simp [cutWord, cutFirst]
  | cons head list ih =>
      by_cases same : head = letter
      · simp [cutWord, cutFirst, same]
      · have apart : ¬letter = head := fun equal => same equal.symm
        simp [cutWord, cutFirst, same, apart, ih]

/-- A word that is not found is nowhere in the text. -/
theorem not_infix_of_cutWord {word list : List Char} (uncut : cutWord word list = none) :
    ¬word <:+: list := by
  induction list with
  | nil =>
      intro inside
      rw [List.infix_nil.mp inside] at uncut
      cases uncut
  | cons head list ih =>
      rw [cutWord] at uncut
      split at uncut
      · cases uncut
      · next notHere =>
          rw [List.infix_cons_iff, not_or]
          exact ⟨notHere, ih (Option.map_eq_none_iff.mp uncut)⟩

/-- A letter that stands once in a text cuts it in one way. -/
theorem eq_of_once {letter : Char} {front behind left right : List Char}
    (notFront : letter ∉ front) (notBehind : letter ∉ behind)
    (same : front ++ letter :: behind = left ++ letter :: right) : right = behind := by
  have cut := cutFirst_append behind notFront
  rw [same] at cut
  cases inLeft : cutFirst letter left with
  | none =>
      rw [cutFirst_append right (cutFirst_eq_none.mp inLeft)] at cut
      exact (Prod.mk.inj (Option.some.inj cut)).2
  | some ends =>
      obtain ⟨first, second⟩ := ends
      obtain ⟨split, absent⟩ := cutFirst_eq_some.mp inLeft
      rw [split, List.append_assoc, List.cons_append, cutFirst_append _ absent] at cut
      rw [← (Prod.mk.inj (Option.some.inj cut)).2] at notBehind
      exact absurd (by simp) notBehind

/-- A letter is found where the text behind a part of it is cut. -/
theorem findStr_letter (letter : Char) (front rest : List Char) :
    findStr [letter] (front ++ rest) front.length =
      (cutFirst letter rest).map fun cut => front.length + cut.1.length := by
  rw [findStr_append, cutWord_singleton]

theorem cutFirst_cons_of_ne {letter head : Char} (apart : head ≠ letter) (list : List Char) :
    cutFirst letter (head :: list) = (cutFirst letter list).map fun cut => (head :: cut.1, cut.2) :=
  if_neg apart

theorem eq_of_cutFirst {letter : Char} (cut : cutFirst letter rest = some (before, after)) :
    rest = before ++ letter :: after :=
  (cutFirst_eq_some.mp cut).1

/-- The two separators are looked for behind the `@`, with which neither is mistaken. -/
theorem findStr_behind {letter : Char} (apart : '@' ≠ letter) (front user tail : List Char) :
    findStr [letter] (front ++ (user ++ '@' :: tail)) (front.length + user.length) =
      (cutFirst letter tail).map fun cut => front.length + user.length + 1 + cut.1.length := by
  have found := findStr_letter letter (front ++ user) ('@' :: tail)
  rw [List.append_assoc, List.length_append] at found
  rw [found, cutFirst_cons_of_ne apart, Option.map_map]
  refine congrArg (fun f => Option.map f (cutFirst letter tail)) (funext fun cut => ?_)
  simp only [Function.comp_apply, List.length_cons]
  omega

end Cuts

namespace SftpPath

/-- What is taken from a text behind a part of it. -/
theorem substr_append {pos : Nat} (atEnd : pos = front.length) (rest : List Char) (count : Nat) :
    substr (front ++ rest) pos count = .ok (rest.take count) := by
  rw [substr, atEnd, if_neg (by simp), List.drop_left]

/-- The parts of a text behind the scheme, by the cuts at the separators. -/
def cutParts (rest : List Char) : Members :=
  match cutFirst '@' rest with
  | none => ⟨false, [], [], [], 0, pathError⟩
  | some (user, tail) =>
      match cutFirst '/' tail with
      | none => ⟨false, user, [], [], 0, pathError⟩
      | some (hostPort, path) =>
          match cutFirst ':' tail with
          | none => checked ⟨false, user, hostPort, path, 0, ""⟩
          | some (host, behind) =>
              checked ⟨false, user, host, path,
                portOf (behind.take (sizeSub (sizeSub hostPort.length host.length) 1)), ""⟩

theorem sizeSub_add (front size other : Nat) : sizeSub (front + size) (front + other) =
    sizeSub size other := by
  unfold sizeSub
  split <;> split <;> omega

theorem sizeSub_one (size other : Nat) : sizeSub (sizeSub (size + 1 + other) size) 1 = other := by
  unfold sizeSub
  split <;> split <;> omega

/-- What is taken behind a separator that was found. -/
theorem substr_behind {letter : Char} {pos : Nat}
    (cut : cutFirst letter rest = some (before, after))
    (atEnd : pos = front.length + before.length + 1) (count : Nat) :
    substr (front ++ rest) pos count = .ok (after.take count) := by
  have split : front ++ rest = (front ++ before ++ [letter]) ++ after := by
    rw [eq_of_cutFirst cut]
    simp
  rw [split, substr_append (by simp; omega)]

theorem parts_append (front rest : List Char) :
    parts (front ++ rest) front.length = .ok (cutParts rest) := by
  rw [parts, cutParts, findStr_letter]
  cases cut : cutFirst '@' rest with
  | none => rfl
  | some halves =>
      obtain ⟨user, tail⟩ := halves
      have whole := eq_of_cutFirst cut
      have userText : substr (front ++ rest) front.length
          (sizeSub (front.length + user.length) front.length) = .ok user := by
        rw [substr_append rfl, whole, sizeSub, if_pos (by omega), Nat.add_sub_cancel_left,
          List.take_left]
      have found : ∀ letter, '@' ≠ letter →
          findStr [letter] (front ++ rest) (front.length + user.length) =
            (cutFirst letter tail).map fun cut =>
              front.length + user.length + 1 + cut.1.length := by
        intro letter apart
        rw [whole]
        exact findStr_behind apart front user tail
      have hostText := @substr_behind rest user tail front '@' _ cut rfl
      have split : front ++ rest = (front ++ user ++ ['@']) ++ tail := by
        rw [whole]
        simp
      simp only [Option.map_some, userText, found '/' (by decide), found ':' (by decide)]
      cases slash : cutFirst '/' tail with
      | none => rfl
      | some ends =>
          obtain ⟨hostPort, path⟩ := ends
          have pathText : substrFrom (front ++ rest)
              (front.length + user.length + 1 + hostPort.length + 1) = .ok path := by
            have long : path.length ≤ (front ++ rest).length := by
              rw [split, eq_of_cutFirst slash]
              simp
              omega
            have taken := @substr_behind tail hostPort path (front ++ user ++ ['@']) '/' _ slash
              rfl (front ++ rest).length
            rw [← split, List.take_of_length_le long] at taken
            simpa [substrFrom, Nat.add_assoc] using taken
          cases colon : cutFirst ':' tail with
          | none =>
              simp only [Option.map_some, pathText, Option.map_none, hostText, sizeSub_one,
                eq_of_cutFirst slash, List.take_left]
              rfl
          | some ends =>
              obtain ⟨host, behind⟩ := ends
              have portText : ∀ count, substr (front ++ rest)
                  (front.length + user.length + 1 + host.length + 1) count =
                    .ok (behind.take count) := by
                intro count
                rw [split, substr_behind colon (by simp; omega)]
              have hostOnly : tail.take host.length = host := by
                rw [eq_of_cutFirst colon, List.take_left]
              simp only [Option.map_some, pathText, hostText, sizeSub_one, portText, sizeSub_add,
                hostOnly]
              rfl

/-- What the constructor makes of a text, by the cuts at the separators. -/
def cutScheme (remotePath : List Char) : Members :=
  match cutWord [':', '/', '/'] remotePath with
  | none => cutParts remotePath
  | some (scheme, rest) =>
      if scheme ≠ ['s', 'f', 't', 'p'] then ⟨false, [], [], [], 0, "Unsupported scheme"⟩
      else cutParts rest

/-- The constructor throws nothing, and gives what the cuts give. -/
theorem construct_eq (remotePath : List Char) :
    construct remotePath = .ok (cutScheme remotePath) := by
  have found : findStr [':', '/', '/'] remotePath 0 =
      (cutWord [':', '/', '/'] remotePath).map fun cut => cut.1.length := by
    rw [findStr, if_pos (Nat.zero_le _), List.drop_zero]
    simp
  have whole := parts_append [] remotePath
  rw [construct, found, cutScheme]
  cases cut : cutWord [':', '/', '/'] remotePath with
  | none => exact whole
  | some ends =>
      obtain ⟨scheme, rest⟩ := ends
      have split := (cutWord_eq_some cut).1
      have schemeText : substr remotePath 0 scheme.length = .ok scheme := by
        rw [split, substr, if_neg (Nat.not_lt_zero _), List.drop_zero, List.append_assoc,
          List.take_left]
      have behind : parts remotePath (scheme.length + 3) = .ok (cutParts rest) := by
        have atEnd := parts_append (scheme ++ [':', '/', '/']) rest
        rwa [← split, List.length_append] at atEnd
      simp only [Option.map_some, schemeText, behind]
      by_cases known : scheme = ['s', 'f', 't', 'p']
      · simp [known, bind, Except.bind]
      · simp [known, bind, Except.bind, pure, Except.pure]

theorem hasAny_eq_false {letters text : List Char} :
    hasAny letters text = false ↔ ∀ letter ∈ letters, letter ∉ text := by
  simp only [hasAny, List.any_eq_false, List.contains_iff_mem]
  exact ⟨fun none letter wanted member => none letter member wanted,
    fun none letter member wanted => none letter wanted member⟩

theorem checked_mValid {path : Members} (unchecked : path.mValid = false) :
    (checked path).mValid = true ↔
      (path.mUser ≠ [] ∧ ∀ letter ∈ [':', '/', '@'], letter ∉ path.mUser) ∧
        (path.mHost ≠ [] ∧ ∀ letter ∈ [':', '/', '@'], letter ∉ path.mHost) ∧
          path.mPath ≠ [] ∧ ∀ letter ∈ [':', '@'], letter ∉ path.mPath := by
  simp only [← hasAny_eq_false]
  unfold checked
  split
  · next empty =>
      refine iff_of_false (by simp [unchecked]) fun formed => ?_
      rcases empty with noUser | noHost | noPath
      · exact formed.1.1 noUser
      · exact formed.2.1.1 noHost
      · exact formed.2.2.1 noPath
  · next nonempty =>
      simp only [not_or] at nonempty
      split
      · next user => simp [unchecked, user]
      · split
        · next host => simp [unchecked, host]
        · split
          · next path => simp [unchecked, path]
          · next user host path =>
              simp [Bool.eq_false_iff.mpr user, Bool.eq_false_iff.mpr host,
                Bool.eq_false_iff.mpr path, nonempty]

/-- The members of a valid path with these parts. -/
def valid (parts : RemoteParts) : Members :=
  ⟨true, parts.user, parts.host, parts.path, (parts.port.map portOf).getD 0, ""⟩

theorem checked_of_formed {parts : RemoteParts} (formed : parts.Formed) {port : UInt32}
    (same : port = (parts.port.map portOf).getD 0) :
    checked ⟨false, parts.user, parts.host, parts.path, port, ""⟩ = valid parts := by
  unfold checked
  rw [if_neg (by simp [formed.user.1, formed.host.1, formed.path.1]),
    if_neg (by simp only [hasAny_eq_false.mpr formed.user.2]; simp),
    if_neg (by simp only [hasAny_eq_false.mpr formed.host.2]; simp),
    if_neg (by simp only [hasAny_eq_false.mpr formed.path.2]; simp), same]
  rfl

/-- The parts behind the scheme are found by the cuts. -/
theorem cutParts_of_formed {parts : RemoteParts} (formed : parts.Formed) :
    cutParts (parts.user ++ '@' :: (parts.host ++ parts.portText ++ '/' :: parts.path)) =
      valid parts := by
  have noAt := cutFirst_append (parts.host ++ parts.portText ++ '/' :: parts.path)
    (formed.user.2 '@' (by simp))
  have noSlash : '/' ∉ parts.host ++ parts.portText := by
    rw [List.mem_append, not_or]
    refine ⟨formed.host.2 '/' (by simp), ?_⟩
    unfold RemoteParts.portText
    cases given : parts.port with
    | none => exact List.not_mem_nil
    | some port => simp [formed.port port given]
  have noColon := formed.host.2 ':' (by simp)
  rw [cutParts, noAt]
  dsimp only
  rw [cutFirst_append parts.path noSlash]
  dsimp only
  unfold RemoteParts.portText
  cases given : parts.port with
  | none =>
      have uncut : cutFirst ':' (parts.host ++ [] ++ '/' :: parts.path) = none := by
        rw [cutFirst_eq_none]
        simp [noColon, formed.path.2 ':' (by simp)]
      rw [uncut, List.append_nil]
      exact checked_of_formed formed (by rw [given]; rfl)
  | some port =>
      have cut : cutFirst ':' (parts.host ++ ':' :: port ++ '/' :: parts.path) =
          some (parts.host, port ++ '/' :: parts.path) := by
        rw [List.append_assoc, List.cons_append]
        exact cutFirst_append _ noColon
      have count : sizeSub (sizeSub (parts.host ++ ':' :: port).length parts.host.length) 1 =
          port.length := by
        rw [List.length_append, List.length_cons]
        unfold sizeSub
        split <;> split <;> omega
      rw [cut]
      dsimp only
      rw [count, List.take_left]
      exact checked_of_formed formed (by rw [given]; rfl)

/-- A text with these parts is taken apart. -/
theorem cutScheme_of_formed {parts : RemoteParts} (formed : parts.Formed)
    (noOther : parts.NoOtherScheme) : cutScheme parts.text = valid parts := by
  have behind := cutParts_of_formed formed
  rcases formed.scheme with noScheme | sftp
  · have uncut : cutWord [':', '/', '/'] parts.text = none := by
      cases cut : cutWord [':', '/', '/'] parts.text with
      | none => rfl
      | some ends => exact absurd ⟨_, _, (cutWord_eq_some cut).1.symm⟩ (noOther noScheme)
    rw [cutScheme, uncut, RemoteParts.text, noScheme]
    exact behind
  · have cut : cutWord [':', '/', '/'] parts.text = some (['s', 'f', 't', 'p'],
        parts.user ++ '@' :: (parts.host ++ parts.portText ++ '/' :: parts.path)) := by
      rw [RemoteParts.text, sftp]
      simp [cutWord]
    rw [cutScheme, cut]
    exact behind

/-- A text whose cuts give a valid path has the parts that were cut out. -/
theorem formed_of_cutParts {scheme : List Char}
    (isScheme : scheme = [] ∨ scheme = "sftp://".toList)
    (isValid : (cutParts rest).mValid = true) :
    ∃ parts : RemoteParts, scheme ++ rest = parts.text ∧ parts.Formed ∧ parts.scheme = scheme := by
  rw [cutParts] at isValid
  cases at' : cutFirst '@' rest with
  | none =>
      rw [at'] at isValid
      cases isValid
  | some halves =>
      obtain ⟨user, tail⟩ := halves
      have atSplit := eq_of_cutFirst at'
      rw [at'] at isValid
      dsimp only at isValid
      cases slash : cutFirst '/' tail with
      | none =>
          rw [slash] at isValid
          cases isValid
      | some ends =>
          obtain ⟨hostPort, path⟩ := ends
          obtain ⟨slashSplit, noSlash⟩ := cutFirst_eq_some.mp slash
          rw [slash] at isValid
          dsimp only at isValid
          cases colon : cutFirst ':' hostPort with
          | none =>
              have noColon := cutFirst_eq_none.mp colon
              cases whole : cutFirst ':' tail with
              | none =>
                  rw [whole] at isValid
                  obtain ⟨userFormed, hostFormed, pathFormed⟩ := (checked_mValid rfl).mp isValid
                  refine ⟨⟨scheme, user, hostPort, none, path⟩, ?_,
                    ⟨isScheme, userFormed, hostFormed, pathFormed, by simp⟩, rfl⟩
                  simp [RemoteParts.text, RemoteParts.portText, atSplit, slashSplit]
              | some ends =>
                  obtain ⟨host, behind⟩ := ends
                  rw [whole] at isValid
                  obtain ⟨-, -, pathFormed⟩ := (checked_mValid rfl).mp isValid
                  have inside : ':' ∈ hostPort ++ '/' :: path := by
                    rw [← slashSplit, eq_of_cutFirst whole]
                    simp
                  have inPath := pathFormed.2 ':' (by simp)
                  simp [noColon, inPath] at inside
          | some ends =>
              obtain ⟨host, port⟩ := ends
              obtain ⟨colonSplit, noColon⟩ := cutFirst_eq_some.mp colon
              have whole : cutFirst ':' tail = some (host, port ++ '/' :: path) := by
                rw [slashSplit, colonSplit, List.append_assoc, List.cons_append]
                exact cutFirst_append _ noColon
              rw [whole] at isValid
              obtain ⟨userFormed, hostFormed, pathFormed⟩ := (checked_mValid rfl).mp isValid
              have portPlain : '/' ∉ port := fun inside => noSlash (by simp [colonSplit, inside])
              refine ⟨⟨scheme, user, host, some port, path⟩, ?_,
                ⟨isScheme, userFormed, hostFormed, pathFormed, ?_⟩, rfl⟩
              · simp [RemoteParts.text, RemoteParts.portText, atSplit, slashSplit, colonSplit]
              · rintro given ⟨⟩
                exact portPlain

/-- A text that is taken has the parts of a remote path, with any text for a port. -/
theorem formed_of_cutScheme {remotePath : List Char}
    (isValid : (cutScheme remotePath).mValid = true) :
    ∃ parts : RemoteParts, remotePath = parts.text ∧ parts.Formed ∧ parts.NoOtherScheme := by
  rw [cutScheme] at isValid
  cases cut : cutWord [':', '/', '/'] remotePath with
  | none =>
      rw [cut] at isValid
      obtain ⟨parts, same, formed, noScheme⟩ := formed_of_cutParts (Or.inl rfl) isValid
      rw [List.nil_append] at same
      exact ⟨parts, same, formed, fun _ => same ▸ not_infix_of_cutWord cut⟩
  | some ends =>
      obtain ⟨scheme, rest⟩ := ends
      rw [cut] at isValid
      dsimp only at isValid
      split at isValid
      · cases isValid
      · next known =>
          rw [not_not] at known
          obtain ⟨parts, same, formed, sftp⟩ := formed_of_cutParts (Or.inr rfl) isValid
          have split := (cutWord_eq_some cut).1
          refine ⟨parts, ?_, formed, fun noScheme => ?_⟩
          · rw [← same, split, known]
            rfl
          · rw [noScheme] at sftp
            exact absurd sftp (by decide)

theorem parts_unique {parts other : RemoteParts} (formed : parts.Formed) (formed' : other.Formed)
    (noOther : parts.NoOtherScheme) (noOther' : other.NoOtherScheme)
    (same : parts.text = other.text) : parts = other := by
  have members : valid parts = valid other := by
    rw [← cutScheme_of_formed formed noOther, same, cutScheme_of_formed formed' noOther']
  have users : parts.user = other.user := congrArg Members.mUser members
  have hosts : parts.host = other.host := congrArg Members.mHost members
  have paths : parts.path = other.path := congrArg Members.mPath members
  have noAt : ∀ {parts : RemoteParts}, parts.Formed → '@' ∉ parts.scheme ++ parts.user := by
    intro parts formed
    rw [List.mem_append, not_or]
    refine ⟨?_, formed.user.2 '@' (by simp)⟩
    rcases formed.scheme with scheme | scheme <;> rw [scheme] <;> decide
  have cut : ∀ {parts : RemoteParts}, parts.Formed → cutFirst '@' parts.text =
      some (parts.scheme ++ parts.user, parts.host ++ parts.portText ++ '/' :: parts.path) :=
    fun formed => cutFirst_append _ (noAt formed)
  have halves := (cut formed).symm.trans ((congrArg (cutFirst '@') same).trans (cut formed'))
  obtain ⟨front, behind⟩ := Prod.mk.inj (Option.some.inj halves)
  rw [users] at front
  rw [hosts, paths] at behind
  have schemes := List.append_cancel_right front
  have ports := List.append_cancel_left (List.append_cancel_right behind)
  have port : parts.port = other.port := by
    unfold RemoteParts.portText at ports
    cases first : parts.port <;> cases second : other.port <;> simp_all
  cases parts
  cases other
  simp_all

end SftpPath

/-- The port that is read is the number of the text. -/
theorem RemoteParts.toNat_portOf {port : List Char} (isPort : IsPort port) :
    (SftpPath.portOf port).toNat = digitsValue port := by
  have decimal : Decimal 65536 (String.ofList port) := by
    refine ⟨?_, ?_, ?_⟩ <;> rw [String.toList_ofList]
    · exact isPort.nonempty
    · exact isPort.digits
    · have small := isPort.small
      omega
  have read := stoi_decimal (by omega) decimal
  rw [String.toList_ofList] at read
  have small := isPort.small
  rw [SftpPath.portOf, read]
  simp only [UInt32.ofInt]
  rw [UInt32.toNat_ofNat']
  omega

/-- A text with a numeric port has nothing that could be taken for another scheme. -/
theorem RemoteParts.noOtherScheme {parts : RemoteParts} (formed : parts.Formed)
    (isNumber : parts.PortIsNumber) : parts.NoOtherScheme := by
  rintro noScheme ⟨left, right, inside⟩
  have noUser := formed.user.2 ':' (by simp)
  have noHost := formed.host.2 ':' (by simp)
  have noPath := formed.path.2 ':' (by simp)
  rw [text, noScheme, List.append_assoc, List.cons_append] at inside
  unfold portText at inside
  cases given : parts.port with
  | none =>
      rw [given] at inside
      have colon := congrArg (':' ∈ ·) inside
      simp [noUser, noHost, noPath] at colon
  | some port =>
      have isPort := isNumber port given
      rw [given] at inside
      have digits : ':' ∉ port := fun member => absurd (isPort.digits ':' member) (by decide)
      have same : (parts.user ++ '@' :: parts.host) ++ ':' :: (port ++ '/' :: parts.path) =
          left ++ ':' :: ('/' :: '/' :: right) := by
        rw [show left ++ ':' :: '/' :: '/' :: right = left ++ (':' :: (['/', '/'] ++ right))
          from rfl, inside]
        simp
      have behind := eq_of_once (by simp [noUser, noHost]) (by simp [digits, noPath]) same
      cases letters : port with
      | nil => exact isPort.nonempty letters
      | cons first port' =>
          rw [letters] at behind
          obtain ⟨rfl, -⟩ := List.cons.inj behind
          have digit := isPort.digits '/' (by simp [letters])
          exact absurd digit (by decide)

/-- A text that is taken apart as expected has a number for a port. -/
theorem RemoteParts.isNumber_of_takesApart {parts : RemoteParts} (takes : TakesApart parts.text)
    (formed : parts.Formed) (noOther : parts.NoOtherScheme) : parts.PortIsNumber := by
  have isValid : (SftpPath.cutScheme parts.text).mValid = true := by
    rw [SftpPath.cutScheme_of_formed formed noOther]
    rfl
  obtain ⟨other, same, formed', isNumber⟩ :=
    (takes.valid _ (SftpPath.construct_eq parts.text)).mp isValid
  have noOther' := RemoteParts.noOtherScheme formed' isNumber
  rw [SftpPath.parts_unique formed formed' noOther noOther' same]
  exact isNumber

/-- The text is taken apart as expected exactly when its port, if it has one, is a number. -/
theorem takesApart_iff (remotePath : List Char) : TakesApart remotePath ↔
    ∀ parts : RemoteParts, remotePath = parts.text → parts.Formed → parts.NoOtherScheme →
      parts.PortIsNumber := by
  have made := SftpPath.construct_eq remotePath
  constructor
  · rintro takes parts rfl formed noOther
    exact RemoteParts.isNumber_of_takesApart takes formed noOther
  · intro numeric
    refine ⟨⟨_, made⟩, fun path given => ?_, fun path given parts same formed isNumber => ?_⟩
    · obtain rfl := Except.ok.inj (made.symm.trans given)
      constructor
      · intro isValid
        obtain ⟨parts, same, formed, noOther⟩ := SftpPath.formed_of_cutScheme isValid
        exact ⟨parts, same, formed, numeric parts same formed noOther⟩
      · rintro ⟨parts, rfl, formed, isNumber⟩
        rw [SftpPath.cutScheme_of_formed formed (RemoteParts.noOtherScheme formed isNumber)]
        rfl
    · subst same
      obtain rfl := Except.ok.inj (made.symm.trans given)
      rw [SftpPath.cutScheme_of_formed formed (RemoteParts.noOtherScheme formed isNumber)]
      refine ⟨rfl, rfl, rfl, ?_⟩
      rw [SftpPath.valid, RemoteParts.portNumber]
      cases port : parts.port with
      | none => rfl
      | some port' => exact RemoteParts.toNat_portOf (isNumber port' port)

/-- A port that is no number is taken for none. -/
theorem port_is_not_checked : ¬ ∀ remotePath : List Char, TakesApart remotePath := by
  intro always
  have formed : RemoteParts.Formed ⟨[], ['u'], ['h'], some ['a', 'b', 'c'], ['p']⟩ := by
    refine ⟨Or.inl rfl, ⟨by decide, by simp⟩, ⟨by decide, by simp⟩, ⟨by decide, by simp⟩, ?_⟩
    rintro port ⟨⟩
    decide
  have isNumber := RemoteParts.isNumber_of_takesApart (always _) formed fun _ => by decide
  exact absurd ((isNumber ['a', 'b', 'c'] rfl).digits 'a' (by simp)) (by decide)

end OpenMplane
