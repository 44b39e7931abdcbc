import OpenMplane.PathWalks
import OpenMplane.ReplaceStrs

/-!
# Absolute paths

The model of `Path::absolute`, which puts a relative path behind a root directory and
cleans the result of doubled separators in one pass.  A path is the list of its
characters.  The result names what the path names from the root, and is an absolute path
without doubled separators, except for runs of three and more and for an empty path.
-/

namespace OpenMplane

open ListCut SeparatorRuns

open FileTree (pathNames)

/-- A path, or a name in one. -/
abbrev PathText := List Char

namespace Path

/-- `Path::clean`; as many rounds as there are characters are enough for the loop of
`replaceStrs`. -/
def clean (path : PathText) : PathText :=
  (StringFunc.replaceStrs path.length path ['/', '/'] ['/']).getD path

/-- The directory that a relative path begins at: `wd` is what `getcwd` returns. -/
def root (wd rootdir : PathText) : PathText :=
  if rootdir = [] ∨ rootdir.head? ≠ some '/' then wd else rootdir

/-- The root without a trailing `/`. -/
def trimmed (wd rootdir : PathText) : PathText :=
  if (root wd rootdir).getLast? = some '/' then (root wd rootdir).dropLast else root wd rootdir

/-- The path before it is cleaned. -/
def abspath (wd path rootdir : PathText) : PathText :=
  if path.head? ≠ some '/' then trimmed wd rootdir ++ '/' :: path else path

def absolute (wd path rootdir : PathText) : PathText :=
  if path = [] then trimmed wd rootdir else clean (abspath wd path rootdir)

section Clean

/-- One pass takes pairs of separators from the left. -/
theorem replaced_separators (path : PathText) :
    StringFunc.replaced ['/', '/'] ['/'] path = collapse '/' path := by
  induction path using collapse.induct '/' with
  | case1 => rw [StringFunc.replaced, collapse]
  | case2 last =>
      have elsewhere : ¬ ['/', '/'] <+: [last] := fun two => absurd two.length_le (by simp)
      rw [StringFunc.replaced, if_neg fun occurs => elsewhere occurs.2, StringFunc.replaced]
      rfl
  | case3 first second rest both ih =>
      obtain ⟨rfl, rfl⟩ := both
      have occurs : ['/', '/'] <+: '/' :: '/' :: rest := ⟨rest, rfl⟩
      rw [StringFunc.replaced, if_pos ⟨by simp, occurs⟩, collapse, if_pos ⟨rfl, rfl⟩, ← ih]
      rfl
  | case4 first second rest single ih =>
      have elsewhere : ¬ ['/', '/'] <+: first :: second :: rest := by
        rw [List.cons_prefix_cons, List.cons_prefix_cons]
        rintro ⟨rfl, rfl, -⟩
        exact single ⟨rfl, rfl⟩
      rw [StringFunc.replaced, if_neg fun occurs => elsewhere occurs.2, collapse, if_neg single, ih]

theorem clean_eq (path : PathText) : clean path = collapse '/' path := by
  rw [clean, StringFunc.replaceStrs_eq (by simp) (Nat.le_refl _), replaced_separators]
  rfl

end Clean

section Names

/-- Where a path leads, in any file system: `enter` follows one name, from the top for an
absolute path and from where the process works for a relative one. -/
def locate {Node : Type} (enter : Node → PathText → Option Node) (top here : Node)
    (path : PathText) : Option Node :=
  (pathNames path).foldlM enter (if path.head? = some '/' then top else here)

/-- The path names what it should, once and for all. -/
structure Names (wd path rootdir : PathText) : Prop where
  rooted : (absolute wd path rootdir).head? = some '/'
  single : ¬ ['/', '/'] <:+: absolute wd path rootdir
  file : ∀ {Node : Type} (enter : Node → PathText → Option Node) (top here dir : Node),
    (segments '/' (root wd rootdir)).foldlM enter top = some dir → enter dir ['.'] = some dir →
      locate enter top here (absolute wd path rootdir) = locate enter top dir path
  idempotent : ∀ wd' r, absolute wd' (absolute wd path rootdir) r = absolute wd path rootdir

/-- No run of separators is too long for one pass, and an empty path has a root that
needs none. -/
def Cleanable (wd path rootdir : PathText) : Prop :=
  if path = [] then trimmed wd rootdir ≠ [] ∧ ¬ ['/', '/'] <:+: trimmed wd rootdir
  else ¬ ['/', '/', '/'] <:+: abspath wd path rootdir

variable {wd path rootdir : PathText}

theorem head?_root (workingDir : wd.head? = some '/') : (root wd rootdir).head? = some '/' := by
  rw [root]
  split
  · exact workingDir
  · next named =>
      rw [not_or, ne_eq, not_not] at named
      exact named.2

theorem head?_dropLast {list : List Char} (more : list.dropLast ≠ []) :
    list.dropLast.head? = list.head? := by
  cases list with
  | nil => rfl
  | cons head tail =>
      cases tail with
      | nil => exact absurd rfl more
      | cons next tail => rfl

theorem head?_trimmed (workingDir : wd.head? = some '/') (more : trimmed wd rootdir ≠ []) :
    (trimmed wd rootdir).head? = some '/' := by
  have rooted := @head?_root wd rootdir workingDir
  rw [trimmed] at more ⊢
  split at more
  · next slash =>
      rw [if_pos slash, head?_dropLast more, rooted]
  · next slash =>
      rw [if_neg slash, rooted]

/-- The separator that is trimmed stands between no names. -/
theorem segments_trimmed : segments '/' (trimmed wd rootdir) = segments '/' (root wd rootdir) := by
  rw [trimmed]
  split
  · next slash =>
      obtain ⟨front, split⟩ := List.getLast?_eq_some_iff.mp slash
      rw [split, List.dropLast_concat, segments_concat]
  · rfl

theorem absolute_nil : absolute wd [] rootdir = trimmed wd rootdir :=
  if_pos rfl

theorem absolute_of_ne_nil (nonempty : path ≠ []) :
    absolute wd path rootdir = collapse '/' (abspath wd path rootdir) := by
  rw [absolute, if_neg nonempty, clean_eq]

theorem head?_abspath (workingDir : wd.head? = some '/') :
    (abspath wd path rootdir).head? = some '/' := by
  rw [abspath]
  split
  · by_cases top : trimmed wd rootdir = []
    · rw [top]
      rfl
    · rw [List.head?_append_of_ne_nil _ top, head?_trimmed workingDir top]
  · next rooted =>
      rw [ne_eq, not_not] at rooted
      exact rooted

/-- An absolute path without doubled separators stays as it is. -/
theorem absolute_of_single (rooted : path.head? = some '/') (single : ¬ ['/', '/'] <:+: path)
    (wd rootdir : PathText) : absolute wd path rootdir = path := by
  have nonempty : path ≠ [] := by
    rintro rfl
    cases rooted
  have whole : abspath wd path rootdir = path := by
    rw [abspath, if_neg (not_not.mpr rooted)]
  rw [absolute_of_ne_nil nonempty, whole, collapse_of_single single]

theorem pathNames_collapse (path : PathText) : pathNames (collapse '/' path) = pathNames path := by
  rw [pathNames, pathNames, segments_collapse, getLast?_collapse]

theorem locate_collapse {Node : Type} (enter : Node → PathText → Option Node) (top here : Node)
    (path : PathText) : locate enter top here (collapse '/' path) = locate enter top here path := by
  rw [locate, locate, pathNames_collapse, head?_collapse]

theorem pathNames_abspath (relative : path.head? ≠ some '/') (nonempty : path ≠ []) :
    pathNames (abspath wd path rootdir) = segments '/' (root wd rootdir) ++ pathNames path := by
  have last : (trimmed wd rootdir ++ '/' :: path).getLast? = path.getLast? := by
    rw [List.getLast?_append, List.getLast?_cons_of_ne_nil nonempty,
      List.getLast?_eq_some_getLast nonempty]
    rfl
  rw [abspath, if_pos relative, pathNames, segments_append, segments_trimmed, last, pathNames,
    List.append_assoc]

theorem locate_abspath {Node : Type} {enter : Node → PathText → Option Node} {top dir : Node}
    (here : Node) (workingDir : wd.head? = some '/') (nonempty : path ≠ [])
    (rootDir : (segments '/' (root wd rootdir)).foldlM enter top = some dir) :
    locate enter top here (abspath wd path rootdir) = locate enter top dir path := by
  by_cases relative : path.head? = some '/'
  · rw [abspath, if_neg (not_not.mpr relative), locate, locate, if_pos relative, if_pos relative]
  · rw [locate, locate, if_pos (head?_abspath workingDir), if_neg relative,
      pathNames_abspath relative nonempty, List.foldlM_append, rootDir]
    rfl

theorem names_of_ne_nil (workingDir : wd.head? = some '/') (nonempty : path ≠ [])
    (short : ¬ ['/', '/', '/'] <:+: abspath wd path rootdir) : Names wd path rootdir := by
  have result := @absolute_of_ne_nil wd path rootdir nonempty
  have rooted : (absolute wd path rootdir).head? = some '/' := by
    rw [result, head?_collapse, head?_abspath workingDir]
  have single : ¬ ['/', '/'] <:+: absolute wd path rootdir := by
    rw [result, two_infix_collapse]
    exact short
  refine ⟨rooted, single, ?_, fun wd' r => absolute_of_single rooted single wd' r⟩
  intro Node enter top here dir rootDir _
  rw [result, locate_collapse, locate_abspath here workingDir nonempty rootDir]

theorem names_nil (workingDir : wd.head? = some '/') (more : trimmed wd rootdir ≠ [])
    (single : ¬ ['/', '/'] <:+: trimmed wd rootdir) : Names wd [] rootdir := by
  have rooted := head?_trimmed workingDir more
  refine ⟨rooted, single, ?_, fun wd' r => absolute_of_single rooted single wd' r⟩
  intro Node enter top here dir rootDir stays
  rw [absolute_nil, locate, if_pos rooted, pathNames, List.foldlM_append, segments_trimmed,
    rootDir]
  split
  · simp [stays, locate, pathNames, segments, segmentsFrom, flush]
  · rfl

/-- The path is what it should be exactly when one pass cleans it. -/
theorem names_iff (path rootdir : PathText) (workingDir : wd.head? = some '/') :
    Names wd path rootdir ↔ Cleanable wd path rootdir := by
  rw [Cleanable]
  split
  · next empty =>
      subst empty
      constructor
      · intro names
        refine ⟨?_, names.single⟩
        intro empty
        have rooted := names.rooted
        rw [absolute_nil, empty] at rooted
        cases rooted
      · rintro ⟨more, single⟩
        exact names_nil workingDir more single
  · next nonempty =>
      constructor
      · intro names
        have single := names.single
        rw [absolute_of_ne_nil nonempty, two_infix_collapse] at single
        exact single
      · exact names_of_ne_nil workingDir nonempty

theorem names_doubled : Names ['/'] ['a', '/', '/', 'b'] [] := by
  have short : Cleanable ['/'] ['a', '/', '/', 'b'] [] := by
    rw [Cleanable]
    decide
  exact (names_iff ['a', '/', '/', 'b'] [] rfl).mpr short

/-- Three separators become two. -/
theorem run_of_three_is_not_cleaned :
    ¬ ∀ wd path rootdir : PathText, wd.head? = some '/' → Names wd path rootdir := by
  intro names
  exact (names ['/'] ['/', '/', '/', 'a'] [] rfl).single (by decide)

end Names

end Path

end OpenMplane
