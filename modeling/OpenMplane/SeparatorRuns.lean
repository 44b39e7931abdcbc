import Mathlib.Data.List.Infix
import Mathlib.Data.List.Basic

/-!
# Runs of separators

A path is a list of names between separators, of which several may stand together.  This
file takes the names out of a list and replaces pairs of separators by one in a single
pass, which halves a run but keeps the names.
-/

namespace SeparatorRuns

variable {α : Type*} [DecidableEq α] {separator : α}

/-- A name that has been read, unless it is empty. -/
def flush (name : List α) : List (List α) := if name = [] then [] else [name]

/-- The names of a list, the first of which has begun already. -/
def segmentsFrom (separator : α) : List α → List α → List (List α)
  | name, [] => flush name
  | name, head :: tail =>
      if head = separator then flush name ++ segmentsFrom separator [] tail
      else segmentsFrom separator (name ++ [head]) tail

/-- The names between separators that are not empty. -/
def segments (separator : α) (list : List α) : List (List α) := segmentsFrom separator [] list

/-- Each pair of separators, from the left, becomes one. -/
def collapse (separator : α) : List α → List α
  | [] => []
  | [last] => [last]
  | first :: second :: rest =>
      if first = separator ∧ second = separator then separator :: collapse separator rest
      else first :: collapse separator (second :: rest)

section Segments

theorem segmentsFrom_cons (name : List α) (head : α) (tail : List α) :
    segmentsFrom separator name (head :: tail) =
      if head = separator then flush name ++ segmentsFrom separator [] tail
      else segmentsFrom separator (name ++ [head]) tail :=
  rfl

theorem segmentsFrom_append (name first second : List α) :
    segmentsFrom separator name (first ++ separator :: second) =
      segmentsFrom separator name first ++ segments separator second := by
  induction first generalizing name with
  | nil => simp [segmentsFrom, segments]
  | cons head tail ih =>
      by_cases separates : head = separator
      · simp [segmentsFrom, separates, ih]
      · simp [segmentsFrom, separates, ih]

theorem segments_append (first second : List α) :
    segments separator (first ++ separator :: second) =
      segments separator first ++ segments separator second :=
  segmentsFrom_append [] first second

theorem segmentsFrom_of_notMem (name : List α) {word : List α} (absent : separator ∉ word) :
    segmentsFrom separator name word = flush (name ++ word) := by
  induction word generalizing name with
  | nil => rw [segmentsFrom, List.append_nil]
  | cons head tail ih =>
      rw [List.mem_cons, not_or] at absent
      rw [segmentsFrom, if_neg (Ne.symm absent.1), ih _ absent.2, List.append_assoc]
      rfl

theorem segments_of_notMem {word : List α} (nonempty : word ≠ []) (absent : separator ∉ word) :
    segments separator word = [word] := by
  rw [segments, segmentsFrom_of_notMem [] absent, List.nil_append, flush, if_neg nonempty]

theorem mem_segmentsFrom {name word list : List α} (clean : separator ∉ name)
    (member : word ∈ segmentsFrom separator name list) : word ≠ [] ∧ separator ∉ word := by
  have flushed {name : List α} (clean : separator ∉ name) (member : word ∈ flush name) :
      word ≠ [] ∧ separator ∉ word := by
    rw [flush] at member
    split at member
    · cases member
    · next nonempty =>
        rw [List.mem_singleton] at member
        rw [member]
        exact ⟨nonempty, clean⟩
  induction list generalizing name with
  | nil => exact flushed clean member
  | cons head tail ih =>
      rw [segmentsFrom_cons] at member
      split at member
      · rcases List.mem_append.mp member with member | member
        · exact flushed clean member
        · exact ih List.not_mem_nil member
      · next other =>
          refine ih ?_ member
          rw [List.mem_append, List.mem_singleton, not_or]
          exact ⟨clean, Ne.symm other⟩

/-- Names are not empty and hold no separator. -/
theorem mem_segments {word list : List α} (member : word ∈ segments separator list) :
    word ≠ [] ∧ separator ∉ word :=
  mem_segmentsFrom List.not_mem_nil member

/-- A separator at the end is between the names and nothing. -/
theorem segments_concat (list : List α) :
    segments separator (list ++ [separator]) = segments separator list := by
  have none : segments separator ([] : List α) = [] := rfl
  rw [segments_append, none, List.append_nil]

theorem exists_prefix_of_segmentsFrom {name list : List α} {front back : List (List α)}
    (clean : separator ∉ name) (nonempty : front ≠ [])
    (parts : segmentsFrom separator name list = front ++ back) :
    ∃ start rest, list = start ++ rest ∧ segmentsFrom separator name start = front ∧
      (name ++ start).getLast? ≠ some separator ∧ (rest = [] ∨ ∃ more, rest = separator :: more) := by
  have named : name.getLast? ≠ some separator := fun last => clean (List.mem_of_getLast? last)
  induction list generalizing name front with
  | nil =>
      rw [segmentsFrom, flush] at parts
      split at parts
      · exact absurd (List.append_eq_nil_iff.mp parts.symm).1 nonempty
      · next some =>
          cases front with
          | nil => exact absurd rfl nonempty
          | cons first front =>
              obtain ⟨rfl, none⟩ := List.cons.inj parts
              obtain ⟨rfl, -⟩ := List.append_eq_nil_iff.mp none.symm
              refine ⟨[], [], rfl, ?_, by rw [List.append_nil]; exact named, Or.inl rfl⟩
              rw [segmentsFrom, flush, if_neg some]
  | cons head tail ih =>
      rw [segmentsFrom_cons] at parts
      split at parts
      · next separates =>
          subst separates
          have empty : ([] : List α).getLast? ≠ some head := by simp
          by_cases none : name = []
          · subst none
            obtain ⟨start, rest, rfl, front_eq, last, next⟩ := ih clean nonempty parts empty
            refine ⟨head :: start, rest, rfl, ?_, ?_, next⟩
            · rw [segmentsFrom_cons, if_pos rfl, front_eq]
              rfl
            · have some : start ≠ [] := by
                rintro rfl
                exact nonempty front_eq.symm
              rw [List.nil_append, List.getLast?_cons_of_ne_nil some]
              exact last
          · rw [flush, if_neg none, List.singleton_append] at parts
            cases front with
            | nil => exact absurd rfl nonempty
            | cons first front =>
                obtain ⟨rfl, later⟩ := List.cons.inj parts
                by_cases only : front = []
                · subst only
                  refine ⟨[], head :: tail, rfl, ?_, by rw [List.append_nil]; exact named,
                    Or.inr ⟨tail, rfl⟩⟩
                  rw [segmentsFrom, flush, if_neg none]
                · obtain ⟨start, rest, rfl, front_eq, last, next⟩ :=
                    ih List.not_mem_nil only later empty
                  refine ⟨head :: start, rest, rfl, ?_, ?_, next⟩
                  · rw [segmentsFrom_cons, if_pos rfl, front_eq, flush, if_neg none]
                    rfl
                  · have some : start ≠ [] := by
                      rintro rfl
                      exact only front_eq.symm
                    rw [List.getLast?_append_of_ne_nil _ (List.cons_ne_nil _ _),
                      List.getLast?_cons_of_ne_nil some]
                    exact last
      · next other =>
          have clean' : separator ∉ name ++ [head] := by
            rw [List.mem_append, List.mem_singleton, not_or]
            exact ⟨clean, Ne.symm other⟩
          obtain ⟨start, rest, rfl, front_eq, last, next⟩ := ih clean' nonempty parts
            fun last => clean' (List.mem_of_getLast? last)
          refine ⟨head :: start, rest, rfl, ?_, ?_, next⟩
          · rw [segmentsFrom_cons, if_neg other, front_eq]
          · rw [List.append_assoc] at last
            exact last

/-- The first names of a list stand in a part of it that ends with a name. -/
theorem exists_prefix_of_segments {list : List α} {front back : List (List α)}
    (nonempty : front ≠ []) (parts : segments separator list = front ++ back) :
    ∃ start rest, list = start ++ rest ∧ segments separator start = front ∧ start ≠ [] ∧
      start.getLast? ≠ some separator ∧ (rest = [] ∨ ∃ more, rest = separator :: more) := by
  obtain ⟨start, rest, split, front_eq, last, next⟩ :=
    exists_prefix_of_segmentsFrom List.not_mem_nil nonempty parts
  refine ⟨start, rest, split, front_eq, ?_, last, next⟩
  rintro rfl
  exact nonempty front_eq.symm

theorem segmentsFrom_collapse (name list : List α) :
    segmentsFrom separator name (collapse separator list) = segmentsFrom separator name list := by
  induction list using collapse.induct separator generalizing name with
  | case1 => rfl
  | case2 last => rfl
  | case3 first second rest both ih =>
      rw [collapse, if_pos both, both.1, both.2]
      simp only [segmentsFrom, ↓reduceIte, ih]
      rfl
  | case4 first second rest single ih =>
      rw [collapse, if_neg single, segmentsFrom_cons name first, ih, ih, ← segmentsFrom_cons]

theorem segments_collapse (list : List α) :
    segments separator (collapse separator list) = segments separator list :=
  segmentsFrom_collapse [] list

end Segments

section Runs

theorem head?_collapse (list : List α) : (collapse separator list).head? = list.head? := by
  cases list with
  | nil => rfl
  | cons first rest =>
      cases rest with
      | nil => rfl
      | cons second rest =>
          rw [collapse]
          split
          · next both => rw [both.1]; rfl
          · rfl

theorem getLast?_collapse (list : List α) :
    (collapse separator list).getLast? = list.getLast? := by
  induction list using collapse.induct separator with
  | case1 => rfl
  | case2 last => rfl
  | case3 first second rest both ih =>
      rw [collapse, if_pos both, both.1, both.2]
      simp only [List.getLast?_cons, ih]
      cases rest.getLast? <;> rfl
  | case4 first second rest single ih =>
      rw [collapse, if_neg single, List.getLast?_cons, ih, ← List.getLast?_cons]

omit [DecidableEq α] in
theorem prefix_iff_head? {list : List α} : [separator] <+: list ↔ list.head? = some separator := by
  cases list with
  | nil => simp
  | cons head tail => simp [eq_comm]

/-- Two separators are left of three, and only of three. -/
theorem two_infix_collapse (list : List α) :
    [separator, separator] <:+: collapse separator list ↔
      [separator, separator, separator] <:+: list := by
  induction list using collapse.induct separator with
  | case1 => simp [collapse]
  | case2 last =>
      rw [collapse]
      constructor <;> intro inside <;> exact absurd inside.length_le (by simp)
  | case3 first second rest both ih =>
      obtain ⟨rfl, rfl⟩ := both
      have third : [second, second] <+: rest → rest.head? = some second := by
        rintro ⟨tail, rfl⟩
        rfl
      rw [collapse, if_pos ⟨rfl, rfl⟩, List.infix_cons_iff, ih, List.cons_prefix_cons,
        prefix_iff_head?, head?_collapse, List.infix_cons_iff, List.infix_cons_iff,
        List.cons_prefix_cons, List.cons_prefix_cons, List.cons_prefix_cons, prefix_iff_head?]
      tauto
  | case4 first second rest single ih =>
      have next : (collapse separator (second :: rest)).head? = some second :=
        head?_collapse (second :: rest)
      have pair : ¬ [separator, separator] <+: first :: collapse separator (second :: rest) := by
        rw [List.cons_prefix_cons, prefix_iff_head?, next]
        rintro ⟨rfl, same⟩
        exact single ⟨rfl, Option.some.inj same⟩
      have triple : ¬ [separator, separator, separator] <+: first :: second :: rest := by
        rw [List.cons_prefix_cons, List.cons_prefix_cons]
        rintro ⟨rfl, rfl, -⟩
        exact single ⟨rfl, rfl⟩
      rw [collapse, if_neg single, List.infix_cons_iff, or_iff_right pair, ih,
        @List.infix_cons_iff _ _ first, or_iff_right triple]

/-- Nothing is changed where no two separators stand together. -/
theorem collapse_of_single {list : List α} (single : ¬ [separator, separator] <:+: list) :
    collapse separator list = list := by
  induction list using collapse.induct separator with
  | case1 => rfl
  | case2 last => rfl
  | case3 first second rest both ih =>
      obtain ⟨rfl, rfl⟩ := both
      exact absurd (List.prefix_append [_, _] rest).isInfix single
  | case4 first second rest other ih =>
      rw [collapse, if_neg other, ih fun inside => single (List.infix_cons inside)]

end Runs

end SeparatorRuns
