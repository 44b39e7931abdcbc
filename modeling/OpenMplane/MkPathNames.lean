import OpenMplane.MkPath

/-!
# The names of a path that is made

What `mkpath` makes before each separator is the next name of the path.  So it settles
the names one after the other, and this file follows it on the names alone: what has been
made stays, and it ends well if and only if all names lead to directories then.
-/

namespace OpenMplane

open ListCut SeparatorRuns FileTree

section Ladder

/-- Each path goes one name further than the one before. -/
def Ladder (head : Option Char) : List Name → List PathString → List Name → Prop
  | _, [], more => more = []
  | names, path :: paths, more =>
      ∃ name rest, more = name :: rest ∧ segments '/' path = names ++ [name] ∧
        path.getLast? ≠ some '/' ∧ path.head? = head ∧ Ladder head (names ++ [name]) paths rest

variable {before pp : PathString} {name rest : PathString}

/-- Nothing, or a part of a path up to a separator. -/
def Cut (before : PathString) : Prop := before = [] ∨ before.getLast? = some '/'

theorem segments_cut_append (cut : Cut before) (pp : PathString) :
    segments '/' (before ++ pp) = segments '/' before ++ segments '/' pp := by
  rcases cut with rfl | slash
  · rfl
  · obtain ⟨front, rfl⟩ := List.getLast?_eq_some_iff.mp slash
    rw [List.append_assoc, List.singleton_append, segments_append, segments_concat]

theorem cut_concat (list : PathString) : Cut (list ++ ['/']) :=
  Or.inr List.getLast?_concat

theorem getLast?_append_name (nonempty : name ≠ []) (absent : '/' ∉ name) :
    (before ++ name).getLast? ≠ some '/' := by
  intro slash
  rw [List.getLast?_append_of_ne_nil _ nonempty] at slash
  exact absent (List.mem_of_getLast? slash)

theorem head?_append_left (nonempty : name ≠ []) (rest : PathString) :
    (before ++ name).head? = (before ++ (name ++ rest)).head? := by
  have some : before ++ name ≠ [] := List.append_ne_nil_of_right_ne_nil _ nonempty
  rw [← List.append_assoc, List.head?_append_of_ne_nil _ some]

/-- The loop makes all names but one that no separator follows. -/
theorem ladder_prefixesFrom {rounds : Nat} (cut : Cut before) (enough : pp.length ≤ rounds) :
    ∃ more last, Ladder (before ++ pp).head? (segments '/' before)
        (prefixesFrom rounds before pp) more ∧
      segments '/' (before ++ pp) = segments '/' before ++ (more ++ segments '/' last) ∧
      '/' ∉ last ∧ (last = [] ↔ Cut (before ++ pp)) := by
  induction rounds generalizing before pp with
  | zero =>
      obtain rfl : pp = [] := List.eq_nil_of_length_eq_zero (by omega)
      refine ⟨[], [], rfl, ?_, List.not_mem_nil, ?_⟩
      · rw [List.append_nil]
        exact (List.append_nil _).symm
      · rw [List.append_nil]
        exact iff_of_true rfl cut
  | succ rounds ih =>
      rw [prefixesFrom]
      cases found : cutFirst '/' pp with
      | none =>
          have absent := cutFirst_eq_none.mp found
          refine ⟨[], pp, rfl, segments_cut_append cut pp, absent, ?_⟩
          constructor
          · rintro rfl
            rw [List.append_nil]
            exact cut
          · intro whole
            by_contra nonempty
            rcases whole with empty | slash
            · exact nonempty (List.append_eq_nil_iff.mp empty).2
            · exact getLast?_append_name nonempty absent slash
      | some parts =>
          obtain ⟨name, rest⟩ := parts
          obtain ⟨rfl, absent⟩ := cutFirst_eq_some.mp found
          rw [List.length_append, List.length_cons] at enough
          obtain ⟨more, last, ladder, parts, clean, ends⟩ :=
            @ih (before ++ name ++ ['/']) rest (cut_concat _) (by omega)
          have whole : before ++ name ++ ['/'] ++ rest = before ++ (name ++ '/' :: rest) := by simp
          rw [whole] at ladder parts ends
          rw [segments_concat] at ladder parts
          dsimp only
          by_cases empty : name = []
          · subst empty
            have same : segments '/' (before ++ []) = segments '/' before := by
              rw [List.append_nil]
            rw [same] at ladder parts
            exact ⟨more, last, ladder, parts, clean, ends⟩
          · have segment : segments '/' (before ++ name) = segments '/' before ++ [name] := by
              rw [segments_cut_append cut, segments_of_notMem empty absent]
            rw [segment] at ladder parts
            rw [if_pos empty, List.singleton_append]
            refine ⟨name :: more, last, ?_, ?_, clean, ends⟩
            · exact ⟨name, more, rfl, segment, getLast?_append_name empty absent,
                head?_append_left empty _, ladder⟩
            · rw [parts, List.append_assoc]
              rfl

/-- A path without names is empty or ends in a separator. -/
theorem cut_of_segments_eq_nil {path : PathString} (none : segments '/' path = []) : Cut path := by
  obtain ⟨more, last, -, parts, clean, ends⟩ :=
    @ladder_prefixesFrom [] path path.length (Or.inl rfl) (Nat.le_refl _)
  apply ends.mp
  by_contra some
  have whole : segments '/' path = more ++ segments '/' last := parts
  rw [none, segments_of_notMem some clean] at whole
  exact List.append_ne_nil_of_right_ne_nil _ (List.cons_ne_nil _ _) whole.symm

end Ladder

section Settle

/-- A name that a path can hold. -/
def Segment (name : Name) : Prop := name ≠ [] ∧ '/' ∉ name

inductive Settled (refuses : Location → Bool) (onEntry : Kind → Int) (tree : FileTree)
    (here : Location) (name : Name) : Int × FileTree → Prop
  | lost (other : tree.kind here ≠ some .directory) :
      Settled refuses onEntry tree here name (-1, tree)
  | refused (directory : tree.kind here = some .directory)
      (missing : tree.kind (step here name) = none) (refused : refuses (step here name) = true) :
      Settled refuses onEntry tree here name (-1, tree)
  | made (vacant : Vacant tree name here) (child : step here name = name :: here)
      (allowed : refuses (step here name) = false) :
      Settled refuses onEntry tree here name (0, tree.make name here)
  | directory (directory : tree.kind here = some .directory)
      (child : tree.kind (step here name) = some .directory) :
      Settled refuses onEntry tree here name (onEntry .directory, tree)
  | file {kind : Kind} (directory : tree.kind here = some .directory)
      (child : tree.kind (step here name) = some kind) (other : kind ≠ .directory) :
      Settled refuses onEntry tree here name (onEntry kind, tree)

variable {refuses : Location → Bool} {onEntry : Kind → Int} {tree : FileTree}
  {here : Location} {name : Name} {names : List Name}

theorem settled (segment : Segment name) :
    Settled refuses onEntry tree here name
      (settle refuses onEntry tree here name) := by
  rw [settle]
  split
  · next other => exact .lost other
  · next directory =>
      rw [ne_eq, not_not] at directory
      split
      · next missing =>
          split
          · next refused => exact .refused directory missing refused
          · next allowed =>
              rw [Bool.not_eq_true] at allowed
              have proper : name ≠ ['.'] ∧ name ≠ ['.', '.'] := by
                rw [← not_or]
                intro dots
                rw [kind_step_of_dots directory dots] at missing
                cases missing
              have child := step_of_proper proper here
              rw [child] at missing
              exact .made ⟨directory, missing, segment.1, segment.2, proper.1, proper.2⟩ child
                allowed
      · next kind child =>
          by_cases isDirectory : kind = .directory
          · subst isDirectory
            exact .directory directory child
          · exact .file directory child isDirectory

/-- What stood there stays, and no link comes. -/
theorem settle_keeps (noLinks : NoLinks tree) (segment : Segment name) :
    Within tree (settle refuses onEntry tree here name).2 ∧
      NoLinks (settle refuses onEntry tree here name).2 := by
  have result := @settled refuses onEntry tree here name segment
  generalize settle refuses onEntry tree here name = outcome at *
  cases result with
  | made vacant => exact ⟨within_make vacant, noLinks_make noLinks vacant⟩
  | lost => exact ⟨fun _ _ entry => entry, noLinks⟩
  | refused => exact ⟨fun _ _ entry => entry, noLinks⟩
  | directory => exact ⟨fun _ _ entry => entry, noLinks⟩
  | file => exact ⟨fun _ _ entry => entry, noLinks⟩

/-- Where settling ends well, something stands. -/
theorem settle_zero (segment : Segment name)
    (zero : (settle refuses onEntry tree here name).1 = 0) :
    tree.kind here = some .directory ∧
      (settle refuses onEntry tree here name).2.kind (step here name) ≠ none := by
  have result := @settled refuses onEntry tree here name segment
  generalize settle refuses onEntry tree here name = outcome at *
  cases result with
  | lost => cases zero
  | refused => cases zero
  | made vacant child =>
      refine ⟨vacant.parent, ?_⟩
      rw [child, kind_make vacant, if_pos rfl]
      exact Option.some_ne_none _
  | directory directory child =>
      refine ⟨directory, ?_⟩
      rw [child]
      exact Option.some_ne_none _
  | file directory child =>
      refine ⟨directory, ?_⟩
      rw [child]
      exact Option.some_ne_none _

theorem makeAll_eq {process : Process} {make : FileTree → PathString → Int × FileTree}
    (makes : ∀ tree path, make tree path = makeEntry process onEntry tree path)
    {path : PathString} {paths : List PathString} {more : List Name} (noLinks : NoLinks tree)
    (ladder : Ladder path.head? names paths more)
    (segment : ∀ name ∈ more, Segment name) (start : tree.kind (origin path process.cwd) ≠ none)
    (chain : Chain tree (origin path process.cwd) names)
    (leads : tree.kind (lexical (origin path process.cwd) names) ≠ none) :
    makeAll make paths tree =
      settleAll process.refuses onEntry tree
        (lexical (origin path process.cwd) names) more := by
  induction paths generalizing tree names more with
  | nil =>
      obtain rfl : more = [] := ladder
      rfl
  | cons next paths ih =>
      obtain ⟨name, rest, rfl, split, single, head, ladder⟩ := ladder
      have first := segment name List.mem_cons_self
      have same : origin next process.cwd = origin path process.cwd := by
        rw [origin, origin, head]
      have here := makeEntry_eq noLinks split single (by rw [same]; exact start)
        (by rw [same]; exact chain) (by rw [same]; exact leads) onEntry
      rw [same] at here
      rw [makeAll, settleAll, makes, here]
      split
      · next zero =>
          obtain ⟨within, noLinks'⟩ := settle_keeps noLinks first
          obtain ⟨directory, child⟩ := settle_zero first zero
          rw [← lexical_concat] at child ⊢
          have segment' : ∀ other ∈ rest, Segment other :=
            fun other member => segment other (List.mem_cons_of_mem _ member)
          refine ih noLinks' ladder segment' ?_ ?_ child
          · obtain ⟨kind, entry⟩ := Option.ne_none_iff_exists'.mp start
            rw [within _ _ entry]
            exact Option.some_ne_none _
          · rw [chain_concat]
            exact Standing.within within ⟨chain, directory⟩
      · rfl

end Settle

end OpenMplane
