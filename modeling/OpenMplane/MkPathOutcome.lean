import OpenMplane.MkPathNames

/-!
# What making a path leaves

Both versions of `mkpath` settle the names of the path one after the other.  `Path::mkpath`
returns 0 exactly when all of them are directories then, makes nothing else and may be
called again.  `PathUtils::mkpath` goes on after a file and fails at a directory at the
end, so it does the same only where the path cannot be made.
-/

namespace OpenMplane

open SeparatorRuns FileTree

section Runs

variable {refuses : Location → Bool} {onEntry : Kind → Int} {tree : FileTree}
  {here : Location} {name : Name} {names : List Name}

theorem settleAll_concat (refuses : Location → Bool) (onEntry : Kind → Int) (tree : FileTree)
    (here : Location) (names : List Name) (name : Name) :
    settleAll refuses onEntry tree here (names ++ [name]) =
      if (settleAll refuses onEntry tree here names).1 = 0 then
        settle refuses onEntry (settleAll refuses onEntry tree here names).2
          (lexical here names) name
      else settleAll refuses onEntry tree here names := by
  induction names generalizing tree here with
  | nil =>
      rw [List.nil_append, settleAll, settleAll, settleAll, if_pos rfl]
      split
      · next zero => exact Prod.ext zero.symm rfl
      · rfl
  | cons first names ih =>
      rw [List.cons_append, settleAll, settleAll]
      by_cases zero : (settle refuses onEntry tree here first).1 = 0
      · rw [if_pos zero, if_pos zero, ih]
        rfl
      · rw [if_neg zero, if_neg zero, if_neg zero]

theorem settleAll_keeps (noLinks : NoLinks tree) (segment : ∀ name ∈ names, Segment name) :
    Within tree (settleAll refuses onEntry tree here names).2 ∧
      NoLinks (settleAll refuses onEntry tree here names).2 := by
  induction names generalizing tree here with
  | nil => exact ⟨fun _ _ entry => entry, noLinks⟩
  | cons name names ih =>
      have first := @settle_keeps refuses onEntry tree here name noLinks
        (segment name List.mem_cons_self)
      rw [settleAll]
      split
      · have later := @ih _ (step here name) first.2
          fun other member => segment other (List.mem_cons_of_mem _ member)
        exact ⟨fun location kind entry => later.1 _ _ (first.1 _ _ entry), later.2⟩
      · exact first

/-- Where the run ends well, the names lead somewhere. -/
theorem settleAll_zero (noLinks : NoLinks tree) (segment : ∀ name ∈ names, Segment name)
    (start : tree.kind here ≠ none)
    (zero : (settleAll refuses onEntry tree here names).1 = 0) :
    Chain (settleAll refuses onEntry tree here names).2 here names ∧
      (settleAll refuses onEntry tree here names).2.kind (lexical here names) ≠ none := by
  induction names generalizing tree here with
  | nil => exact ⟨trivial, start⟩
  | cons name names ih =>
      have proper := segment name List.mem_cons_self
      have rest := fun other member => segment other (List.mem_cons_of_mem name member)
      rw [settleAll] at zero ⊢
      split at zero
      · next first =>
          rw [if_pos first]
          have keeps := @settle_keeps refuses onEntry tree here name noLinks proper
          obtain ⟨directory, child⟩ := settle_zero proper first
          obtain ⟨chain, leads⟩ := ih keeps.2 rest child zero
          have later := (@settleAll_keeps refuses onEntry _ (step here name) names
            keeps.2 rest).1
          exact ⟨⟨later _ _ (keeps.1 _ _ directory), chain⟩, leads⟩
      · next first => exact absurd zero first

theorem settle_new (segment : Segment name) {location : Location}
    (new : (settle refuses onEntry tree here name).2.kind location ≠
      tree.kind location) :
    tree.kind location = none ∧
      (settle refuses onEntry tree here name).2.kind location = some .directory ∧
      refuses location = false ∧ tree.kind here = some .directory ∧
      location = step here name := by
  have result := @settled refuses onEntry tree here name segment
  generalize settle refuses onEntry tree here name = outcome at *
  cases result with
  | lost => exact absurd rfl new
  | refused => exact absurd rfl new
  | directory => exact absurd rfl new
  | file => exact absurd rfl new
  | made vacant child allowed =>
      rw [kind_make vacant] at new ⊢
      split at new
      · next same =>
          rw [if_pos same]
          rw [child] at allowed
          exact ⟨same ▸ vacant.free, rfl, same ▸ allowed, vacant.parent, same.trans child.symm⟩
      · exact absurd rfl new

theorem settleAll_new (noLinks : NoLinks tree) (segment : ∀ name ∈ names, Segment name)
    {location : Location}
    (new : (settleAll refuses onEntry tree here names).2.kind location ≠
      tree.kind location) :
    tree.kind location = none ∧
      (settleAll refuses onEntry tree here names).2.kind location = some .directory ∧
      refuses location = false ∧
      ∃ front, front <+: names ∧ front ≠ [] ∧ location = lexical here front ∧
        Chain (settleAll refuses onEntry tree here names).2 here front := by
  induction names generalizing tree here with
  | nil => exact absurd rfl new
  | cons name names ih =>
      have proper := segment name List.mem_cons_self
      have rest := fun other member => segment other (List.mem_cons_of_mem name member)
      have keeps := @settle_keeps refuses onEntry tree here name noLinks proper
      have single : [name] <+: name :: names := ⟨names, rfl⟩
      rw [settleAll] at new ⊢
      split at new
      · next first =>
          rw [if_pos first]
          have later := (@settleAll_keeps refuses onEntry _ (step here name) names
            keeps.2 rest).1
          by_cases old : (settle refuses onEntry tree here name).2.kind location =
              tree.kind location
          · rw [← old] at new ⊢
            obtain ⟨missing, directory, allowed, front, inside, nonempty, rfl, chain⟩ :=
              ih keeps.2 rest new
            have parent := later _ _ (keeps.1 _ _ (settle_zero proper first).1)
            exact ⟨missing, directory, allowed, name :: front,
              (List.prefix_cons_inj name).mpr inside, List.cons_ne_nil _ _, rfl, parent, chain⟩
          · obtain ⟨missing, directory, allowed, parent, rfl⟩ := settle_new proper old
            exact ⟨missing, later _ _ directory, allowed, [name], single, List.cons_ne_nil _ _, rfl,
              later _ _ (keeps.1 _ _ parent), trivial⟩
      · next first =>
          rw [if_neg first]
          obtain ⟨missing, directory, allowed, parent, rfl⟩ := settle_new proper new
          exact ⟨missing, directory, allowed, [name], single, List.cons_ne_nil _ _, rfl,
            keeps.1 _ _ parent, trivial⟩

/-- Where the first version ends well, the name is a directory. -/
theorem settle_directory (segment : Segment name)
    (zero : (settle refuses Path.onEntry tree here name).1 = 0) :
    (settle refuses Path.onEntry tree here name).2.kind (step here name) = some .directory := by
  have result := @settled refuses Path.onEntry tree here name segment
  generalize settle refuses Path.onEntry tree here name = outcome at *
  cases result with
  | lost => cases zero
  | refused => cases zero
  | file _ _ other =>
      rw [Path.onEntry_of_ne other] at zero
      cases zero
  | directory _ child => exact child
  | made vacant child => rw [child, kind_make vacant, if_pos rfl]

/-- The first version ends well only where all names are directories. -/
theorem settleAll_standing (noLinks : NoLinks tree) (segment : ∀ name ∈ names, Segment name)
    (start : tree.kind here = some .directory)
    (zero : (settleAll refuses Path.onEntry tree here names).1 = 0) :
    Standing (settleAll refuses Path.onEntry tree here names).2 here names := by
  induction names generalizing tree here with
  | nil => exact ⟨trivial, start⟩
  | cons name names ih =>
      have proper := segment name List.mem_cons_self
      have rest := fun other member => segment other (List.mem_cons_of_mem name member)
      have keeps := @settle_keeps refuses Path.onEntry tree here name noLinks proper
      rw [settleAll] at zero ⊢
      split at zero
      · next first =>
          rw [if_pos first]
          have standing := ih keeps.2 rest (settle_directory proper first) zero
          have later := (@settleAll_keeps refuses Path.onEntry _ (step here name) names keeps.2 rest).1
          exact ⟨⟨later _ _ (keeps.1 _ _ start), standing.1⟩, standing.2⟩
      · next first => exact absurd zero first

/-- The first version ends well exactly where all names are directories then. -/
theorem settleAll_zero_iff (noLinks : NoLinks tree) (segment : ∀ name ∈ names, Segment name)
    (start : tree.kind here = some .directory) :
    (settleAll refuses Path.onEntry tree here names).1 = 0 ↔
      Standing (settleAll refuses Path.onEntry tree here names).2 here names := by
  refine ⟨settleAll_standing noLinks segment start, ?_⟩
  induction names generalizing tree here with
  | nil => exact fun _ => rfl
  | cons name names ih =>
      have proper := segment name List.mem_cons_self
      have rest := fun other member => segment other (List.mem_cons_of_mem name member)
      have keeps := @settle_keeps refuses Path.onEntry tree here name noLinks proper
      intro standing
      rw [settleAll] at standing ⊢
      split at standing
      · next first =>
          rw [if_pos first]
          exact ih keeps.2 rest (settle_directory proper first) ⟨standing.1.2, standing.2⟩
      · next first =>
          have below : Standing _ (step here name) names := ⟨standing.1.2, standing.2⟩
          have child := below.head
          have result := @settled refuses Path.onEntry tree here name proper
          generalize settle refuses Path.onEntry tree here name = outcome at *
          cases result with
          | lost other => exact absurd start other
          | refused _ missing =>
              rw [missing] at child
              cases child
          | file _ file other =>
              rw [file] at child
              exact absurd (Option.some.inj child) other
          | directory => exact absurd rfl first
          | made => exact absurd rfl first

theorem settleAll_of_standing (zero : onEntry .directory = 0)
    (standing : Standing tree here names) :
    settleAll refuses onEntry tree here names = (0, tree) := by
  induction names generalizing here with
  | nil => rfl
  | cons name names ih =>
      have below : Standing tree (step here name) names := ⟨standing.1.2, standing.2⟩
      have first : settle refuses onEntry tree here name = (0, tree) := by
        rw [settle, if_neg (not_not.mpr standing.1.1), below.head]
        exact Prod.ext zero rfl
      rw [settleAll, first, if_pos rfl, ih below]

theorem settleAll_status (segment : ∀ name ∈ names, Segment name) :
    (settleAll refuses Path.onEntry tree here names).1 = 0 ∨
      (settleAll refuses Path.onEntry tree here names).1 = -1 := by
  induction names generalizing tree here with
  | nil => exact Or.inl rfl
  | cons name names ih =>
      rw [settleAll]
      split
      · exact ih fun other member => segment other (List.mem_cons_of_mem name member)
      · next first =>
          have result := @settled refuses Path.onEntry tree here name (segment name List.mem_cons_self)
          generalize settle refuses Path.onEntry tree here name = outcome at *
          cases result with
          | lost => exact Or.inr rfl
          | refused => exact Or.inr rfl
          | file _ _ other => exact Or.inr (Path.onEntry_of_ne other)
          | directory => exact Or.inl rfl
          | made => exact Or.inl rfl

theorem settle_onStep : settle refuses PathUtils.onStep tree here name =
      settle refuses Path.onEntry tree here name ∨
    (∃ kind, tree.kind (step here name) = some kind ∧ kind ≠ .directory) ∧
      settle refuses PathUtils.onStep tree here name = (0, tree) ∧
      settle refuses Path.onEntry tree here name = (-1, tree) := by
  rw [settle, settle]
  split
  · exact Or.inl rfl
  · cases child : tree.kind (step here name) with
    | none => exact Or.inl rfl
    | some kind =>
        by_cases directory : kind = .directory
        · subst directory
          exact Or.inl rfl
        · exact Or.inr ⟨⟨kind, rfl, directory⟩, rfl,
            Prod.ext (Path.onEntry_of_ne directory) rfl⟩

/-- The second version goes on after a file, and so ends well where it is the last name;
elsewhere the two do the same. -/
theorem settleAll_onStep (noLinks : NoLinks tree) (segment : ∀ name ∈ names, Segment name)
    (start : tree.kind here = some .directory) :
    settleAll refuses PathUtils.onStep tree here names = settleAll refuses Path.onEntry tree here names ∨
      ∃ after, settleAll refuses PathUtils.onStep tree here names = (0, after) ∧
        settleAll refuses Path.onEntry tree here names = (-1, after) ∧
        ∃ kind, after.kind (lexical here names) = some kind ∧ kind ≠ .directory := by
  induction names generalizing tree here with
  | nil => exact Or.inl rfl
  | cons name names ih =>
      have proper := segment name List.mem_cons_self
      have rest := fun other member => segment other (List.mem_cons_of_mem name member)
      have keeps := @settle_keeps refuses Path.onEntry tree here name noLinks proper
      rw [settleAll, settleAll]
      rcases @settle_onStep refuses tree here name with same | ⟨file, second, first⟩
      · rw [same]
        by_cases zero : (settle refuses Path.onEntry tree here name).1 = 0
        · rw [if_pos zero, if_pos zero]
          exact ih keeps.2 rest (settle_directory proper zero)
        · rw [if_neg zero, if_neg zero]
          exact Or.inl rfl
      · have negative : ¬ (-1 : Int) = 0 := by decide
        rw [second, first, if_pos rfl, if_neg negative]
        cases names with
        | nil => exact Or.inr ⟨tree, rfl, rfl, file⟩
        | cons next names =>
            have lost : settle refuses PathUtils.onStep tree (step here name) next = (-1, tree) := by
              obtain ⟨kind, file, other⟩ := file
              rw [settle, file, if_pos (mt Option.some.inj other)]
            rw [settleAll, lost, if_neg negative]
            exact Or.inl rfl

end Runs

end OpenMplane
