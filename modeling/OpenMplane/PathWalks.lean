import OpenMplane.FileTree

/-!
# Walks along a path

A path is walked name by name from the top or from the directory in which a process
works.  A symbolic link on the way is replaced by the path it holds, once less often for
each link; at the end of the path it may be left alone.  This file gives the walk, and
how it is composed, cut and kept when entries go.
-/

namespace FileTree

open SeparatorRuns

/-- The names a path goes through; a separator at the end asks for a directory, as the
name of the directory itself does. -/
def pathNames (path : List Char) : List Name :=
  segments '/' path ++ (if path.getLast? = some '/' then [['.']] else [])

inductive Fault
  | noEntry
  | notDirectory
  | tooManyLinks
  deriving DecidableEq

/-- Where a walk has led, and how many links it may still follow. -/
abbrev Walked := Except Fault (Location × Nat)

/-- Where a path begins. -/
def origin (path : List Char) (here : Location) : Location :=
  if path.head? = some '/' then [] else here

/-- The walk with a budget of links, given how the walk goes on behind a link. -/
def walkNames (tree : FileTree) (last : Bool) (budget : Nat)
    (follow : List Char → Location → List Name → Walked) : Location → List Name → Walked
  | here, [] => .ok (here, budget)
  | here, name :: rest =>
      if tree.kind here ≠ some .directory then .error .notDirectory
      else if name = ['.'] then walkNames tree last budget follow here rest
      else if name = ['.', '.'] then walkNames tree last budget follow here.tail rest
      else
        match tree.kind (name :: here) with
        | none => .error .noEntry
        | some (.link target) =>
            if rest = [] ∧ last = false then .ok (name :: here, budget)
            else follow target here rest
        | some _ => walkNames tree last budget follow (name :: here) rest

/-- The walk along names; `last` says whether a link at the end is followed. -/
def walk (tree : FileTree) (last : Bool) : Nat → Location → List Name → Walked
  | 0 => walkNames tree last 0 fun _ _ _ => .error .tooManyLinks
  | budget + 1 => walkNames tree last (budget + 1) fun target here rest =>
      if target = [] then .error .noEntry
      else walk tree last budget (origin target here) (pathNames target ++ rest)

/-- How the walk goes on behind a link. -/
def followLink (tree : FileTree) (last : Bool) (budget : Nat) (target : List Char)
    (here : Location) (rest : List Name) : Walked :=
  match budget with
  | 0 => .error .tooManyLinks
  | budget + 1 =>
      if target = [] then .error .noEntry
      else walk tree last budget (origin target here) (pathNames target ++ rest)

/-- The walk leads to a location and leaves a budget. -/
inductive Leads (tree : FileTree) (last : Bool) :
    Nat → Location → List Name → Location → Nat → Prop
  | done {budget here} : Leads tree last budget here [] here budget
  | stay {budget here rest place left} (directory : tree.kind here = some .directory)
      (further : Leads tree last budget here rest place left) :
      Leads tree last budget here (['.'] :: rest) place left
  | up {budget here rest place left} (directory : tree.kind here = some .directory)
      (further : Leads tree last budget here.tail rest place left) :
      Leads tree last budget here (['.', '.'] :: rest) place left
  | down {budget here name rest place left kind} (directory : tree.kind here = some .directory)
      (proper : name ≠ ['.'] ∧ name ≠ ['.', '.']) (entry : tree.kind (name :: here) = some kind)
      (noLink : ∀ target, kind ≠ .link target)
      (further : Leads tree last budget (name :: here) rest place left) :
      Leads tree last budget here (name :: rest) place left
  | stop {budget here name target} (notLast : last = false)
      (directory : tree.kind here = some .directory)
      (proper : name ≠ ['.'] ∧ name ≠ ['.', '.'])
      (entry : tree.kind (name :: here) = some (.link target)) :
      Leads tree last budget here [name] (name :: here) budget
  | follow {budget here name rest target place left}
      (directory : tree.kind here = some .directory)
      (proper : name ≠ ['.'] ∧ name ≠ ['.', '.'])
      (entry : tree.kind (name :: here) = some (.link target))
      (onward : ¬ (rest = [] ∧ last = false)) (nonempty : target ≠ [])
      (further :
        Leads tree last budget (origin target here) (pathNames target ++ rest) place left) :
      Leads tree last (budget + 1) here (name :: rest) place left

variable {tree after : FileTree} {last : Bool} {budget : Nat} {here : Location}
  {name : Name} {rest : List Name}

section Steps

@[simp]
theorem walk_nil : walk tree last budget here [] = .ok (here, budget) := by
  cases budget <;> rfl

theorem walk_cons :
    walk tree last budget here (name :: rest) =
      if tree.kind here ≠ some .directory then .error .notDirectory
      else if name = ['.'] then walk tree last budget here rest
      else if name = ['.', '.'] then walk tree last budget here.tail rest
      else
        match tree.kind (name :: here) with
        | none => .error .noEntry
        | some (.link target) =>
            if rest = [] ∧ last = false then .ok (name :: here, budget)
            else followLink tree last budget target here rest
        | some _ => walk tree last budget (name :: here) rest := by
  cases budget <;> rfl

theorem followLink_succ (target : List Char) :
    followLink tree last (budget + 1) target here rest =
      if target = [] then .error .noEntry
      else walk tree last budget (origin target here) (pathNames target ++ rest) :=
  rfl

/-- A fact about all walks: along names, and behind a link with a smaller budget. -/
theorem walk_induction {P : Nat → Location → List Name → Prop}
    (nil : ∀ budget here, P budget here [])
    (cons : ∀ budget here name rest, (∀ place, P budget place rest) →
      (∀ less, budget = less + 1 → ∀ place names, P less place names) →
        P budget here (name :: rest)) :
    ∀ budget here names, P budget here names := by
  intro budget
  induction budget with
  | zero =>
      intro here names
      induction names generalizing here with
      | nil => exact nil 0 here
      | cons name rest ih => exact cons 0 here name rest ih (by simp)
  | succ budget smaller =>
      intro here names
      induction names generalizing here with
      | nil => exact nil _ here
      | cons name rest ih =>
          refine cons _ here name rest ih fun less same => ?_
          obtain rfl : budget = less := Nat.succ.inj same
          exact smaller

end Steps

section Leads

theorem leads_of_walk {names : List Name} {place : Location} {left : Nat}
    (ended : walk tree last budget here names = .ok (place, left)) :
    Leads tree last budget here names place left := by
  induction budget, here, names using walk_induction with
  | nil budget here =>
      rw [walk_nil] at ended
      cases ended
      exact .done
  | cons budget here name rest along behind =>
      rw [walk_cons] at ended
      split at ended
      · cases ended
      next directory =>
      rw [ne_eq, not_not] at directory
      split at ended
      · next dot =>
          subst dot
          exact .stay directory (along here ended)
      next dot =>
      split at ended
      · next parent =>
          subst parent
          exact .up directory (along here.tail ended)
      next parent =>
      split at ended
      · cases ended
      · next target entry =>
          split at ended
          · next final =>
              obtain ⟨rfl, notLast⟩ := final
              cases ended
              exact .stop notLast directory ⟨dot, parent⟩ entry
          · next onward =>
              cases budget with
              | zero => cases ended
              | succ less =>
                  rw [followLink_succ] at ended
                  split at ended
                  · cases ended
                  · next nonempty =>
                      exact .follow directory ⟨dot, parent⟩ entry onward nonempty
                        (behind less rfl _ _ ended)
      · next kind noLink entry =>
          exact .down directory ⟨dot, parent⟩ entry noLink (along (name :: here) ended)

theorem walk_of_leads {names : List Name} {place : Location} {left : Nat}
    (leads : Leads tree last budget here names place left) :
    walk tree last budget here names = .ok (place, left) := by
  induction leads with
  | done => exact walk_nil
  | stay directory further ih =>
      rw [walk_cons, if_neg (not_not.mpr directory), if_pos rfl, ih]
  | up directory further ih =>
      rw [walk_cons, if_neg (not_not.mpr directory), if_neg (by decide), if_pos rfl, ih]
  | @down budget here name rest place left kind directory proper entry noLink further ih =>
      rw [walk_cons, if_neg (not_not.mpr directory), if_neg proper.1, if_neg proper.2, entry]
      cases kind with
      | file => exact ih
      | directory => exact ih
      | special type => exact ih
      | link target => exact absurd rfl (noLink target)
  | stop notLast directory proper entry =>
      rw [walk_cons, if_neg (not_not.mpr directory), if_neg proper.1, if_neg proper.2, entry]
      exact if_pos ⟨rfl, notLast⟩
  | follow directory proper entry onward nonempty further ih =>
      rw [walk_cons, if_neg (not_not.mpr directory), if_neg proper.1, if_neg proper.2, entry]
      dsimp only
      rw [if_neg onward, followLink_succ, if_neg nonempty, ih]

variable {names : List Name} {place other : Location} {left less : Nat}

theorem Leads.unique (first : Leads tree last budget here names place left)
    (second : Leads tree last budget here names other less) : place = other ∧ left = less := by
  have same := (walk_of_leads first).symm.trans (walk_of_leads second)
  cases same
  exact ⟨rfl, rfl⟩

/-- A walk goes on where another has led. -/
theorem Leads.append {second : List Name} (leads : Leads tree true budget here names place left)
    (onward : second ≠ [] ∨ last = true)
    (further : Leads tree last left place second other less) :
    Leads tree last budget here (names ++ second) other less := by
  have more {rest : List Name} : ¬ (rest ++ second = [] ∧ last = false) := by
    rintro ⟨none, notLast⟩
    rcases onward with some | isLast
    · exact some (List.append_eq_nil_iff.mp none).2
    · rw [isLast] at notLast
      cases notLast
  induction leads with
  | done => exact further
  | stay directory _ ih => exact .stay directory (ih further)
  | up directory _ ih => exact .up directory (ih further)
  | down directory proper entry noLink _ ih =>
      exact .down directory proper entry noLink (ih further)
  | stop notLast => cases notLast
  | follow directory proper entry _ nonempty _ ih =>
      have whole := ih further
      rw [List.append_assoc] at whole
      exact .follow directory proper entry more nonempty whole

/-- A walk along two lists of names leads somewhere in between. -/
theorem Leads.split {first second : List Name}
    (leads : Leads tree last budget here (first ++ second) other less)
    (onward : second ≠ [] ∨ last = true) :
    ∃ place left, Leads tree true budget here first place left ∧
      Leads tree last left place second other less := by
  generalize whole : first ++ second = names at leads
  induction leads generalizing first with
  | done =>
      obtain ⟨rfl, rfl⟩ := List.append_eq_nil_iff.mp whole
      exact ⟨_, _, .done, .done⟩
  | stay directory further ih =>
      cases first with
      | nil =>
          rw [List.nil_append] at whole
          exact ⟨_, _, .done, whole ▸ .stay directory further⟩
      | cons name first =>
          obtain ⟨rfl, rfl⟩ := List.cons.inj whole
          obtain ⟨place, left, start, finish⟩ := ih rfl
          exact ⟨place, left, .stay directory start, finish⟩
  | up directory further ih =>
      cases first with
      | nil =>
          rw [List.nil_append] at whole
          exact ⟨_, _, .done, whole ▸ .up directory further⟩
      | cons name first =>
          obtain ⟨rfl, rfl⟩ := List.cons.inj whole
          obtain ⟨place, left, start, finish⟩ := ih rfl
          exact ⟨place, left, .up directory start, finish⟩
  | down directory proper entry noLink further ih =>
      cases first with
      | nil =>
          rw [List.nil_append] at whole
          exact ⟨_, _, .done, whole ▸ .down directory proper entry noLink further⟩
      | cons name first =>
          obtain ⟨rfl, rfl⟩ := List.cons.inj whole
          obtain ⟨place, left, start, finish⟩ := ih rfl
          exact ⟨place, left, .down directory proper entry noLink start, finish⟩
  | stop notLast directory proper entry =>
      cases first with
      | nil =>
          rw [List.nil_append] at whole
          exact ⟨_, _, .done, whole ▸ .stop notLast directory proper entry⟩
      | cons name first =>
          obtain ⟨rfl, none⟩ := List.cons.inj whole
          rcases onward with some | isLast
          · exact absurd (List.append_eq_nil_iff.mp none).2 some
          · rw [isLast] at notLast
            cases notLast
  | follow directory proper entry more nonempty further ih =>
      cases first with
      | nil =>
          rw [List.nil_append] at whole
          exact ⟨_, _, .done, whole ▸ .follow directory proper entry more nonempty further⟩
      | cons name first =>
          obtain ⟨rfl, rfl⟩ := List.cons.inj whole
          obtain ⟨place, left, start, finish⟩ := ih (List.append_assoc _ _ _)
          exact ⟨place, left, .follow directory proper entry (by simp) nonempty start, finish⟩

/-- Nothing stands in the second tree that does not stand in the first. -/
def Within (after tree : FileTree) : Prop :=
  ∀ location kind, after.kind location = some kind → tree.kind location = some kind

/-- A walk that is there when entries have gone was there before. -/
theorem Leads.before (within : Within after tree)
    (leads : Leads after last budget here names place left) :
    Leads tree last budget here names place left := by
  induction leads with
  | done => exact .done
  | stay directory _ ih => exact .stay (within _ _ directory) ih
  | up directory _ ih => exact .up (within _ _ directory) ih
  | down directory proper entry noLink _ ih =>
      exact .down (within _ _ directory) proper (within _ _ entry) noLink ih
  | stop notLast directory proper entry =>
      exact .stop notLast (within _ _ directory) proper (within _ _ entry)
  | follow directory proper entry onward nonempty _ ih =>
      exact .follow (within _ _ directory) proper (within _ _ entry) onward nonempty ih

end Leads

section Resolve

/-- The links a walk may follow. -/
def linkBudget : Nat := 40

/-- Where a path leads for a process that works in a directory. -/
def resolve (tree : FileTree) (last : Bool) (cwd : Location) (path : List Char) : Walked :=
  if path = [] then .error .noEntry
  else walk tree last linkBudget (origin path cwd) (pathNames path)

/-- What `stat` or, when a link at the end is not followed, `lstat` finds. -/
def found (tree : FileTree) (last : Bool) (cwd : Location) (path : List Char) : Option Kind :=
  match resolve tree last cwd path with
  | .ok (place, _) => tree.kind place
  | .error _ => none

end Resolve

end FileTree
