import OpenMplane.Forest

/-!
# Walks over a forest

A node of a forest is known by the nodes above it.  Two walks visit every node
together with what stands above it.  One goes down before it goes on; the other,
by which a search finds the nearest node, takes the siblings first and then goes
down behind one sibling after the other.  Pruning drops some nodes with
everything below them, and leaves of either walk, in the same order, the nodes
that have no dropped one above them.
-/

namespace Forest

variable {α : Type*}

/-- Every node with the nodes above it, the nearest of them first. -/
def walk (above : List α) : Forest α → List (List α × α)
  | nil => []
  | node label children siblings =>
      (above, label) :: (children.walk (label :: above) ++ siblings.walk above)

def siblingWalk (above : List α) : Forest α → List (List α × α)
  | nil => []
  | node label _ siblings => (above, label) :: siblings.siblingWalk above

/-- What stands below the siblings, level by level behind each of them. -/
def walkBelow (above : List α) : Forest α → List (List α × α)
  | nil => []
  | node label children siblings =>
      children.siblingWalk (label :: above) ++ children.walkBelow (label :: above) ++
        siblings.walkBelow above

def levelWalk (above : List α) (forest : Forest α) : List (List α × α) :=
  forest.siblingWalk above ++ forest.walkBelow above

/-- The forest without the nodes to drop and without what stands below them. -/
def prune (drops : α → Bool) (forest : Forest α) : Forest α :=
  forest.splice fun label => if drops label then .drop else .keep

/-- Neither the node nor one above it is dropped. -/
def spared (drops : α → Bool) (visit : List α × α) : Bool :=
  !drops visit.2 && visit.1.all fun label => !drops label

section Prune

variable {drops : α → Bool} {above : List α}

@[simp] theorem prune_nil : (nil : Forest α).prune drops = nil := rfl

theorem prune_of_dropped {label : α} (dropped : drops label = true)
    (children siblings : Forest α) :
    (node label children siblings).prune drops = siblings.prune drops := by
  simp only [prune, splice, dropped, if_true]

theorem prune_of_kept {label : α} (kept : drops label = false) (children siblings : Forest α) :
    (node label children siblings).prune drops =
      node label (children.prune drops) (siblings.prune drops) := by
  simp [prune, splice, kept]

theorem spared_of_above {label : α} (dropped : drops label = true) {visit : List α × α}
    (member : label ∈ visit.1) : spared drops visit = false := by
  have some : visit.1.all (fun label => !drops label) = false :=
    List.all_eq_false.mpr ⟨label, member, by simp [dropped]⟩
  rw [spared, some, Bool.and_false]

/-- Nothing is spared below a dropped node. -/
theorem filter_spared_of_above {label : α} (dropped : drops label = true)
    {visits : List (List α × α)} (below : ∀ visit ∈ visits, label ∈ visit.1) :
    visits.filter (spared drops) = [] := by
  rw [List.filter_eq_nil_iff]
  intro visit member
  rw [spared_of_above dropped (below visit member)]
  exact Bool.false_ne_true

theorem mem_above_of_walk {forest : Forest α} {label : α} {visit : List α × α}
    (member : visit ∈ forest.walk above) (below : label ∈ above) : label ∈ visit.1 := by
  induction forest generalizing above with
  | nil => cases member
  | node head children siblings ihChildren ihSiblings =>
      rw [walk, List.mem_cons, List.mem_append] at member
      rcases member with rfl | inside | behind
      · exact below
      · exact ihChildren inside (List.mem_cons_of_mem _ below)
      · exact ihSiblings behind below

theorem above_of_siblingWalk {forest : Forest α} {visit : List α × α}
    (member : visit ∈ forest.siblingWalk above) : visit.1 = above := by
  induction forest with
  | nil => cases member
  | node head children siblings _ ih =>
      rcases List.mem_cons.mp member with rfl | behind
      · rfl
      · exact ih behind

theorem mem_above_of_walkBelow {forest : Forest α} {label : α} {visit : List α × α}
    (member : visit ∈ forest.walkBelow above) (below : label ∈ above) : label ∈ visit.1 := by
  induction forest generalizing above with
  | nil => cases member
  | node head children siblings ihChildren ihSiblings =>
      rw [walkBelow, List.mem_append, List.mem_append] at member
      rcases member with (near | inside) | behind
      · rw [above_of_siblingWalk near]
        exact List.mem_cons_of_mem _ below
      · exact ihChildren inside (List.mem_cons_of_mem _ below)
      · exact ihSiblings behind below

theorem spared_of_kept (kept : ∀ label ∈ above, drops label = false) (label : α) :
    spared drops (above, label) = !drops label := by
  have all : above.all (fun label => !drops label) = true :=
    List.all_eq_true.mpr fun label member => by rw [kept label member]; rfl
  rw [spared, all, Bool.and_true]

theorem kept_cons {label : α} (here : drops label = false)
    (kept : ∀ label ∈ above, drops label = false) :
    ∀ other ∈ label :: above, drops other = false := by
  intro other member
  rcases List.mem_cons.mp member with rfl | behind
  · exact here
  · exact kept other behind

/-- Pruning leaves of the walk the spared nodes. -/
theorem walk_prune (kept : ∀ label ∈ above, drops label = false) (forest : Forest α) :
    (forest.prune drops).walk above = (forest.walk above).filter (spared drops) := by
  induction forest generalizing above with
  | nil => rfl
  | node label children siblings ihChildren ihSiblings =>
      have here := spared_of_kept kept label
      cases dropped : drops label with
      | true =>
          have inside : (children.walk (label :: above)).filter (spared drops) = [] :=
            filter_spared_of_above dropped fun visit member =>
              mem_above_of_walk member (List.mem_cons_self ..)
          rw [prune_of_dropped dropped, walk, List.filter_cons, here, dropped,
            List.filter_append, inside, ihSiblings kept]
          rfl
      | false =>
          rw [prune_of_kept dropped, walk, walk, List.filter_cons, here, dropped,
            List.filter_append, ihChildren (kept_cons dropped kept), ihSiblings kept]
          rfl

theorem siblingWalk_prune (kept : ∀ label ∈ above, drops label = false) (forest : Forest α) :
    (forest.prune drops).siblingWalk above =
      (forest.siblingWalk above).filter (spared drops) := by
  induction forest with
  | nil => rfl
  | node label children siblings _ ih =>
      have here := spared_of_kept kept label
      cases dropped : drops label with
      | true =>
          rw [prune_of_dropped dropped, siblingWalk, List.filter_cons, here, dropped, ih]
          rfl
      | false =>
          rw [prune_of_kept dropped, siblingWalk, siblingWalk, List.filter_cons, here, dropped, ih]
          rfl

theorem walkBelow_prune (kept : ∀ label ∈ above, drops label = false) (forest : Forest α) :
    (forest.prune drops).walkBelow above = (forest.walkBelow above).filter (spared drops) := by
  induction forest generalizing above with
  | nil => rfl
  | node label children siblings ihChildren ihSiblings =>
      cases dropped : drops label with
      | true =>
          have near : (children.siblingWalk (label :: above)).filter (spared drops) = [] :=
            filter_spared_of_above dropped fun visit member => by
              rw [above_of_siblingWalk member]
              exact List.mem_cons_self ..
          have inside : (children.walkBelow (label :: above)).filter (spared drops) = [] :=
            filter_spared_of_above dropped fun visit member =>
              mem_above_of_walkBelow member (List.mem_cons_self ..)
          rw [prune_of_dropped dropped, walkBelow, List.filter_append, List.filter_append, near,
            inside, ihSiblings kept]
          rfl
      | false =>
          have below := kept_cons dropped kept
          rw [prune_of_kept dropped, walkBelow, walkBelow, List.filter_append,
            List.filter_append, siblingWalk_prune below, ihChildren below, ihSiblings kept]

/-- Pruning leaves of the walk by levels the spared nodes. -/
theorem levelWalk_prune (drops : α → Bool) (forest : Forest α) :
    (forest.prune drops).levelWalk [] = (forest.levelWalk []).filter (spared drops) := by
  have kept : ∀ label ∈ ([] : List α), drops label = false := by simp
  rw [levelWalk, levelWalk, List.filter_append, siblingWalk_prune kept, walkBelow_prune kept]

end Prune

end Forest
