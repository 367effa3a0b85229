import ComponentLint.Proofs.Graph.Search
/-
  The components of a graph are its classes of nodes that reach each other, each once, behind those
  that they reach (`components_list_classes`). The search that finds them ends if it may nest as
  many visits as the graph has nodes, and allowing it more makes no difference (`components?_eq`).
-/

namespace ComponentLint.Graph

variable {α : Type} [DecidableEq α]

/-! ## The depth of the search -/

/-- A fold goes as another one if each of its steps does. -/
theorem foldlM_eq_some_of_imp {β γ : Type} {f f' : β → γ → Option β}
    (h : ∀ b c b', f b c = some b' → f' b c = some b') (l : List γ) {b b' : β}
    (hl : l.foldlM f b = some b') : l.foldlM f' b = some b' := by
  induction l generalizing b with
  | nil => exact hl
  | cons c l ih =>
    rw [List.foldlM_cons] at hl ⊢
    obtain ⟨mid, hmid, hrest⟩ := Option.bind_eq_some_iff.1 hl
    exact Option.bind_eq_some_iff.2 ⟨mid, h b c mid hmid, ih hrest⟩

theorem visit_succ {le : α → α → Bool} {g : Graph α} (depth : Nat) (s : Search α) (node : α)
    {later : Search α} (h : g.visit le depth s node = some later) :
    g.visit le (depth + 1) s node = some later := by
  induction depth generalizing s node later with
  | zero => exact absurd h (Option.some_ne_none later).symm
  | succ depth ih =>
    rw [visit] at h ⊢
    obtain ⟨inner, hinner, hlater⟩ := Option.map_eq_some_iff.1 h
    refine Option.map_eq_some_iff.2
      ⟨inner, foldlM_eq_some_of_imp (fun t a u hu => ?_) _ hinner, hlater⟩
    unfold Search.follow at hu ⊢
    split
    · next hentered => rwa [if_pos hentered] at hu
    · next hentered =>
      rw [if_neg hentered] at hu
      obtain ⟨v, hv, heq⟩ := Option.map_eq_some_iff.1 hu
      exact Option.map_eq_some_iff.2 ⟨v, ih t a hv, heq⟩

theorem search?_of_le {le : α → α → Bool} {g : Graph α} {depth more : Nat} (h : depth ≤ more)
    {s : Search α} (hs : g.search? le depth = some s) : g.search? le more = some s := by
  induction h with
  | refl => exact hs
  | step _ ih =>
    refine foldlM_eq_some_of_imp (fun t a u hu => ?_) _ ih
    split
    · next hentered => rwa [if_pos hentered] at hu
    · next hentered =>
      rw [if_neg hentered] at hu
      exact visit_succ _ t a hu

/-! ## Classes -/

/-- The classes of nodes that reach each other, each once, behind those that they reach. -/
structure ListsClasses (g : Graph α) (classes : List (List α)) : Prop where
  nonempty : ∀ c ∈ classes, c ≠ []
  nodup : ∀ c ∈ classes, c.Nodup
  disjoint : classes.Pairwise List.Disjoint
  /-- Every node is in a class, also one that has no entry of its own. -/
  covers : ∀ a, (∃ c ∈ classes, a ∈ c) ↔ ∃ b next, (b, next) ∈ g ∧ (a = b ∨ a ∈ next)
  together : ∀ c ∈ classes, ∀ a ∈ c, ∀ b, b ∈ c ↔ g.Reaches a b ∧ g.Reaches b a
  /-- No class reaches one that is listed behind it. -/
  inOrder : classes.Pairwise fun c d => ∀ a ∈ c, ∀ b ∈ d, ¬ g.Reaches a b

/-- A search that is in order, with no visit under way and all listed nodes entered, has found the
classes. -/
theorem listsClasses_of_valid {g : Graph α} (hk : (g.map Prod.fst).Nodup) {s : Search α}
    (h : Search.Valid g [] s) (hlisted : ∀ a ∈ g.map Prod.fst, s.entered a = true) :
    ListsClasses g s.components := by
  have hstack : ∀ a, a ∉ s.stack := fun a ha => by
    obtain ⟨b, hb, -⟩ := h.downward a ha
    exact List.not_mem_nil hb
  constructor
  case nonempty => exact h.classes.nonempty
  case nodup => exact h.classes.nodup
  case disjoint => exact h.classes.inOrder.imp fun hcd a ha hb => hcd a ha a hb .refl
  case covers =>
    intro a
    have hentered : (∃ c ∈ s.components, a ∈ c) ↔ s.entered a = true := by
      rw [h.entered, or_iff_right (hstack a), List.mem_flatten]
    rw [hentered, ← mem_nodes_iff]
    refine ⟨h.node a, fun ha => ?_⟩
    obtain ⟨b, next, hg, rfl | ha⟩ := mem_nodes_iff.1 ha
    · exact hlisted a (List.mem_map_of_mem hg)
    · exact h.left b (hlisted b (List.mem_map_of_mem hg)) List.not_mem_nil a
        ((mem_successors_iff hk).2 ⟨next, hg, ha⟩)
  case together => exact h.classes.together
  case inOrder => exact h.classes.inOrder

/-- The order inside a class does not matter. -/
theorem ListsClasses.map_sortBy {g : Graph α} {classes : List (List α)} (h : ListsClasses g classes)
    (le : α → α → Bool) : ListsClasses g (classes.map (sortBy le)) := by
  constructor
  case nonempty =>
    refine List.forall_mem_map.2 fun c hc heq => h.nonempty c hc ?_
    exact ((sortBy_perm le c).symm.trans (heq ▸ .refl _)).eq_nil
  case nodup => exact List.forall_mem_map.2 fun c hc => (sortBy_perm le c).nodup_iff.2 (h.nodup c hc)
  case disjoint =>
    refine List.pairwise_map.2 (h.disjoint.imp fun hcd a ha hb => ?_)
    exact hcd (mem_sortBy.1 ha) (mem_sortBy.1 hb)
  case covers =>
    intro a
    rw [← h.covers a]
    simp only [List.mem_map, exists_exists_and_eq_and, mem_sortBy]
  case together =>
    refine List.forall_mem_map.2 fun c hc a ha b => ?_
    rw [mem_sortBy]
    exact h.together c hc a (mem_sortBy.1 ha) b
  case inOrder =>
    refine List.pairwise_map.2 (h.inOrder.imp fun hcd a ha b hb => ?_)
    exact hcd a (mem_sortBy.1 ha) b (mem_sortBy.1 hb)

/-! ## Components -/

theorem components?_eq (le : α → α → Bool) (g : Graph α) {depth : Nat} (h : g.nodes.length ≤ depth) :
    g.components? le depth = some (g.components le) := by
  obtain ⟨s, hs, -⟩ := exists_search le g (Nat.le_refl _)
  unfold components components?
  rw [hs, search?_of_le h hs]
  rfl

theorem listsClasses_components (le : α → α → Bool) {g : Graph α} (hk : (g.map Prod.fst).Nodup) :
    ListsClasses g (g.components le) := by
  obtain ⟨s, hs, hvalid, hlisted⟩ := exists_search le g (Nat.le_refl _)
  unfold components components?
  rw [hs]
  exact (listsClasses_of_valid hk hvalid hlisted).map_sortBy le

section

variable {le : α → α → Bool} {g : Graph α} (hk : (g.map Prod.fst).Nodup) {c : List α}

include hk

/-- The component of a node holds what the node reaches and is reached by. -/
theorem mem_component_iff (hc : c ∈ g.components le) {a b : α} (ha : a ∈ c) :
    b ∈ c ↔ g.Mutual a b :=
  (listsClasses_components le hk).together c hc a ha b

theorem mem_nodes_of_mem_components (hc : c ∈ g.components le) {a : α} (ha : a ∈ c) : a ∈ g.nodes :=
  mem_nodes_iff.2 (((listsClasses_components le hk).covers a).1 ⟨c, hc, ha⟩)

/-- Every node is in a component, and a component is all that reach one of its nodes and are
reached by it. -/
theorem mem_components_iff (le : α → α → Bool) {a b : α} (ha : a ∈ g.nodes) :
    (∃ c ∈ g.components le, a ∈ c ∧ b ∈ c) ↔ g.Mutual a b := by
  constructor
  · rintro ⟨c, hc, hac, hbc⟩
    exact (mem_component_iff hk hc hac).1 hbc
  · intro hab
    obtain ⟨c, hc, hac⟩ := ((listsClasses_components le hk).covers a).2 (mem_nodes_iff.1 ha)
    exact ⟨c, hc, hac, (mem_component_iff hk hc hac).2 hab⟩

end

/-- The components of a graph are its classes, however deep the search may go beyond the number of
nodes. -/
theorem components_list_classes (le : α → α → Bool) (g : Graph α) (hk : (g.map Prod.fst).Nodup) :
    (∀ depth, g.nodes.length ≤ depth → g.components? le depth = some (g.components le)) ∧
      ListsClasses g (g.components le) :=
  ⟨fun _ h => components?_eq le g h, listsClasses_components le hk⟩

/-- Two nodes that reach each other, one that leads to them and to itself, and one without an
entry. -/
theorem components_around_circle :
    let g : Graph Int := [(2, [1]), (0, [1, 0]), (1, [2, 3])]
    (g.map Prod.fst).Nodup ∧ g.components (· ≤ ·) = [[3], [1, 2], [0]] ∧
      g.components? (· ≤ ·) 4 = some [[3], [1, 2], [0]] ∧ ListsClasses g (g.components (· ≤ ·)) := by
  intro g
  have hk : (g.map Prod.fst).Nodup := by decide
  have h := components_list_classes (· ≤ ·) g hk
  have hcomponents : g.components (· ≤ ·) = [[3], [1, 2], [0]] := by decide +kernel
  exact ⟨hk, hcomponents, hcomponents ▸ h.1 4 (by decide), h.2⟩

end ComponentLint.Graph
