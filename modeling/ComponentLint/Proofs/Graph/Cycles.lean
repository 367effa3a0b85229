import ComponentLint.Proofs.Graph.Components
import ComponentLint.SectionGraph
/-
  The cycles of a graph without loops: a node is listed in one exactly when a path leads from it
  back to itself (`mem_flatten_cyclesOf`, `exists_mutual_iff`). A component counts as a cycle when
  it has a second node, and no two cycles share one.
-/

namespace ComponentLint.SectionGraph

open ComponentLint.Graph

variable {g : Graph Nat}

theorem mem_cyclesOf_iff {c : List Nat} :
    c ∈ cyclesOf g ↔ c ∈ g.components (· ≤ ·) ∧ 1 < c.length := by
  simp only [cyclesOf, mem_sortBy, List.mem_filter, decide_eq_true_eq]

theorem pairwise_disjoint_cyclesOf (hk : (g.map Prod.fst).Nodup) :
    (cyclesOf g).Pairwise List.Disjoint := by
  have hcomponents := (listsClasses_components (· ≤ ·) hk).disjoint.filter (1 < ·.length)
  exact hcomponents.perm (sortBy_perm _ _).symm fun h _ hb ha => h ha hb

theorem one_lt_length_iff {c : List Nat} (hc : c.Nodup) {a : Nat} (ha : a ∈ c) :
    1 < c.length ↔ ∃ b ∈ c, b ≠ a := by
  have hlen : c.length = (c.erase a).length + 1 := (List.perm_cons_erase ha).length_eq
  have hpos : 1 < c.length ↔ 0 < (c.erase a).length := by omega
  rw [hpos, List.length_pos_iff_exists_mem]
  simp only [hc.mem_erase_iff]
  exact exists_congr fun b => and_comm

/-- A node is on a cycle when it and some other node reach each other. -/
theorem mem_flatten_cyclesOf (hk : (g.map Prod.fst).Nodup) {a : Nat} :
    a ∈ (cyclesOf g).flatten ↔ a ∈ g.nodes ∧ ∃ b, b ≠ a ∧ g.Mutual a b := by
  have hnodup : ∀ c ∈ g.components (· ≤ ·), c.Nodup := (listsClasses_components (· ≤ ·) hk).nodup
  simp only [List.mem_flatten, mem_cyclesOf_iff]
  constructor
  · rintro ⟨c, ⟨hc, hlen⟩, ha⟩
    obtain ⟨b, hb, hne⟩ := (one_lt_length_iff (hnodup c hc) ha).1 hlen
    exact ⟨mem_nodes_of_mem_components hk hc ha, b, hne, (mem_component_iff hk hc ha).1 hb⟩
  · rintro ⟨hnode, b, hne, hab⟩
    obtain ⟨c, hc, ha, hb⟩ := (mem_components_iff hk (· ≤ ·) hnode).2 hab
    exact ⟨c, ⟨hc, (one_lt_length_iff (hnodup c hc) ha).2 ⟨b, hb, hne⟩⟩, ha⟩

/-- Without loops, being on a cycle is the same as a path back to where it began. -/
theorem exists_mutual_iff (hloop : ∀ a, a ∉ g.successors a) {a : Nat} :
    (∃ b, b ≠ a ∧ g.Mutual a b) ↔ Relation.TransGen (fun a b => b ∈ g.successors a) a a := by
  constructor
  · intro hx
    obtain ⟨b, hne, hab, hba⟩ := hx
    rcases Relation.reflTransGen_iff_eq_or_transGen.1 hab with rfl | hab
    · exact absurd rfl hne
    · exact hab.trans_left hba
  · intro h
    obtain ⟨b, hb, hba⟩ := Relation.TransGen.head'_iff.1 h
    refine ⟨b, ?_, .single hb, hba⟩
    intro heq
    subst heq
    exact hloop b hb

theorem exists_mem_flatten_cyclesOf : cyclesOf g ≠ [] ↔ ∃ a, a ∈ (cyclesOf g).flatten := by
  constructor
  · intro h
    obtain ⟨c, hc⟩ := List.exists_mem_of_ne_nil _ h
    have hlen := (mem_cyclesOf_iff.1 hc).2
    obtain ⟨a, ha⟩ := List.length_pos_iff_exists_mem.1 (Nat.zero_lt_of_lt hlen)
    exact ⟨a, List.mem_flatten.2 ⟨c, hc, ha⟩⟩
  · intro hx h
    obtain ⟨a, ha⟩ := hx
    rw [h] at ha
    simp at ha

end ComponentLint.SectionGraph
