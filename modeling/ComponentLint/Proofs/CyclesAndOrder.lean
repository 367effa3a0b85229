import ComponentLint.Proofs.Graph.LeastOrder
import ComponentLint.Proofs.SectionGraph
/-
  The cycles of a section and its topological order say the same of the section's declarations,
  though one comes from a search and the other from placing what is ready. A member that leads to a
  cycle is never ready, and as every edge of the graph ends at a member, nothing else can keep one
  waiting (`not_mem_sortedBy_iff`). So the order is complete exactly if there are no cycles.
-/

namespace ComponentLint

theorem Graph.needs_iff {α : Type} [DecidableEq α] {g : Graph α} (hk : (g.map Prod.fst).Nodup)
    {a b : α} : Needs Prod.fst Prod.snd g a b ↔ b ∈ g.successors a := by
  rw [mem_successors_iff hk]
  constructor
  · rintro ⟨e, he, rfl, hb⟩
    exact ⟨e.2, he, hb⟩
  · rintro ⟨next, he, hb⟩
    exact ⟨(a, next), he, rfl, hb⟩

namespace SectionGraph

open ComponentLint.Graph

variable {κ : Type} [LinearOrder κ]

/-- The members of a section in the topological order of its edges; those that are ready come by
key, and those of one key by number. -/
def sortedBy (key : Nat → κ) (graph : SectionGraph) : List Nat :=
  (topologicalOrder Prod.fst Prod.snd (byRank Prod.fst fun e => key e.1) graph.edges).map Prod.fst

/-- A member is placed unless something that it reaches is not a member or reaches itself. -/
theorem mem_sortedBy_iff {key : Nat → κ} {graph : SectionGraph}
    (hk : (graph.edges.map Prod.fst).Nodup) {i : Nat} :
    i ∈ graph.sortedBy key ↔ i ∈ graph.edges.map Prod.fst ∧ ∀ j, graph.edges.Reaches i j →
      j ∈ graph.edges.map Prod.fst ∧
        ¬ Relation.TransGen (fun a b => b ∈ graph.edges.successors a) j j := by
  have hneeds : Needs Prod.fst Prod.snd graph.edges = fun a b => b ∈ graph.edges.successors a := by
    funext a b
    exact propext (needs_iff hk)
  unfold sortedBy
  simp only [List.mem_map, (placed_topologicalOrder _ (ranked_byRank _ hk)).mem_iff hk]
  unfold Placeable
  rw [hneeds]
  constructor
  · rintro ⟨e, ⟨he, hp⟩, rfl⟩
    exact ⟨⟨e, he, rfl⟩, fun j hj => (hp j hj).imp_left List.mem_map.1⟩
  · rintro ⟨⟨e, he, rfl⟩, hp⟩
    exact ⟨e, ⟨he, fun j hj => (hp j hj).imp_left List.mem_map.2⟩, rfl⟩

variable {members : List Classified}

theorem mem_map_fst_edgesOf {i : Nat} :
    i ∈ (edgesOf members).map Prod.fst ↔ i ∈ members.map (·.index) := by
  rw [map_fst_edgesOf, List.mem_eraseDups]

/-- The members that are not placed are those that lead to a cycle. -/
theorem not_mem_sortedBy_iff (key : Nat → κ) (place : Section) {i : Nat}
    (hi : i ∈ members.map (·.index)) :
    i ∉ (ofMembers place members).sortedBy key ↔
      ∃ j ∈ (ofMembers place members).cycleMembers, (edgesOf members).Reaches i j := by
  have hmembers : ∀ j, (edgesOf members).Reaches i j → j ∈ members.map (·.index) := fun j hj =>
    mem_nodes_edgesOf.1 (reaches_mem_nodes (mem_nodes_edgesOf.2 hi) hj)
  rw [mem_sortedBy_iff (nodup_edgesOf members)]
  simp only [mem_cycleMembers_iff]
  constructor
  · intro hleft
    by_contra hnone
    refine hleft ⟨mem_map_fst_edgesOf.2 hi, fun j hj => ⟨mem_map_fst_edgesOf.2 (hmembers j hj), ?_⟩⟩
    exact fun hcycle => hnone ⟨j, ⟨hmembers j hj, hcycle⟩, hj⟩
  · rintro ⟨j, ⟨-, hcycle⟩, hj⟩ hplaced
    exact (hplaced.2 j hj).2 hcycle

end SectionGraph

/-- A section has no cycles exactly if its topological order has every member. The members that are
missing in it are those from which a member of a cycle can be reached. -/
theorem cycles_agree_with_order {κ : Type} [LinearOrder κ] (key : Nat → κ) (place : Section)
    (members : List Classified) :
    let graph := SectionGraph.ofMembers place members
    (graph.cycles = [] ↔ ∀ i ∈ graph.members, i ∈ graph.sortedBy key) ∧
      ∀ i ∈ graph.members, i ∉ graph.sortedBy key ↔
        ∃ j ∈ graph.cycleMembers, graph.edges.Reaches i j := by
  intro graph
  have hmissing : ∀ i ∈ graph.members, i ∉ graph.sortedBy key ↔
      ∃ j ∈ graph.cycleMembers, graph.edges.Reaches i j := fun i hi =>
    SectionGraph.not_mem_sortedBy_iff key place hi
  refine ⟨⟨fun hnil i hi => ?_, fun hall => ?_⟩, hmissing⟩
  · by_contra hleft
    obtain ⟨j, hj, -⟩ := (hmissing i hi).1 hleft
    rw [SectionGraph.cycleMembers, hnil] at hj
    exact absurd hj List.not_mem_nil
  · by_contra hne
    obtain ⟨i, hi⟩ := (SectionGraph.cycles_ne_nil_iff place).1 hne
    have hmember : i ∈ graph.members := ((SectionGraph.mem_cycleMembers_iff place).1 hi).1
    exact (hmissing i hmember).2 ⟨i, hi, .refl⟩ (hall i hmember)

/-- Two members that read each other, one that reads one of them, and a free one. Only the free one
is placed, as the other leads to the circle. -/
theorem order_beside_circle :
    let member (name : String) (index : Nat) (reads : List String) : Classified :=
      { name, index, reads, bound := [name], kind := .function, scope := .component
        statement := { kind := .functionStmt, span := { start := 0, stop := 0 } }
        placement := .inSection .functions, evidence := .shape }
    let graph := SectionGraph.ofMembers .functions
      [member "p" 0 ["q"], member "q" 1 ["p"], member "r" 2 ["p"], member "s" 3 []]
    graph.cycleMembers = [0, 1] ∧ graph.sortedBy id = [3] ∧
      (∃ j ∈ graph.cycleMembers, graph.edges.Reaches 2 j) ∧
      ¬ ∃ j ∈ graph.cycleMembers, graph.edges.Reaches 3 j := by
  intro member graph
  have hsorted : graph.sortedBy id = [3] := by decide +kernel
  have hmissing := (cycles_agree_with_order id .functions
    [member "p" 0 ["q"], member "q" 1 ["p"], member "r" 2 ["p"], member "s" 3 []]).2
  refine ⟨by decide +kernel, hsorted, (hmissing 2 (by decide)).1 ?_, fun hreach => ?_⟩
  · exact hsorted ▸ by decide
  · exact (hmissing 3 (by decide)).2 hreach (hsorted ▸ by decide)

end ComponentLint
