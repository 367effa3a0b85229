import ComponentLint.Graph.Components
import ComponentLint.Proofs.Lists
import Mathlib.Logic.Relation
/-
  Nodes of a graph, paths between them, and the classes of nodes that reach each other.
-/

namespace ComponentLint.Graph

variable {α : Type} [DecidableEq α]

/-- A path of any length leads from one node to the other. -/
abbrev Reaches (g : Graph α) : α → α → Prop :=
  Relation.ReflTransGen fun a b => b ∈ g.successors a

/-- Each of two nodes reaches the other. -/
def Mutual (g : Graph α) (a b : α) : Prop :=
  g.Reaches a b ∧ g.Reaches b a

theorem Mutual.symm {g : Graph α} {a b : α} (h : g.Mutual a b) : g.Mutual b a :=
  ⟨h.2, h.1⟩

theorem Mutual.trans {g : Graph α} {a b c : α} (h : g.Mutual a b) (k : g.Mutual b c) :
    g.Mutual a c :=
  ⟨h.1.trans k.1, k.2.trans h.2⟩

theorem nodup_eraseDups (l : List α) : l.eraseDups.Nodup := by
  induction h : l.length using Nat.strongRecOn generalizing l with
  | _ n ih =>
    cases l with
    | nil => simp
    | cons a l =>
      have hlt : (l.filter fun b => !b == a).length < n := by
        have := List.length_filter_le (fun b => !b == a) l
        simp only [List.length_cons] at h
        omega
      rw [List.eraseDups_cons, List.nodup_cons]
      refine ⟨?_, ih _ hlt _ rfl⟩
      rw [List.mem_eraseDups]
      simp

theorem mem_nodes {g : Graph α} {a : α} :
    a ∈ g.nodes ↔ a ∈ g.map Prod.fst ∨ a ∈ g.flatMap Prod.snd := by
  rw [nodes, List.mem_eraseDups, List.mem_append]

theorem mem_nodes_iff {g : Graph α} {a : α} :
    a ∈ g.nodes ↔ ∃ b next, (b, next) ∈ g ∧ (a = b ∨ a ∈ next) := by
  rw [mem_nodes, List.mem_map, List.mem_flatMap]
  constructor
  · intro hx
    rcases hx with ⟨⟨b, next⟩, hg, rfl⟩ | ⟨⟨b, next⟩, hg, ha⟩
    · exact ⟨b, next, hg, Or.inl rfl⟩
    · exact ⟨b, next, hg, Or.inr ha⟩
  · intro hx
    obtain ⟨b, next, hg, rfl | ha⟩ := hx
    · exact Or.inl ⟨_, hg, rfl⟩
    · exact Or.inr ⟨_, hg, ha⟩

theorem exists_mem_of_mem_successors {g : Graph α} {a b : α} (h : b ∈ g.successors a) :
    ∃ next, (a, next) ∈ g ∧ b ∈ next := by
  unfold successors Assoc.get at h
  cases hl : g.lookup a with
  | none => rw [hl] at h; simp at h
  | some next =>
    rw [hl, Option.getD_some] at h
    obtain ⟨l₁, l₂, hg, _⟩ := List.lookup_eq_some_iff.1 hl
    exact ⟨next, by rw [hg]; simp, h⟩

theorem mem_nodes_of_mem_successors {g : Graph α} {a b : α} (h : b ∈ g.successors a) :
    b ∈ g.nodes := by
  obtain ⟨next, hg, hb⟩ := exists_mem_of_mem_successors h
  exact mem_nodes_iff.2 ⟨a, next, hg, Or.inr hb⟩

theorem reaches_mem_nodes {g : Graph α} {a b : α} (ha : a ∈ g.nodes) (h : g.Reaches a b) :
    b ∈ g.nodes := by
  rcases h.cases_tail with rfl | ⟨c, _, hc⟩
  · exact ha
  · exact mem_nodes_of_mem_successors hc

/-! ## Graphs in which every node is listed once -/

theorem successors_of_mem {g : Graph α} (hk : (g.map Prod.fst).Nodup) {a : α} {next : List α}
    (h : (a, next) ∈ g) : g.successors a = next := by
  rw [successors, Assoc.get, Assoc.lookup_eq_some_of_mem hk h, Option.getD_some]

theorem mem_successors_iff {g : Graph α} (hk : (g.map Prod.fst).Nodup) {a b : α} :
    b ∈ g.successors a ↔ ∃ next, (a, next) ∈ g ∧ b ∈ next := by
  refine ⟨exists_mem_of_mem_successors, ?_⟩
  intro hx
  obtain ⟨next, hg, hb⟩ := hx
  rw [successors_of_mem hk hg]
  exact hb

end ComponentLint.Graph
