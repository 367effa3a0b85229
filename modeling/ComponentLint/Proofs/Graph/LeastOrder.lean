import ComponentLint.Proofs.Graph.TopologicalOrder
import Mathlib.Data.List.Lex
import Mathlib.Data.Prod.Lex
/-
  The topological order of any map from numbers to dependencies. Placing goes on until every node
  that is left waits for something that is not placed (`placed_placeReady`). A placed node therefore
  needs nothing but nodes placed before it, and a node that is left waits for another one that is
  left, for something unknown, or for itself; in a finite map this ends in a cycle or at something
  unknown (`Placed.mem_iff`). If all nodes can be placed, the order is the least of all that put
  dependencies first (`map_rank_le_of_leastFirst`): where another order differs for the first time,
  its node was free as well, and not the one that comes first.
-/

namespace ComponentLint

variable {ι κ β : Type}

section

variable (id : β → ι) (dependencies : β → List ι)

/-- The map has the first number, with the second among its dependencies. -/
def Needs (nodes : List β) (i j : ι) : Prop :=
  ∃ b ∈ nodes, id b = i ∧ j ∈ dependencies b

/-- Nothing that the node needs, in any number of steps, is unknown or on a cycle; nor is the
node. -/
def Placeable (nodes : List β) (b : β) : Prop :=
  ∀ i, Relation.ReflTransGen (Needs id dependencies nodes) (id b) i →
    i ∈ nodes.map id ∧ ¬ Relation.TransGen (Needs id dependencies nodes) i i

/-- All dependencies of a node stand before it. -/
def DependenciesFirst (l : List β) : Prop :=
  ∀ front b back, l = front ++ b :: back → ∀ i ∈ dependencies b, i ∈ front.map id

/-- Some of the remaining nodes have been put in order behind those that were placed before. Each
has its dependencies in front of it, and each that is left waits for one that is not there. -/
structure Placed (placed : List ι) (remaining order : List β) : Prop where
  subset : order ⊆ remaining
  nodup : (order.map id).Nodup
  first : ∀ front b back, order = front ++ b :: back →
    ∀ i ∈ dependencies b, i ∈ placed ∨ i ∈ front.map id
  waits : ∀ b ∈ remaining, id b ∉ order.map id →
    ∃ i ∈ dependencies b, i ∉ placed ∧ i ∉ order.map id

end

section

variable {id : β → ι} {dependencies : β → List ι}

/-- Without cycles some node of every list is free. -/
theorem neverBlocked_of_not_needs {nodes l : List β} (hl : l ⊆ nodes)
    (hc : ∀ b ∈ l, ¬ Relation.TransGen (Needs id dependencies nodes) (id b) (id b)) :
    NeverBlocked id dependencies l :=
  neverBlocked_of_acyclic fun b hb hcycle => hc b hb <| hcycle.lift id fun a _ hac =>
    ⟨a, hl hac.1, rfl, hac.2.2⟩

/-- In an order without repetitions that puts dependencies first, no tail holds what its first node
needs. -/
theorem DependenciesFirst.free {l : List β} (h : DependenciesFirst id dependencies l)
    (hn : (l.map id).Nodup) (front : List β) (b : β) (back : List β) (heq : l = front ++ b :: back) :
    Free id dependencies (b :: back) b := by
  intro c hc hdep
  rw [heq, List.map_append] at hn
  exact List.disjoint_of_nodup_append hn (h front b back heq _ hdep) (List.mem_map_of_mem hc)

/-! ## What is placed -/

section

variable [DecidableEq ι]

/-- Nothing is placed if nothing is ready. -/
theorem placed_nil {placed : List ι} {remaining : List β}
    (h : remaining.filter (fun b => (dependencies b).all placed.contains) = []) :
    Placed id dependencies placed remaining [] := by
  refine ⟨List.nil_subset _, .nil, by simp, fun b hb _ => ?_⟩
  have hwaits := List.filter_eq_nil_iff.1 h b hb
  simpa using hwaits

/-- One node that is ready, and then others. -/
theorem Placed.cons {placed : List ι} {remaining order : List β} {b : β} (hb : b ∈ remaining)
    (hready : ∀ i ∈ dependencies b, i ∈ placed)
    (h : Placed id dependencies (id b :: placed) (remaining.filter fun c => id c ≠ id b) order) :
    Placed id dependencies placed remaining (b :: order) := by
  have hother : ∀ c ∈ order, c ∈ remaining ∧ id c ≠ id b := fun c hc => by
    simpa using List.mem_filter.1 (h.subset hc)
  constructor
  case subset => exact List.cons_subset.2 ⟨hb, fun c hc => (hother c hc).1⟩
  case nodup =>
    refine List.nodup_cons.2 ⟨fun hmem => ?_, h.nodup⟩
    obtain ⟨c, hc, he⟩ := List.mem_map.1 hmem
    exact (hother c hc).2 he
  case first =>
    intro front c back heq i hi
    cases front with
    | nil =>
      obtain ⟨rfl, -⟩ := List.cons.inj heq
      exact Or.inl (hready i hi)
    | cons d front =>
      obtain ⟨rfl, htail⟩ := List.cons.inj heq
      have hbefore := h.first front c back htail i hi
      simp only [List.mem_cons, List.map_cons] at hbefore ⊢
      tauto
  case waits =>
    intro c hc hmissing
    simp only [List.map_cons, List.mem_cons, not_or] at hmissing ⊢
    obtain ⟨i, hi, hplaced, horder⟩ :=
      h.waits c (List.mem_filter.2 ⟨hc, by simpa using hmissing.1⟩) hmissing.2
    simp only [List.mem_cons, not_or] at hplaced
    exact ⟨i, hi, hplaced.2, hplaced.1, horder⟩

/-- Placing the ready nodes one after another leaves only such as wait for something. -/
theorem placed_placeReady (le : β → β → Bool) (count : Nat) (placed : List ι) (remaining : List β)
    (hc : remaining.length ≤ count) :
    Placed id dependencies placed remaining
      (placeReady id dependencies le count placed remaining) := by
  induction count generalizing placed remaining with
  | zero =>
    rw [List.length_eq_zero_iff.1 (Nat.le_zero.1 hc)]
    exact placed_nil rfl
  | succ count ih =>
    rw [placeReady]
    split
    · next hnone => exact placed_nil (least?_eq_none.1 hnone)
    · next b hb =>
      obtain ⟨hmem, hready⟩ := List.mem_filter.1 (mem_of_least? hb)
      have hlen : (remaining.filter fun c => id c ≠ id b).length ≤ count := by
        have hlt : (remaining.filter fun c => id c ≠ id b).length < remaining.length :=
          List.length_filter_lt_length_iff_exists.2 ⟨b, hmem, by simp⟩
        omega
      refine .cons hmem (fun i hi => ?_) (ih _ _ hlen)
      exact List.contains_iff_mem.1 (List.all_eq_true.1 hready i hi)

theorem placed_topologicalOrder {le : β → β → Bool} {nodes : List β} (dependencies : β → List ι)
    (hr : Ranked id le nodes) :
    Placed id dependencies [] nodes (topologicalOrder id dependencies le nodes) := by
  rw [topologicalOrder_eq_placeReady dependencies hr]
  exact placed_placeReady le _ _ _ (Nat.le_refl _)

end

section

variable {nodes order : List β} (hn : (nodes.map id).Nodup)
  (h : Placed id dependencies [] nodes order)

include h in
theorem Placed.dependenciesFirst : DependenciesFirst id dependencies order :=
  fun front b back heq i hi => (h.first front b back heq i hi).resolve_left List.not_mem_nil

include hn h

/-- What a placed node needs is placed before it. -/
theorem Placed.idxOf_lt [DecidableEq ι] {i j : ι} (hi : i ∈ order.map id)
    (hij : Needs id dependencies nodes i j) :
    j ∈ order.map id ∧ (order.map id).idxOf j < (order.map id).idxOf i := by
  obtain ⟨b, hb, rfl⟩ := List.mem_map.1 hi
  obtain ⟨c, hc, hid, hj⟩ := hij
  rw [List.inj_on_of_nodup_map hn hc (h.subset hb) hid] at hj
  obtain ⟨front, back, heq⟩ := List.append_of_mem hb
  have hfront := h.dependenciesFirst front b back heq j hj
  have hnodup := h.nodup
  rw [heq, List.map_append, List.map_cons] at hnodup ⊢
  have hb' : id b ∉ front.map id := fun hmem =>
    List.disjoint_of_nodup_append hnodup hmem List.mem_cons_self
  refine ⟨List.mem_append_left _ hfront, ?_⟩
  rw [List.idxOf_append_of_mem hfront, List.idxOf_append_of_notMem hb']
  have := List.idxOf_lt_length_of_mem hfront
  omega

theorem Placed.placeable {b : β} (hb : b ∈ order) : Placeable id dependencies nodes b := by
  classical
  intro i hi
  have hmem : i ∈ order.map id := by
    induction hi with
    | refl => exact List.mem_map_of_mem hb
    | tail _ hs ih => exact (h.idxOf_lt hn ih hs).1
  refine ⟨List.map_subset id h.subset hmem, fun hcycle => ?_⟩
  have hback : ∀ j, Relation.TransGen (Needs id dependencies nodes) i j →
      j ∈ order.map id ∧ (order.map id).idxOf j < (order.map id).idxOf i := by
    intro j hj
    induction hj with
    | single hs => exact h.idxOf_lt hn hmem hs
    | tail _ hs ih =>
      have hstep := h.idxOf_lt hn ih.1 hs
      exact ⟨hstep.1, Nat.lt_trans hstep.2 ih.2⟩
  exact Nat.lt_irrefl _ (hback i hcycle).2

/-- What can be placed is placed: otherwise, of the nodes that could be and are left, one waits for
no other of them. -/
theorem Placed.mem_of_placeable {b : β} (hb : b ∈ nodes)
    (hp : Placeable id dependencies nodes b) : b ∈ order := by
  classical
  by_contra hleft
  have hblocked : NeverBlocked id dependencies
      (nodes.filter fun c => Placeable id dependencies nodes c ∧ c ∉ order) := by
    refine neverBlocked_of_not_needs (List.filter_subset_self nodes) fun c hc => ?_
    have hplaceable := (of_decide_eq_true (List.mem_filter.1 hc).2).1
    exact (hplaceable (id c) .refl).2
  obtain ⟨c, hc, hfree⟩ := hblocked _ (List.Subset.refl _)
    (List.ne_nil_of_mem (List.mem_filter.2 ⟨hb, decide_eq_true ⟨hp, hleft⟩⟩))
  obtain ⟨hcn, hcp⟩ := List.mem_filter.1 hc
  obtain ⟨hcp, hcleft⟩ := of_decide_eq_true hcp
  have hmissing : id c ∉ order.map id := by
    intro hmem
    obtain ⟨d, hd, he⟩ := List.mem_map.1 hmem
    exact hcleft (List.inj_on_of_nodup_map hn (h.subset hd) hcn he ▸ hd)
  obtain ⟨i, hi, -, hiorder⟩ := h.waits c hcn hmissing
  have hstep : Needs id dependencies nodes (id c) i := ⟨c, hcn, rfl, hi⟩
  obtain ⟨d, hd, rfl⟩ := List.mem_map.1 (hcp i (.single hstep)).1
  refine hfree d (List.mem_filter.2 ⟨hd, decide_eq_true ⟨fun j hj => ?_, fun hmem => ?_⟩⟩) hi
  · exact hcp j (.head hstep hj)
  · exact hiorder (List.mem_map_of_mem hmem)

theorem Placed.mem_iff {b : β} : b ∈ order ↔ b ∈ nodes ∧ Placeable id dependencies nodes b :=
  ⟨fun hb => ⟨h.subset hb, h.placeable hn hb⟩, fun hb => h.mem_of_placeable hn hb.1 hb.2⟩

end

/-! ## The least order -/

/-- Nodes are compared by key, and those of one key by number. -/
def rank (id : β → ι) (key : β → κ) (b : β) : κ ×ₗ ι :=
  toLex (key b, id b)

variable [LinearOrder ι] [LinearOrder κ] {key : β → κ}

def byRank (id : β → ι) (key : β → κ) (a b : β) : Bool :=
  rank id key a ≤ rank id key b

/-- An order with the least free node first is at most any other that puts dependencies first. -/
theorem map_rank_le_of_leastFirst {l other : List β} (hn : (l.map id).Nodup)
    (h : LeastFirst id dependencies (byRank id key) l) (hp : other.Perm l)
    (hfree : ∀ front b back, other = front ++ b :: back → Free id dependencies (b :: back) b) :
    l.map (rank id key) ≤ other.map (rank id key) := by
  induction l generalizing other with
  | nil => rw [hp.eq_nil]
  | cons a l ih =>
    obtain ⟨-, hleast, htail⟩ := h
    obtain ⟨ha, hn⟩ := List.nodup_cons.1 hn
    cases other with
    | nil => exact absurd hp.symm.eq_nil (List.cons_ne_nil _ _)
    | cons b rest =>
      rw [List.map_cons, List.map_cons]
      by_cases hba : b = a
      · -- the orders begin alike, so the rest decides
        rw [hba] at hp ⊢
        refine List.cons_le_cons _ (ih hn htail (List.perm_cons a |>.1 hp) ?_)
        exact fun front c back heq => hfree (b :: front) c back (by rw [heq, List.cons_append])
      · -- the other one begins with a node that is free too, and so comes later
        have hb : b ∈ l := (List.mem_cons.1 (hp.subset List.mem_cons_self)).resolve_left hba
        have hle : rank id key a ≤ rank id key b :=
          of_decide_eq_true (hleast b hb ((hfree [] b rest rfl).of_subset hp.symm.subset))
        have hne : rank id key a ≠ rank id key b := by
          intro he
          have hid : id a = id b := congrArg (fun r => (ofLex r).2) he
          exact ha (hid ▸ List.mem_map_of_mem hb)
        exact le_of_lt (List.Lex.rel (lt_of_le_of_ne hle hne))

/-- Keys into a total order tell nodes apart, together with their numbers. -/
theorem ranked_byRank (key : β → κ) {nodes : List β} (hn : (nodes.map id).Nodup) :
    Ranked id (byRank id key) nodes where
  nodup := hn
  total a b := by simpa [byRank] using le_total (rank id key a) (rank id key b)
  trans a b c hab hbc := decide_eq_true (le_trans (of_decide_eq_true hab) (of_decide_eq_true hbc))
  antisymm a b hab hba := by
    have heq := le_antisymm (of_decide_eq_true hab) (of_decide_eq_true hba)
    exact congrArg (fun r => (ofLex r).2) heq

end

/-- The order has every node that can be placed, once, and behind its dependencies. It is the least
of such orders if all nodes can be placed. -/
structure LeastOrder [LinearOrder ι] [LinearOrder κ] (id : β → ι) (dependencies : β → List ι)
    (key : β → κ) (nodes order : List β) : Prop where
  nodup : (order.map id).Nodup
  mem_iff : ∀ b, b ∈ order ↔ b ∈ nodes ∧ Placeable id dependencies nodes b
  dependenciesFirst : DependenciesFirst id dependencies order
  least : (∀ b ∈ nodes, ∀ i ∈ dependencies b, i ∈ nodes.map id) →
    (∀ i, ¬ Relation.TransGen (Needs id dependencies nodes) i i) →
    ∀ other : List β, other.Perm nodes → DependenciesFirst id dependencies other →
      order.map (rank id key) ≤ other.map (rank id key)

theorem leastOrder_topologicalOrder [LinearOrder ι] [LinearOrder κ] {id : β → ι}
    (dependencies : β → List ι) (key : β → κ) {nodes : List β} (hn : (nodes.map id).Nodup) :
    LeastOrder id dependencies key nodes
      (topologicalOrder id dependencies (byRank id key) nodes) := by
  have hranked := ranked_byRank key hn
  have hplaced := placed_topologicalOrder dependencies hranked
  refine ⟨hplaced.nodup, fun _ => hplaced.mem_iff hn, hplaced.dependenciesFirst, ?_⟩
  intro hknown hacyclic other hperm hfirst
  have hpending : Pending id dependencies [] nodes :=
    ⟨hn, fun b hb i hi => Or.inr (hknown b hb i hi), fun _ _ => List.not_mem_nil⟩
  have hfree : NeverBlocked id dependencies nodes :=
    neverBlocked_of_not_needs (List.Subset.refl nodes) fun b _ => hacyclic (id b)
  obtain ⟨hall, hleast⟩ := topologicalOrder_spec hranked hpending hfree
  exact map_rank_le_of_leastFirst ((hall.map id).nodup_iff.2 hn) hleast
    (hperm.trans hall.symm) (hfirst.free ((hperm.map id).nodup_iff.2 hn))

/-- The topological order of a map, whatever its dependencies and its keys. The queue is empty when
all rounds are over, so the placing has ended by itself. -/
theorem topologicalOrder_least [LinearOrder ι] [LinearOrder κ] (id : β → ι)
    (dependencies : β → List ι) (key : β → κ) (nodes : List β) (hn : (nodes.map id).Nodup) :
    (placing id dependencies (byRank id key) nodes nodes.length).ready = [] ∧
      LeastOrder id dependencies key nodes
        (topologicalOrder id dependencies (byRank id key) nodes) :=
  ⟨ready_placing dependencies (ranked_byRank key hn), leastOrder_topologicalOrder dependencies key hn⟩

/-- By number these nodes stand in order as they are. By a key that falls with the number the last
one comes first, as it needs nothing, and that order is the least by this key. -/
theorem topologicalOrder_of_three :
    let nodes : List (Nat × List Nat) := [(1, []), (2, [1]), (3, [])]
    let order := topologicalOrder Prod.fst Prod.snd (byRank Prod.fst fun e => 9 - e.1) nodes
    (nodes.map Prod.fst).Nodup ∧ LeastOrder Prod.fst Prod.snd (fun e => 9 - e.1) nodes order ∧
      order.map Prod.fst = [3, 1, 2] ∧
      order.map (rank Prod.fst fun e => 9 - e.1) ≤ nodes.map (rank Prod.fst fun e => 9 - e.1) := by
  intro nodes order
  have hn : (nodes.map Prod.fst).Nodup := by decide
  have h := (topologicalOrder_least Prod.fst Prod.snd (fun e => 9 - e.1) nodes hn).2
  have hstands := (topologicalOrder_least Prod.fst Prod.snd Prod.fst nodes hn).2.dependenciesFirst
  have hsame : topologicalOrder Prod.fst Prod.snd (byRank Prod.fst Prod.fst) nodes = nodes := by
    decide
  rw [hsame] at hstands
  have hdown : ∀ b ∈ nodes, ∀ j ∈ b.2, j < b.1 := by decide
  have hacyclic : ∀ i, ¬ Relation.TransGen (Needs Prod.fst Prod.snd nodes) i i := by
    intro i hi
    have hlt := Relation.TransGen.trans_induction_on (motive := fun {i j} _ => j < i) hi
      (fun {i j} hs => by
        obtain ⟨b, hb, rfl, hj⟩ := hs
        exact hdown b hb j hj)
      fun _ _ hab hbc => Nat.lt_trans hbc hab
    exact Nat.lt_irrefl i hlt
  exact ⟨hn, h, by decide, h.least (by decide) hacyclic nodes (.refl nodes) hstands⟩

end ComponentLint
