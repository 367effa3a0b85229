import ComponentLint.Proofs.Graph.Placing
import Mathlib.Data.Fintype.EquivFin
import Mathlib.Data.List.Forall2
import Mathlib.Data.Set.Finite.List
import Mathlib.Logic.Relation
import Mathlib.Order.WellFounded
/-
  What the topological order looks like. A node is free in a list when nothing in the list is a
  dependency of it. `LeastFirst`: every tail of the order begins with the least of its free nodes.
  While nodes remain, one is ready exactly when it is free among them (`Pending.ready_iff`), so
  placing nodes gives such an order of all of them if no set of nodes blocks itself
  (`placeReady_spec`), and gives back a list that is one already (`placeReady_eq_self`). The order
  looks at nothing but numbers, dependencies and comparisons (`topologicalOrder_forall₂`).
-/

namespace ComponentLint

variable {ι β : Type}

/-! ## Orders in which the least free node comes first -/

variable (id : β → ι) (dependencies : β → List ι) (le : β → β → Bool)

/-- Nothing in the list is a dependency of the node. -/
def Free (l : List β) (b : β) : Prop :=
  ∀ c ∈ l, id c ∉ dependencies b

/-- Every tail begins with the least of its free nodes. -/
def LeastFirst : List β → Prop
  | [] => True
  | b :: rest =>
    Free id dependencies (b :: rest) b ∧
      (∀ c ∈ rest, Free id dependencies (b :: rest) c → le b c = true) ∧ LeastFirst rest

/-- Some nodes of every list of the given ones are free in it. -/
def NeverBlocked (nodes : List β) : Prop :=
  ∀ l, l ⊆ nodes → l ≠ [] → ∃ b ∈ l, Free id dependencies l b

/-- The nodes that remain, each once, with their dependencies placed or among them. -/
structure Pending (placed : List ι) (remaining : List β) : Prop where
  nodup : (remaining.map id).Nodup
  known : ∀ b ∈ remaining, ∀ i ∈ dependencies b, i ∈ placed ∨ i ∈ remaining.map id
  apart : ∀ b ∈ remaining, id b ∉ placed

variable {id dependencies le}

theorem Free.of_subset {l l' : List β} {b : β} (h : l' ⊆ l) (hb : Free id dependencies l b) :
    Free id dependencies l' b :=
  fun c hc => hb c (h hc)

theorem NeverBlocked.of_subset {nodes nodes' : List β} (h : nodes' ⊆ nodes)
    (hn : NeverBlocked id dependencies nodes) : NeverBlocked id dependencies nodes' :=
  fun l hl => hn l (List.Subset.trans hl h)

/-- A relation without cycles leaves some element of every list free. -/
theorem neverBlocked_of_acyclic {nodes : List β}
    (h : ∀ b ∈ nodes, ¬ Relation.TransGen
      (fun a c => a ∈ nodes ∧ c ∈ nodes ∧ id c ∈ dependencies a) b b) :
    NeverBlocked id dependencies nodes := by
  intro l hl hne
  let r : {b // b ∈ l} → {b // b ∈ l} → Prop := fun c b => Relation.TransGen
    (fun a c => a ∈ nodes ∧ c ∈ nodes ∧ id c ∈ dependencies a) b.1 c.1
  have : IsTrans {b // b ∈ l} r := ⟨fun _ _ _ hab hbc => hbc.trans hab⟩
  have : Std.Irrefl r := ⟨fun b => h b.1 (hl b.2)⟩
  have : Finite {b // b ∈ l} := l.finite_toSet.to_subtype
  have hwf : WellFounded r := Finite.wellFounded_of_trans_of_irrefl r
  obtain ⟨b, hb⟩ := List.exists_mem_of_ne_nil l hne
  obtain ⟨m, -, hm⟩ := hwf.has_min Set.univ ⟨⟨b, hb⟩, trivial⟩
  refine ⟨m.1, m.2, fun c hc hdep => hm ⟨c, hc⟩ trivial ?_⟩
  exact .single ⟨hl m.2, hl hc, hdep⟩

variable [DecidableEq ι]

theorem Pending.ready_iff {placed : List ι} {remaining : List β}
    (h : Pending id dependencies placed remaining) {b : β} (hb : b ∈ remaining) :
    (dependencies b).all placed.contains = true ↔ Free id dependencies remaining b := by
  simp only [List.all_eq_true, List.contains_iff_mem]
  constructor
  · exact fun hall c hc hdep => h.apart c hc (hall _ hdep)
  · intro hfree i hi
    refine (h.known b hb i hi).resolve_right fun hmem => ?_
    obtain ⟨c, hc, rfl⟩ := List.mem_map.1 hmem
    exact hfree c hc hi

theorem Pending.place {placed : List ι} {remaining : List β}
    (h : Pending id dependencies placed remaining) (b : β) :
    Pending id dependencies (id b :: placed) (remaining.filter fun c => id c ≠ id b) where
  nodup := h.nodup.sublist (List.filter_sublist.map id)
  known c hc i hi := by
    rcases h.known c (List.mem_filter.1 hc).1 i hi with hp | hr
    · exact Or.inl (List.mem_cons_of_mem _ hp)
    · obtain ⟨d, hd, rfl⟩ := List.mem_map.1 hr
      by_cases he : id d = id b
      · exact Or.inl (by simp [he])
      · exact Or.inr (List.mem_map.2 ⟨d, List.mem_filter.2 ⟨hd, by simpa using he⟩, rfl⟩)
  apart c hc := by
    obtain ⟨hr, hne⟩ := List.mem_filter.1 hc
    simp only [List.mem_cons, not_or]
    exact ⟨by simpa using hne, h.apart c hr⟩

theorem perm_cons_filter_ne {l : List β} (hl : (l.map id).Nodup) {b : β} (hb : b ∈ l) :
    (b :: l.filter fun c => id c ≠ id b).Perm l := by
  induction l with
  | nil => simp at hb
  | cons a l ih =>
    obtain ⟨ha, hl⟩ := List.nodup_cons.1 hl
    rcases List.mem_cons.1 hb with rfl | hb
    · have hrest : l.filter (fun c => id c ≠ id b) = l := List.filter_eq_self.2 fun c hc => by
        have : id c ≠ id b := fun he => ha (he ▸ List.mem_map.2 ⟨c, hc, rfl⟩)
        simpa using this
      rw [List.filter_cons, if_neg (by simp), hrest]
    · have hne : id a ≠ id b := fun he => ha (he ▸ List.mem_map.2 ⟨b, hb, rfl⟩)
      rw [List.filter_cons, if_pos (by simpa using hne)]
      exact (List.Perm.swap a b _).trans ((ih hl hb).cons a)

/-! ## Placing the ready nodes -/

/-- Placing nodes one after another gives all of them in an order with the least free node
first, if no nodes block each other. -/
theorem placeReady_spec (htotal : ∀ a b, le a b = true ∨ le b a = true)
    (htrans : ∀ a b c, le a b = true → le b c = true → le a c = true) (count : Nat)
    (placed : List ι) (remaining : List β) (h : Pending id dependencies placed remaining)
    (hn : NeverBlocked id dependencies remaining) (hc : remaining.length ≤ count) :
    (placeReady id dependencies le count placed remaining).Perm remaining ∧
      LeastFirst id dependencies le (placeReady id dependencies le count placed remaining) := by
  induction count generalizing placed remaining with
  | zero =>
    rw [List.length_eq_zero_iff.1 (Nat.le_zero.1 hc)]
    exact ⟨.refl _, trivial⟩
  | succ count ih =>
    rw [placeReady]
    split
    · next hnone =>
      -- nothing is ready, so nothing remains
      have hnil : remaining = [] := by
        by_contra hne
        obtain ⟨b, hb, hfree⟩ := hn remaining (List.Subset.refl _) hne
        have : b ∈ remaining.filter fun b => (dependencies b).all placed.contains :=
          List.mem_filter.2 ⟨hb, (h.ready_iff hb).2 hfree⟩
        rw [least?_eq_none.1 hnone] at this
        simp at this
      rw [hnil]
      exact ⟨.refl _, trivial⟩
    · next b hb =>
      obtain ⟨hmem, hready⟩ := List.mem_filter.1 (mem_of_least? hb)
      have hperm := perm_cons_filter_ne h.nodup hmem
      have hlen : (remaining.filter fun c => id c ≠ id b).length ≤ count := by
        have := hperm.length_eq
        simp only [List.length_cons] at this
        omega
      obtain ⟨hp, hfirst⟩ :=
        ih _ _ (h.place b) (hn.of_subset fun c hc => (List.mem_filter.1 hc).1) hlen
      have hall : (b :: placeReady id dependencies le count (id b :: placed)
          (remaining.filter fun c => id c ≠ id b)).Perm remaining := (hp.cons b).trans hperm
      refine ⟨hall, ((h.ready_iff hmem).1 hready).of_subset hall.subset, ?_, hfirst⟩
      intro c hc hfree
      have hcr : c ∈ remaining := hall.subset (List.mem_cons_of_mem b hc)
      refine le_of_least? htotal htrans hb c (List.mem_filter.2 ⟨hcr, ?_⟩)
      exact (h.ready_iff hcr).2 (hfree.of_subset hall.symm.subset)

/-- An order with the least free node first is not changed. -/
theorem placeReady_eq_self (placed : List ι) (remaining : List β)
    (h : Pending id dependencies placed remaining) (hl : LeastFirst id dependencies le remaining) :
    placeReady id dependencies le remaining.length placed remaining = remaining := by
  induction remaining generalizing placed with
  | nil => rfl
  | cons b rest ih =>
    obtain ⟨hfree, hleast, hrest⟩ := hl
    have hid : ∀ c ∈ rest, id c ≠ id b := fun c hc he =>
      (List.nodup_cons.1 h.nodup).1 (he ▸ List.mem_map.2 ⟨c, hc, rfl⟩)
    have htail : (b :: rest).filter (fun c => id c ≠ id b) = rest := by
      rw [List.filter_cons, if_neg (by simp)]
      exact List.filter_eq_self.2 fun c hc => by simpa using hid c hc
    have hready := (h.ready_iff (by simp)).2 hfree
    have hfirst : least? le ((b :: rest).filter fun b => (dependencies b).all placed.contains) =
        some b := by
      rw [List.filter_cons, if_pos hready]
      refine least?_cons_of_le fun c hc => ?_
      obtain ⟨hcr, hcready⟩ := List.mem_filter.1 hc
      exact hleast c hcr ((h.ready_iff (by simp [hcr])).1 hcready)
    have hplace := h.place b
    rw [htail] at hplace
    rw [List.length_cons, placeReady, hfirst]
    dsimp only
    rw [htail, ih _ hplace hrest]

theorem topologicalOrder_spec {nodes : List β} (hr : Ranked id le nodes)
    (h : Pending id dependencies [] nodes) (hn : NeverBlocked id dependencies nodes) :
    (topologicalOrder id dependencies le nodes).Perm nodes ∧
      LeastFirst id dependencies le (topologicalOrder id dependencies le nodes) := by
  rw [topologicalOrder_eq_placeReady dependencies hr]
  exact placeReady_spec hr.total hr.trans _ _ _ h hn (Nat.le_refl _)

theorem topologicalOrder_eq_self {nodes : List β} (hr : Ranked id le nodes)
    (h : Pending id dependencies [] nodes) (hl : LeastFirst id dependencies le nodes) :
    topologicalOrder id dependencies le nodes = nodes := by
  rw [topologicalOrder_eq_placeReady dependencies hr]
  exact placeReady_eq_self _ _ h hl

/-! ## Nodes that are alike -/

theorem forall₂_filter {α γ : Type} {R : α → γ → Prop} {p : α → Bool} {q : γ → Bool} {l : List α}
    {m : List γ} (h : List.Forall₂ R l m) (hpq : ∀ a b, R a b → p a = q b) :
    List.Forall₂ R (l.filter p) (m.filter q) := by
  refine List.rel_filter (fun a b hab => ?_) h
  show p a = true ↔ q b = true
  rw [hpq a b hab]

section

variable {γ : Type} {R : β → γ → Prop} {le' : γ → γ → Bool}

theorem least?_rel (hle : ∀ a a' b b', R a a' → R b b' → le a b = le' a' b') {l : List β}
    {m : List γ} (h : List.Forall₂ R l m) : Option.Rel R (least? le l) (least? le' m) := by
  induction h with
  | nil => exact .none
  | @cons a b l m hab _ ih =>
    rw [least?, least?]
    generalize least? le l = x at ih
    generalize least? le' m = y at ih
    cases ih with
    | none => exact .some hab
    | some hcd =>
      dsimp only
      rw [hle _ _ _ _ hab hcd]
      split
      · exact .some hab
      · exact .some hcd

variable {id' : γ → ι} {dependencies' : γ → List ι}

/-- Nodes with the same numbers and dependencies, compared alike, are placed alike. -/
theorem placeReady_forall₂ (hid : ∀ a b, R a b → id a = id' b)
    (hdep : ∀ a b, R a b → dependencies a = dependencies' b)
    (hle : ∀ a a' b b', R a a' → R b b' → le a b = le' a' b') (count : Nat) (placed : List ι)
    {l : List β} {m : List γ} (h : List.Forall₂ R l m) :
    List.Forall₂ R (placeReady id dependencies le count placed l)
      (placeReady id' dependencies' le' count placed m) := by
  induction count generalizing placed l m with
  | zero => exact .nil
  | succ count ih =>
    have hready : Option.Rel R
        (least? le (l.filter fun b => (dependencies b).all placed.contains))
        (least? le' (m.filter fun b => (dependencies' b).all placed.contains)) :=
      least?_rel hle (forall₂_filter h fun a b hab => by rw [hdep a b hab])
    rw [placeReady, placeReady]
    generalize least? le _ = x at hready
    generalize least? le' _ = y at hready
    cases hready with
    | none => exact .nil
    | @some a b hab =>
      refine .cons hab ?_
      rw [hid a b hab]
      exact ih _ (forall₂_filter h fun c d hcd => by rw [hid c d hcd])

theorem topologicalOrder_forall₂ {l : List β} {m : List γ} (hl : Ranked id le l)
    (hm : Ranked id' le' m) (hid : ∀ a b, R a b → id a = id' b)
    (hdep : ∀ a b, R a b → dependencies a = dependencies' b)
    (hle : ∀ a a' b b', R a a' → R b b' → le a b = le' a' b') (h : List.Forall₂ R l m) :
    List.Forall₂ R (topologicalOrder id dependencies le l)
      (topologicalOrder id' dependencies' le' m) := by
  rw [topologicalOrder_eq_placeReady dependencies hl, topologicalOrder_eq_placeReady dependencies' hm,
    h.length_eq]
  exact placeReady_forall₂ hid hdep hle _ _ h

end

end ComponentLint
