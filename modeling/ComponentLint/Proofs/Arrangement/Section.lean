import ComponentLint.Proofs.Arrangement.Blocks
import ComponentLint.Proofs.Graph.TopologicalOrder
import ComponentLint.Proofs.SectionGraph
/-
  One section of one container. A sequence of profiles is `Sorted` when every tail begins with the
  least of those that read nothing left in the tail. Sorting a section that has no cycle gives all
  its blocks in such a sequence, and leaves one that is such a sequence already as it is; any other
  section keeps its blocks where they are.
-/

namespace ComponentLint

namespace Profile

/-- The strict order of a section: props types last, then by name without regard to case. -/
def Before (p q : Profile) : Prop :=
  (p.isPropsType = false ∧ q.isPropsType = true) ∨
    (p.isPropsType = q.isPropsType ∧ p.sortKey < q.sortKey)

/-- The order does not tell them apart. -/
def SameKey (p q : Profile) : Prop :=
  p.isPropsType = q.isPropsType ∧ p.sortKey = q.sortKey

/-- Every tail begins with the least of those that read nothing in it. -/
def Sorted : List Profile → Prop
  | [] => True
  | p :: rest =>
    (∀ q ∈ rest, ¬ p.ReadsFrom q) ∧
      (∀ q ∈ rest, (∀ r ∈ p :: rest, ¬ q.ReadsFrom r) → ¬ q.Before p) ∧ Sorted rest

theorem ReadsFrom.irrefl (p : Profile) : ¬ p.ReadsFrom p :=
  fun h => h.1 rfl

theorem Before.trans {p q r : Profile} (h : p.Before q) (k : q.Before r) : p.Before r := by
  rcases h with ⟨hp, hq⟩ | ⟨hpq, h⟩
  · rcases k with ⟨hq', hr⟩ | ⟨hqr, _⟩
    · exact Or.inl ⟨hp, hr⟩
    · exact Or.inl ⟨hp, hqr ▸ hq⟩
  · rcases k with ⟨hq, hr⟩ | ⟨hqr, k⟩
    · exact Or.inl ⟨hpq ▸ hq, hr⟩
    · exact Or.inr ⟨hpq.trans hqr, String.lt_trans h k⟩

theorem Before.irrefl (p : Profile) : ¬ p.Before p := by
  intro hx
  rcases hx with ⟨h, h'⟩ | ⟨-, h⟩
  · rw [h] at h'
    exact Bool.noConfusion h'
  · exact String.lt_irrefl _ h

theorem SameKey.symm {p q : Profile} (h : p.SameKey q) : q.SameKey p :=
  ⟨h.1.symm, h.2.symm⟩

theorem SameKey.trans {p q r : Profile} (h : p.SameKey q) (k : q.SameKey r) : p.SameKey r :=
  ⟨h.1.trans k.1, h.2.trans k.2⟩

theorem Before.of_sameKey_left {p q r : Profile} (h : p.SameKey q) (k : q.Before r) :
    p.Before r := by
  unfold Before at *
  rwa [h.1, h.2]

theorem Before.of_sameKey_right {p q r : Profile} (h : p.Before q) (k : q.SameKey r) :
    p.Before r := by
  unfold Before at *
  rwa [← k.1, ← k.2]

theorem before_trichotomy (p q : Profile) : p.Before q ∨ p.SameKey q ∨ q.Before p := by
  by_cases hprops : p.isPropsType = q.isPropsType
  · rcases lt_trichotomy_texts p.sortKey q.sortKey with h | h | h
    · exact Or.inl (Or.inr ⟨hprops, h⟩)
    · exact Or.inr (Or.inl ⟨hprops, h⟩)
    · exact Or.inr (Or.inr (Or.inr ⟨hprops.symm, h⟩))
  · cases hp : p.isPropsType with
    | false =>
      have hq : q.isPropsType = true := by simpa [hp] using hprops
      exact Or.inl (Or.inl ⟨hp, hq⟩)
    | true =>
      have hq : q.isPropsType = false := by simpa [hp] using hprops
      exact Or.inr (Or.inr (Or.inl ⟨hq, hp⟩))

end Profile

/-! ## The order of blocks -/

namespace Block

/-- What the order looks at. -/
def profile (b : Block) : Profile :=
  b.anchor.profile

theorem le_iff (a b : Block) :
    a.le b = true ↔ a.profile.Before b.profile ∨
      (a.profile.SameKey b.profile ∧ a.anchor.index ≤ b.anchor.index) := by
  unfold le Profile.Before Profile.SameKey profile
  simp only [Classified.profile_isPropsType, Classified.profile_sortKey]
  cases ha : a.anchor.isPropsType <;> cases hb : b.anchor.isPropsType <;> simp

theorem le_total (a b : Block) : a.le b = true ∨ b.le a = true := by
  rw [le_iff, le_iff]
  rcases Profile.before_trichotomy a.profile b.profile with h | h | h
  · exact Or.inl (Or.inl h)
  · rcases Nat.le_total a.anchor.index b.anchor.index with hi | hi
    · exact Or.inl (Or.inr ⟨h, hi⟩)
    · exact Or.inr (Or.inr ⟨h.symm, hi⟩)
  · exact Or.inr (Or.inl h)

theorem le_trans (a b c : Block) (h : a.le b = true) (k : b.le c = true) : a.le c = true := by
  rw [le_iff] at *
  rcases h with h | ⟨h, hi⟩
  · rcases k with k | ⟨k, -⟩
    · exact Or.inl (h.trans k)
    · exact Or.inl (h.of_sameKey_right k)
  · rcases k with k | ⟨k, ki⟩
    · exact Or.inl (.of_sameKey_left h k)
    · exact Or.inr ⟨h.trans k, Nat.le_trans hi ki⟩

/-- Only blocks of one number come before each other. -/
theorem le_antisymm (a b : Block) (h : a.le b = true) (k : b.le a = true) :
    a.anchor.index = b.anchor.index := by
  rw [le_iff] at h k
  rcases h with h | ⟨h, hi⟩
  · rcases k with k | ⟨k, -⟩
    · exact absurd (h.trans k) (Profile.Before.irrefl _)
    · exact absurd (h.of_sameKey_right k) (Profile.Before.irrefl _)
  · rcases k with k | ⟨-, ki⟩
    · exact absurd (k.of_sameKey_right h) (Profile.Before.irrefl _)
    · exact Nat.le_antisymm hi ki

theorem not_before_of_le {a b : Block} (h : a.le b = true) : ¬ b.profile.Before a.profile := by
  intro k
  rcases (le_iff a b).1 h with h | ⟨h, -⟩
  · exact Profile.Before.irrefl _ (h.trans k)
  · exact Profile.Before.irrefl _ (.of_sameKey_left h k)

theorem le_of_not_before {a b : Block} (h : ¬ b.profile.Before a.profile)
    (hi : a.anchor.index ≤ b.anchor.index) : a.le b = true := by
  rw [le_iff]
  rcases Profile.before_trichotomy a.profile b.profile with k | k | k
  · exact Or.inl k
  · exact Or.inr ⟨k, hi⟩
  · exact absurd k h

end Block

/-! ## The nodes of a section -/

/-- Blocks of one section, each once. -/
structure SectionBlocks (ds : List Classified) (place : Section) (bs : List Block) : Prop where
  mem : ∀ b ∈ bs, b.anchor ∈ sectionMembers ds place
  nodup : (bs.map (·.anchor.index)).Nodup

/-- The blocks with the numbers of the blocks they have to follow. -/
def dependencyNodes (graph : SectionGraph) (bs : List Block) : List (Block × List Nat) :=
  bs.map fun b =>
    (b, (graph.edges.successors b.anchor.index).filter (bs.map (·.anchor.index)).contains)

theorem arrangeSection_eq (graph : SectionGraph) (resorted : List Section) (bs : List Block) :
    arrangeSection graph resorted bs =
      if resorted.contains graph.place && !graph.isCyclic then
        (topologicalOrder (·.1.anchor.index) Prod.snd (fun a b => Block.le a.1 b.1)
          (dependencyNodes graph bs)).map Prod.fst
      else bs :=
  rfl

theorem map_fst_dependencyNodes (graph : SectionGraph) (bs : List Block) :
    (dependencyNodes graph bs).map Prod.fst = bs := by
  simp [dependencyNodes, Function.comp_def]

section

variable {ds : List Classified} {place : Section} {bs : List Block}

theorem fst_mem_of_mem_dependencyNodes {graph : SectionGraph} {x : Block × List Nat}
    (hx : x ∈ dependencyNodes graph bs) : x.1 ∈ bs := by
  obtain ⟨b, hb, rfl⟩ := List.mem_map.1 hx
  exact hb

theorem mem_snd_iff (h : Numbered ds) (hbs : SectionBlocks ds place bs) {x y : Block × List Nat}
    (hx : x ∈ dependencyNodes (.of ds place) bs) (hy : y ∈ dependencyNodes (.of ds place) bs) :
    y.1.anchor.index ∈ x.2 ↔ x.1.profile.ReadsFrom y.1.profile := by
  obtain ⟨b, hb, rfl⟩ := List.mem_map.1 hx
  have hc := fst_mem_of_mem_dependencyNodes hy
  have hmem : y.1.anchor.index ∈ bs.map (·.anchor.index) := List.mem_map.2 ⟨y.1, hc, rfl⟩
  rw [List.mem_filter, List.contains_iff_mem, and_iff_left hmem]
  exact SectionGraph.mem_successors_iff (h.sublist (sectionMembers_sublist ds place))
    (hbs.mem b hb) (hbs.mem y.1 hc)

theorem ranked_dependencyNodes (graph : SectionGraph) (hbs : (bs.map (·.anchor.index)).Nodup) :
    Ranked (·.1.anchor.index) (fun a b => Block.le a.1 b.1) (dependencyNodes graph bs) where
  nodup := by
    have : (dependencyNodes graph bs).map (·.1.anchor.index) = bs.map (·.anchor.index) := by
      simp [dependencyNodes, Function.comp_def]
    rwa [this]
  total a b := Block.le_total a.1 b.1
  trans a b c := Block.le_trans a.1 b.1 c.1
  antisymm a b := Block.le_antisymm a.1 b.1

theorem pending_dependencyNodes (graph : SectionGraph) (hbs : SectionBlocks ds place bs) :
    Pending (·.1.anchor.index) Prod.snd [] (dependencyNodes graph bs) where
  nodup := (ranked_dependencyNodes graph hbs.nodup).nodup
  known x hx i hi := by
    obtain ⟨b, hb, rfl⟩ := List.mem_map.1 hx
    obtain ⟨c, hc, rfl⟩ := List.mem_map.1 (List.contains_iff_mem.1 (List.mem_filter.1 hi).2)
    exact Or.inr (List.mem_map.2 ⟨_, List.mem_map.2 ⟨c, hc, rfl⟩, rfl⟩)
  apart _ _ := by simp

/-- Blocks that blocked each other would read each other in a circle. -/
theorem neverBlocked_dependencyNodes (h : Numbered ds) (hbs : SectionBlocks ds place bs)
    (hc : ¬ Profile.Cyclic place (ds.map Classified.profile)) :
    NeverBlocked (·.1.anchor.index) Prod.snd (dependencyNodes (.of ds place) bs) := by
  refine neverBlocked_of_acyclic fun x hx hcycle => hc ?_
  have hprofile : ∀ y ∈ dependencyNodes (.of ds place) bs,
      y.1.profile ∈ Profile.ofSection place (ds.map Classified.profile) := by
    intro y hy
    rw [← map_profile_sectionMembers]
    exact List.mem_map_of_mem (hbs.mem y.1 (fst_mem_of_mem_dependencyNodes hy))
  refine ⟨x.1.profile, hprofile x hx, ?_⟩
  refine hcycle.lift (fun y => y.1.profile) fun y z hyz => ?_
  exact ⟨hprofile y hyz.1, hprofile z hyz.2.1, (mem_snd_iff h hbs hyz.1 hyz.2.1).1 hyz.2.2⟩

theorem free_iff (h : Numbered ds) (hbs : SectionBlocks ds place bs)
    {xs : List (Block × List Nat)} (hxs : xs ⊆ dependencyNodes (.of ds place) bs)
    {x : Block × List Nat} (hx : x ∈ dependencyNodes (.of ds place) bs) :
    Free (·.1.anchor.index) Prod.snd xs x ↔
      ∀ p ∈ xs.map (·.1.profile), ¬ x.1.profile.ReadsFrom p := by
  rw [List.forall_mem_map]
  exact forall₂_congr fun y hy => not_congr (mem_snd_iff h hbs hx (hxs hy))

theorem sorted_of_leastFirst (h : Numbered ds) (hbs : SectionBlocks ds place bs)
    {xs : List (Block × List Nat)} (hxs : xs ⊆ dependencyNodes (.of ds place) bs)
    (hl : LeastFirst (·.1.anchor.index) Prod.snd (fun a b => Block.le a.1 b.1) xs) :
    Profile.Sorted (xs.map (·.1.profile)) := by
  induction xs with
  | nil => trivial
  | cons x xs ih =>
    obtain ⟨hfree, hleast, hrest⟩ := hl
    have htail : xs ⊆ dependencyNodes (.of ds place) bs := fun y hy => hxs (by simp [hy])
    rw [free_iff h hbs hxs (hxs (by simp))] at hfree
    refine ⟨fun q hq => hfree q (by simp only [List.map_cons, List.mem_cons]; exact Or.inr hq), ?_,
      ih htail hrest⟩
    intro q hq hread
    obtain ⟨y, hy, rfl⟩ := List.mem_map.1 hq
    exact Block.not_before_of_le (hleast y hy ((free_iff h hbs hxs (htail hy)).2 hread))

theorem leastFirst_of_sorted (h : Numbered ds) (hbs : SectionBlocks ds place bs)
    {xs : List (Block × List Nat)} (hxs : xs ⊆ dependencyNodes (.of ds place) bs)
    (hi : xs.Pairwise fun x y => x.1.anchor.index ≤ y.1.anchor.index)
    (hs : Profile.Sorted (xs.map (·.1.profile))) :
    LeastFirst (·.1.anchor.index) Prod.snd (fun a b => Block.le a.1 b.1) xs := by
  induction xs with
  | nil => trivial
  | cons x xs ih =>
    obtain ⟨hread, hleast, hrest⟩ := hs
    obtain ⟨hfirst, hi⟩ := List.pairwise_cons.1 hi
    have htail : xs ⊆ dependencyNodes (.of ds place) bs := fun y hy => hxs (by simp [hy])
    refine ⟨?_, fun y hy hfree => ?_, ih htail hi hrest⟩
    · rw [free_iff h hbs hxs (hxs (by simp))]
      intro p hp
      rcases List.mem_cons.1 hp with rfl | hp
      · exact Profile.ReadsFrom.irrefl _
      · exact hread p hp
    · rw [free_iff h hbs hxs (htail hy)] at hfree
      exact Block.le_of_not_before (hleast _ (List.mem_map.2 ⟨y, hy, rfl⟩) hfree) (hfirst y hy)

/-! ## Sections in order -/

variable {resorted : List Section}

/-- Whether a section is sorted: it is to be, and nothing in it reads itself in a circle. -/
def IsSorted (resorted : List Section) (place : Section) (ps : List Profile) : Prop :=
  place ∈ resorted ∧ ¬ Profile.Cyclic place ps

theorem contains_and_not_isCyclic_iff (h : Numbered ds) :
    (resorted.contains (SectionGraph.of ds place).place && !(SectionGraph.of ds place).isCyclic) =
      true ↔ IsSorted resorted place (ds.map Classified.profile) := by
  rw [Bool.and_eq_true, List.contains_iff_mem, Bool.not_eq_true', ← Bool.not_eq_true,
    isCyclic_of h]
  rfl

theorem arrangeSection_of_not (h : Numbered ds)
    (hs : ¬ IsSorted resorted place (ds.map Classified.profile)) :
    arrangeSection (.of ds place) resorted bs = bs := by
  rw [arrangeSection_eq, if_neg]
  rwa [contains_and_not_isCyclic_iff h]

theorem arrangeSection_of_isSorted (h : Numbered ds)
    (hs : IsSorted resorted place (ds.map Classified.profile)) :
    arrangeSection (.of ds place) resorted bs =
      (topologicalOrder (·.1.anchor.index) Prod.snd (fun a b => Block.le a.1 b.1)
        (dependencyNodes (.of ds place) bs)).map Prod.fst := by
  rw [arrangeSection_eq, if_pos]
  rwa [contains_and_not_isCyclic_iff h]

theorem topologicalOrder_dependencyNodes (h : Numbered ds) (hbs : SectionBlocks ds place bs)
    (hc : ¬ Profile.Cyclic place (ds.map Classified.profile)) :
    (topologicalOrder (·.1.anchor.index) Prod.snd (fun a b => Block.le a.1 b.1)
        (dependencyNodes (.of ds place) bs)).Perm (dependencyNodes (.of ds place) bs) ∧
      LeastFirst (·.1.anchor.index) Prod.snd (fun a b => Block.le a.1 b.1)
        (topologicalOrder (·.1.anchor.index) Prod.snd (fun a b => Block.le a.1 b.1)
          (dependencyNodes (.of ds place) bs)) :=
  topologicalOrder_spec (ranked_dependencyNodes _ hbs.nodup) (pending_dependencyNodes _ hbs)
    (neverBlocked_dependencyNodes h hbs hc)

/-- No block of a section is lost or doubled. -/
theorem arrangeSection_perm (h : Numbered ds) (hbs : SectionBlocks ds place bs) :
    (arrangeSection (.of ds place) resorted bs).Perm bs := by
  by_cases hs : IsSorted resorted place (ds.map Classified.profile)
  · rw [arrangeSection_of_isSorted h hs]
    have := (topologicalOrder_dependencyNodes h hbs hs.2).1.map Prod.fst
    rwa [map_fst_dependencyNodes] at this
  · rw [arrangeSection_of_not h hs]

theorem arrangeSection_sorted (h : Numbered ds) (hbs : SectionBlocks ds place bs)
    (hs : IsSorted resorted place (ds.map Classified.profile)) :
    Profile.Sorted ((arrangeSection (.of ds place) resorted bs).map Block.profile) := by
  obtain ⟨hperm, hleast⟩ := topologicalOrder_dependencyNodes h hbs hs.2
  rw [arrangeSection_of_isSorted h hs, List.map_map]
  exact sorted_of_leastFirst h hbs hperm.subset hleast

/-- A section that is in order, with numbers that ascend, is left as it is. -/
theorem arrangeSection_eq_self (h : Numbered ds) (hbs : SectionBlocks ds place bs)
    (hi : bs.Pairwise fun a b => a.anchor.index ≤ b.anchor.index)
    (hsorted : IsSorted resorted place (ds.map Classified.profile) →
      Profile.Sorted (bs.map Block.profile)) :
    arrangeSection (.of ds place) resorted bs = bs := by
  by_cases hs : IsSorted resorted place (ds.map Classified.profile)
  · have hmap : (dependencyNodes (.of ds place) bs).map (·.1.profile) = bs.map Block.profile := by
      simp [dependencyNodes, Function.comp_def]
    have hindex : (dependencyNodes (.of ds place) bs).Pairwise
        fun x y => x.1.anchor.index ≤ y.1.anchor.index := by
      rw [dependencyNodes, List.pairwise_map]
      exact hi
    have hleast := leastFirst_of_sorted h hbs (List.Subset.refl _) hindex (hmap ▸ hsorted hs)
    rw [arrangeSection_of_isSorted h hs,
      topologicalOrder_eq_self (ranked_dependencyNodes _ hbs.nodup) (pending_dependencyNodes _ hbs)
        hleast, map_fst_dependencyNodes]
  · exact arrangeSection_of_not h hs

end

end ComponentLint
