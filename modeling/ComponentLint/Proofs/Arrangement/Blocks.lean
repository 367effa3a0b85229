import ComponentLint.Arrangement
import ComponentLint.Proofs.Lists
/-
  A container as unclassified declarations at its head and blocks after them. Cutting a container
  and putting the blocks together again are inverse to each other (`blocks_spec`, `blocks_append`),
  so an arrangement can be studied on its blocks alone. Grouping a list by keys loses nothing
  (`flatMap_filter_perm`), and does nothing to a list whose keys ascend (`flatMap_filter_eq_self`).
-/

namespace ComponentLint

/-! ## Grouping by keys -/

section

variable {α κ : Type}

/-- A list whose elements with a property come first is those and then the others. -/
theorem filter_append_filter_not {l : List α} {p : α → Bool}
    (h : l.Pairwise fun a b => p b = true → p a = true) :
    l.filter p ++ l.filter (fun a => !p a) = l := by
  induction h with
  | nil => rfl
  | @cons a l ha _ ih =>
    cases hp : p a with
    | true =>
      rw [List.filter_cons_of_pos hp, List.filter_cons_of_neg (by simp [hp]), List.cons_append, ih]
    | false =>
      have hnone : l.filter p = [] := List.filter_eq_nil_iff.2 fun b hb hpb => by
        rw [ha b hb hpb] at hp
        exact Bool.noConfusion hp
      rw [hnone, List.nil_append] at ih
      rw [List.filter_cons_of_neg (by simp [hp]), hnone, List.nil_append,
        List.filter_cons_of_pos (by simp [hp]), ih]

variable [DecidableEq κ]

theorem flatMap_filter_filter_ne (f : α → κ) {keys : List κ} {k : κ} (hk : k ∉ keys)
    (l : List α) :
    (keys.flatMap fun j => (l.filter fun a => !(f a == k)).filter (f · == j)) =
      keys.flatMap fun j => l.filter (f · == j) := by
  refine List.flatMap_congr fun j hj => ?_
  rw [List.filter_filter]
  refine List.filter_congr fun a _ => ?_
  by_cases hfa : f a = j
  · have hne : f a ≠ k := by
      intro heq
      subst heq
      exact hk (hfa ▸ hj)
    simp [hfa, hfa ▸ hne]
  · simp [hfa]

theorem flatMap_filter_perm (f : α → κ) (keys : List κ) (l : List α) (hk : keys.Nodup)
    (h : ∀ a ∈ l, f a ∈ keys) : (keys.flatMap fun k => l.filter (f · == k)).Perm l := by
  induction keys generalizing l with
  | nil =>
    cases l with
    | nil => exact .refl _
    | cons a l => exact absurd (h a (by simp)) (by simp)
  | cons k keys ih =>
    obtain ⟨hnot, hk⟩ := List.nodup_cons.1 hk
    have hrest : ∀ a ∈ l.filter fun a => !(f a == k), f a ∈ keys := by
      intro a ha
      obtain ⟨hal, hne⟩ := List.mem_filter.1 ha
      exact (List.mem_cons.1 (h a hal)).resolve_left (by simpa using hne)
    rw [List.flatMap_cons, ← flatMap_filter_filter_ne f hnot l]
    exact ((ih _ hk hrest).append_left _).trans (List.filter_append_perm _ l)

theorem flatMap_filter_eq_self (f : α → κ) (keys : List κ) (l : List α) (hk : keys.Nodup)
    (h : ∀ a ∈ l, f a ∈ keys)
    (hl : l.Pairwise fun a b => keys.idxOf (f a) ≤ keys.idxOf (f b)) :
    (keys.flatMap fun k => l.filter (f · == k)) = l := by
  induction keys generalizing l with
  | nil =>
    cases l with
    | nil => rfl
    | cons a l => exact absurd (h a (by simp)) (by simp)
  | cons k keys ih =>
    obtain ⟨hnot, hk⟩ := List.nodup_cons.1 hk
    have hrest : ∀ a ∈ l.filter fun a => !(f a == k), f a ∈ keys ∧ f a ≠ k := by
      intro a ha
      obtain ⟨hal, hne⟩ := List.mem_filter.1 ha
      have hne : f a ≠ k := by simpa using hne
      exact ⟨(List.mem_cons.1 (h a hal)).resolve_left hne, hne⟩
    have hsorted : (l.filter fun a => !(f a == k)).Pairwise
        fun a b => keys.idxOf (f a) ≤ keys.idxOf (f b) := by
      refine (hl.filter _).imp_of_mem fun {a b} ha hb hab => ?_
      rw [List.idxOf_cons_ne _ (hrest a ha).2.symm, List.idxOf_cons_ne _ (hrest b hb).2.symm] at hab
      exact Nat.le_of_succ_le_succ hab
    have hfirst : l.Pairwise fun a b => (f b == k) = true → (f a == k) = true := by
      refine hl.imp fun {a b} hab hb => ?_
      have hb : f b = k := by simpa using hb
      rw [hb, List.idxOf_cons_self, Nat.le_zero] at hab
      by_contra hne
      rw [List.idxOf_cons_ne _ fun he => hne (by simp [he])] at hab
      exact absurd hab (Nat.succ_ne_zero _)
    rw [List.flatMap_cons, ← flatMap_filter_filter_ne f hnot l,
      ih _ hk (fun a ha => (hrest a ha).1) hsorted]
    exact filter_append_filter_not hfirst

/-- The part of a concatenation that has a key is the list given for that key. -/
theorem filter_flatMap_eq (f : α → κ) (g : κ → List α) (hg : ∀ k, ∀ a ∈ g k, f a = k)
    (keys : List κ) (hk : keys.Nodup) {k : κ} (hmem : k ∈ keys) :
    (keys.flatMap g).filter (f · == k) = g k := by
  have hkeys : ∀ j ∈ keys, ∀ a ∈ g j, (f a == k) = (j == k) := fun j _ a ha => by rw [hg j a ha]
  rw [filter_flatMap_of_forall hkeys, List.filter_beq, List.count_eq_one_of_mem hk hmem]
  exact List.append_nil (g k)

theorem pairwise_flatMap_idxOf (f : α → κ) (g : κ → List α) (hg : ∀ k, ∀ a ∈ g k, f a = k)
    (keys : List κ) (hk : keys.Nodup) :
    (keys.flatMap g).Pairwise fun a b => keys.idxOf (f a) ≤ keys.idxOf (f b) := by
  rw [List.pairwise_flatMap]
  constructor
  · intro k _
    refine List.pairwise_of_forall_mem_list fun a ha b hb => Nat.le_of_eq ?_
    rw [hg k a ha, hg k b hb]
  · rw [List.pairwise_iff_getElem]
    intro i j hi hj hij a ha b hb
    rw [hg _ a ha, hg _ b hb, hk.idxOf_getElem i hi, hk.idxOf_getElem j hj]
    exact Nat.le_of_lt hij

end

/-! ## Blocks -/

/-- The anchor is in the block's section, the followers are in none. -/
structure Block.WellFormed (block : Block) : Prop where
  anchor : block.anchor.section? = some block.place
  followers : ∀ d ∈ block.followers, d.section? = none

theorem blocks_spec (ds : List Classified) :
    (blocks ds).1 ++ (blocks ds).2.flatMap Block.items = ds ∧
      (∀ d ∈ (blocks ds).1, d.section? = none) ∧ ∀ b ∈ (blocks ds).2, b.WellFormed := by
  induction ds with
  | nil => exact ⟨rfl, by simp [blocks], by simp [blocks]⟩
  | cons d ds ih =>
    obtain ⟨hflat, hhead, hwf⟩ := ih
    rw [blocks]
    cases hs : d.section? with
    | none =>
      dsimp only
      refine ⟨by rw [List.cons_append, hflat], fun e he => ?_, hwf⟩
      rcases List.mem_cons.1 he with rfl | he
      · exact hs
      · exact hhead e he
    | some place =>
      dsimp only
      refine ⟨?_, by simp, fun b hb => ?_⟩
      · rw [List.nil_append, List.flatMap_cons, Block.items, List.cons_append, hflat]
      · rcases List.mem_cons.1 hb with rfl | hb
        · exact ⟨hs, hhead⟩
        · exact hwf b hb

theorem blocks_of_unclassified {head : List Classified} (h : ∀ d ∈ head, d.section? = none)
    (rest : List Classified) :
    blocks (head ++ rest) = (head ++ (blocks rest).1, (blocks rest).2) := by
  induction head with
  | nil => rfl
  | cons d head ih =>
    rw [List.cons_append, blocks, ih fun e he => h e (by simp [he]), h d (by simp)]
    rfl

theorem blocks_append {head : List Classified} (h : ∀ d ∈ head, d.section? = none)
    {bs : List Block} (hb : ∀ b ∈ bs, b.WellFormed) :
    blocks (head ++ bs.flatMap Block.items) = (head, bs) := by
  induction bs generalizing head with
  | nil => rw [blocks_of_unclassified h]; simp [blocks]
  | cons b bs ih =>
    have hwf := hb b (by simp)
    have htail := ih hwf.followers fun c hc => hb c (by simp [hc])
    rw [blocks_of_unclassified h, List.flatMap_cons, Block.items, List.cons_append, blocks, htail,
      hwf.anchor]
    simp

theorem filter_items {b : Block} (hb : b.WellFormed) (place : Section) :
    b.items.filter (fun d => d.section? == some place) =
      if b.place == place then [b.anchor] else [] := by
  have hf : b.followers.filter (fun d => d.section? == some place) = [] :=
    List.filter_eq_nil_iff.2 fun d hd => by simp [hb.followers d hd]
  rw [Block.items, List.filter_cons, hf, hb.anchor]
  simp

/-- The declarations of a section are the anchors of its blocks. -/
theorem sectionMembers_append {head : List Classified} (h : ∀ d ∈ head, d.section? = none)
    {bs : List Block} (hb : ∀ b ∈ bs, b.WellFormed) (place : Section) :
    sectionMembers (head ++ bs.flatMap Block.items) place =
      (bs.filter (·.place == place)).map (·.anchor) := by
  have hhead : head.filter (fun d => d.section? == some place) = [] :=
    List.filter_eq_nil_iff.2 fun d hd => by simp [h d hd]
  rw [sectionMembers, List.filter_append, hhead, List.nil_append]
  induction bs with
  | nil => rfl
  | cons b bs ih =>
    rw [List.flatMap_cons, List.filter_append, filter_items (hb b (by simp)),
      ih fun c hc => hb c (by simp [hc]), List.filter_cons]
    split <;> simp

theorem sectionMembers_eq_map_anchor (ds : List Classified) (place : Section) :
    sectionMembers ds place = ((blocks ds).2.filter (·.place == place)).map (·.anchor) := by
  obtain ⟨hflat, hhead, hwf⟩ := blocks_spec ds
  have := sectionMembers_append hhead hwf place
  rwa [hflat] at this

theorem filterMap_section?_append {head : List Classified} (h : ∀ d ∈ head, d.section? = none)
    {bs : List Block} (hb : ∀ b ∈ bs, b.WellFormed) :
    (head ++ bs.flatMap Block.items).filterMap (·.section?) = bs.map (·.place) := by
  rw [List.filterMap_append, List.filterMap_eq_nil_iff.2 h, List.nil_append]
  induction bs with
  | nil => rfl
  | cons b bs ih =>
    have hwf := hb b (by simp)
    rw [List.flatMap_cons, List.filterMap_append, ih fun c hc => hb c (by simp [hc]), Block.items,
      List.filterMap_cons, hwf.anchor, List.filterMap_eq_nil_iff.2 hwf.followers]
    rfl

end ComponentLint
