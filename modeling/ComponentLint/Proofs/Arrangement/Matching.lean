import ComponentLint.Proofs.Fix.Idempotence
/-
  What an arrangement looks at. Declarations match when they are the same but for their statements;
  the name may differ too if nothing can read the declaration and its section is never sorted. Two
  sequences of matching declarations are arranged alike: the same sections need sorting
  (`resorted_eq`), the same have cycles (`cyclic_eq`), and the arranged sequences match again
  (`arranged_matches`).
-/

namespace ComponentLint

open Profile

/-- The sections that can come to be sorted: those that are to be sorted by name, and the types for
the sake of the props type. -/
def Options.Sorts (options : Options) (place : Section) : Prop :=
  place ∈ options.sortable ∨ place = .typesInterfaces

/-- The declarations agree in all but their statements and their names. -/
structure Classified.Alike (d e : Classified) : Prop where
  index : d.index = e.index
  kind : d.kind = e.kind
  scope : d.scope = e.scope
  bound : d.bound = e.bound
  reads : d.reads = e.reads
  placement : d.placement = e.placement

/-- The declarations agree in all that an arrangement looks at. -/
structure Classified.Matches (options : Options) (d e : Classified) : Prop extends
    Classified.Alike d e where
  name : d.name = e.name ∨
    (d.bound = [] ∧ ∀ place, d.section? = some place → ¬ options.Sorts place)

namespace Classified.Alike

variable {d e : Classified}

theorem section?_eq (h : d.Alike e) : d.section? = e.section? := by
  unfold Classified.section?
  rw [h.placement]

theorem isComponent_eq (h : d.Alike e) : d.isComponent = e.isComponent := by
  unfold Declaration.isComponent
  rw [h.kind]

theorem symm (h : d.Alike e) : e.Alike d :=
  ⟨h.index.symm, h.kind.symm, h.scope.symm, h.bound.symm, h.reads.symm, h.placement.symm⟩

theorem profile_eq (h : d.Alike e) (hname : d.name = e.name) : d.profile = e.profile := by
  unfold Classified.profile
  rw [hname, h.kind, h.scope, h.bound, h.reads, h.placement]

end Classified.Alike

namespace Classified.Matches

variable {options : Options} {d e : Classified}

theorem symm (h : d.Matches options e) : e.Matches options d := by
  refine ⟨h.toAlike.symm, ?_⟩
  rw [← h.bound, ← h.section?_eq]
  exact h.name.imp_left Eq.symm

/-- In a section that can come to be sorted no name differs. -/
theorem profile_eq_of_sorts (h : d.Matches options e) {place : Section}
    (hs : d.section? = some place) (hsorts : options.Sorts place) : d.profile = e.profile := by
  refine h.profile_eq (h.name.resolve_right fun hx => ?_)
  exact hx.2 place hs hsorts

/-- Nor does the name of a declaration that can be read. -/
theorem profile_eq_of_bound (h : d.Matches options e) (hb : d.bound ≠ []) :
    d.profile = e.profile :=
  h.profile_eq (h.name.resolve_right fun hx => hb hx.1)

end Classified.Matches

/-! ## Cycles -/

namespace Profile

/-- What is read binds a name. -/
theorem ReadsFrom.bound_ne_nil {p q : Profile} (h : p.ReadsFrom q) : q.bound ≠ [] := by
  obtain ⟨-, name, -, hname⟩ := h
  exact List.ne_nil_of_mem hname

/-- A cycle passes only through profiles that bind a name. -/
theorem OnCycle.of_bound {ps qs : List Profile} (h : ∀ p ∈ ps, p.bound ≠ [] → p ∈ qs)
    {p : Profile} (hc : OnCycle ps p) : OnCycle qs p := by
  have hend : ∀ {a b}, Relation.TransGen (fun a b => a ∈ ps ∧ b ∈ ps ∧ a.ReadsFrom b) a b →
      b.bound ≠ [] := by
    intro a b hab
    cases hab with
    | single hs => exact hs.2.2.bound_ne_nil
    | tail _ hs => exact hs.2.2.bound_ne_nil
  have hpath : ∀ {a b}, Relation.TransGen (fun a b => a ∈ ps ∧ b ∈ ps ∧ a.ReadsFrom b) a b →
      a.bound ≠ [] → Relation.TransGen (fun a b => a ∈ qs ∧ b ∈ qs ∧ a.ReadsFrom b) a b := by
    intro a b hab ha
    induction hab with
    | single hs => exact .single ⟨h _ hs.1 ha, h _ hs.2.1 hs.2.2.bound_ne_nil, hs.2.2⟩
    | tail hab hs ih =>
      exact ih.tail ⟨h _ hs.1 (hend hab), h _ hs.2.1 hs.2.2.bound_ne_nil, hs.2.2⟩
  exact hpath hc (hend hc)

theorem Cyclic.of_bound {ps qs : List Profile} (h : ∀ p ∈ ps, p.bound ≠ [] → p ∈ qs)
    {place : Section} (hc : Cyclic place ps) : Cyclic place qs := by
  obtain ⟨p, -, hcycle⟩ := hc
  have hsection : ∀ q ∈ ofSection place ps, q.bound ≠ [] → q ∈ ofSection place qs := by
    intro q hq hb
    obtain ⟨hq, hs⟩ := List.mem_filter.1 hq
    exact List.mem_filter.2 ⟨h q hq hb, hs⟩
  have hcycle' := hcycle.of_bound hsection
  refine ⟨p, ?_, hcycle'⟩
  obtain ⟨q, hq, -⟩ := Relation.TransGen.head'_iff.1 hcycle'
  exact hq.1

end Profile

/-! ## What needs sorting, and what has a cycle -/

section

variable {options : Options} {ds es : List Classified}
  (h : List.Forall₂ (Classified.Matches options) ds es)

include h

theorem map_index_of_matches : ds.map (·.index) = es.map (·.index) :=
  Outline.map_eq_of_forall₂ (h.imp fun _ _ hde => hde.index)

theorem Numbered.of_matches (hn : Numbered ds) : Numbered es := by
  unfold Numbered at *
  rwa [← map_index_of_matches h]

theorem sectionMembers_matches (place : Section) :
    List.Forall₂ (Classified.Matches options) (sectionMembers ds place)
      (sectionMembers es place) :=
  forall₂_filter h fun _ _ hde => by rw [hde.section?_eq]

theorem inScope_matches (scope : Scope) :
    List.Forall₂ (Classified.Matches options) (inScope scope ds) (inScope scope es) :=
  forall₂_filter h fun _ _ hde => by rw [hde.scope]

/-- The members of a section that can come to be sorted differ in their statements only. -/
theorem sectionMembers_alike {place : Section} (hsorts : options.Sorts place) :
    List.Forall₂ (fun d e : Classified => d.index = e.index ∧ d.profile = e.profile)
      (sectionMembers ds place) (sectionMembers es place) := by
  have hmembers := (List.forall₂_and_left _ _).2
    ⟨fun d hd => (List.mem_filter.1 hd).2, sectionMembers_matches h place⟩
  refine hmembers.imp fun d e hde => ⟨hde.2.index, ?_⟩
  exact hde.2.profile_eq_of_sorts (by simpa using hde.1) hsorts

theorem ofSection_eq {place : Section} (hsorts : options.Sorts place) :
    ofSection place (ds.map Classified.profile) = ofSection place (es.map Classified.profile) := by
  rw [← map_profile_sectionMembers, ← map_profile_sectionMembers]
  exact Outline.map_eq_of_forall₂ ((sectionMembers_alike h hsorts).imp fun _ _ hde => hde.2)

theorem needsSorting_matches (place : Section) :
    NeedsSorting options (ds.map Classified.profile) place ↔
      NeedsSorting options (es.map Classified.profile) place := by
  refine or_congr (and_congr_right fun hplace => ?_) (and_congr_right fun hplace => ?_)
  · simp only [HasMisplaced, group_eq, ofSection_eq h (Or.inl hplace)]
  · simp only [PropsNotLast, ofSection_eq h (Or.inr rfl)]

theorem resorted_eq (hn : Numbered ds) :
    (validate options ds).resorted = (validate options es).resorted := by
  have hmem : ∀ place, place ∈ (validate options ds).resorted ↔
      place ∈ (validate options es).resorted := by
    intro place
    rw [mem_resorted_iff hn, mem_resorted_iff (Numbered.of_matches h hn)]
    exact needsSorting_matches h place
  -- both keep the order of the sections, so the same members make the same list
  have hfilter : ∀ ds, (validate options ds).resorted =
      options.order.sections.filter (validate options ds).resorted.contains := by
    intro ds
    show options.order.sections.filter _ = options.order.sections.filter _
    refine List.filter_congr fun place hplace => ?_
    rw [Bool.eq_iff_iff, List.contains_iff_mem]
    exact ⟨fun hp => List.mem_filter.2 ⟨hplace, hp⟩, fun hp => (List.mem_filter.1 hp).2⟩
  rw [hfilter ds, hfilter es]
  refine List.filter_congr fun place _ => ?_
  rw [Bool.eq_iff_iff, List.contains_iff_mem, List.contains_iff_mem, hmem]

theorem mem_map_profile_of_bound {p : Profile} (hp : p ∈ ds.map Classified.profile)
    (hb : p.bound ≠ []) : p ∈ es.map Classified.profile := by
  induction h with
  | nil => exact hp
  | cons hde _ ih =>
    rcases List.mem_cons.1 hp with rfl | hp
    · rw [hde.profile_eq_of_bound hb]
      exact List.mem_cons_self
    · exact List.mem_cons_of_mem _ (ih hp)

theorem cyclic_matches (place : Section) : Cyclic place (ds.map Classified.profile) ↔
    Cyclic place (es.map Classified.profile) := by
  have hflip : List.Forall₂ (Classified.Matches options) es ds := h.flip.imp fun _ _ hde => hde.symm
  exact ⟨fun hc => hc.of_bound fun _ => mem_map_profile_of_bound h,
    fun hc => hc.of_bound fun _ => mem_map_profile_of_bound hflip⟩

theorem isCyclic_eq (hn : Numbered ds) (place : Section) :
    (SectionGraph.of ds place).isCyclic = (SectionGraph.of es place).isCyclic := by
  rw [Bool.eq_iff_iff, isCyclic_of hn, isCyclic_of (Numbered.of_matches h hn)]
  exact cyclic_matches h place

theorem cyclic_eq (hn : Numbered ds) :
    (validate options ds).cyclic = (validate options es).cyclic := by
  have hlist : ∀ ds : List Classified, Validation.cyclicSections (sectionGraphs ds) =
      (sectionsPresent ds).filter fun place => (SectionGraph.of ds place).isCyclic := by
    intro ds
    unfold Validation.cyclicSections sectionGraphs
    rw [List.filter_map, List.map_map]
    exact List.map_id _
  have hpresent : sectionsPresent ds = sectionsPresent es := by
    have hsections : ds.map (·.section?) = es.map (·.section?) :=
      Outline.map_eq_of_forall₂ (h.imp fun _ _ hde => hde.section?_eq)
    have hflat := congrArg (List.filterMap id) hsections
    rw [List.filterMap_map, List.filterMap_map] at hflat
    exact congrArg List.eraseDups hflat
  show Validation.cyclicSections (sectionGraphs ds) = Validation.cyclicSections (sectionGraphs es)
  rw [hlist, hlist, hpresent]
  exact List.filter_congr fun place _ => isCyclic_eq h hn place

end

/-! ## The arrangement -/

theorem readsFrom_eq {d d' e e' : Classified} (hd : d.index = e.index ∧ d.profile = e.profile)
    (hd' : d'.index = e'.index ∧ d'.profile = e'.profile) :
    d.readsFrom d'.toDeclaration = e.readsFrom e'.toDeclaration := by
  have hname : d.name = e.name := congrArg Profile.name hd.2
  have hreads : d.reads = e.reads := congrArg Profile.reads hd.2
  have hname' : d'.name = e'.name := congrArg Profile.name hd'.2
  have hbound' : d'.bound = e'.bound := congrArg Profile.bound hd'.2
  unfold Declaration.readsFrom
  rw [hd.1, hd'.1, hname, hname', hreads, hbound']

theorem any_eq_of_forall₂ {α γ : Type} {R : α → γ → Prop} {p : α → Bool} {q : γ → Bool} {l : List α}
    {m : List γ} (h : List.Forall₂ R l m) (hpq : ∀ a b, R a b → p a = q b) : l.any p = m.any q := by
  induction h with
  | nil => rfl
  | cons hab _ ih => rw [List.any_cons, List.any_cons, hpq _ _ hab, ih]

theorem SectionGraph.ofMembers_eq {ds es : List Classified}
    (h : List.Forall₂ (fun d e : Classified => d.index = e.index ∧ d.profile = e.profile) ds es)
    (place : Section) : ofMembers place ds = ofMembers place es := by
  have hindex : ds.map (·.index) = es.map (·.index) :=
    Outline.map_eq_of_forall₂ (h.imp fun _ _ hde => hde.1)
  have hedges : edgesOf ds = edgesOf es := by
    unfold edgesOf
    rw [hindex]
    refine List.map_congr_left fun i _ => Prod.ext rfl ?_
    have hreaders := forall₂_filter h fun _ _ hde => congrArg (· == i) hde.1
    exact Outline.map_eq_of_forall₂ ((forall₂_filter h fun _ _ hde' =>
      any_eq_of_forall₂ hreaders fun _ _ hde => readsFrom_eq hde hde').imp fun _ _ hde' => hde'.1)
  unfold ofMembers
  rw [hindex, hedges]

/-- The blocks have matching declarations and are of one section. -/
structure Block.Matches (options : Options) (a b : Block) : Prop where
  place : a.place = b.place
  anchor : a.anchor.Matches options b.anchor
  followers : List.Forall₂ (Classified.Matches options) a.followers b.followers
  placed : a.anchor.section? = some a.place

theorem Block.Matches.items {options : Options} {a b : Block} (h : a.Matches options b) :
    List.Forall₂ (Classified.Matches options) a.items b.items :=
  .cons h.anchor h.followers

theorem blocks_matches {options : Options} {ds es : List Classified}
    (h : List.Forall₂ (Classified.Matches options) ds es) :
    List.Forall₂ (Classified.Matches options) (blocks ds).1 (blocks es).1 ∧
      List.Forall₂ (Block.Matches options) (blocks ds).2 (blocks es).2 := by
  induction h with
  | nil => exact ⟨.nil, .nil⟩
  | @cons d e ds es hde _ ih =>
    obtain ⟨hhead, hrest⟩ := ih
    unfold blocks
    dsimp only
    rw [← hde.section?_eq]
    cases hs : d.section? with
    | none => exact ⟨.cons hde hhead, hrest⟩
    | some place => exact ⟨.nil, .cons ⟨rfl, hde, hhead, hs⟩ hrest⟩

/-- Blocks of a section that can come to be sorted are compared alike. -/
theorem Block.Matches.le_eq {options : Options} {a a' b b' : Block} (ha : a.Matches options a')
    (hb : b.Matches options b') (hsa : options.Sorts a.place) (hsb : options.Sorts b.place) :
    a.le b = a'.le b' := by
  have hpa : a.profile = a'.profile := ha.anchor.profile_eq_of_sorts ha.placed hsa
  have hpb : b.profile = b'.profile := hb.anchor.profile_eq_of_sorts hb.placed hsb
  rw [Bool.eq_iff_iff, Block.le_iff, Block.le_iff, hpa, hpb, ha.anchor.index, hb.anchor.index]

section

variable {options : Options} {ds es : List Classified} {place : Section} {resorted : List Section}

theorem arrangeSection_matches (h : List.Forall₂ (Classified.Matches options) ds es)
    (hn : Numbered ds) (hr : ∀ s ∈ resorted, options.Sorts s) {as bs : List Block}
    (hab : List.Forall₂ (Block.Matches options) as bs) (has : ∀ a ∈ as, a.place = place)
    (hnodup : (as.map (·.anchor.index)).Nodup) :
    List.Forall₂ (Block.Matches options) (arrangeSection (.of ds place) resorted as)
      (arrangeSection (.of es place) resorted bs) := by
  rw [arrangeSection_eq, arrangeSection_eq, ← isCyclic_eq h hn place]
  show List.Forall₂ _ (if resorted.contains place && _ then _ else _)
    (if resorted.contains place && _ then _ else _)
  split
  · next hsorted =>
    rw [Bool.and_eq_true, List.contains_iff_mem] at hsorted
    have hsorts := hr place hsorted.1
    have hgraph : SectionGraph.of ds place = .of es place :=
      SectionGraph.ofMembers_eq (sectionMembers_alike h hsorts) place
    have hindex : as.map (·.anchor.index) = bs.map (·.anchor.index) :=
      Outline.map_eq_of_forall₂ (hab.imp fun _ _ hm => hm.anchor.index)
    have hnodes : List.Forall₂
        (fun x y : Block × List Nat => (x.1.Matches options y.1 ∧ x.1.place = place) ∧ x.2 = y.2)
        (dependencyNodes (.of ds place) as) (dependencyNodes (.of es place) bs) := by
      refine List.forall₂_map_left_iff.2 (List.forall₂_map_right_iff.2 ?_)
      refine ((List.forall₂_and_left _ _).2 ⟨has, hab⟩).imp fun a b hx => ⟨⟨hx.2, hx.1⟩, ?_⟩
      rw [hgraph, hindex, hx.2.anchor.index]
    refine List.forall₂_map_left_iff.2 (List.forall₂_map_right_iff.2 ?_)
    refine (topologicalOrder_forall₂ (ranked_dependencyNodes _ hnodup)
      (ranked_dependencyNodes _ (hindex ▸ hnodup)) ?_ ?_ ?_ hnodes).imp fun _ _ hx => hx.1.1
    · exact fun _ _ hx => hx.1.1.anchor.index
    · exact fun _ _ hx => hx.2
    · exact fun _ _ _ _ hx hy => hx.1.1.le_eq hy.1.1 (hx.1.2 ▸ hsorts) (hy.1.2 ▸ hsorts)
  · exact hab

theorem forall₂_flatMap {α β γ δ : Type} {R : α → β → Prop} {S : γ → δ → Prop} {l : List α}
    {m : List β} {f : α → List γ} {g : β → List δ} (h : List.Forall₂ R l m)
    (hfg : ∀ a b, R a b → List.Forall₂ S (f a) (g b)) :
    List.Forall₂ S (l.flatMap f) (m.flatMap g) := by
  rw [List.flatMap_def, List.flatMap_def]
  refine List.rel_flatten (List.forall₂_map_left_iff.2 (List.forall₂_map_right_iff.2 ?_))
  exact h.imp hfg

theorem arrangeContainer_matches (order : SectionOrder)
    (h : List.Forall₂ (Classified.Matches options) ds es) (hn : Numbered ds)
    (hr : ∀ s ∈ resorted, options.Sorts s) {members members' : List Classified}
    (hsub : members.Sublist ds) (hm : List.Forall₂ (Classified.Matches options) members members') :
    List.Forall₂ (Classified.Matches options)
      (arrangeContainer order resorted (sectionGraphs ds) members)
      (arrangeContainer order resorted (sectionGraphs es) members') := by
  obtain ⟨hhead, hrest⟩ := blocks_matches hm
  rw [arrangeContainer_eq, arrangeContainer_eq]
  refine List.rel_append hhead (forall₂_flatMap (R := Block.Matches options) ?_ fun a b hab =>
    hab.items)
  refine forall₂_flatMap (List.forall₂_same.2 fun place _ => Eq.refl place) ?_
  rintro place _ rfl
  refine arrangeSection_matches h hn hr (forall₂_filter hrest fun a b hab => by rw [hab.place]) ?_
    (sectionBlocks_filter hn hsub place).nodup
  exact fun a ha => by simpa using (List.mem_filter.1 ha).2

theorem arrange_matches (order : SectionOrder)
    (h : List.Forall₂ (Classified.Matches options) ds es) (hn : Numbered ds)
    (hr : ∀ s ∈ resorted, options.Sorts s) :
    List.Forall₂ (Classified.Matches options) (arrange order resorted (sectionGraphs ds) ds)
      (arrange order resorted (sectionGraphs es) es) := by
  have hcontainer : ∀ scope, List.Forall₂ (Classified.Matches options)
      (arrangeContainer order resorted (sectionGraphs ds) (inScope scope ds))
      (arrangeContainer order resorted (sectionGraphs es) (inScope scope es)) := fun scope =>
    arrangeContainer_matches order h hn hr List.filter_sublist (inScope_matches h scope)
  refine forall₂_flatMap (hcontainer .module) fun d e hde => ?_
  rw [hde.isComponent_eq]
  split
  · exact .cons hde (hcontainer .component)
  · exact .cons hde .nil

/-- Matching declarations are put in matching orders. -/
theorem arranged_matches (h : List.Forall₂ (Classified.Matches options) ds es) (hn : Numbered ds) :
    List.Forall₂ (Classified.Matches options) (validate options ds).arranged
      (validate options es).arranged := by
  have hresorted := resorted_eq h hn
  have hsorts : ∀ s ∈ (validate options ds).resorted, options.Sorts s := by
    intro s hs
    rcases (mem_resorted_iff hn options).1 hs with hs | hs
    · exact Or.inl hs.1
    · exact Or.inr hs.1
  show List.Forall₂ _ (arrange options.order (validate options ds).resorted _ _)
    (arrange options.order (validate options es).resorted _ _)
  rw [← hresorted]
  exact arrange_matches options.order h hn hsorts

end

end ComponentLint
