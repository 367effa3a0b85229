import ComponentLint.Proofs.Agreement
/-
  Declarations of one section that read each other. An arrangement keeps what is read before what
  reads it, and brings it there where the section is sorted (`arrange_keeps_dependencies`). A check
  compares neighbours only: a section without a cycle is clean when no two members that stand right
  behind each other are out of order, and a member may still stand before one that it reads, if
  others stand between them (`clean_section_dependencies`). These cannot all read the one before
  them, as the two would read each other in a circle then.
-/

namespace ComponentLint

open Profile Validation

/-! ## What an arrangement keeps -/

/-- Of two elements of a list one comes first. -/
theorem pair_sublist_or {α : Type} {l : List α} {a b : α} (ha : a ∈ l) (hb : b ∈ l)
    (hne : a ≠ b) : [a, b].Sublist l ∨ [b, a].Sublist l := by
  have : Std.Symm fun x y => [x, y].Sublist l ∨ [y, x].Sublist l := ⟨fun _ _ => Or.symm⟩
  have hpair : l.Pairwise fun x y => [x, y].Sublist l ∨ [y, x].Sublist l :=
    List.pairwise_iff_forall_sublist.2 fun h => Or.inl h
  exact hpair.forall ha hb hne

/-- In a sorted section nothing reads what comes after it. -/
theorem Profile.Sorted.pairwise {ps : List Profile} (h : Sorted ps) :
    ps.Pairwise fun p q => ¬ p.ReadsFrom q := by
  induction ps with
  | nil => exact .nil
  | cons p ps ih => exact .cons h.1 (ih h.2.2)

/-- An edge of a section's graph leads from a member to one that it reads. -/
theorem readsFrom_of_dependsOn {ds : List Classified} (hn : Numbered ds) {place : Section}
    {a b : Classified} (ha : a ∈ ds) (hb : b ∈ ds)
    (h : (SectionGraph.of ds place).dependsOn a.index b.index = true) :
    a ∈ sectionMembers ds place ∧ b ∈ sectionMembers ds place ∧
      a.profile.ReadsFrom b.profile := by
  have hsub := sectionMembers_sublist ds place
  obtain ⟨d, hd, e, he, hi, hj, hr⟩ :=
    (SectionGraph.mem_successors_edgesOf (hn.sublist hsub)).1 (List.contains_iff_mem.1 h)
  obtain rfl := hn.eq_of_index (hsub.subset hd) ha hi
  obtain rfl := hn.eq_of_index (hsub.subset he) hb hj
  exact ⟨hd, he, hr⟩

theorem not_cyclic_of_isCyclic_eq_false {ds : List Classified} (hn : Numbered ds) {place : Section}
    (h : (SectionGraph.of ds place).isCyclic = false) :
    ¬ Cyclic place (ds.map Classified.profile) := by
  rw [← isCyclic_of hn place, h]
  exact Bool.false_ne_true

section

variable {ds before body after : List Classified} {component : Classified} {place : Section}
  {resorted : List Section} {a b : Classified}

theorem mem_sectionMembers_arrange (hl : Layout ds before component body after)
    (hn : Numbered ds) (order : SectionOrder) :
    a ∈ sectionMembers (arrange order resorted (sectionGraphs ds) ds) place ↔
      a ∈ sectionMembers ds place :=
  ((arrange_perm hl hn order resorted).filter _).mem_iff

/-- Where a section is sorted, it is sorted in each container. -/
theorem sorted_arrange (hl : Layout ds before component body after) (hn : Numbered ds)
    (order : SectionOrder) (hs : IsSorted resorted place (ds.map Classified.profile))
    (scope : Scope) :
    Sorted ((inScope scope (sectionMembers (arrange order resorted (sectionGraphs ds) ds)
      place)).map Classified.profile) := by
  rw [inScope_sectionMembers, map_profile_group]
  exact (ordered_arrange hl hn order resorted).sorted place hs.1
    (mt (cyclic_arrange hl hn order resorted place).1 hs.2) scope

/-- Where a section is sorted, what is read comes first. -/
theorem sublist_arrange_of_isSorted (hl : Layout ds before component body after)
    (hn : Numbered ds) (order : SectionOrder)
    (hs : IsSorted resorted place (ds.map Classified.profile)) (ha : a ∈ sectionMembers ds place)
    (hb : b ∈ sectionMembers ds place) (hscope : a.scope = b.scope)
    (hr : a.profile.ReadsFrom b.profile) :
    [b, a].Sublist (sectionMembers (arrange order resorted (sectionGraphs ds) ds) place) := by
  have hgroup : ∀ d ∈ sectionMembers ds place, d.scope = a.scope → d ∈ inScope a.scope
      (sectionMembers (arrange order resorted (sectionGraphs ds) ds) place) := fun d hd hda =>
    List.mem_filter.2 ⟨(mem_sectionMembers_arrange hl hn order).2 hd, by simp [hda]⟩
  have hsorted := (sorted_arrange hl hn order hs a.scope).pairwise
  have hne : b ≠ a := by
    intro heq
    rw [heq] at hr
    exact ReadsFrom.irrefl _ hr
  rcases pair_sublist_or (hgroup b hb hscope.symm) (hgroup a ha rfl) hne with h | h
  · exact h.trans (inScope_sublist _ _)
  · exact absurd hr (List.pairwise_iff_forall_sublist.1 hsorted (h.map Classified.profile))

/-- Where it is not sorted, members of one container stay in the order they have. -/
theorem sublist_arrange_of_not_isSorted (hl : Layout ds before component body after)
    (hn : Numbered ds) (order : SectionOrder)
    (hs : ¬ IsSorted resorted place (ds.map Classified.profile))
    (ha : a ∈ sectionMembers ds place) (hb : b ∈ sectionMembers ds place)
    (hscope : a.scope = b.scope) (h : [b, a].Sublist ds) :
    [b, a].Sublist (sectionMembers (arrange order resorted (sectionGraphs ds) ds) place) := by
  have hpair : inScope a.scope (sectionMembers [b, a] place) = [b, a] := by
    have hself : sectionMembers [b, a] place = [b, a] := by
      refine List.filter_eq_self.2 fun d hd => ?_
      rcases List.mem_pair.1 hd with rfl | rfl
      · exact (List.mem_filter.1 hb).2
      · exact (List.mem_filter.1 ha).2
    rw [hself, inScope_eq_self (by simp [hscope])]
  have hkept : [b, a].Sublist (inScope a.scope (sectionMembers ds place)) := by
    rw [← hpair]
    exact (h.filter _).filter _
  rw [← inScope_sectionMembers_arrange hl hn order hs] at hkept
  exact hkept.trans (inScope_sublist _ _)

end

/-- Arranging breaks no dependency between declarations of one section and one container: what is
read stays before what reads it, and comes before it where the section is sorted and has no
cycle. -/
theorem arrange_keeps_dependencies (extraction options : Options) (unit : SourceUnit)
    (ds : List Classified) (resorted : List Section) (h : unit.Declares extraction ds)
    (graph : SectionGraph) (hg : graph ∈ sectionGraphs ds) (a b : Classified) (ha : a ∈ ds)
    (hb : b ∈ ds) (hscope : a.scope = b.scope)
    (hedge : graph.dependsOn a.index b.index = true) :
    (arrange options.order resorted (sectionGraphs ds) ds).Perm ds ∧
      ([b, a].Sublist ds →
        [b, a].Sublist (arrange options.order resorted (sectionGraphs ds) ds)) ∧
      (graph.place ∈ resorted → graph.isCyclic = false →
        [b, a].Sublist (arrange options.order resorted (sectionGraphs ds) ds)) := by
  obtain ⟨before, component, body, after, hl⟩ := h.exists_layout
  have hn := h.numbered
  obtain ⟨place, -, rfl⟩ := List.mem_map.1 hg
  obtain ⟨ha, hb, hr⟩ := readsFrom_of_dependsOn hn ha hb hedge
  have hmembers :=
    sectionMembers_sublist (arrange options.order resorted (sectionGraphs ds) ds) place
  refine ⟨arrange_perm hl hn options.order resorted, fun hsource => ?_, fun hresorted hc => ?_⟩
  · refine List.Sublist.trans ?_ hmembers
    by_cases hs : IsSorted resorted place (ds.map Classified.profile)
    · exact sublist_arrange_of_isSorted hl hn options.order hs ha hb hscope hr
    · exact sublist_arrange_of_not_isSorted hl hn options.order hs ha hb hscope hsource
  · have hs : IsSorted resorted place (ds.map Classified.profile) :=
      ⟨hresorted, not_cyclic_of_isCyclic_eq_false hn hc⟩
    exact (sublist_arrange_of_isSorted hl hn options.order hs ha hb hscope hr).trans hmembers

/-- The functions of this unit have no cycle and give no violation, and the first of them reads the
third. -/
theorem exists_lateRead : ∃ ds graph a b, SourceUnit.lateRead.Declares .standard ds ∧
    graph ∈ sectionGraphs ds ∧ graph.place = .functions ∧ graph.isCyclic = false ∧ a ∈ ds ∧
    b ∈ ds ∧ a.scope = b.scope ∧ graph.dependsOn a.index b.index = true ∧
    ¬ [b, a].Sublist ds ∧ (validate .standard ds).violations = [] := by
  have hc : SourceUnit.lateRead.componentIndex? = some 0 := by decide
  have hplace : Section.functions ∈ sectionsPresent (Outline.reading ["Props"] .lateRead 0) := by
    decide +kernel
  refine ⟨Outline.reading ["Props"] .lateRead 0,
    .of (Outline.reading ["Props"] .lateRead 0) .functions,
    (Outline.reading ["Props"] .lateRead 0).get ⟨1, by decide +kernel⟩,
    (Outline.reading ["Props"] .lateRead 0).get ⟨3, by decide +kernel⟩,
    declares_reading hc .standard,
    List.mem_map_of_mem hplace, rfl, by decide +kernel, List.get_mem _ _, List.get_mem _ _,
    by decide +kernel, by decide +kernel, fun h => ?_, violations_lateRead⟩
  exact absurd (h.map (·.index)) (by decide +kernel)

/-- Sorting the functions of this unit brings the third before the first. -/
theorem arrange_lateRead : ∃ ds graph a b, SourceUnit.lateRead.Declares .standard ds ∧
    graph ∈ sectionGraphs ds ∧ graph.place ∈ [Section.functions] ∧ graph.isCyclic = false ∧
    a ∈ ds ∧ b ∈ ds ∧ a.scope = b.scope ∧ graph.dependsOn a.index b.index = true ∧
    ¬ [b, a].Sublist ds ∧
    [b, a].Sublist (arrange .canonical [.functions] (sectionGraphs ds) ds) := by
  obtain ⟨ds, graph, a, b, hds, hg, hplace, hc, ha, hb, hscope, hedge, hlate, -⟩ := exists_lateRead
  have hresorted : graph.place ∈ [Section.functions] := by simp [hplace]
  have hkeeps := arrange_keeps_dependencies .standard .standard .lateRead ds [.functions] hds graph
    hg a b ha hb hscope hedge
  exact ⟨ds, graph, a, b, hds, hg, hresorted, hc, ha, hb, hscope, hedge, hlate,
    hkeeps.2.2 hresorted hc⟩

/-! ## What a clean check means -/

/-- The second may stand right behind the first: the first does not read it, and its key is no
smaller, unless it is a props type or reads the first. -/
structure SectionGraph.InSequence (graph : SectionGraph) (a b : Classified) : Prop where
  unread : graph.dependsOn a.index b.index = false
  ordered : b.isPropsType = true ∨ a.sortKey ≤ b.sortKey ∨
    graph.dependsOn b.index a.index = true

/-- The first stands before the second among the members, not right before it, and on the way some
member does not read the one right before it: it is behind that one by its key or as a props
type. -/
def SectionGraph.StandsAhead (graph : SectionGraph) (members : List Classified)
    (a b : Classified) : Prop :=
  ∃ l₁ between l₂, members = l₁ ++ a :: (between ++ b :: l₂) ∧ between ≠ [] ∧
    ∃ c d, (c, d) ∈ Rule.neighbours (a :: (between ++ [b])) ∧
      graph.dependsOn d.index c.index = false ∧ (d.isPropsType = true ∨ c.sortKey ≤ d.sortKey)

theorem exists_between_of_sublist {α : Type} {l : List α} {a b : α} (h : [a, b].Sublist l) :
    ∃ l₁ between l₂, l = l₁ ++ a :: (between ++ b :: l₂) := by
  obtain ⟨r₁, r₂, rfl, ha, hb⟩ := List.cons_sublist_iff.1 h
  obtain ⟨l₁, m₁, rfl⟩ := List.append_of_mem ha
  obtain ⟨m₂, l₂, rfl⟩ := List.append_of_mem (List.singleton_sublist.1 hb)
  exact ⟨l₁, m₁ ++ m₂, l₂, by simp⟩

/-- If one profile reads another, the profiles from the first to the second do not each read the one
before them, unless there is a cycle. -/
theorem Profile.not_isChain_readsFrom {place : Section} {ps between : List Profile}
    {p q : Profile} (hc : ¬ Cyclic place ps)
    (hmem : ∀ r ∈ p :: (between ++ [q]), r ∈ ofSection place ps) (hr : p.ReadsFrom q) :
    ¬ (p :: (between ++ [q])).IsChain fun r t => t.ReadsFrom r := by
  intro hchain
  have hp := hmem p (by simp)
  have hq := hmem q (by simp)
  have hback : Relation.ReflTransGen (fun r t =>
      t ∈ ofSection place ps ∧ r ∈ ofSection place ps ∧ t.ReadsFrom r) p q :=
    List.relationReflTransGen_of_exists_isChain_cons _
      (hchain.imp_of_mem_imp fun r t hrm htm hread => ⟨hmem t htm, hmem r hrm, hread⟩) (by simp)
  exact hc ⟨p, hp, Relation.TransGen.trans_left (.single ⟨hp, hq, hr⟩)
    (Relation.reflTransGen_swap.2 hback)⟩

section

variable {ds : List Classified} {place : Section} {options : Options}

theorem inSequence_iff (hn : Numbered ds) {a b : Classified} (ha : a ∈ sectionMembers ds place)
    (hb : b ∈ sectionMembers ds place) :
    (SectionGraph.of ds place).InSequence a b ↔ ¬ a.profile.OutOfOrder b.profile := by
  have hle : a.sortKey ≤ b.sortKey ↔ ¬ b.sortKey < a.sortKey := Iff.rfl
  rw [OutOfOrder, ← dependsOn_of hn ha hb, ← dependsOn_of hn hb ha,
    Classified.profile_isPropsType, Classified.profile_sortKey, Classified.profile_sortKey,
    not_or, not_and_or, not_and_or, not_not, Bool.not_eq_true, Bool.not_eq_false, ← hle]
  exact ⟨fun h => ⟨h.unread, h.ordered⟩, fun h => ⟨h.1, h.2⟩⟩

/-- Without a cycle, a check is clean exactly when all neighbours are in sequence. -/
theorem clean_iff_isChain (hn : Numbered ds) (hsort : place ∈ options.sortable)
    (hc : ¬ Cyclic place (ds.map Classified.profile)) :
    (validate options ds).Clean place ↔ ∀ scope,
      (inScope scope (sectionMembers ds place)).IsChain (SectionGraph.of ds place).InSequence := by
  rw [clean_iff hn, and_iff_right hsort, hasMisplaced_iff_of_not_cyclic hc, not_exists]
  refine forall_congr' fun scope => ?_
  rw [not_not, ← map_profile_group, ← inScope_sectionMembers, List.isChain_map]
  refine List.IsChain.iff_of_mem_imp fun a b ha hb => ?_
  exact (inSequence_iff hn ((inScope_sublist _ _).subset ha) ((inScope_sublist _ _).subset hb)).symm

/-- Members in sequence from one to another that it reads: some stand between the two, and one of
these or the last does not read the one right before it. -/
theorem exists_unread_neighbour (hn : Numbered ds)
    (hc : ¬ Cyclic place (ds.map Classified.profile)) {a b : Classified} {between : List Classified}
    (hmem : ∀ d ∈ a :: (between ++ [b]), d ∈ sectionMembers ds place)
    (hchain : (a :: (between ++ [b])).IsChain (SectionGraph.of ds place).InSequence)
    (hedge : (SectionGraph.of ds place).dependsOn a.index b.index = true) :
    between ≠ [] ∧ ∃ c d, (c, d) ∈ Rule.neighbours (a :: (between ++ [b])) ∧
      (SectionGraph.of ds place).dependsOn d.index c.index = false ∧
      (d.isPropsType = true ∨ c.sortKey ≤ d.sortKey) := by
  constructor
  · rintro rfl
    have hunread := (List.isChain_pair.1 hchain).unread
    rw [hedge] at hunread
    exact Bool.noConfusion hunread
  · have hr := (dependsOn_of hn (hmem a (by simp)) (hmem b (by simp))).1 hedge
    have hprofiles : ∀ p ∈ a.profile :: (between.map Classified.profile ++ [b.profile]),
        p ∈ ofSection place (ds.map Classified.profile) := by
      rw [← map_profile_sectionMembers]
      intro p hp
      have hp : p ∈ (a :: (between ++ [b])).map Classified.profile := by simpa using hp
      obtain ⟨d, hd, rfl⟩ := List.mem_map.1 hp
      exact List.mem_map_of_mem (hmem d hd)
    have hnot : ¬ (a :: (between ++ [b])).IsChain fun c d => d.profile.ReadsFrom c.profile := by
      intro hreads
      refine not_isChain_readsFrom hc hprofiles hr ?_
      have hmap := (List.isChain_map (R := fun p q : Profile => q.ReadsFrom p)
        Classified.profile).2 hreads
      simpa using hmap
    rw [List.isChain_iff_forall_rel_of_append_cons_cons] at hnot
    push Not at hnot
    obtain ⟨c, d, l₁, l₂, heq, hread⟩ := hnot
    have hcm := hmem c (by rw [heq]; simp)
    have hdm := hmem d (by rw [heq]; simp)
    rw [← dependsOn_of hn hdm hcm, Bool.not_eq_true] at hread
    have hseq := List.isChain_iff_forall_rel_of_append_cons_cons.1 hchain heq
    refine ⟨c, d, mem_neighbours.2 ⟨l₁, l₂, heq⟩, hread, ?_⟩
    rcases hseq.ordered with h | h | h
    · exact Or.inl h
    · exact Or.inr h
    · rw [hread] at h
      exact Bool.noConfusion h

/-- What a member of a clean section reads stands before it, or it stands ahead of that. -/
theorem sublist_or_standsAhead (hn : Numbered ds)
    (hc : ¬ Cyclic place (ds.map Classified.profile))
    (hchain : ∀ scope, (inScope scope (sectionMembers ds place)).IsChain
      (SectionGraph.of ds place).InSequence) {a b : Classified} (ha : a ∈ ds) (hb : b ∈ ds)
    (hscope : a.scope = b.scope)
    (hedge : (SectionGraph.of ds place).dependsOn a.index b.index = true) :
    [b, a].Sublist ds ∨ (SectionGraph.of ds place).StandsAhead
      (inScope a.scope (sectionMembers ds place)) a b := by
  obtain ⟨ham, hbm, hr⟩ := readsFrom_of_dependsOn hn ha hb hedge
  have hne : b ≠ a := by
    rintro rfl
    exact ReadsFrom.irrefl _ hr
  have hag : a ∈ inScope a.scope (sectionMembers ds place) := List.mem_filter.2 ⟨ham, by simp⟩
  have hbg : b ∈ inScope a.scope (sectionMembers ds place) :=
    List.mem_filter.2 ⟨hbm, by simp [hscope]⟩
  rcases pair_sublist_or hbg hag hne with hpair | hpair
  · exact Or.inl (hpair.trans ((inScope_sublist _ _).trans (sectionMembers_sublist _ _)))
  · obtain ⟨l₁, between, l₂, heq⟩ := exists_between_of_sublist hpair
    have hsplit : inScope a.scope (sectionMembers ds place) =
        l₁ ++ (a :: (between ++ [b]) ++ l₂) := by
      rw [heq]
      simp
    have hmem : ∀ d ∈ a :: (between ++ [b]), d ∈ sectionMembers ds place := by
      intro d hd
      refine (inScope_sublist a.scope _).subset ?_
      rw [hsplit]
      exact List.mem_append_right _ (List.mem_append_left _ hd)
    have hpart := hchain a.scope
    rw [hsplit] at hpart
    exact Or.inr ⟨l₁, between, l₂, heq,
      exists_unread_neighbour hn hc hmem hpart.right_of_append.left_of_append hedge⟩

end

/-- A clean check of a section without a cycle means that neighbours are in sequence, and no more:
what a member reads stands before it, or stands behind it with others in between, not all of which
read the one right before them. -/
theorem clean_section_dependencies (extraction options : Options) (unit : SourceUnit)
    (ds : List Classified) (h : unit.Declares extraction ds) (graph : SectionGraph)
    (hg : graph ∈ sectionGraphs ds) (hsort : graph.place ∈ options.sortable)
    (hc : graph.isCyclic = false) :
    ((validate options ds).Clean graph.place ↔ ∀ scope,
      (inScope scope (sectionMembers ds graph.place)).IsChain graph.InSequence) ∧
    ((validate options ds).Clean graph.place → ∀ a ∈ ds, ∀ b ∈ ds, a.scope = b.scope →
      graph.dependsOn a.index b.index = true → [b, a].Sublist ds ∨
        graph.StandsAhead (inScope a.scope (sectionMembers ds graph.place)) a b) := by
  have hn := h.numbered
  obtain ⟨place, -, rfl⟩ := List.mem_map.1 hg
  have hacyclic := not_cyclic_of_isCyclic_eq_false hn hc
  have hiff := clean_iff_isChain hn hsort hacyclic
  refine ⟨hiff, fun hclean a ha b hb hscope hedge => ?_⟩
  exact sublist_or_standsAhead hn hacyclic (hiff.1 hclean) ha hb hscope hedge

/-- The check of this unit finds nothing, though its first function reads the third. -/
theorem clean_lateRead : ∃ ds graph a b, SourceUnit.lateRead.Declares .standard ds ∧
    graph ∈ sectionGraphs ds ∧ graph.place ∈ Options.standard.sortable ∧
    graph.isCyclic = false ∧ (validate .standard ds).Clean graph.place ∧ a ∈ ds ∧ b ∈ ds ∧
    a.scope = b.scope ∧ graph.dependsOn a.index b.index = true ∧ ¬ [b, a].Sublist ds := by
  obtain ⟨ds, graph, a, b, hds, hg, hplace, hc, ha, hb, hscope, hedge, hlate, hnone⟩ :=
    exists_lateRead
  exact ⟨ds, graph, a, b, hds, hg, by rw [hplace]; decide, hc,
    clean_of_violations_eq_nil hnone _, ha, hb, hscope, hedge, hlate⟩

theorem standsAhead_lateRead : ∃ ds graph a b, SourceUnit.lateRead.Declares .standard ds ∧
    graph ∈ sectionGraphs ds ∧ graph.place ∈ Options.standard.sortable ∧
    graph.isCyclic = false ∧ (validate .standard ds).Clean graph.place ∧ a ∈ ds ∧ b ∈ ds ∧
    graph.dependsOn a.index b.index = true ∧
    graph.StandsAhead (inScope a.scope (sectionMembers ds graph.place)) a b := by
  obtain ⟨ds, graph, a, b, hds, hg, hplace, hc, ha, hb, hscope, hedge, hlate, hnone⟩ :=
    exists_lateRead
  have hsort : graph.place ∈ Options.standard.sortable := by
    rw [hplace]
    decide
  have hclean := clean_of_violations_eq_nil hnone graph.place
  have hahead := (clean_section_dependencies .standard .standard .lateRead ds hds graph hg hsort
    hc).2 hclean a ha b hb hscope hedge
  exact ⟨ds, graph, a, b, hds, hg, hsort, hc, hclean, ha, hb, hedge, hahead.resolve_left hlate⟩

end ComponentLint
