import ComponentLint.Proofs.PropsPosition
/-
  Props types come as late as they can. A props type is placed only when no other type is ready, so
  each type behind it was waiting (`Sorts.exists_within`): it reads a type that was not placed yet,
  this one waits for another, and so on back to a props type (`Sorts.exists_reached`). As what is
  read comes first, the types behind a props type are just those that reach one
  (`Sorts.behind_props_iff`), and the props types are the last exactly if no other type reads one
  (`Sorts.props_last_iff`).
-/

namespace ComponentLint

open Profile

namespace SectionGraph

/-- An edge of the graph from one declaration of the list to another. -/
structure Within (graph : SectionGraph) (types : List Classified) (d e : Classified) : Prop where
  source : d ∈ types
  target : e ∈ types
  edge : graph.dependsOn d.index e.index = true

/-- The list is sorted by the edges of the graph. -/
structure Sorts (graph : SectionGraph) (types : List Classified) : Prop where
  edges : ∀ d ∈ types, ∀ e ∈ types,
    (graph.dependsOn d.index e.index = true ↔ d.profile.ReadsFrom e.profile)
  sorted : Sorted (types.map Classified.profile)

section

variable {graph : SectionGraph} {types l₁ l₂ : List Classified} {p d e : Classified}

theorem Within.mono {types' : List Classified} (h : graph.Within types d e)
    (hsub : ∀ c ∈ types, c ∈ types') : graph.Within types' d e :=
  ⟨hsub d h.source, hsub e h.target, h.edge⟩

theorem forall_within_iff {P : Classified → Classified → Prop} :
    (∀ d e, graph.Within types d e → P d e) ↔ ∀ d ∈ types, ∀ e ∈ types,
      graph.dependsOn d.index e.index = true → P d e :=
  ⟨fun h d hd e he hedge => h d e ⟨hd, he, hedge⟩,
    fun h d e hw => h d hw.source e hw.target hw.edge⟩

theorem Sorts.of_append (h : graph.Sorts (l₁ ++ l₂)) : graph.Sorts l₂ where
  edges d hd e he := h.edges d (List.mem_append_right _ hd) e (List.mem_append_right _ he)
  sorted := by
    have hs := h.sorted
    rw [List.map_append] at hs
    exact hs.of_append

/-- What is read comes before what reads it. -/
theorem Sorts.mem_of_within (h : graph.Sorts (l₁ ++ d :: l₂))
    (hw : graph.Within (l₁ ++ d :: l₂) d e) : e ∈ l₁ := by
  have hread := (h.edges d hw.source e hw.target).1 hw.edge
  have hrest : ∀ c ∈ l₂, ¬ d.profile.ReadsFrom c.profile := by
    have hs := h.of_append.sorted.pairwise
    rw [List.pairwise_map, List.pairwise_cons] at hs
    exact hs.1
  rcases List.mem_append.1 hw.target with he | he
  · exact he
  · rcases List.mem_cons.1 he with rfl | he
    · exact absurd hread (ReadsFrom.irrefl _)
    · exact absurd hread (hrest e he)

theorem Sorts.mem_of_reached (h : graph.Sorts (l₁ ++ d :: l₂))
    (hreach : Relation.TransGen (graph.Within (l₁ ++ d :: l₂)) d e) : e ∈ l₁ := by
  induction hreach with
  | single hw => exact h.mem_of_within hw
  | @tail b c _ hw hb =>
    -- what `b` reads comes before `b`, which comes before `d`
    obtain ⟨m₁, m₂, rfl⟩ := List.append_of_mem hb
    rw [List.append_assoc, List.cons_append] at h hw
    exact List.mem_append_left _ (h.mem_of_within hw)

/-- A type behind a props type reads one that is not before the props type, or else it would have
been placed first. -/
theorem Sorts.exists_within (h : graph.Sorts (p :: (l₁ ++ d :: l₂))) (hp : p.isPropsType = true)
    (hd : d.isPropsType = false) : ∃ e ∈ p :: l₁, graph.Within (p :: (l₁ ++ d :: l₂)) d e := by
  have hmem : d ∈ p :: (l₁ ++ d :: l₂) := by simp
  have hbefore : graph.Sorts ((p :: l₁) ++ d :: l₂) := h
  by_contra hnone
  refine h.sorted.2.1 d.profile (List.mem_map_of_mem (by simp)) (fun r hr hread => ?_)
    (Or.inl ⟨hd, hp⟩)
  rw [← List.map_cons] at hr
  obtain ⟨e, he, rfl⟩ := List.mem_map.1 hr
  have hw : graph.Within (p :: (l₁ ++ d :: l₂)) d e := ⟨hmem, he, (h.edges d hmem e he).2 hread⟩
  exact hnone ⟨e, hbefore.mem_of_within hw, hw⟩

/-- Behind a props type every type is one or reaches one. -/
theorem Sorts.exists_reached (h : graph.Sorts (p :: (l₁ ++ d :: l₂))) (hp : p.isPropsType = true)
    (hd : d.isPropsType = false) :
    ∃ q, q.isPropsType = true ∧ Relation.TransGen (graph.Within (p :: (l₁ ++ d :: l₂))) d q := by
  -- on the number of types between the two, as what is read is closer to the props type
  induction hlen : l₁.length using Nat.strong_induction_on generalizing l₁ d l₂ with
  | _ n ih =>
    obtain ⟨e, he, hw⟩ := h.exists_within hp hd
    cases hprops : e.isPropsType with
    | true => exact ⟨e, hprops, .single hw⟩
    | false =>
      have he : e ∈ l₁ := (List.mem_cons.1 he).resolve_left fun heq => by
        rw [heq, hp] at hprops
        exact Bool.noConfusion hprops
      obtain ⟨m₁, m₂, rfl⟩ := List.append_of_mem he
      rw [List.append_assoc, List.cons_append] at h hw ⊢
      obtain ⟨q, hq, hreach⟩ := ih m₁.length (by simp at hlen; omega) h hprops rfl
      exact ⟨q, hq, .head hw hreach⟩

/-- The types behind a props type are those that reach one. -/
theorem Sorts.behind_props_iff (h : graph.Sorts types) (hmem : d ∈ types)
    (hd : d.isPropsType = false) :
    (∃ p, p.isPropsType = true ∧ [p, d].Sublist types) ↔
      ∃ p, p.isPropsType = true ∧ Relation.TransGen (graph.Within types) d p := by
  constructor
  · rintro ⟨p, hp, hpair⟩
    obtain ⟨l₁, between, l₂, rfl⟩ := exists_between_of_sublist hpair
    obtain ⟨q, hq, hreach⟩ := h.of_append.exists_reached hp hd
    have hsub : ∀ c ∈ p :: (between ++ d :: l₂), c ∈ l₁ ++ p :: (between ++ d :: l₂) := fun _ =>
      List.mem_append_right l₁
    exact ⟨q, hq, hreach.lift id fun _ _ hw => hw.mono hsub⟩
  · rintro ⟨p, hp, hreach⟩
    obtain ⟨l₁, l₂, rfl⟩ := List.append_of_mem hmem
    have hpair : [p, d].Sublist (l₁ ++ d :: l₂) :=
      (List.singleton_sublist.2 (h.mem_of_reached hreach)).append
        (List.singleton_sublist.2 List.mem_cons_self)
    exact ⟨p, hp, hpair⟩

theorem isPropsType_of_reached (h : ∀ d e, graph.Within types d e → d.isPropsType = false →
      e.isPropsType = false) (hd : d.isPropsType = false)
    (hreach : Relation.TransGen (graph.Within types) d e) : e.isPropsType = false := by
  induction hreach with
  | single hw => exact h _ _ hw hd
  | tail _ hw hb => exact h _ _ hw hb

/-- The props types are the last exactly if no other type reads one. -/
theorem Sorts.props_last_iff (h : graph.Sorts types) :
    types = types.filter (!·.isPropsType) ++ types.filter (·.isPropsType) ↔
      ∀ d e, graph.Within types d e → d.isPropsType = false → e.isPropsType = false := by
  constructor
  · intro hsplit d e hw hd
    have hmem : d ∈ types.filter (!·.isPropsType) := List.mem_filter.2 ⟨hw.source, by simp [hd]⟩
    obtain ⟨m₁, m₂, heq⟩ := List.append_of_mem hmem
    have htypes : types = m₁ ++ d :: (m₂ ++ types.filter (·.isPropsType)) := by
      rw [← List.cons_append, ← List.append_assoc, ← heq]
      exact hsplit
    have he : e ∈ m₁ := by
      rw [htypes] at h hw
      exact h.mem_of_within hw
    have he : e ∈ types.filter (!·.isPropsType) := by
      rw [heq]
      exact List.mem_append_left _ he
    simpa using (List.mem_filter.1 he).2
  · intro hnone
    have hpair : types.Pairwise fun a b => (!b.isPropsType) = true → (!a.isPropsType) = true := by
      refine List.pairwise_iff_forall_sublist.2 fun {a b} hpair hb => ?_
      have hb : b.isPropsType = false := by simpa using hb
      by_contra ha
      have ha : a.isPropsType = true := by simpa using ha
      obtain ⟨p, hp, hreach⟩ :=
        (h.behind_props_iff (hpair.subset (by simp)) hb).1 ⟨a, ha, hpair⟩
      rw [isPropsType_of_reached hnone hb hreach] at hp
      exact Bool.noConfusion hp
    have hsplit := filter_append_filter_not hpair
    simp only [Bool.not_not] at hsplit
    exact hsplit.symm

end

end SectionGraph

theorem sorts_arrange {ds before body after : List Classified} {component : Classified}
    (hl : Layout ds before component body after) (hn : Numbered ds) (order : SectionOrder)
    {resorted : List Section} {place : Section}
    (hs : IsSorted resorted place (ds.map Classified.profile)) (scope : Scope) :
    (SectionGraph.of ds place).Sorts
      (inScope scope (sectionMembers (arrange order resorted (sectionGraphs ds) ds) place)) where
  edges d hd e he := by
    have hmem : ∀ c ∈ inScope scope
        (sectionMembers (arrange order resorted (sectionGraphs ds) ds) place),
        c ∈ sectionMembers ds place := fun c hc =>
      (mem_sectionMembers_arrange hl hn order).1 ((inScope_sublist _ _).subset hc)
    exact dependsOn_of hn (hmem d hd) (hmem e he)
  sorted := sorted_arrange hl hn order hs scope

/-- Sorted types without a cycle have the props types as late as their dependencies allow: the other
types behind a props type of the container are just those that reach one in it. So its props types
are its last types exactly if no other type of it reads one. -/
theorem props_as_late_as_possible (extraction options : Options) (unit : SourceUnit)
    (ds : List Classified) (resorted : List Section) (h : unit.Declares extraction ds)
    (hr : Section.typesInterfaces ∈ resorted)
    (hc : (SectionGraph.of ds .typesInterfaces).isCyclic = false) (scope : Scope) :
    let graph := SectionGraph.of ds .typesInterfaces
    let types := inScope scope (sectionMembers
      (arrange options.order resorted (sectionGraphs ds) ds) .typesInterfaces)
    types.Perm (inScope scope (sectionMembers ds .typesInterfaces)) ∧
      (∀ d ∈ types, d.isPropsType = false →
        ((∃ p, p.isPropsType = true ∧ [p, d].Sublist types) ↔
          ∃ p, p.isPropsType = true ∧ Relation.TransGen (graph.Within types) d p)) ∧
      (types = types.filter (!·.isPropsType) ++ types.filter (·.isPropsType) ↔
        ∀ d e, graph.Within types d e → d.isPropsType = false → e.isPropsType = false) := by
  intro graph types
  obtain ⟨before, component, body, after, hl⟩ := h.exists_layout
  have hn := h.numbered
  have hs : IsSorted resorted .typesInterfaces (ds.map Classified.profile) :=
    ⟨hr, not_cyclic_of_isCyclic_eq_false hn hc⟩
  have hsorts := sorts_arrange hl hn options.order hs scope
  exact ⟨((arrange_perm hl hn options.order resorted).filter _).filter _,
    fun d hmem hd => hsorts.behind_props_iff hmem hd, hsorts.props_last_iff⟩

theorem pair_sublist_get {α : Type} {l : List α} {i j : Fin l.length} (h : i < j) :
    [l.get i, l.get j].Sublist l :=
  List.pairwise_iff_getElem.1 (List.pairwise_iff_forall_sublist.2 fun h => h) i j i.2 j.2 h

/-- Two props types and three others. One of these reads another, which reads the given names. -/
def SourceUnit.propsAmongTypes (reads : List String) : SourceUnit where
  name := "a"
  statements :=
    [{ kind := .interfaceStmt, span := { start := 0, stop := 10 }, names := ["AppProps"] },
     { kind := .interfaceStmt, span := { start := 10, stop := 20 }, names := ["Table"]
       reads := ["Cell"] },
     { kind := .interfaceStmt, span := { start := 20, stop := 30 }, names := ["Cell"]
       reads := reads },
     { kind := .interfaceStmt, span := { start := 30, stop := 40 }, names := ["ListProps"]
       isPropsType := true },
     { kind := .interfaceStmt, span := { start := 40, stop := 50 }, names := ["Unit"] },
     { kind := .functionStmt, span := { start := 50, stop := 60 }, names := ["App"]
       body := some [] }]

/-- The type that reads a props type by way of another comes behind it. If the other reads none,
both props types come last. -/
theorem props_among_types :
    (∃ ds, (SourceUnit.propsAmongTypes ["AppProps"]).Declares .standard ds ∧
      (SectionGraph.of ds .typesInterfaces).isCyclic = false ∧
      let graph := SectionGraph.of ds .typesInterfaces
      let types := inScope .module (sectionMembers
        (arrange .canonical [.typesInterfaces] (sectionGraphs ds) ds) .typesInterfaces)
      types.map (·.name) = ["Unit", "AppProps", "Cell", "Table", "ListProps"] ∧
        ∃ d ∈ types, d.name = "Table" ∧ (∀ p ∈ types, p.isPropsType = true →
          graph.dependsOn d.index p.index = false) ∧
          ∃ p, p.isPropsType = true ∧ Relation.TransGen (graph.Within types) d p) ∧
    ∃ ds, (SourceUnit.propsAmongTypes []).Declares .standard ds ∧
      (SectionGraph.of ds .typesInterfaces).isCyclic = false ∧
      let types := inScope .module (sectionMembers
        (arrange .canonical [.typesInterfaces] (sectionGraphs ds) ds) .typesInterfaces)
      types = types.filter (!·.isPropsType) ++ types.filter (·.isPropsType) ∧
        (types.filter (·.isPropsType)).map (·.name) = ["AppProps", "ListProps"] := by
  constructor
  · have hindex : (SourceUnit.propsAmongTypes ["AppProps"]).componentIndex? = some 5 := by decide
    have hds := declares_reading hindex .standard
    have hbehind := (props_as_late_as_possible .standard .standard _ _ [.typesInterfaces] hds
      (by decide) (by decide +kernel) .module).2.1
    refine ⟨_, hds, by decide +kernel, by decide +kernel, _,
      List.get_mem _ ⟨3, by decide +kernel⟩, by decide +kernel, by decide +kernel, ?_⟩
    refine (hbehind _ (List.get_mem _ _) (by decide +kernel)).1 ⟨_, ?_,
      pair_sublist_get (i := ⟨1, by decide +kernel⟩) (by decide +kernel)⟩
    decide +kernel
  · have hindex : (SourceUnit.propsAmongTypes []).componentIndex? = some 5 := by decide
    have hds := declares_reading hindex .standard
    have hlast := (props_as_late_as_possible .standard .standard _ _ [.typesInterfaces] hds
      (by decide) (by decide +kernel) .module).2.2
    exact ⟨_, hds, by decide +kernel,
      hlast.2 (SectionGraph.forall_within_iff.2 (by decide +kernel)), by decide +kernel⟩

end ComponentLint
