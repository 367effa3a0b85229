import ComponentLint.Proofs.Arrangement.Section
/-
  The arrangement of a container and of a whole unit. An arranged container has the same
  declarations, its sections ascend, and each of its sections is sorted or as it was; a container
  of which this holds already is left alone. In a unit the component carries its body along: a
  `Layout` is a sequence with one component and the body right after it, and arranging one gives
  another, with both containers arranged.
-/

namespace ComponentLint

/-- The blocks of a container, section after section. -/
def arrangedBlocks (order : SectionOrder) (resorted : List Section) (ds : List Classified)
    (bs : List Block) : List Block :=
  order.sections.flatMap fun place =>
    arrangeSection (.of ds place) resorted (bs.filter (·.place == place))

theorem arrangeContainer_eq (order : SectionOrder) (resorted : List Section)
    (ds members : List Classified) :
    arrangeContainer order resorted (sectionGraphs ds) members =
      (blocks members).1 ++
        (arrangedBlocks order resorted ds (blocks members).2).flatMap Block.items := by
  simp only [arrangeContainer, arrangedBlocks, graphAt_sectionGraphs, List.flatMap_assoc]

theorem SectionOrder.mem_sections (order : SectionOrder) (place : Section) :
    place ∈ order.sections :=
  order.perm_all.mem_iff.2 place.mem_all

theorem SectionOrder.nodup_sections (order : SectionOrder) : order.sections.Nodup :=
  order.perm_all.nodup_iff.2 Section.nodup_all

theorem sectionMembers_of_sublist {ds members : List Classified} (h : members.Sublist ds)
    (place : Section) : (sectionMembers members place).Sublist (sectionMembers ds place) :=
  h.filter _

section

variable {order : SectionOrder} {resorted : List Section} {ds members : List Classified}

theorem sectionBlocks_filter (h : Numbered ds) (hm : members.Sublist ds) (place : Section) :
    SectionBlocks ds place ((blocks members).2.filter (·.place == place)) := by
  have hanchors := sectionMembers_eq_map_anchor members place
  have hsub := sectionMembers_of_sublist hm place
  constructor
  · intro b hb
    refine hsub.subset ?_
    rw [hanchors]
    exact List.mem_map.2 ⟨b, hb, rfl⟩
  · have hnodup := h.sublist (hsub.trans (sectionMembers_sublist ds place))
    unfold Numbered at hnodup
    rw [hanchors, List.map_map] at hnodup
    exact hnodup

theorem place_of_mem_arrangeSection (h : Numbered ds) (hm : members.Sublist ds) (place : Section)
    {b : Block}
    (hb : b ∈ arrangeSection (.of ds place) resorted
      ((blocks members).2.filter (·.place == place))) : b.place = place := by
  have := (arrangeSection_perm h (sectionBlocks_filter h hm place)).subset hb
  simpa using (List.mem_filter.1 this).2

theorem arrangedBlocks_perm (order : SectionOrder) (resorted : List Section) (h : Numbered ds)
    (hm : members.Sublist ds) :
    (arrangedBlocks order resorted ds (blocks members).2).Perm (blocks members).2 :=
  (List.Perm.flatMap_left _ fun place _ =>
      arrangeSection_perm h (sectionBlocks_filter h hm place)).trans
    (flatMap_filter_perm _ _ _ order.nodup_sections fun _ _ => order.mem_sections _)

theorem wellFormed_arrangedBlocks (h : Numbered ds) (hm : members.Sublist ds) :
    ∀ b ∈ arrangedBlocks order resorted ds (blocks members).2, b.WellFormed := fun b hb =>
  (blocks_spec members).2.2 b ((arrangedBlocks_perm _ _ h hm).subset hb)

/-! ## One container -/

theorem arrangeContainer_perm (order : SectionOrder) (resorted : List Section) (h : Numbered ds)
    (hm : members.Sublist ds) :
    (arrangeContainer order resorted (sectionGraphs ds) members).Perm members := by
  have hflat := ((arrangedBlocks_perm order resorted h hm).flatMap_right
    Block.items).append_left (blocks members).1
  rw [(blocks_spec members).1] at hflat
  rwa [arrangeContainer_eq]

/-- The sections of an arranged container ascend. -/
theorem arrangeContainer_sections (h : Numbered ds) (hm : members.Sublist ds) :
    ((arrangeContainer order resorted (sectionGraphs ds) members).filterMap (·.section?)).Pairwise
      fun s t => order.position s ≤ order.position t := by
  rw [arrangeContainer_eq,
    filterMap_section?_append (blocks_spec members).2.1 (wellFormed_arrangedBlocks h hm),
    List.pairwise_map]
  exact pairwise_flatMap_idxOf _ _ (fun place b hb => place_of_mem_arrangeSection h hm place hb) _
    order.nodup_sections

theorem sectionMembers_arrangeContainer (h : Numbered ds) (hm : members.Sublist ds)
    (place : Section) :
    sectionMembers (arrangeContainer order resorted (sectionGraphs ds) members) place =
      (arrangeSection (.of ds place) resorted
        ((blocks members).2.filter (·.place == place))).map (·.anchor) := by
  rw [arrangeContainer_eq,
    sectionMembers_append (blocks_spec members).2.1 (wellFormed_arrangedBlocks h hm),
    arrangedBlocks,
    filter_flatMap_eq _ _ (fun place b hb => place_of_mem_arrangeSection h hm place hb) _
      order.nodup_sections (order.mem_sections place)]

theorem arrangeContainer_sorted (h : Numbered ds) (hm : members.Sublist ds) {place : Section}
    (hs : IsSorted resorted place (ds.map Classified.profile)) :
    Profile.Sorted ((sectionMembers (arrangeContainer order resorted (sectionGraphs ds) members)
      place).map Classified.profile) := by
  rw [sectionMembers_arrangeContainer h hm, List.map_map]
  exact arrangeSection_sorted h (sectionBlocks_filter h hm place) hs

theorem arrangeContainer_unsorted (h : Numbered ds) (hm : members.Sublist ds) {place : Section}
    (hs : ¬ IsSorted resorted place (ds.map Classified.profile)) :
    sectionMembers (arrangeContainer order resorted (sectionGraphs ds) members) place =
      sectionMembers members place := by
  rw [sectionMembers_arrangeContainer h hm, arrangeSection_of_not h hs,
    sectionMembers_eq_map_anchor]

/-- A container in order, with numbers that ascend, is left as it is. -/
theorem arrangeContainer_eq_self (h : Numbered ds) (hm : members.Sublist ds)
    (hi : members.Pairwise fun d e => d.index ≤ e.index)
    (hsections : (members.filterMap (·.section?)).Pairwise
      fun s t => order.position s ≤ order.position t)
    (hsorted : ∀ place, IsSorted resorted place (ds.map Classified.profile) →
      Profile.Sorted ((sectionMembers members place).map Classified.profile)) :
    arrangeContainer order resorted (sectionGraphs ds) members = members := by
  obtain ⟨hflat, hhead, hwf⟩ := blocks_spec members
  have hkeep : ∀ place, arrangeSection (.of ds place) resorted
      ((blocks members).2.filter (·.place == place)) =
        (blocks members).2.filter (·.place == place) := by
    intro place
    have hanchors := sectionMembers_eq_map_anchor members place
    refine arrangeSection_eq_self h (sectionBlocks_filter h hm place) ?_ fun hs => ?_
    · have hpair := hi.sublist (sectionMembers_sublist members place)
      rwa [hanchors, List.pairwise_map] at hpair
    · have := hsorted place hs
      rwa [hanchors, List.map_map] at this
  have hplaces : (blocks members).2.Pairwise
      fun a b => order.sections.idxOf a.place ≤ order.sections.idxOf b.place := by
    rw [← hflat, filterMap_section?_append hhead hwf, List.pairwise_map] at hsections
    exact hsections
  rw [arrangeContainer_eq, arrangedBlocks, List.flatMap_congr fun place _ => hkeep place,
    flatMap_filter_eq_self _ _ _ order.nodup_sections (fun _ _ => order.mem_sections _) hplaces,
    hflat]

end

/-! ## A whole unit -/

/-- The declarations of a module, with those of a body after the one component. -/
structure Layout (ds before : List Classified) (component : Classified)
    (body after : List Classified) : Prop where
  eq : ds = before ++ component :: (body ++ after)
  scope : component.scope = .module
  isComponent : component.isComponent = true
  outside : ∀ d ∈ before ++ after, d.scope = .module ∧ d.isComponent = false
  inside : ∀ d ∈ body, d.scope = .component ∧ d.isComponent = false

theorem inScope_eq_self {scope : Scope} {ds : List Classified} (h : ∀ d ∈ ds, d.scope = scope) :
    inScope scope ds = ds :=
  List.filter_eq_self.2 fun d hd => by simp [h d hd]

theorem inScope_eq_nil {scope other : Scope} (hne : other ≠ scope) {ds : List Classified}
    (h : ∀ d ∈ ds, d.scope = other) : inScope scope ds = [] :=
  List.filter_eq_nil_iff.2 fun d hd => by simp [h d hd, hne]

theorem inScope_append (scope : Scope) (ds es : List Classified) :
    inScope scope (ds ++ es) = inScope scope ds ++ inScope scope es :=
  List.filter_append _ _

theorem inScope_sublist (scope : Scope) (ds : List Classified) : (inScope scope ds).Sublist ds :=
  List.filter_sublist

namespace Layout

variable {ds before body after : List Classified} {component : Classified}

theorem inScope_module (h : Layout ds before component body after) :
    inScope .module ds = before ++ component :: after := by
  have hbefore := inScope_eq_self fun d hd => (h.outside d (List.mem_append_left _ hd)).1
  have hafter := inScope_eq_self fun d hd => (h.outside d (List.mem_append_right _ hd)).1
  have hbody : inScope .module body = [] := inScope_eq_nil (by decide) fun d hd => (h.inside d hd).1
  rw [h.eq, inScope_append, ← List.singleton_append, inScope_append, inScope_append, hbefore,
    hafter, hbody, inScope_eq_self (by simp [h.scope])]
  simp

theorem inScope_component (h : Layout ds before component body after) :
    inScope .component ds = body := by
  have hne : Scope.module ≠ .component := by decide
  have hbefore : inScope .component before = [] :=
    inScope_eq_nil hne fun d hd => (h.outside d (List.mem_append_left _ hd)).1
  have hafter : inScope .component after = [] :=
    inScope_eq_nil hne fun d hd => (h.outside d (List.mem_append_right _ hd)).1
  have hsingle : inScope .component [component] = [] :=
    inScope_eq_nil hne fun d hd => by rw [List.mem_singleton.1 hd]; exact h.scope
  have hbody := inScope_eq_self fun d hd => (h.inside d hd).1
  rw [h.eq, inScope_append, ← List.singleton_append, inScope_append, inScope_append, hbefore,
    hafter, hbody, hsingle]
  simp

theorem find?_isComponent (h : Layout ds before component body after) :
    ds.find? (·.isComponent) = some component := by
  rw [h.eq, List.find?_append, List.find?_eq_none.2, Option.none_or, List.find?_cons_of_pos]
  · exact h.isComponent
  · intro d hd
    simp [(h.outside d (List.mem_append_left _ hd)).2]

/-- Splicing a body in behind the one component. -/
theorem flatMap_component {before after : List Classified} {component : Classified}
    (h : ∀ d ∈ before ++ after, d.isComponent = false) (hc : component.isComponent = true)
    (body : List Classified) :
    ((before ++ component :: after).flatMap fun d =>
      if d.isComponent then d :: body else [d]) = before ++ component :: (body ++ after) := by
  have hkeep : ∀ es : List Classified, (∀ d ∈ es, d.isComponent = false) →
      (es.flatMap fun d => if d.isComponent then d :: body else [d]) = es := by
    intro es hes
    have hsingle : ∀ d ∈ es, (if d.isComponent then d :: body else [d]) = [d] := fun d hd => by
      simp [hes d hd]
    rw [List.flatMap_congr hsingle]
    simp
  rw [List.flatMap_append, List.flatMap_cons,
    hkeep before fun d hd => h d (List.mem_append_left _ hd),
    hkeep after fun d hd => h d (List.mem_append_right _ hd), hc]
  rfl

/-- Arranging both containers of a layout gives a layout. -/
theorem arrange (h : Layout ds before component body after) (hn : Numbered ds)
    (order : SectionOrder) (resorted : List Section) :
    ∃ before' after',
      arrangeContainer order resorted (sectionGraphs ds) (inScope .module ds) =
        before' ++ component :: after' ∧
      Layout (ComponentLint.arrange order resorted (sectionGraphs ds) ds) before' component
        (arrangeContainer order resorted (sectionGraphs ds) (inScope .component ds)) after' := by
  have hmod := arrangeContainer_perm order resorted hn (inScope_sublist .module ds)
  have hbody := arrangeContainer_perm order resorted hn (inScope_sublist .component ds)
  have hmem : component ∈ arrangeContainer order resorted (sectionGraphs ds)
      (inScope .module ds) := hmod.symm.subset (by rw [h.inScope_module]; simp)
  obtain ⟨before', after', hsplit⟩ := List.append_of_mem hmem
  rw [hsplit, h.inScope_module] at hmod
  have hothers : (before' ++ after').Perm (before ++ after) :=
    (List.perm_middle.symm.trans (hmod.trans List.perm_middle)).cons_inv
  have houtside : ∀ d ∈ before' ++ after', d.scope = .module ∧ d.isComponent = false :=
    fun d hd => h.outside d (hothers.subset hd)
  refine ⟨before', after', hsplit, ?_, h.scope, h.isComponent, houtside,
    fun d hd => h.inside d (h.inScope_component ▸ hbody.subset hd)⟩
  unfold ComponentLint.arrange
  rw [hsplit]
  exact flatMap_component (fun d hd => (houtside d hd).2) h.isComponent _

/-- A layout whose containers stay as they are stays as it is. -/
theorem arrange_eq_self (h : Layout ds before component body after) (order : SectionOrder)
    (resorted : List Section)
    (hkeep : ∀ scope, arrangeContainer order resorted (sectionGraphs ds) (inScope scope ds) =
      inScope scope ds) :
    ComponentLint.arrange order resorted (sectionGraphs ds) ds = ds := by
  unfold ComponentLint.arrange
  rw [hkeep, hkeep, h.inScope_module, h.inScope_component]
  dsimp only
  rw [flatMap_component (fun d hd => (h.outside d hd).2) h.isComponent, h.eq]

theorem perm (h : Layout ds before component body after) :
    ds.Perm (inScope .module ds ++ inScope .component ds) := by
  rw [h.inScope_module, h.inScope_component, h.eq, List.append_assoc, List.cons_append]
  exact (List.Perm.cons _ List.perm_append_comm).append_left before

end Layout

end ComponentLint
