import ComponentLint.Proofs.Renumbered
import ComponentLint.Proofs.Violations
/-
  What a fix resolves. In the order that a fix gives, no declaration stands behind a later section,
  and a sorted section has no misplaced neighbours: one that stands right behind another of a larger
  key reads it. A section with a cycle keeps its order, and so the misplaced neighbours that it had
  (`misplaced_reordered`); sections without a cycle have none.
-/

namespace ComponentLint

open Profile Validation

/-! ## Sorted sections -/

namespace Profile

theorem Sorted.of_append {l₁ l₂ : List Profile} (h : Sorted (l₁ ++ l₂)) : Sorted l₂ := by
  induction l₁ with
  | nil => exact h
  | cons p l₁ ih => exact ih h.2.2

/-- The second of a sorted section was free to come first if it reads nothing that is left, and so
it does not belong before the first unless it reads it. -/
theorem Sorted.not_before {p q : Profile} {rest : List Profile} (h : Sorted (p :: q :: rest))
    (hnot : ¬ q.ReadsFrom p) : ¬ q.Before p := by
  obtain ⟨-, hleast, hq, -⟩ := h
  refine hleast q (by simp) fun r hr => ?_
  rcases List.mem_cons.1 hr with rfl | hr
  · exact hnot
  · rcases List.mem_cons.1 hr with rfl | hr
    · exact ReadsFrom.irrefl r
    · exact hq r hr

/-- Neighbours in a sorted section are in order. -/
theorem Sorted.not_outOfOrder {p q : Profile} {rest : List Profile}
    (h : Sorted (p :: q :: rest)) : ¬ p.OutOfOrder q := by
  intro hout
  rcases hout with hr | ⟨hprops, hkey, hnot⟩
  · exact h.1 q (by simp) hr
  · refine h.not_before hnot ?_
    cases hp : p.isPropsType with
    | true => exact Or.inl ⟨hprops, hp⟩
    | false => exact Or.inr ⟨hprops.trans hp.symm, hkey⟩

theorem not_hasMisplaced_of_sorted {place : Section} {ps : List Profile} (hc : ¬ Cyclic place ps)
    (hs : ∀ scope, Sorted (group scope place ps)) : ¬ HasMisplaced place ps := by
  rw [hasMisplaced_iff_of_not_cyclic hc]
  intro hx
  obtain ⟨scope, hchain⟩ := hx
  refine hchain (List.isChain_iff_forall_rel_of_append_cons_cons.2 fun p q l₁ l₂ heq => ?_)
  have hsorted := hs scope
  rw [heq] at hsorted
  exact hsorted.of_append.not_outOfOrder

end Profile

/-! ## Misplaced neighbours under other numbers -/

/-- The same two declarations with other numbers. -/
def Rule.Misplaced.renumbered (number : Classified → Nat) (m : Misplaced) : Misplaced :=
  { m with
    declaration := m.declaration.numbered (number m.declaration)
    earlier := m.earlier.numbered (number m.earlier) }

/-- The second sequence has the declarations of the first, in any order, with other numbers. -/
structure Renumbers (number : Classified → Nat) (ds es : List Classified) : Prop where
  numbered : Numbered ds
  renumbered : Numbered es
  perm : es.Perm (ds.map fun d => d.numbered (number d))

namespace Renumbers

variable {number : Classified → Nat} {ds es : List Classified} {place : Section}

theorem profile_perm (h : Renumbers number ds es) :
    (es.map Classified.profile).Perm (ds.map Classified.profile) := by
  have hperm := h.perm.map Classified.profile
  rwa [List.map_map] at hperm

theorem onCycle_iff (h : Renumbers number ds es) (p : Profile) :
    OnCycle (ofSection place (es.map Classified.profile)) p ↔
      OnCycle (ofSection place (ds.map Classified.profile)) p :=
  onCycle_of_mem_iff (fun _ => (h.profile_perm.filter _).mem_iff) p

theorem mem_sectionMembers (h : Renumbers number ds es) {d : Classified}
    (hd : d ∈ sectionMembers ds place) : d.numbered (number d) ∈ sectionMembers es place := by
  obtain ⟨hd, hs⟩ := List.mem_filter.1 hd
  exact List.mem_filter.2 ⟨h.perm.symm.subset (List.mem_map.2 ⟨d, hd, rfl⟩), hs⟩

theorem dependsOn_eq (h : Renumbers number ds es) {d e : Classified}
    (hd : d ∈ sectionMembers ds place) (he : e ∈ sectionMembers ds place) :
    (SectionGraph.of es place).dependsOn (number d) (number e) =
      (SectionGraph.of ds place).dependsOn d.index e.index := by
  rw [Bool.eq_iff_iff, dependsOn_of h.numbered hd he]
  exact dependsOn_of h.renumbered (h.mem_sectionMembers hd) (h.mem_sectionMembers he)

theorem cycleMembers_eq (h : Renumbers number ds es) {d : Classified}
    (hd : d ∈ sectionMembers ds place) :
    (SectionGraph.of es place).cycleMembers.contains (number d) =
      (SectionGraph.of ds place).cycleMembers.contains d.index := by
  rw [Bool.eq_iff_iff, List.contains_iff_mem, List.contains_iff_mem,
    mem_cycleMembers_of h.numbered hd, ← h.onCycle_iff]
  exact mem_cycleMembers_of h.renumbered (h.mem_sectionMembers hd)

theorem misplaced?_eq (h : Renumbers number ds es) {d e : Classified}
    (hd : d ∈ sectionMembers ds place) (he : e ∈ sectionMembers ds place) :
    Rule.misplaced? (.of es place) (d.numbered (number d)) (e.numbered (number e)) =
      (Rule.misplaced? (.of ds place) d e).map (·.renumbered number) := by
  have hde := h.dependsOn_eq hd he
  have hed := h.dependsOn_eq he hd
  unfold Rule.misplaced?
  show (if (SectionGraph.of es place).dependsOn (number d) (number e) then _
    else if e.isPropsType || d.sortKey ≤ e.sortKey ||
      (SectionGraph.of es place).dependsOn (number e) (number d) then none else _) = _
  rw [hde, hed]
  split
  · rfl
  · split
    · rfl
    · rfl

/-- Misplaced neighbours stay misplaced, as what makes them so does not depend on numbers. -/
theorem misplacedIn_eq (h : Renumbers number ds es) {members : List Classified}
    (hm : ∀ d ∈ members, d ∈ sectionMembers ds place) :
    Rule.misplacedIn (.of es place) (members.map fun d => d.numbered (number d)) =
      (Rule.misplacedIn (.of ds place) members).map (·.renumbered number) := by
  have hchecked : (members.map fun d => d.numbered (number d)).filter
      (fun d => !(SectionGraph.of es place).cycleMembers.contains d.index) =
      (members.filter fun d => !(SectionGraph.of ds place).cycleMembers.contains d.index).map
        fun d => d.numbered (number d) := by
    rw [List.filter_map]
    refine congrArg (List.map _) (List.filter_congr fun d hd => ?_)
    rw [Function.comp_apply, Classified.numbered_index, h.cycleMembers_eq (hm d hd)]
  unfold Rule.misplacedIn
  dsimp only
  rw [hchecked]
  unfold Rule.neighbours
  rw [← List.map_tail, List.zip_map, List.filterMap_map, List.map_filterMap]
  refine List.filterMap_congr fun x hx => ?_
  have hx₁ := List.of_mem_zip hx
  exact h.misplaced?_eq (hm _ (List.mem_filter.1 hx₁.1).1)
    (hm _ (List.mem_filter.1 (List.mem_of_mem_tail hx₁.2)).1)

/-- A section that keeps its order in each container keeps its misplaced neighbours. -/
theorem misplacedOf_eq (h : Renumbers number ds es)
    (hkeep : ∀ scope, inScope scope (sectionMembers es place) =
      (inScope scope (sectionMembers ds place)).map fun d => d.numbered (number d)) :
    Rule.misplacedOf (.of es place) es =
      (Rule.misplacedOf (.of ds place) ds).map (·.renumbered number) := by
  show Rule.misplacedIn (.of es place) (inScope .module (sectionMembers es place)) ++
    Rule.misplacedIn (.of es place) (inScope .component (sectionMembers es place)) =
    (Rule.misplacedIn (.of ds place) (inScope .module (sectionMembers ds place)) ++
      Rule.misplacedIn (.of ds place) (inScope .component (sectionMembers ds place))).map _
  rw [hkeep, hkeep, List.map_append,
    h.misplacedIn_eq fun d hd => (inScope_sublist _ _).subset hd,
    h.misplacedIn_eq fun d hd => (inScope_sublist _ _).subset hd]

end Renumbers

theorem declaration_of_mem_misplacedIn {graph : SectionGraph} {members : List Classified}
    {m : Rule.Misplaced} (hm : m ∈ Rule.misplacedIn graph members) : m.declaration ∈ members := by
  obtain ⟨⟨d, e⟩, hde, hm⟩ := List.mem_filterMap.1 hm
  have he : e ∈ members :=
    (List.mem_filter.1 (List.mem_of_mem_tail (List.of_mem_zip hde).2)).1
  dsimp only [Rule.misplaced?] at hm
  split at hm
  · rw [← Option.some.inj hm]
    exact he
  · split at hm
    · simp at hm
    · rw [← Option.some.inj hm]
      exact he

theorem declaration_of_mem_misplaced {options : Options} {ds : List Classified}
    {m : Rule.Misplaced} (hm : m ∈ Rule.misplaced options (sectionGraphs ds) ds) :
    m.declaration ∈ sectionMembers ds m.place := by
  obtain ⟨place, -, hm⟩ := List.mem_flatMap.1 hm
  rw [graphAt_sectionGraphs] at hm
  split at hm
  · have hplace : m.place = place := place_of_mem_misplacedOf hm
    rw [hplace]
    rcases List.mem_append.1 hm with hm | hm
    · exact (inScope_sublist _ _).subset (declaration_of_mem_misplacedIn hm)
    · exact (inScope_sublist _ _).subset (declaration_of_mem_misplacedIn hm)
  · simp at hm

theorem section?_of_mem_misplaced {options : Options} {ds : List Classified} {m : Rule.Misplaced}
    (hm : m ∈ Rule.misplaced options (sectionGraphs ds) ds) :
    m.declaration.section? = some m.place := by
  simpa using (List.mem_filter.1 (declaration_of_mem_misplaced hm)).2

theorem mem_cyclic_iff {ds : List Classified} (h : Numbered ds) (options : Options)
    (place : Section) :
    place ∈ (validate options ds).cyclic ↔ Cyclic place (ds.map Classified.profile) := by
  show place ∈ ((sectionGraphs ds).filter (·.isCyclic)).map (·.place) ↔ _
  rw [← isCyclic_of h]
  constructor
  · intro hmem
    obtain ⟨graph, hg, rfl⟩ := List.mem_map.1 hmem
    obtain ⟨hg, hc⟩ := List.mem_filter.1 hg
    obtain ⟨place, -, rfl⟩ := List.mem_map.1 hg
    exact hc
  · intro hc
    refine List.mem_map.2 ⟨.of ds place, List.mem_filter.2 ⟨List.mem_map.2 ⟨place, ?_, rfl⟩, hc⟩, rfl⟩
    -- a section without members has a graph without cycles
    obtain ⟨p, hp, -⟩ := (isCyclic_of h place).1 hc
    rw [← map_profile_sectionMembers] at hp
    obtain ⟨d, hd, -⟩ := List.mem_map.1 hp
    exact mem_sectionsPresent hd

/-! ## The order of a fix -/

/-- The declarations in the order of a fix, numbered anew. -/
def reordered (options : Options) (ds : List Classified) : List Classified :=
  renumber (validate options ds).arranged

section

variable {ds before body after : List Classified} {component : Classified}

theorem reordered_eq_map (hl : Layout ds before component body after) (hn : Numbered ds)
    (options : Options) :
    reordered options ds = (validate options ds).arranged.map
      fun d => d.numbered (positionIn (validate options ds).arranged d) :=
  renumber_eq_map (numbered_arrange hl hn options.order _)

theorem renumbers_reordered (hl : Layout ds before component body after) (hn : Numbered ds)
    (options : Options) :
    Renumbers (positionIn (validate options ds).arranged) ds (reordered options ds) := by
  refine ⟨hn, numbered_renumber _, ?_⟩
  rw [reordered_eq_map hl hn]
  exact (arrange_perm hl hn options.order _).map _

/-- A section that is not sorted keeps its order. -/
theorem inScope_sectionMembers_reordered (hl : Layout ds before component body after)
    (hn : Numbered ds) (options : Options) {place : Section}
    (hs : ¬ IsSorted (validate options ds).resorted place (ds.map Classified.profile))
    (scope : Scope) :
    inScope scope (sectionMembers (reordered options ds) place) =
      (inScope scope (sectionMembers ds place)).map
        fun d => d.numbered (positionIn (validate options ds).arranged d) := by
  have harranged : inScope scope (sectionMembers (validate options ds).arranged place) =
      inScope scope (sectionMembers ds place) :=
    inScope_sectionMembers_arrange hl hn options.order hs scope
  rw [reordered_eq_map hl hn, ← harranged]
  unfold inScope sectionMembers
  rw [List.filter_map, List.filter_map]
  rfl

/-- A section without a cycle has no misplaced neighbours once it is in order. -/
theorem misplacedOf_reordered_of_not_cyclic (hl : Layout ds before component body after)
    (hn : Numbered ds) (options : Options) {place : Section} (hsort : place ∈ options.sortable)
    (hc : ¬ Cyclic place (ds.map Classified.profile)) :
    Rule.misplacedOf (.of (reordered options ds) place) (reordered options ds) = [] := by
  by_contra hne
  have hmis := (misplacedOf_ne_nil (numbered_renumber _)).1 hne
  rw [map_profile_renumber] at hmis
  by_cases hr : place ∈ (validate options ds).resorted
  · have hordered := ordered_arrange hl hn options.order (validate options ds).resorted
    have hc' := mt (cyclic_arrange hl hn options.order (validate options ds).resorted place).1 hc
    exact not_hasMisplaced_of_sorted hc' (hordered.sorted place hr hc') hmis
  · refine hr ((mem_resorted_iff hn options).2 (Or.inl ⟨hsort, ?_⟩))
    exact (hasMisplaced_arrange hl hn options.order fun hs => hr hs.1).1 hmis

/-- The misplaced neighbours in the order of a fix are those that sections with a cycle had
before. -/
theorem misplaced_reordered (hl : Layout ds before component body after) (hn : Numbered ds)
    (options : Options) :
    Rule.misplaced options (sectionGraphs (reordered options ds)) (reordered options ds) =
      ((Rule.misplaced options (sectionGraphs ds) ds).filter
        fun m => (validate options ds).cyclic.contains m.place).map
          (·.renumbered (positionIn (validate options ds).arranged)) := by
  unfold Rule.misplaced
  rw [List.filter_flatMap, List.map_flatMap]
  refine List.flatMap_congr fun place _ => ?_
  rw [graphAt_sectionGraphs, graphAt_sectionGraphs]
  split
  · next hsort =>
    by_cases hc : Cyclic place (ds.map Classified.profile)
    · have hall : (Rule.misplacedOf (.of ds place) ds).filter
          (fun m => (validate options ds).cyclic.contains m.place) =
            Rule.misplacedOf (.of ds place) ds := by
        refine List.filter_eq_self.2 fun m hm => ?_
        have hplace : m.place = place := place_of_mem_misplacedOf hm
        rw [hplace]
        exact List.contains_iff_mem.2 ((mem_cyclic_iff hn options place).2 hc)
      rw [hall]
      exact (renumbers_reordered hl hn options).misplacedOf_eq
        (inScope_sectionMembers_reordered hl hn options fun hs => hs.2 hc)
    · have hnone : (Rule.misplacedOf (.of ds place) ds).filter
          (fun m => (validate options ds).cyclic.contains m.place) = [] := by
        refine List.filter_eq_nil_iff.2 fun m hm hmem => hc ?_
        have hplace : m.place = place := place_of_mem_misplacedOf hm
        rw [hplace] at hmem
        exact (mem_cyclic_iff hn options place).1 (List.contains_iff_mem.1 hmem)
      rw [hnone]
      exact misplacedOf_reordered_of_not_cyclic hl hn options (List.contains_iff_mem.1 hsort) hc
  · rfl

/-- In the order of a fix no declaration stands behind a later section. -/
theorem outOfSection_reordered (hl : Layout ds before component body after) (hn : Numbered ds)
    (options : Options) :
    Rule.outOfSection options.order (fun _ => none) (reordered options ds) = [] := by
  rw [outOfSection_eq_nil_iff_profiles]
  exact (ordered_rearranged hl hn options.order (validate options ds).resorted).sections

theorem mem_cyclic_reordered (hl : Layout ds before component body after) (hn : Numbered ds)
    (options : Options) (place : Section) :
    place ∈ (validate options (reordered options ds)).cyclic ↔
      place ∈ (validate options ds).cyclic := by
  have hrenumbers := renumbers_reordered hl hn options
  rw [mem_cyclic_iff hn, mem_cyclic_iff hrenumbers.renumbered]
  exact cyclic_of_perm hrenumbers.profile_perm

/-- What is still reported as misplaced, and could be moved. -/
theorem mem_violations_reordered (hl : Layout ds before component body after) (hn : Numbered ds)
    (options : Options) (v : Violation) :
    (v ∈ (validate options (reordered options ds)).violations ∧ v.kind = .alphabeticalOrder ∧
      v.fixable = true) ↔
    ∃ m ∈ Rule.misplaced options (sectionGraphs ds) ds, m.place ∈ (validate options ds).cyclic ∧
      v = misplacedViolation (validate options (reordered options ds)).arranged
        (m.renumbered (positionIn (validate options ds).arranged)) := by
  rw [mem_violations_alphabetical_iff, misplaced_reordered hl hn]
  constructor
  · intro hx
    obtain ⟨_, hmem, rfl⟩ := hx
    obtain ⟨m, hm, rfl⟩ := List.mem_map.1 hmem
    obtain ⟨hm, hc⟩ := List.mem_filter.1 hm
    exact ⟨m, hm, List.contains_iff_mem.1 hc, rfl⟩
  · intro hx
    obtain ⟨m, hm, hc, rfl⟩ := hx
    refine ⟨_, List.mem_map.2 ⟨m, List.mem_filter.2 ⟨hm, ?_⟩, rfl⟩, rfl⟩
    exact List.contains_iff_mem.2 hc

end

/-- What the second sequence, the first in the order of a fix, has resolved. -/
structure Resolves (options : Options) (ds fixed : List Classified) : Prop where
  sections : ∀ v ∈ (validate options fixed).violations, v.kind ≠ .sectionOrder
  /-- Before, each misplaced declaration is reported. -/
  reported : ∀ v, (v ∈ (validate options ds).violations ∧ v.kind = .alphabeticalOrder ∧
      v.fixable = true) ↔
    ∃ m ∈ Rule.misplaced options (sectionGraphs ds) ds,
      v = misplacedViolation (validate options ds).arranged m
  /-- Of these, the ones in a section with a cycle are left: the same pairs of declarations. -/
  left : ∀ v, (v ∈ (validate options fixed).violations ∧ v.kind = .alphabeticalOrder ∧
      v.fixable = true) ↔
    ∃ m ∈ Rule.misplaced options (sectionGraphs ds) ds, m.place ∈ (validate options ds).cyclic ∧
      v = misplacedViolation (validate options fixed).arranged
        (m.renumbered (positionIn (validate options ds).arranged))
  cyclic : ∀ place, place ∈ (validate options fixed).cyclic ↔ place ∈ (validate options ds).cyclic
  acyclic : ∀ place ∈ options.sortable, place ∉ (validate options fixed).cyclic →
    ∀ v ∈ (validate options fixed).violations, v.placement = .inSection place →
      v.kind = .alphabeticalOrder → v.fixable = false

/-- A fix resolves what a validation checks: in the order of the fix, every section stands where it
belongs, and the misplaced declarations that a fix could move are those that sections with a cycle
had before. -/
theorem fix_resolves_order (extraction options : Options) (unit : SourceUnit) (ds : List Classified)
    (h : unit.Declares extraction ds) : Resolves options ds (reordered options ds) := by
  obtain ⟨before, component, body, after, hl⟩ := h.exists_layout
  have hn := h.numbered
  refine ⟨fun v hv hk => ?_, fun v => mem_violations_alphabetical_iff,
    mem_violations_reordered hl hn options, mem_cyclic_reordered hl hn options,
    fun place _ hplace v hv hsection hk => ?_⟩
  · obtain ⟨d, later, hd⟩ := (mem_violations_iff.1 hv).exists_outOfSection hk
    rw [outOfSection_reordered hl hn] at hd
    simp at hd
  · by_contra hf
    obtain ⟨m, hm, hc, rfl⟩ :=
      (mem_violations_reordered hl hn options v).1 ⟨hv, hk, by simpa using hf⟩
    have hs : m.declaration.section? = some m.place := section?_of_mem_misplaced hm
    have hp : m.declaration.placement = .inSection place := hsection
    rw [Classified.section?, hp] at hs
    exact hplace ((mem_cyclic_reordered hl hn options place).2 (Option.some.inj hs ▸ hc))

/-- Of the two misplaced pairs of this unit, the functions stay where they are. -/
theorem fix_resolves_tangled :
    ∃ ds, SourceUnit.tangled.Declares .standard ds ∧
      Resolves .standard ds (reordered .standard ds) ∧
      (validate .standard ds).cyclic = [.functions] ∧
      (Rule.misplaced .standard (sectionGraphs ds) ds).map (fun m =>
        (m.place, m.earlier.name, m.declaration.name)) =
          [(.state, "b", "a"), (.functions, "getZ", "getA")] := by
  have hc : SourceUnit.tangled.componentIndex? = some 0 := by decide
  have hds := declares_reading hc .standard
  refine ⟨_, hds, fix_resolves_order .standard .standard .tangled _ hds, ?_, ?_⟩
  · decide +kernel
  · decide +kernel

end ComponentLint
