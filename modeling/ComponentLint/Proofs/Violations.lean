import ComponentLint.Proofs.Order
/-
  What a validation reports. A violation comes from one of seven rules (`Reported`), and its kind
  and whether a fix can mend it tell which: a fix can mend violations of section order, which are
  the declarations behind a later section, those violations of alphabetical order that are misplaced
  neighbours, and the first props type when it is not the last type. No declaration stands behind a
  later section exactly when the sections of each container ascend (`outOfSection_eq_nil_iff`).
-/

namespace ComponentLint

open Validation

/-- The violation that tells of a misplaced declaration. -/
def misplacedViolation (arranged : List Classified) (m : Rule.Misplaced) : Violation :=
  violation m.declaration (misplacedFinding m) (positionIn arranged m.declaration)

/-- The violations of a sequence of declarations, rule by rule. -/
inductive Reported (options : Options) (ds : List Classified) : Violation → Prop where
  | afterSection (d : Classified) (later : Section)
    (h : (d, later) ∈ Rule.outOfSection options.order (fun _ => none) ds) :
    Reported options ds
      (violation d (.afterSection later) (positionIn (validate options ds).arranged d))
  | misplaced (m : Rule.Misplaced) (h : m ∈ Rule.misplaced options (sectionGraphs ds) ds) :
    Reported options ds (misplacedViolation (validate options ds).arranged m)
  | propsNotLast (d : Classified) (h : Rule.propsNotLast? ds = some d) :
    Reported options ds
      (violation d .propsNotLast (positionIn (validate options ds).arranged d))
  | member (d : Classified) (finding : Finding) (hd : d ∈ ds)
    (h : Rule.memberProblem? d = some finding) :
    Reported options ds (violation d finding (positionIn (validate options ds).arranged d))
  | naming (d : Classified) (problem : NamingProblem) (hn : options.namingChecks = true)
    (hd : d ∈ ds) (h : d.section?.bind (Rule.namingProblem? d) = some problem) :
    Reported options ds (violation d (.naming problem) d.index)
  | noSection (d : Classified) (hd : d ∈ ds) (h : d.placement = .unclassified) :
    Reported options ds (violation d (.noSection (Rule.missingSectionReason d.kind)) d.index)
  | cycle (graph : SectionGraph) (cycle : List Nat) (v : Violation) (hg : graph ∈ sectionGraphs ds)
    (hc : cycle ∈ graph.cycles)
    (h : cycleViolation? ds (positionIn (validate options ds).arranged) cycle = some v) :
    Reported options ds v

theorem violations_perm_findings (options : Options) (ds : List Classified) :
    (validate options ds).violations.Perm (findings options (sectionGraphs ds)
      (Rule.misplaced options (sectionGraphs ds) ds) ds (validate options ds).arranged) :=
  sortBy_perm Violation.le _

theorem mem_violations_iff {options : Options} {ds : List Classified} {v : Violation} :
    v ∈ (validate options ds).violations ↔ Reported options ds v := by
  rw [(violations_perm_findings options ds).mem_iff]
  unfold findings
  simp only [List.mem_append, List.mem_map, List.mem_filterMap, List.mem_flatMap, List.mem_filter,
    Option.mem_toList, Option.map_eq_some_iff, beq_iff_eq, Prod.exists]
  constructor
  · rintro ((((((⟨d, later, h, rfl⟩ | ⟨m, h, rfl⟩) | ⟨d, h, rfl⟩) | ⟨d, hd, finding, h, rfl⟩) | h) |
      ⟨d, ⟨hd, h⟩, rfl⟩) | ⟨graph, hg, cycle, hc, h⟩)
    · exact .afterSection d later h
    · exact .misplaced m h
    · exact .propsNotLast d h
    · exact .member d finding hd h
    · split at h
      · next hn =>
        obtain ⟨d, hd, hsome⟩ := List.mem_filterMap.1 h
        obtain ⟨problem, hp, rfl⟩ := Option.map_eq_some_iff.1 hsome
        exact .naming d problem hn hd hp
      · simp at h
    · exact .noSection d hd h
    · exact .cycle graph cycle v hg hc h
  · intro h
    cases h with
    | afterSection d later h =>
      exact Or.inl (Or.inl (Or.inl (Or.inl (Or.inl (Or.inl ⟨d, later, h, rfl⟩)))))
    | misplaced m h => exact Or.inl (Or.inl (Or.inl (Or.inl (Or.inl (Or.inr ⟨m, h, rfl⟩)))))
    | propsNotLast d h => exact Or.inl (Or.inl (Or.inl (Or.inl (Or.inr ⟨d, h, rfl⟩))))
    | member d finding hd h => exact Or.inl (Or.inl (Or.inl (Or.inr ⟨d, hd, finding, h, rfl⟩)))
    | naming d problem hn hd h =>
      refine Or.inl (Or.inl (Or.inr ?_))
      rw [if_pos hn]
      exact List.mem_filterMap.2 ⟨d, hd, by rw [h]; rfl⟩
    | noSection d hd h => exact Or.inl (Or.inr ⟨d, ⟨hd, h⟩, rfl⟩)
    | cycle graph cycle v hg hc h => exact Or.inr ⟨graph, hg, cycle, hc, h⟩

theorem misplacedFinding_kind (m : Rule.Misplaced) :
    (misplacedFinding m).kind = .alphabeticalOrder ∧ (misplacedFinding m).fixable = true := by
  unfold misplacedFinding
  split
  · exact ⟨rfl, rfl⟩
  · exact ⟨rfl, rfl⟩

theorem exists_of_memberProblem? {d : Classified} {finding : Finding}
    (h : Rule.memberProblem? d = some finding) :
    ∃ noun first second, finding = .memberOrder noun first second := by
  unfold Rule.memberProblem? at h
  split at h
  · simp at h
  · obtain ⟨⟨first, second⟩, -, rfl⟩ := Option.map_eq_some_iff.1 h
    exact ⟨_, first, second, rfl⟩

/-- A cycle is told of a declaration of the sequence. -/
theorem exists_of_cycleViolation? {ds : List Classified} {expected : Classified → Nat}
    {cycle : List Nat} {v : Violation} (h : cycleViolation? ds expected cycle = some v) :
    ∃ first ∈ ds, ∃ names, v = violation first (.cycle names) (expected first) := by
  obtain ⟨first, hfirst, rfl⟩ := Option.map_eq_some_iff.1 h
  exact ⟨first, (List.mem_filter.1 (List.mem_of_head? hfirst)).1, _, rfl⟩

/-! ## The violations of one rule -/

/-- What each rule tells, with the kind of violation that it tells of. -/
def rulings (options : Options) (graphs : List SectionGraph) (misplaced : List Rule.Misplaced)
    (ds arranged : List Classified) : List (ViolationKind × List Violation) :=
  let expected := positionIn arranged
  [ (.sectionOrder, (Rule.outOfSection options.order (fun _ => none) ds).map fun e =>
      violation e.1 (.afterSection e.2) (expected e.1)),
    (.alphabeticalOrder, misplaced.map (misplacedViolation arranged)),
    (.propsInterfacePosition, (Rule.propsNotLast? ds).toList.map fun props =>
      violation props .propsNotLast (expected props)),
    (.alphabeticalOrder, ds.filterMap fun d => (Rule.memberProblem? d).map fun finding =>
      violation d finding (expected d)),
    (.namingConvention, if options.namingChecks then
        ds.filterMap fun d => (d.section?.bind (Rule.namingProblem? d)).map fun problem =>
          violation d (.naming problem) d.index
      else []),
    (.unclassified, (ds.filter (·.placement == .unclassified)).map fun d =>
      violation d (.noSection (Rule.missingSectionReason d.kind)) d.index),
    (.dependencyCycle, graphs.flatMap fun graph =>
      graph.cycles.filterMap (cycleViolation? ds expected)) ]

theorem findings_eq_flatMap_rulings (options : Options) (graphs : List SectionGraph)
    (misplaced : List Rule.Misplaced) (ds arranged : List Classified) :
    findings options graphs misplaced ds arranged =
      (rulings options graphs misplaced ds arranged).flatMap Prod.snd := by
  simp only [findings, rulings, List.flatMap_cons, List.flatMap_nil, List.append_nil,
    List.append_assoc]
  rfl

theorem kind_of_mem_rulings {options : Options} {graphs : List SectionGraph}
    {misplaced : List Rule.Misplaced} {ds arranged : List Classified}
    {rule : ViolationKind × List Violation}
    (h : rule ∈ rulings options graphs misplaced ds arranged) {v : Violation} (hv : v ∈ rule.2) :
    v.kind = rule.1 := by
  simp only [rulings, List.mem_cons, List.not_mem_nil, or_false] at h
  rcases h with rfl | rfl | rfl | rfl | rfl | rfl | rfl
  · obtain ⟨e, -, rfl⟩ := List.mem_map.1 hv
    rfl
  · obtain ⟨m, -, rfl⟩ := List.mem_map.1 hv
    exact (misplacedFinding_kind m).1
  · obtain ⟨d, -, rfl⟩ := List.mem_map.1 hv
    rfl
  · obtain ⟨d, -, hsome⟩ := List.mem_filterMap.1 hv
    obtain ⟨finding, hfinding, rfl⟩ := Option.map_eq_some_iff.1 hsome
    obtain ⟨noun, first, second, rfl⟩ := exists_of_memberProblem? hfinding
    rfl
  · dsimp only at hv
    split at hv
    · obtain ⟨d, -, hsome⟩ := List.mem_filterMap.1 hv
      obtain ⟨problem, -, rfl⟩ := Option.map_eq_some_iff.1 hsome
      rfl
    · exact absurd hv List.not_mem_nil
  · obtain ⟨d, -, rfl⟩ := List.mem_map.1 hv
    rfl
  · obtain ⟨graph, -, hv⟩ := List.mem_flatMap.1 hv
    obtain ⟨cycle, -, hsome⟩ := List.mem_filterMap.1 hv
    obtain ⟨first, -, names, rfl⟩ := exists_of_cycleViolation? hsome
    rfl

/-- Choosing violations by their kind is choosing rules. -/
theorem filter_kind_findings (p : ViolationKind → Bool) (options : Options)
    (graphs : List SectionGraph) (misplaced : List Rule.Misplaced) (ds arranged : List Classified) :
    (findings options graphs misplaced ds arranged).filter (fun v => p v.kind) =
      ((rulings options graphs misplaced ds arranged).filter (fun rule => p rule.1)).flatMap
        Prod.snd := by
  rw [findings_eq_flatMap_rulings]
  exact filter_flatMap_of_forall fun rule hrule v hv => by rw [kind_of_mem_rulings hrule hv]

/-- Of one kind, the violations are those that the rules of the kind tell, in some order. -/
theorem filter_kind_violations_perm (kind : ViolationKind) (options : Options)
    (ds : List Classified) :
    ((validate options ds).violations.filter (·.kind == kind)).Perm
      (((rulings options (sectionGraphs ds) (Rule.misplaced options (sectionGraphs ds) ds) ds
        (validate options ds).arranged).filter (·.1 == kind)).flatMap Prod.snd) :=
  ((violations_perm_findings options ds).filter _).trans
    (.of_eq (filter_kind_findings (· == kind) options _ _ ds _))

/-! ## What a fix can mend -/

section

variable {options : Options} {ds : List Classified} {v : Violation}

/-- What a fix can mend: a declaration behind a later section, a misplaced neighbour, or a props
type that is not the last of its types. -/
theorem Reported.of_fixable (h : Reported options ds v) (hf : v.fixable = true) :
    (∃ d later, (d, later) ∈ Rule.outOfSection options.order (fun _ => none) ds ∧
      v = violation d (.afterSection later) (positionIn (validate options ds).arranged d)) ∨
    (∃ m ∈ Rule.misplaced options (sectionGraphs ds) ds,
      v = misplacedViolation (validate options ds).arranged m) ∨
    ∃ d, Rule.propsNotLast? ds = some d ∧
      v = violation d .propsNotLast (positionIn (validate options ds).arranged d) := by
  cases h with
  | afterSection d later h => exact Or.inl ⟨d, later, h, rfl⟩
  | misplaced m h => exact Or.inr (Or.inl ⟨m, h, rfl⟩)
  | propsNotLast d h => exact Or.inr (Or.inr ⟨d, h, rfl⟩)
  | member d finding hd h =>
    obtain ⟨noun, first, second, rfl⟩ := exists_of_memberProblem? h
    exact nomatch hf
  | cycle graph cycle v hg hc h =>
    obtain ⟨first, -, names, rfl⟩ := exists_of_cycleViolation? h
    exact nomatch hf
  | naming => exact nomatch hf
  | noSection => exact nomatch hf

/-- A fix can mend every violation of section order and every misplaced props type. -/
theorem Violation.fixable_of_kind (h : v.kind = .sectionOrder ∨ v.kind = .propsInterfacePosition) :
    v.fixable = true := by
  unfold kind fixable at *
  cases hv : v.finding <;> simp_all [Finding.kind, Finding.fixable]

/-- The violations of section order are those of declarations behind a later section. -/
theorem mem_violations_sectionOrder_iff :
    (v ∈ (validate options ds).violations ∧ v.kind = .sectionOrder) ↔
      ∃ d later, (d, later) ∈ Rule.outOfSection options.order (fun _ => none) ds ∧
        v = violation d (.afterSection later) (positionIn (validate options ds).arranged d) := by
  rw [mem_violations_iff]
  constructor
  · rintro ⟨h, hk⟩
    rcases h.of_fixable (Violation.fixable_of_kind (Or.inl hk)) with hv | ⟨m, -, rfl⟩ | ⟨d, -, rfl⟩
    · exact hv
    · exact nomatch (misplacedFinding_kind m).1.symm.trans hk
    · exact nomatch hk
  · rintro ⟨d, later, h, rfl⟩
    exact ⟨.afterSection d later h, rfl⟩

theorem Reported.exists_outOfSection (h : Reported options ds v) (hk : v.kind = .sectionOrder) :
    ∃ d later, (d, later) ∈ Rule.outOfSection options.order (fun _ => none) ds := by
  obtain ⟨d, later, hd, -⟩ := mem_violations_sectionOrder_iff.1 ⟨mem_violations_iff.2 h, hk⟩
  exact ⟨d, later, hd⟩

/-- The violations of alphabetical order that a fix can mend are those of misplaced neighbours. -/
theorem mem_violations_alphabetical_iff :
    (v ∈ (validate options ds).violations ∧ v.kind = .alphabeticalOrder ∧ v.fixable = true) ↔
      ∃ m ∈ Rule.misplaced options (sectionGraphs ds) ds,
        v = misplacedViolation (validate options ds).arranged m := by
  rw [mem_violations_iff]
  constructor
  · rintro ⟨h, hk, hf⟩
    rcases h.of_fixable hf with ⟨d, later, -, rfl⟩ | hv | ⟨d, -, rfl⟩
    · exact nomatch hk
    · exact hv
    · exact nomatch hk
  · rintro ⟨m, hm, rfl⟩
    exact ⟨.misplaced m hm, misplacedFinding_kind m⟩

/-- The only violation of the position of the props type is that of the first one. -/
theorem mem_violations_props_iff :
    (v ∈ (validate options ds).violations ∧ v.kind = .propsInterfacePosition) ↔
      ∃ d, Rule.propsNotLast? ds = some d ∧
        v = violation d .propsNotLast (positionIn (validate options ds).arranged d) := by
  rw [mem_violations_iff]
  constructor
  · rintro ⟨h, hk⟩
    rcases h.of_fixable (Violation.fixable_of_kind (Or.inr hk)) with ⟨d, later, -, rfl⟩ |
      ⟨m, -, rfl⟩ | hv
    · exact nomatch hk
    · exact nomatch (misplacedFinding_kind m).1.symm.trans hk
    · exact hv
  · rintro ⟨d, h, rfl⟩
    exact ⟨.propsNotLast d h, rfl⟩

end

/-! ## Sections in order -/

/-- The sections that a scope has seen and has still to come ascend. -/
def Ascending (order : SectionOrder) (latest : Option Section) (scope : Scope)
    (ds : List Classified) : Prop :=
  (latest.toList ++ (inScope scope ds).filterMap (·.section?)).Pairwise
    fun s t => order.position s ≤ order.position t

section

variable {order : SectionOrder} {latest : Option Section} {scope : Scope} {d : Classified}
  {ds : List Classified} {place : Section}

theorem ascending_cons_of_skipped (h : d.scope ≠ scope ∨ d.section? = none) :
    Ascending order latest scope (d :: ds) ↔ Ascending order latest scope ds := by
  unfold Ascending inScope
  by_cases hscope : d.scope = scope
  · rw [List.filter_cons_of_pos (by simp [hscope]),
      List.filterMap_cons_none (h.resolve_left fun hne => hne hscope)]
  · rw [List.filter_cons_of_neg (by simp [hscope])]

theorem ascending_cons_of_first (hs : d.section? = some place) :
    Ascending order none d.scope (d :: ds) ↔ Ascending order (some place) d.scope ds := by
  unfold Ascending inScope
  rw [List.filter_cons_of_pos (by simp), List.filterMap_cons_some hs]
  rfl

/-- The latest section is the one to compare with, as the sections before it are no later. -/
theorem ascending_cons_of_next {last : Section} (hs : d.section? = some place) :
    Ascending order (some last) d.scope (d :: ds) ↔
      order.position last ≤ order.position place ∧ Ascending order (some place) d.scope ds := by
  unfold Ascending inScope
  rw [List.filter_cons_of_pos (by simp), List.filterMap_cons_some hs]
  simp only [Option.toList_some, List.singleton_append, List.pairwise_cons, List.mem_cons,
    forall_eq_or_imp]
  constructor
  · rintro ⟨⟨hle, -⟩, hrest⟩
    exact ⟨hle, hrest⟩
  · rintro ⟨hle, hplace, hrest⟩
    exact ⟨⟨hle, fun s hmem => Nat.le_trans hle (hplace s hmem)⟩, hplace, hrest⟩

end

/-- A declaration of a section that is no earlier than the latest one makes its own the latest. -/
theorem ascending_advance {order : SectionOrder} {latest : Scope → Option Section} {d : Classified}
    {place : Section} (ds : List Classified) (hs : d.section? = some place)
    (h : ∀ last ∈ latest d.scope, order.position last ≤ order.position place) :
    (∀ scope, Ascending order (if scope = d.scope then some place else latest scope) scope ds) ↔
      ∀ scope, Ascending order (latest scope) scope (d :: ds) := by
  refine forall_congr' fun scope => ?_
  by_cases heq : scope = d.scope
  · rw [if_pos heq, heq]
    cases hl : latest d.scope with
    | none => exact (ascending_cons_of_first hs).symm
    | some last => exact ((ascending_cons_of_next hs).trans (and_iff_right (h last hl))).symm
  · rw [if_neg heq]
    exact (ascending_cons_of_skipped (Or.inl (Ne.symm heq))).symm

/-- No declaration stands behind a later section exactly when the sections of each container
ascend, after those seen before. -/
theorem Rule.outOfSection_eq_nil_iff (order : SectionOrder) (latest : Scope → Option Section)
    (ds : List Classified) :
    outOfSection order latest ds = [] ↔ ∀ scope, Ascending order (latest scope) scope ds := by
  induction ds generalizing latest with
  | nil =>
    refine iff_of_true rfl fun scope => ?_
    unfold Ascending inScope
    cases latest scope <;> simp
  | cons d ds ih =>
    unfold outOfSection
    cases hs : d.section? with
    | none =>
      dsimp only
      rw [ih]
      exact forall_congr' fun scope => (ascending_cons_of_skipped (Or.inr hs)).symm
    | some place =>
      dsimp only
      cases hl : latest d.scope with
      | none =>
        dsimp only
        rw [ih]
        exact ascending_advance ds hs (by simp [hl])
      | some last =>
        dsimp only
        split
        · next hlt =>
          refine iff_of_false (List.cons_ne_nil _ _) fun hall => ?_
          have hown := hall d.scope
          rw [hl, ascending_cons_of_next hs] at hown
          omega
        · next hge =>
          rw [ih]
          exact ascending_advance ds hs (by simpa [hl] using hge)

/-- Said without numbers: no declaration stands behind a later section exactly when the sections of
each container ascend. -/
theorem outOfSection_eq_nil_iff_profiles (order : SectionOrder) (ds : List Classified) :
    Rule.outOfSection order (fun _ => none) ds = [] ↔
      ∀ scope, ((Profile.inScope scope (ds.map Classified.profile)).filterMap
        (·.section?)).Pairwise fun s t => order.position s ≤ order.position t := by
  rw [Rule.outOfSection_eq_nil_iff]
  refine forall_congr' fun scope => ?_
  rw [filterMap_section?_map_profile]
  rfl

end ComponentLint
