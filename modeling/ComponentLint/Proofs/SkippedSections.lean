import ComponentLint.Proofs.Agreement
/-
  What is marked for a fix to mend, and what the fix leaves alone. The marked violations of
  alphabetical order and of the position of the props type ask for their section to be sorted, and
  they are reported in exactly the sections that need sorting (`needsSorting_iff`). Whether the
  section has a cycle is not looked at there, but a fix sorts no section with a cycle. So such a
  violation is found in a section that the fix skips as soon as one that needs sorting has a cycle,
  if only among other members than the misplaced ones.
-/

namespace ComponentLint

open Profile Validation

/-- It is marked as one that a fix mends by sorting the section. -/
structure Violation.AsksForSorting (v : Violation) : Prop where
  fixable : v.fixable = true
  kind : v.kind = .alphabeticalOrder ∨ v.kind = .propsInterfacePosition

section

variable {options : Options} {ds : List Classified}

theorem placement_of_propsNotLast? (hn : Numbered ds) {d : Classified}
    (h : Rule.propsNotLast? ds = some d) : d.placement = .inSection .typesInterfaces := by
  have hsection := (List.mem_filter.1 (mem_types_of_propsNotLast? hn h)).2
  exact Classified.placement_of_section? (by simpa using hsection)

/-- A section needs sorting exactly when a violation in it asks for that. -/
theorem needsSorting_iff (hn : Numbered ds) {place : Section} :
    NeedsSorting options (ds.map Classified.profile) place ↔
      ∃ v ∈ (validate options ds).violations, v.AsksForSorting ∧
        v.placement = .inSection place := by
  constructor
  · intro hneeds
    rcases hneeds with hmis | ⟨rfl, hprops⟩
    · obtain ⟨m, hm, rfl⟩ := List.mem_map.1 ((mem_map_place_misplaced hn options).2 hmis)
      obtain ⟨hv, hk, hf⟩ := mem_violations_alphabetical_iff.2 ⟨m, hm, rfl⟩
      exact ⟨_, hv, ⟨hf, Or.inl hk⟩, placement_of_mem_misplaced hm⟩
    · obtain ⟨d, hd⟩ := Option.isSome_iff_exists.1 ((isSome_propsNotLast? hn).2 hprops)
      obtain ⟨hv, hk⟩ := mem_violations_props_iff.2 ⟨d, hd, rfl⟩
      exact ⟨_, hv, ⟨Violation.fixable_of_kind (Or.inr hk), Or.inr hk⟩,
        placement_of_propsNotLast? hn hd⟩
  · intro hx
    obtain ⟨v, hv, ⟨hf, hk⟩, hplace⟩ := hx
    rcases hk with hk | hk
    · obtain ⟨m, hm, rfl⟩ := mem_violations_alphabetical_iff.1 ⟨hv, hk, hf⟩
      have hsame : Placement.inSection m.place = .inSection place :=
        (placement_of_mem_misplaced hm).symm.trans hplace
      refine Or.inl ((mem_map_place_misplaced hn options).1 ?_)
      exact List.mem_map.2 ⟨m, hm, Placement.inSection.inj hsame⟩
    · obtain ⟨d, hd, rfl⟩ := mem_violations_props_iff.1 ⟨hv, hk⟩
      have hsame : Placement.inSection .typesInterfaces = .inSection place :=
        (placement_of_propsNotLast? hn hd).symm.trans hplace
      refine Or.inr ⟨(Placement.inSection.inj hsame).symm, (isSome_propsNotLast? hn).1 ?_⟩
      rw [hd]
      rfl

/-- The sections that a result names as skipped are those with a cycle. -/
theorem mem_skippedSections_iff (hn : Numbered ds) (unit : SourceUnit) (made : Option Fix)
    (place : Section) :
    place ∈ (checkedResult options unit ds made).skippedSections ↔
      Cyclic place (ds.map Classified.profile) := by
  have hskipped : (checkedResult options unit ds made).skippedSections =
      options.order.sections.filter (validate options ds).cyclic.contains := rfl
  rw [hskipped, List.mem_filter, and_iff_right (options.order.mem_sections place),
    List.contains_iff_mem, mem_cyclic_iff hn]

end

/-- How the violations that ask for sorting and the sections that a fix skips have to do with each
other. -/
structure SortsOrSkips (options : Options) (ds : List Classified) (result : LintResult) : Prop where
  asked : ∀ place, (∃ v ∈ result.violations, v.AsksForSorting ∧ v.placement = .inSection place) ↔
    NeedsSorting options (ds.map Classified.profile) place
  skipped : ∀ place, place ∈ result.skippedSections ↔ Cyclic place (ds.map Classified.profile)
  /-- A skipped section keeps its order, whatever is asked for. -/
  kept : ∀ place ∈ result.skippedSections, ∀ scope,
    inScope scope (sectionMembers (validate options ds).arranged place) =
      inScope scope (sectionMembers ds place)
  /-- Any other section is sorted when that is asked for. -/
  sorted : ∀ place, place ∉ result.skippedSections →
    (∃ v ∈ result.violations, v.AsksForSorting ∧ v.placement = .inSection place) →
    ∀ scope, Sorted (group scope place ((validate options ds).arranged.map Classified.profile))

theorem sortsOrSkips_checkedResult {unit : SourceUnit} {options : Options} {ds : List Classified}
    (h : unit.Declares options ds) (made : Option Fix) :
    SortsOrSkips options ds (checkedResult options unit ds made) := by
  have hn := h.numbered
  obtain ⟨before, component, body, after, hl⟩ := h.exists_layout
  have hordered := ordered_arrange hl hn options.order (validate options ds).resorted
  constructor
  case asked =>
    intro place
    rw [checkedResult_violations]
    exact (needsSorting_iff hn).symm
  case skipped => exact mem_skippedSections_iff hn unit made
  case kept =>
    intro place hplace scope
    rw [mem_skippedSections_iff hn] at hplace
    exact inScope_sectionMembers_arrange hl hn options.order (fun hs => hs.2 hplace) scope
  case sorted =>
    intro place hplace hasked
    rw [checkedResult_violations, ← needsSorting_iff hn, ← mem_resorted_iff hn] at hasked
    refine hordered.sorted place hasked fun hc => hplace ?_
    rwa [mem_skippedSections_iff hn, ← cyclic_arrange hl hn options.order]

/-- A violation that is marked as one to be mended by sorting its section is reported in a section
that the fix skips exactly when some section that needs sorting has a cycle. In the sections that
the fix skips nothing is mended, and in the others all that is marked so. -/
theorem fixable_in_skipped_iff (options : Options) (fix : Bool) (unit : SourceUnit) :
    LintsTo options fix unit fun result =>
      (unit.componentIndex? = none ∧ result.violations = []) ∨
        ∃ ds, unit.Declares options ds ∧ SortsOrSkips options ds result ∧
          ((∃ v ∈ result.violations, v.AsksForSorting ∧
              ∃ place ∈ result.skippedSections, v.placement = .inSection place) ↔
            ∃ place, NeedsSorting options (ds.map Classified.profile) place ∧
              Cyclic place (ds.map Classified.profile)) := by
  cases h : unit.componentIndex? with
  | none => exact lintsTo_of_skipped h (Or.inl ⟨rfl, rfl⟩)
  | some k =>
    refine lintsTo_of_checked h fun made => ?_
    have hds := declares_reading h options
    have hsorts := sortsOrSkips_checkedResult hds made
    refine Or.inr ⟨_, hds, hsorts, ?_⟩
    constructor
    · intro hx
      obtain ⟨v, hv, hask, place, hskip, hplace⟩ := hx
      exact ⟨place, (hsorts.asked place).1 ⟨v, hv, hask, hplace⟩, (hsorts.skipped place).1 hskip⟩
    · intro hx
      obtain ⟨place, hneeds, hc⟩ := hx
      obtain ⟨v, hv, hask, hplace⟩ := (hsorts.asked place).2 hneeds
      exact ⟨v, hv, hask, place, (hsorts.skipped place).2 hc, hplace⟩

/-- A props type before two types that read each other, and two functions out of order beside two
others that do. -/
def SourceUnit.partlyCyclic : SourceUnit where
  name := "a"
  statements :=
    [{ kind := .interfaceStmt, span := { start := 0, stop := 10 }, names := ["Props"] },
     { kind := .interfaceStmt, span := { start := 10, stop := 20 }, names := ["Row"]
       reads := ["Cell"] },
     { kind := .interfaceStmt, span := { start := 20, stop := 30 }, names := ["Cell"]
       reads := ["Row"] },
     { kind := .functionStmt, span := { start := 30, stop := 90 }, names := ["App"]
       body := some
        [{ kind := .functionStmt, span := { start := 40, stop := 50 }, names := ["getZ"] },
         { kind := .functionStmt, span := { start := 50, stop := 60 }, names := ["getA"] },
         { kind := .functionStmt, span := { start := 60, stop := 70 }, names := ["getP"]
           reads := ["getQ"] },
         { kind := .functionStmt, span := { start := 70, stop := 80 }, names := ["getQ"]
           reads := ["getP"] }] }]

/-- Both the props type and the second function are marked as to be mended, in sections that the fix
skips, and the fix moves nothing. -/
theorem fixable_in_skipped_partlyCyclic : ∃ result,
    lint .standard true .partlyCyclic = .ok result ∧
      (∃ v ∈ result.violations, v.fixable = true ∧ v.kind = .propsInterfacePosition ∧
        v.placement = .inSection .typesInterfaces) ∧
      (∃ v ∈ result.violations, v.fixable = true ∧ v.kind = .alphabeticalOrder ∧
        v.placement = .inSection .functions) ∧
      result.skippedSections = [.typesInterfaces, .functions] ∧ result.fixed = false := by
  have hc : SourceUnit.partlyCyclic.componentIndex? = some 3 := by decide
  have hfix := plan?_eq_fixOf hc (not_blocked_of_none rfl .standard true)
  refine ⟨_, lint_eq_of_plan? hc hfix, ?_, ?_, ?_, ?_⟩
  · decide +kernel
  · decide +kernel
  · decide +kernel
  · decide +kernel

end ComponentLint
