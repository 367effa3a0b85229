import ComponentLint.Proofs.Fix.Plan
import ComponentLint.Proofs.Violations
/-
  The switch for naming checks. The rule on names is one of seven, and no other rule looks at the
  switch (`withoutNaming_findings`). As violations are sorted stably, switching the rule off leaves
  out its violations and keeps the others in their order (`violations_withoutNaming`); what a fix
  does stays the same.
-/

namespace ComponentLint

open Validation

namespace Violation

theorem le_iff (v w : Violation) :
    v.le w = true ↔ v.actual < w.actual ∨ (v.actual = w.actual ∧
      (v.kind.id < w.kind.id ∨ (v.kind.id = w.kind.id ∧ v.name ≤ w.name))) := by
  unfold le
  by_cases hactual : v.actual = w.actual
  · by_cases hkind : v.kind.id = w.kind.id
    · simp only [hactual, hkind, bne_self_eq_false, Bool.false_eq_true, if_false, decide_eq_true_eq,
        Nat.lt_irrefl, String.lt_irrefl, false_or, true_and]
    · simp only [hactual, bne_self_eq_false, Bool.false_eq_true, if_false, bne_iff_ne, ne_eq, hkind,
        not_false_eq_true, if_true, decide_eq_true_eq, Nat.lt_irrefl, false_or, true_and, false_and,
        or_false]
  · simp only [bne_iff_ne, ne_eq, hactual, not_false_eq_true, if_true, decide_eq_true_eq, false_and,
      or_false]

theorem le_total (v w : Violation) : v.le w = true ∨ w.le v = true := by
  rw [le_iff, le_iff]
  rcases Nat.lt_trichotomy v.actual w.actual with h | h | h
  · exact Or.inl (Or.inl h)
  · rcases lt_trichotomy_texts v.kind.id w.kind.id with hk | hk | hk
    · exact Or.inl (Or.inr ⟨h, Or.inl hk⟩)
    · rcases String.le_total v.name w.name with hn | hn
      · exact Or.inl (Or.inr ⟨h, Or.inr ⟨hk, hn⟩⟩)
      · exact Or.inr (Or.inr ⟨h.symm, Or.inr ⟨hk.symm, hn⟩⟩)
    · exact Or.inr (Or.inr ⟨h.symm, Or.inl hk⟩)
  · exact Or.inr (Or.inl h)

theorem le_trans (u v w : Violation) (huv : u.le v = true) (hvw : v.le w = true) :
    u.le w = true := by
  rw [le_iff] at *
  rcases huv with h | ⟨h, hk⟩
  · rcases hvw with h' | ⟨h', -⟩
    · exact Or.inl (Nat.lt_trans h h')
    · exact Or.inl (h' ▸ h)
  · rcases hvw with h' | ⟨h', hk'⟩
    · exact Or.inl (h ▸ h')
    · refine Or.inr ⟨h.trans h', ?_⟩
      rcases hk with hk | ⟨hk, hn⟩
      · rcases hk' with hk' | ⟨hk', -⟩
        · exact Or.inl (String.lt_trans hk hk')
        · exact Or.inl (hk' ▸ hk)
      · rcases hk' with hk' | ⟨hk', hn'⟩
        · exact Or.inl (hk ▸ hk')
        · exact Or.inr ⟨hk.trans hk', String.le_trans hn hn'⟩

end Violation

/-! ## The rule among the others -/

/-- The violations without those of names. -/
def withoutNaming (violations : List Violation) : List Violation :=
  violations.filter (·.kind != .namingConvention)

/-- No other rule looks at the switch. -/
theorem withoutNaming_findings (options : Options) (graphs : List SectionGraph)
    (misplaced : List Rule.Misplaced) (ds arranged : List Classified) :
    withoutNaming (findings { options with namingChecks := true } graphs misplaced ds arranged) =
      findings { options with namingChecks := false } graphs misplaced ds arranged := by
  unfold withoutNaming
  rw [filter_kind_findings (· != .namingConvention), findings_eq_flatMap_rulings]
  rfl

/-- What is sorted is the same list with and without the rule, but for its violations, and leaving
these out commutes with sorting. -/
theorem violations_withoutNaming (options : Options) (ds : List Classified) :
    (validate { options with namingChecks := false } ds).violations =
      withoutNaming (validate { options with namingChecks := true } ds).violations := by
  unfold validate withoutNaming
  dsimp only
  rw [filter_sortBy Violation.le_total Violation.le_trans]
  exact congrArg (sortBy Violation.le) (withoutNaming_findings options _ _ ds _).symm

/-! ## Two runs -/

/-- Two validations that differ by the violations of names only. -/
structure Validation.NamingLeftOut (off on : Validation) : Prop where
  violations : off.violations = withoutNaming on.violations
  arranged : off.arranged = on.arranged
  resorted : off.resorted = on.resorted
  cyclic : off.cyclic = on.cyclic

/-- Two results that differ by the violations of names only. -/
structure LintResult.NamingLeftOut (off on : LintResult) : Prop where
  unit : off.unit = on.unit
  violations : off.violations = withoutNaming on.violations
  diagnostics : off.diagnostics = on.diagnostics
  fixedUnit : off.fixedUnit = on.fixedUnit
  fixedSource : off.fixedSource = on.fixedSource
  skippedSections : off.skippedSections = on.skippedSections
  fixed : off.fixed = on.fixed

theorem namingLeftOut_validate (options : Options) (ds : List Classified) :
    (validate { options with namingChecks := false } ds).NamingLeftOut
      (validate { options with namingChecks := true } ds) where
  violations := violations_withoutNaming options ds
  arranged := rfl
  resorted := rfl
  cyclic := rfl

theorem namingLeftOut_checkedResult (options : Options) (unit : SourceUnit) (ds : List Classified)
    (made : Option Fix) :
    (checkedResult { options with namingChecks := false } unit ds made).NamingLeftOut
      (checkedResult { options with namingChecks := true } unit ds made) :=
  ⟨rfl, violations_withoutNaming options ds, rfl, rfl, rfl, rfl, rfl⟩

/-- The switch for naming checks only filters: with options that are the same but for the switch,
the violations with checks off are those with checks on less the ones of names, in the same order,
and the order that a fix gives, the sections it sorts or skips, its unit and source and the remarks
on the unit do not depend on it. Where there is no result with checks off, there is none with checks
on. -/
theorem naming_switch_only_filters (options : Options) :
    (∀ ds, (validate { options with namingChecks := false } ds).NamingLeftOut
      (validate { options with namingChecks := true } ds)) ∧
    ∀ fix unit,
      (Blocked { options with namingChecks := false } fix unit ∧
        lint { options with namingChecks := false } fix unit = .error .unencodable ∧
        lint { options with namingChecks := true } fix unit = .error .unencodable) ∨
      ∃ off on,
        lint { options with namingChecks := false } fix unit = .ok off ∧
        lint { options with namingChecks := true } fix unit = .ok on ∧ off.NamingLeftOut on := by
  refine ⟨namingLeftOut_validate options, fun fix unit => ?_⟩
  cases h : unit.componentIndex? with
  | none =>
    exact Or.inr
      ⟨_, _, lint_eq_skipped h _ fix, lint_eq_skipped h _ fix, rfl, rfl, rfl, rfl, rfl, rfl, rfl⟩
  | some k =>
    cases fix with
    | false =>
      exact Or.inr ⟨_, _, lint_eq_check h _, lint_eq_check h _,
        namingLeftOut_checkedResult options unit _ none⟩
    | true =>
      -- the fix is made from the order, which is the same in both runs
      have hplan : Outline.plan? { options with namingChecks := true } unit k =
          Outline.plan? { options with namingChecks := false } unit k := rfl
      cases hfix : Outline.plan? { options with namingChecks := false } unit k with
      | none =>
        have hb := (Outline.plan?_eq_none_iff h _).1 hfix
        refine Or.inl ⟨hb, lint_of_blocked hb, ?_⟩
        rw [lint_eq_fix h, hplan, hfix]
      | some made =>
        exact Or.inr ⟨_, _, lint_eq_of_plan? h hfix, lint_eq_of_plan? h (hplan.trans hfix),
          namingLeftOut_checkedResult options unit _ (some made)⟩

end ComponentLint
