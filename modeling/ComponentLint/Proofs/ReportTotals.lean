import ComponentLint.Proofs.Lists
import ComponentLint.Report.Basic
import Mathlib.Algebra.BigOperators.Group.List.Basic
import Mathlib.Algebra.GroupWithZero.Nat
import Mathlib.Data.List.Induction
import Mathlib.Data.List.Nodup
/-
  What the totals of a report add up to. One list of totals counts kinds, severities and units under
  their names. Counting a violation adds one to the totals of two names (`total_tally`), the names
  of kinds, severities and units are all different, and so each total is a number of violations
  (`total_counts_kind`, `total_counts_severity`). A report changes by adding results and by setting
  the threshold; through any such session the totals, the failing violations and the exit code stay
  consistent (`session_stays_consistent`).
-/

namespace ComponentLint

namespace Totals

theorem total_nil (name : String) : total [] name = 0 :=
  rfl

theorem total_put (totals : Totals) (name other : String) (n : Nat) :
    total (totals.put name n) other = if other = name then n else totals.total other :=
  totals.get_put name other n 0

theorem total_increment (totals : Totals) (name other : String) :
    (totals.increment name).total other = totals.total other + if name = other then 1 else 0 := by
  rw [increment, total_put]
  by_cases h : other = name
  · rw [if_pos h, if_pos h.symm, h]
  · rw [if_neg h, if_neg (Ne.symm h), Nat.add_zero]

/-- Counting one violation. -/
theorem total_tally (totals : Totals) (v : Violation) (name : String) :
    (totals.tally v).total name =
      totals.total name + (if v.kind.id = name then 1 else 0) +
        if severityName v.severity = name then 1 else 0 := by
  rw [tally, total_increment, total_increment]

/-- Counting violations one after another. -/
theorem total_foldl_tally (vs : List Violation) (totals : Totals) (name : String) :
    (vs.foldl tally totals).total name =
      totals.total name + vs.countP (fun v => v.kind.id = name) +
        vs.countP fun v => severityName v.severity = name := by
  induction vs generalizing totals with
  | nil => rfl
  | cons v vs ih =>
    rw [List.foldl_cons, ih, total_tally, List.countP_cons, List.countP_cons]
    simp only [decide_eq_true_eq]
    omega

/-! ## Names -/

theorem nodup_foldl_tally {totals : Totals} (h : (totals.map Prod.fst).Nodup)
    (vs : List Violation) : ((vs.foldl tally totals).map Prod.fst).Nodup := by
  induction vs generalizing totals with
  | nil => exact h
  | cons v vs ih => exact ih (Assoc.nodup_put (Assoc.nodup_put h _ _) _ _)

theorem severityName_inj {s t : Severity} : severityName s = severityName t ↔ s = t := by
  cases s <;> cases t <;> decide

theorem kind_id_ne_severityName (kind : ViolationKind) (severity : Severity) :
    kind.id ≠ severityName severity := by
  cases kind <;> cases severity <;> decide

/-- The names of the totals of units. -/
def unitNames : List String := ["units", "skipped_units", "fixed_units"]

theorem kind_id_not_mem_unitNames (kind : ViolationKind) : kind.id ∉ unitNames := by
  cases kind <;> decide

theorem severityName_not_mem_unitNames (severity : Severity) :
    severityName severity ∉ unitNames := by
  cases severity <;> decide

end Totals

theorem Violation.reaches_iff {threshold : Severity} {v : Violation} :
    reaches threshold v = true ↔ threshold.rank ≤ v.severity.rank :=
  decide_eq_true_iff

theorem ViolationKind.id_inj {k l : ViolationKind} : k.id = l.id ↔ k = l := by
  cases k <;> cases l <;> decide

namespace Report

theorem total_counts_of_not_mem {name : String} (h : name ∉ Totals.unitNames) (report : Report) :
    report.counts.total name = (report.violations.foldl Totals.tally []).total name := by
  simp only [Totals.unitNames, List.mem_cons, List.not_mem_nil, or_false, not_or] at h
  obtain ⟨hunits, hskipped, hfixed⟩ := h
  rw [counts, Totals.total_put, Totals.total_put, Totals.total_put, if_neg hfixed, if_neg hskipped,
    if_neg hunits]

/-- The total of a kind is the number of its violations. -/
theorem total_counts_kind (report : Report) (kind : ViolationKind) :
    report.counts.total kind.id = report.violations.countP (·.kind == kind) := by
  have hother : (report.violations.countP fun v => Totals.severityName v.severity = kind.id) = 0 :=
    List.countP_eq_zero.2 fun v _ => by
      simpa using (Totals.kind_id_ne_severityName kind v.severity).symm
  rw [total_counts_of_not_mem (Totals.kind_id_not_mem_unitNames kind), Totals.total_foldl_tally,
    hother, Totals.total_nil, Nat.zero_add, Nat.add_zero]
  refine List.countP_congr fun v _ => ?_
  rw [decide_eq_true_iff, beq_iff_eq, ViolationKind.id_inj]

/-- The total of a severity is the number of its violations. -/
theorem total_counts_severity (report : Report) (severity : Severity) :
    report.counts.total (Totals.severityName severity) =
      report.violations.countP (·.severity == severity) := by
  have hother :
      (report.violations.countP fun v => v.kind.id = Totals.severityName severity) = 0 :=
    List.countP_eq_zero.2 fun v _ => by
      simpa using Totals.kind_id_ne_severityName v.kind severity
  rw [total_counts_of_not_mem (Totals.severityName_not_mem_unitNames severity),
    Totals.total_foldl_tally, hother, Totals.total_nil, Nat.zero_add]
  refine List.countP_congr fun v _ => ?_
  rw [decide_eq_true_iff, beq_iff_eq, Totals.severityName_inj]

end Report

/-! ## Sums -/

theorem sum_map_eq_one {β : Type} [DecidableEq β] (c : β) {values : List β} (h : values.Nodup) :
    (values.map fun b => if c = b then 1 else 0).sum = if c ∈ values then 1 else 0 := by
  induction values with
  | nil => rfl
  | cons b values ih =>
    obtain ⟨hb, hrest⟩ := List.nodup_cons.1 h
    rw [List.map_cons, List.sum_cons, ih hrest]
    by_cases hc : c = b
    · rw [if_pos hc, if_neg (hc ▸ hb), if_pos (hc ▸ List.mem_cons_self)]
    · rw [if_neg hc, Nat.zero_add]
      simp only [List.mem_cons, hc, false_or]

/-- Each element has one value, so the numbers of elements by value add up to the number of those
whose value is listed. -/
theorem sum_map_countP {α β : Type} [DecidableEq β] (f : α → β) {values : List β}
    (h : values.Nodup) (l : List α) :
    (values.map fun b => l.countP (f · == b)).sum = l.countP (f · ∈ values) := by
  induction l with
  | nil => simp
  | cons a l ih =>
    simp only [List.countP_cons, List.sum_map_add, ih, decide_eq_true_eq, beq_iff_eq,
      sum_map_eq_one (f a) h]

theorem ViolationKind.mem_all (kind : ViolationKind) : kind ∈ all := by
  cases kind <;> decide

theorem ViolationKind.nodup_all : all.Nodup := by
  decide

theorem Severity.mem_all (severity : Severity) : severity ∈ all := by
  cases severity <;> decide

theorem Severity.nodup_all : all.Nodup := by
  decide

namespace Report

theorem sum_kinds (report : Report) :
    (ViolationKind.all.map fun kind => report.counts.total kind.id).sum =
      report.violations.length := by
  simp only [total_counts_kind]
  rw [sum_map_countP Violation.kind ViolationKind.nodup_all, List.countP_eq_length]
  exact fun v _ => decide_eq_true (ViolationKind.mem_all v.kind)

theorem sum_severities (report : Report) :
    (Severity.all.map fun severity => report.counts.total (Totals.severityName severity)).sum =
      report.violations.length := by
  simp only [total_counts_severity]
  rw [sum_map_countP Violation.severity Severity.nodup_all, List.countP_eq_length]
  exact fun v _ => decide_eq_true (Severity.mem_all v.severity)

/-- The severity of a violation is that of its kind, so the kinds of a severity make up its
total. -/
theorem sum_kinds_of_severity (report : Report) (severity : Severity) :
    ((ViolationKind.all.filter (·.severity == severity)).map fun kind =>
      report.counts.total kind.id).sum = report.counts.total (Totals.severityName severity) := by
  simp only [total_counts_kind, total_counts_severity]
  rw [sum_map_countP Violation.kind (ViolationKind.nodup_all.filter _)]
  refine List.countP_congr fun v _ => ?_
  rw [decide_eq_true_iff, List.mem_filter, and_iff_right (ViolationKind.mem_all v.kind)]
  rfl

/-! ## Failing violations -/

/-- The longest part of a list that a threshold lets through, in the order of the list. -/
structure FailsAt (threshold : Severity) (violations failing : List Violation) : Prop where
  sublist : failing.Sublist violations
  reaches : ∀ v ∈ failing, threshold.rank ≤ v.severity.rank
  greatest : ∀ others : List Violation, others.Sublist violations →
    (∀ v ∈ others, threshold.rank ≤ v.severity.rank) → others.Sublist failing

theorem failsAt_failing (report : Report) :
    FailsAt report.threshold report.violations report.failing where
  sublist := List.filter_sublist
  reaches v hv := Violation.reaches_iff.1 (List.mem_filter.1 hv).2
  greatest others hothers hreach := by
    have hkept := hothers.filter (Violation.reaches report.threshold)
    rwa [List.filter_eq_self.2 fun v hv => Violation.reaches_iff.2 (hreach v hv)] at hkept

theorem exitCode_eq_one_iff (report : Report) : report.exitCode = 1 ↔ report.failing ≠ [] := by
  unfold exitCode
  cases report.failing with
  | nil => simp
  | cons v vs => simp

theorem exitCode_eq_zero_iff (report : Report) : report.exitCode = 0 ↔ report.failing = [] := by
  unfold exitCode
  cases report.failing with
  | nil => simp
  | cons v vs => simp

theorem violations_add (report : Report) (result : LintResult) :
    (report.add result).violations = report.violations ++ result.violations := by
  simp [violations, add]

theorem failing_add (report : Report) (result : LintResult) :
    (report.add result).failing =
      report.failing ++ result.violations.filter (Violation.reaches report.threshold) := by
  unfold failing
  rw [violations_add, List.filter_append]
  rfl

/-- Of two thresholds the higher lets through a part of what the lower does. -/
theorem FailsAt.sublist_of_le {low high : Severity} {violations lows highs : List Violation}
    (hlow : FailsAt low violations lows) (hhigh : FailsAt high violations highs)
    (hle : low.rank ≤ high.rank) : highs.Sublist lows :=
  hlow.greatest highs hhigh.sublist fun v hv => Nat.le_trans hle (hhigh.reaches v hv)

/-! ## Sessions -/

/-- What can be done to a report. -/
inductive Step where
  | add (result : LintResult)
  | threshold (severity : Severity)

def step (report : Report) : Step → Report
  | .add result => report.add result
  | .threshold severity => { report with threshold := severity }

/-- The report after some steps, from an empty one on. -/
def session (steps : List Step) : Report :=
  steps.foldl step {}

def Step.violations : Step → List Violation
  | add result => result.violations
  | threshold _ => []

def Step.threshold? : Step → Option Severity
  | add _ => none
  | threshold severity => some severity

theorem session_concat (steps : List Step) (next : Step) :
    session (steps ++ [next]) = (session steps).step next := by
  rw [session, List.foldl_append]
  rfl

theorem violations_step (report : Report) (next : Step) :
    (report.step next).violations = report.violations ++ next.violations := by
  cases next with
  | add result => exact violations_add report result
  | threshold severity => exact (List.append_nil _).symm

theorem threshold_step (report : Report) (next : Step) :
    (report.step next).threshold = next.threshold?.getD report.threshold := by
  cases next with
  | add result => rfl
  | threshold severity => rfl

/-- A session keeps the violations of all that was added, in order. -/
theorem violations_session (steps : List Step) :
    (session steps).violations = steps.flatMap Step.violations := by
  induction steps using List.reverseRecOn with
  | nil => rfl
  | append_singleton steps next ih =>
    rw [session_concat, violations_step, ih, List.flatMap_append, List.flatMap_singleton]

/-- A session has the threshold that was set last. -/
theorem threshold_session (steps : List Step) :
    (session steps).threshold = (steps.filterMap Step.threshold?).getLast?.getD .warning := by
  induction steps using List.reverseRecOn with
  | nil => rfl
  | append_singleton steps next ih =>
    rw [session_concat, threshold_step, ih, List.filterMap_append]
    cases next with
    | add result => simp [Step.threshold?]
    | threshold severity => simp [Step.threshold?]

/-- How the totals, the failing violations and the exit code of a report have to do with its
violations. -/
structure Consistent (report : Report) : Prop where
  kind : ∀ kind : ViolationKind,
    report.counts.total kind.id = report.violations.countP (·.kind == kind)
  kinds : (ViolationKind.all.map fun kind => report.counts.total kind.id).sum =
    report.violations.length
  severities :
    (Severity.all.map fun severity => report.counts.total (Totals.severityName severity)).sum =
      report.violations.length
  kindsOfSeverity : ∀ severity : Severity,
    ((ViolationKind.all.filter (·.severity == severity)).map fun kind =>
      report.counts.total kind.id).sum = report.counts.total (Totals.severityName severity)
  failing : FailsAt report.threshold report.violations report.failing
  exitCodeOne : report.exitCode = 1 ↔ report.failing ≠ []
  exitCodeZero : report.exitCode = 0 ↔ report.failing = []

theorem consistent (report : Report) : Consistent report where
  kind := total_counts_kind report
  kinds := sum_kinds report
  severities := sum_severities report
  kindsOfSeverity := sum_kinds_of_severity report
  failing := failsAt_failing report
  exitCodeOne := exitCode_eq_one_iff report
  exitCodeZero := exitCode_eq_zero_iff report

theorem exitCode_add {report : Report} (h : report.exitCode = 1) (result : LintResult) :
    (report.add result).exitCode = 1 := by
  rw [exitCode_eq_one_iff] at *
  rw [failing_add]
  exact List.append_ne_nil_of_left_ne_nil h _

end Report

open Report

/-- Whatever results are added to an empty report and whatever thresholds are set in between, it has
the violations of the results in their order and the threshold set last; its totals by kind and by
severity add up to the number of violations, and those of the kinds of a severity to that of the
severity; failing are just the violations at or above the threshold, and the exit code tells whether
there are any. Adding a result takes no failure back, and raising the threshold makes none. -/
theorem session_stays_consistent (steps : List Step) :
    (session steps).violations = steps.flatMap Step.violations ∧
    (session steps).threshold = (steps.filterMap Step.threshold?).getLast?.getD .warning ∧
    Consistent (session steps) ∧
    (∀ result, (session steps).exitCode = 1 →
      (session (steps ++ [.add result])).exitCode = 1) ∧
    ∀ severity, (session steps).threshold.rank ≤ severity.rank →
      (session (steps ++ [.threshold severity])).failing.Sublist (session steps).failing := by
  refine ⟨violations_session steps, threshold_session steps, consistent _, fun result h => ?_,
    fun severity hle => ?_⟩
  · rw [session_concat]
    exact exitCode_add h result
  · rw [session_concat]
    exact (failsAt_failing (session steps)).sublist_of_le
      (failsAt_failing ((session steps).step (.threshold severity))) hle

end ComponentLint
