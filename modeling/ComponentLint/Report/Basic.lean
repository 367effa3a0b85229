import ComponentLint.Lint
/-
  Reports: the results for a batch of units, in order, and what they add up to.
-/

namespace ComponentLint

/-- Totals by name, in the order in which the names came up. -/
abbrev Totals := Assoc String Nat

namespace Totals

/-- The total of a name, 0 if it did not come up. -/
def total (totals : Totals) (name : String) : Nat :=
  totals.get name 0

def increment (totals : Totals) (name : String) : Totals :=
  totals.put name (totals.total name + 1)

/-- The name under which a severity is counted, apart from the names of kinds. -/
def severityName (severity : Severity) : String :=
  "severity:" ++ severity.id

/-- Counts a violation by its kind and by its severity. -/
def tally (totals : Totals) (v : Violation) : Totals :=
  (totals.increment v.kind.id).increment (severityName v.severity)

end Totals

structure Report where
  results : List LintResult := []
  threshold : Severity := .warning

namespace Report

def add (report : Report) (result : LintResult) : Report :=
  { report with results := report.results ++ [result] }

def violations (report : Report) : List Violation :=
  report.results.flatMap (·.violations)

/-- The violations at or above the threshold. -/
def failing (report : Report) : List Violation :=
  report.violations.filter (Violation.reaches report.threshold)

def unitCount (report : Report) : Nat :=
  report.results.length

def skippedCount (report : Report) : Nat :=
  report.results.countP (·.skipped)

def fixedCount (report : Report) : Nat :=
  report.results.countP (·.fixed)

/-- The totals of kinds and severities that occur, and those of units. -/
def counts (report : Report) : Totals :=
  (((report.violations.foldl Totals.tally []).put "units" report.unitCount).put "skipped_units"
    report.skippedCount).put "fixed_units" report.fixedCount

def exitCode (report : Report) : Nat :=
  if report.failing.isEmpty then 0 else 1

end Report

end ComponentLint
