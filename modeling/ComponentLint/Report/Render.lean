import ComponentLint.Document.Basic
import ComponentLint.Report.Basic
/-
  Reports as text, one line a finding, and as JSON.
-/

namespace ComponentLint

inductive OutputFormat where
  | text
  | json
deriving Repr, DecidableEq, Inhabited

def OutputFormat.ofId? (name : String) : Option OutputFormat :=
  if name = "text" then some text else if name = "json" then some json else none

namespace Report

def violationLine (unit : String) (v : Violation) : String :=
  let line := unit ++ ":" ++ toString v.line ++ ":" ++ toString v.column ++ ": " ++ v.severity.id ++
    " " ++ v.kind.id ++ ": " ++ v.message
  if v.expected = v.actual then line
  else line ++ " [expected position " ++ toString v.expected ++ ", actual " ++ toString v.actual ++ "]"

def diagnosticLine (unit : String) (diagnostic : Diagnostic) : String :=
  unit ++ ": note " ++ diagnostic.kind.id ++ ": " ++ diagnostic.message

def resultLines (result : LintResult) : List String :=
  result.diagnostics.map (diagnosticLine result.unit) ++
    result.violations.map (violationLine result.unit)

def summaryLine (report : Report) : String :=
  let counts := report.counts
  let bySeverity := Severity.all.reverse.map fun severity =>
    toString (counts.total (Totals.severityName severity)) ++ " " ++ severity.id
  toString (counts.total "units") ++ " unit(s) checked, " ++ toString report.violations.length ++
    " violation(s) (" ++ ", ".intercalate bySeverity ++ "); " ++ toString report.failing.length ++
    " at or above " ++ inQuotes report.threshold.id

def renderText (report : Report) : String :=
  "\n".intercalate (report.results.flatMap resultLines ++ [report.summaryLine])

def nat (n : Nat) : Data := .int n

def violationData (v : Violation) : Data :=
  .record [("kind", .text v.kind.id), ("severity", .text v.severity.id),
    ("declaration_name", .text v.name), ("section", .text v.placement.id),
    ("expected_position", nat v.expected), ("actual_position", nat v.actual),
    ("line", .int v.line), ("column", .int v.column), ("message", .text v.message),
    ("related", .list (v.related.map .text))]

def diagnosticData (diagnostic : Diagnostic) : Data :=
  .record [("kind", .text diagnostic.kind.id), ("message", .text diagnostic.message)]

def resultData (result : LintResult) : Data :=
  .record ([("unit", .text result.unit),
      ("violations", .list (result.violations.map violationData)),
      ("diagnostics", .list (result.diagnostics.map diagnosticData)),
      ("skipped_sections", .list (result.skippedSections.map fun place => .text place.id)),
      ("fixed", .bool result.fixed)] ++
    Document.encodeOptional "fixed_unit" Document.encode result.fixedUnit)

def data (report : Report) : Data :=
  .record [("results", .list (report.results.map resultData)),
    ("counts", .record (report.counts.map fun (name, count) => (name, nat count))),
    ("severity_threshold", .text report.threshold.id), ("exit_code", nat report.exitCode)]

/-- The text of a report, unless an integer in it is too long to be written. -/
def render? (report : Report) : OutputFormat → Option String
  | .text => some report.renderText
  | .json => Json.render? Data.maxDigits report.data

end Report

end ComponentLint
