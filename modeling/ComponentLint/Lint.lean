import ComponentLint.Fix.Basic
import ComponentLint.Validation
/-
  Linting a unit: outline, classification, validation and, if asked for, the fix. Linting many
  units, and what the linter gives to its users.
-/

namespace ComponentLint

inductive DiagnosticKind where
  | notAComponent
  | sourceKept
deriving Repr, DecidableEq, Inhabited

def DiagnosticKind.id : DiagnosticKind → String
  | notAComponent => "NotAComponent"
  | sourceKept => "SourceNotRewritten"

/-- A remark on a unit as a whole. -/
structure Diagnostic where
  kind : DiagnosticKind
  message : String
deriving Repr, DecidableEq, Inhabited

/-- What happened to a unit while it was linted. -/
inductive Event where
  | skipped (diagnostics : List Diagnostic)
  | checked (declarations violations : Nat)
  | spliced (statements : Nat)
  | splitCharacter
  | reordered
deriving Repr, DecidableEq

structure LintResult where
  unit : String
  violations : List Violation := []
  diagnostics : List Diagnostic := []
  fixedUnit : Option SourceUnit := none
  fixedSource : Option SourceText := none
  /-- The sections left unsorted because their declarations read each other in a circle. -/
  skippedSections : List Section := []
  fixed : Bool := false
  /-- What happened, in order. -/
  events : List Event := []

namespace LintResult

/-- The unit has no component. -/
def skipped (result : LintResult) : Bool :=
  result.diagnostics.any (·.kind == .notAComponent)

def atOrAbove (threshold : Severity) (result : LintResult) : List Violation :=
  result.violations.filter (Violation.reaches threshold)

end LintResult

namespace Fix

def diagnostics (unit : SourceUnit) : Fix → List Diagnostic
  | sourceKept _ _ =>
    [⟨.sourceKept, unit.name ++ ": statement spans do not tile the source; " ++
      "only the statement list was reordered"⟩]
  | _ => []

def events : Fix → List Event
  | unchanged _ => []
  | reordered _ => [.reordered]
  | sourceKept _ .notTiled => [.reordered]
  | sourceKept _ .splitsCharacter => [.splitCharacter, .reordered]
  | spliced unit => [.spliced unit.statements.length, .reordered]

end Fix

/-- The result for a unit without a component. -/
def skippedResult (unit : SourceUnit) : LintResult :=
  let diagnostics := [⟨.notAComponent, unit.name ++ ": no component signature found"⟩]
  { unit := unit.name, diagnostics, events := [.skipped diagnostics] }

/-- The result for a unit with its declarations, and with what became of the unit if it was put in
order. -/
def checkedResult (options : Options) (unit : SourceUnit) (ds : List Classified) (fix : Option Fix) :
    LintResult :=
  let validation := validate options ds
  { unit := unit.name
    violations := validation.violations
    diagnostics := (fix.map (·.diagnostics unit)).getD []
    fixedUnit := fix.map (·.unit)
    fixedSource := fix.bind (·.source)
    skippedSections := options.order.sections.filter validation.cyclic.contains
    fixed := fix.any (·.changed)
    events := .checked ds.length validation.violations.length :: (fix.map (·.events)).getD [] }

/-- Why there is no result. -/
inductive LintFailure where
  | unreachable (failure : Unreachable)
  /-- The source has to be put in order, and has no bytes. -/
  | unencodable
  /-- There are units to be linted side by side, and nothing to do that. -/
  | noWorkers
deriving Repr, BEq

/-- Checks a unit, and puts it in order if `fix` is set. -/
def lint (options : Options) (fix : Bool) (unit : SourceUnit) : Except LintFailure LintResult :=
  match unit.outline? options.propsNames with
  | none => .ok (skippedResult unit)
  | some declarations =>
    match classifyAll declarations with
    | .error failure => .error (.unreachable failure)
    | .ok ds =>
      if fix then
        match Fix.plan? unit ds (validate options ds).arranged with
        | none => .error .unencodable
        | some fix => .ok (checkedResult options unit ds (some fix))
      else .ok (checkedResult options unit ds none)

/-- The unit in order; a unit without a component stays as it is. -/
def fixUnit (options : Options) (unit : SourceUnit) : Except LintFailure SourceUnit :=
  (lint options true unit).map fun result => result.fixedUnit.getD unit

/-- Lints units one after another. -/
def lintAll (options : Options) (fix : Bool) : List SourceUnit → Except LintFailure (List LintResult)
  | [] => .ok []
  | unit :: units => do
    let first ← lint options fix unit
    let rest ← lintAll options fix units
    return first :: rest

/-- Lints units side by side, with a number of workers if one is given. The results are in the order
of the units, and so is what fails. A single unit needs no worker. -/
def lintMany (options : Options) (fix : Bool) (workers : Option Int) (units : List SourceUnit) :
    Except LintFailure (List LintResult) :=
  if 1 < units.length && workers.any (· ≤ 0) then .error .noWorkers
  else lintAll options fix units

def version : String := "0.1.0"

/-- The names under which the linter is used, in ascending order. -/
def publicNames : List String :=
  ["ConfigError", "LintOptions", "LintResult", "Section", "SectionLintError", "Severity",
    "SyntaxTreeError", "Violation", "ViolationKind", "__version__", "fix", "lint", "lint_many"]

end ComponentLint
