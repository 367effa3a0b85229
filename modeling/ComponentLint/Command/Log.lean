import ComponentLint.Command.FileTree
import ComponentLint.Lint
/-
  What a verbose run tells of its work, one line an event.
-/

namespace ComponentLint.Command

/-- A line with its level and the part of the program it comes from. -/
def logLine (level source message : String) : String :=
  level ++ " sectionlint." ++ source ++ ": " ++ message

def loadedLine (unit : SourceUnit) (path : Path) : String :=
  logLine "DEBUG" "syntax.loader" ("loaded " ++ unit.name ++ " (" ++
    toString unit.statements.length ++ " statements) from " ++ path.text)

def diagnosticName : DiagnosticKind → String
  | .notAComponent => "NOT_A_COMPONENT"
  | .sourceKept => "SOURCE_NOT_REWRITTEN"

def diagnosticText (diagnostic : Diagnostic) : String :=
  "Diagnostic(kind=<DiagnosticKind." ++ diagnosticName diagnostic.kind ++ ": " ++
    Text.quoted diagnostic.kind.id ++ ">, message=" ++ Text.quoted diagnostic.message ++ ")"

/-- Diagnostics in parentheses; a single one has a comma behind it. -/
def diagnosticsText (diagnostics : List Diagnostic) : String :=
  let shown := ", ".intercalate (diagnostics.map diagnosticText)
  "(" ++ shown ++ (if diagnostics.length = 1 then ",)" else ")")

def eventLine (unit : String) : Event → String
  | .skipped diagnostics =>
    logLine "DEBUG" "engine" ("skipping " ++ unit ++ ": " ++ diagnosticsText diagnostics)
  | .checked declarations violations =>
    logLine "DEBUG" "engine" (unit ++ ": " ++ toString declarations ++ " declarations, " ++
      toString violations ++ " violations")
  | .spliced statements =>
    logLine "DEBUG" "autofix" ("rewrote " ++ unit ++ " (" ++ toString statements ++
      " module statements)")
  | .splitCharacter =>
    logLine "DEBUG" "autofix" (unit ++ ": a statement slot splits a UTF-8 sequence")
  | .reordered => logLine "INFO" "engine" (unit ++ ": reordered statements")

def resultLog (result : LintResult) : List String :=
  result.events.map (eventLine result.unit)

def wroteTreeLine (path : Path) : String :=
  logLine "INFO" "cli" ("wrote fixed syntax tree to " ++ path.text)

def wroteSourceLine (path : Path) : String :=
  logLine "INFO" "cli" ("wrote fixed source to " ++ path.text)

end ComponentLint.Command
