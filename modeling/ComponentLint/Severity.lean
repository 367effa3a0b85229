import ComponentLint.Section.Basic
import ComponentLint.Text.Basic
import ComponentLint.Text.Quoted
/-
  How much a violation weighs, and what can be wrong with lint options.
-/

namespace ComponentLint

inductive ConfigError where
  | unknownSection (name : String)
  | unclassifiedInOrder
  | sectionListedTwice (place : Section)
  | unclassifiedSorted
  | unknownSeverity (name : String)
  | notATable
  | invalidToml (path : String)
  /-- An integer has more digits than can be read or spelled. -/
  | integerTooLong
deriving Repr, DecidableEq

def ConfigError.message : ConfigError → String
  | unknownSection name => "unknown section: " ++ Text.quoted name
  | unclassifiedInOrder => "unclassified has no slot in the section order"
  | sectionListedTwice place => "section listed twice: " ++ place.id
  | unclassifiedSorted => "unclassified declarations cannot be sorted"
  | unknownSeverity name =>
    "unknown severity " ++ Text.quoted name ++ " (expected one of: hint, info, warning, error)"
  | notATable => "[lint] must be a table"
  | invalidToml path => path ++ ": invalid TOML: malformed document"
  | integerTooLong => "integer with too many digits"

inductive Severity where
  | hint
  | info
  | warning
  | error
deriving Repr, DecidableEq, Inhabited

namespace Severity

/-- Every severity, the lightest first. -/
def all : List Severity := [hint, info, warning, error]

def id : Severity → String
  | hint => "hint"
  | info => "info"
  | warning => "warning"
  | error => "error"

def rank : Severity → Nat
  | hint => 0
  | info => 1
  | warning => 2
  | error => 3

/-- Reads a severity by name, without regard to ASCII case and outer white space. -/
def parse (value : String) : Except ConfigError Severity :=
  match all.find? (·.id == (Text.trim value).toLower) with
  | some severity => .ok severity
  | none => .error (.unknownSeverity value)

end Severity

end ComponentLint
