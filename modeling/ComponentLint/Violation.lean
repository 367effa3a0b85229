import ComponentLint.Section.Basic
import ComponentLint.Severity
/-
  Violations of the conventions: what was found, where, and how it is told.
-/

namespace ComponentLint

inductive ViolationKind where
  | sectionOrder
  | alphabeticalOrder
  | namingConvention
  | propsInterfacePosition
  | dependencyCycle
  | unclassified
deriving Repr, DecidableEq, Inhabited

namespace ViolationKind

def all : List ViolationKind :=
  [sectionOrder, alphabeticalOrder, namingConvention, propsInterfacePosition, dependencyCycle,
    unclassified]

def id : ViolationKind → String
  | sectionOrder => "SectionOrderViolation"
  | alphabeticalOrder => "AlphabeticalOrderViolation"
  | namingConvention => "NamingConventionViolation"
  | propsInterfacePosition => "PropsInterfacePositionViolation"
  | dependencyCycle => "DependencyCycleError"
  | unclassified => "Unclassified"

def severity : ViolationKind → Severity
  | sectionOrder => .warning
  | alphabeticalOrder => .warning
  | propsInterfacePosition => .warning
  | namingConvention => .hint
  | unclassified => .info
  | dependencyCycle => .error

end ViolationKind

/-- What is wrong with a name. -/
inductive NamingProblem where
  | booleanWord
  | reservedWord (word : String) (wanted : List String)
  | otherWord (wanted : List String)
deriving Repr, DecidableEq

/-- What is wrong with a declaration. -/
inductive Finding where
  /-- A declaration of a later section stands before it. -/
  | afterSection (later : Section)
  /-- The declaration before it reads it. -/
  | afterReader (reader : String)
  /-- The declaration before it comes after it in the alphabet. -/
  | afterNeighbour (neighbour : String)
  | propsNotLast
  /-- Two members of it are out of alphabetical order. -/
  | memberOrder (noun first second : String)
  | naming (problem : NamingProblem)
  | noSection (reason : String)
  | cycle (names : List String)
deriving Repr, DecidableEq

structure Violation where
  finding : Finding
  name : String
  placement : Placement
  /-- The position that the declaration has once the unit is in order. -/
  expected : Nat
  actual : Nat
  line : Int
  column : Int
deriving Repr, DecidableEq

namespace Finding

def kind : Finding → ViolationKind
  | afterSection _ => .sectionOrder
  | afterReader _ => .alphabeticalOrder
  | afterNeighbour _ => .alphabeticalOrder
  | propsNotLast => .propsInterfacePosition
  | memberOrder _ _ _ => .alphabeticalOrder
  | naming _ => .namingConvention
  | noSection _ => .unclassified
  | cycle _ => .dependencyCycle

/-- Whether reordering statements is what the finding asks for. -/
def fixable : Finding → Bool
  | afterSection _ => true
  | afterReader _ => true
  | afterNeighbour _ => true
  | propsNotLast => true
  | _ => false

/-- The other names or sections the finding is about. -/
def related : Finding → List String
  | afterSection later => [later.id]
  | afterReader reader => [reader]
  | afterNeighbour neighbour => [neighbour]
  | memberOrder _ first second => [first, second]
  | cycle names => names
  | _ => []

end Finding

/-- The text in single quotes. -/
def inQuotes (text : String) : String :=
  "'" ++ text ++ "'"

def Placement.title : Placement → String
  | .inSection place => place.title
  | .unclassified => "Unclassified"

def NamingProblem.message (name title : String) : NamingProblem → String
  | booleanWord => "boolean value " ++ inQuotes name ++ " should start with 'is' or 'has'"
  | reservedWord word wanted =>
    inQuotes name ++ " uses the " ++ inQuotes word ++ " prefix, which is reserved for props; " ++
      title ++ " should start with " ++ " or ".intercalate (wanted.map inQuotes)
  | otherWord wanted =>
    title ++ " declaration " ++ inQuotes name ++ " should start with " ++
      " or ".intercalate (wanted.map inQuotes)

namespace Violation

def kind (v : Violation) : ViolationKind := v.finding.kind

def severity (v : Violation) : Severity := v.kind.severity

def fixable (v : Violation) : Bool := v.finding.fixable

def related (v : Violation) : List String := v.finding.related

def message (v : Violation) : String :=
  let title := v.placement.title
  match v.finding with
  | .afterSection later =>
    title ++ " declaration " ++ inQuotes v.name ++ " must come before the " ++ later.title ++ " section"
  | .afterReader reader =>
    inQuotes v.name ++ " must be declared before " ++ inQuotes reader ++ ", which reads it"
  | .afterNeighbour neighbour =>
    inQuotes v.name ++ " should be declared before " ++ inQuotes neighbour ++ " (alphabetical order)"
  | .propsNotLast =>
    "props type " ++ inQuotes v.name ++ " must be the last " ++ title ++ " declaration"
  | .memberOrder noun first second =>
    noun ++ " " ++ inQuotes second ++ " of " ++ inQuotes v.name ++ " should come before " ++
      inQuotes first ++ " (alphabetical order)"
  | .naming problem => problem.message v.name title
  | .noSection reason =>
    inQuotes v.name ++ " could not be classified (" ++ reason ++ "); add a section marker comment"
  | .cycle names =>
    title ++ " declarations reference each other (" ++ ", ".intercalate names ++
      "); the section is left unsorted"

/-- By position, then by the name of the kind, then by the name of the declaration. -/
def le (v w : Violation) : Bool :=
  if v.actual != w.actual then v.actual < w.actual
  else if v.kind.id != w.kind.id then v.kind.id < w.kind.id
  else v.name ≤ w.name

/-- Whether the violation weighs at least as much as a threshold. -/
def reaches (threshold : Severity) (v : Violation) : Bool :=
  threshold.rank ≤ v.severity.rank

end Violation

end ComponentLint
