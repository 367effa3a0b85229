import ComponentLint.Text.CodePoint
/-
  Units: the statements of one component source file as a syntax tree gives them, each with
  its names, the identifiers it reads, its leading comment and its byte span.
-/

namespace ComponentLint

inductive StatementKind where
  | importStmt
  | variableStmt
  | functionStmt
  | classStmt
  | enumStmt
  | interfaceStmt
  | typeAliasStmt
  | expressionStmt
  | returnStmt
  | exportStmt
  | assignmentStmt
deriving Repr, DecidableEq, Inhabited

namespace StatementKind

def all : List StatementKind :=
  [importStmt, variableStmt, functionStmt, classStmt, enumStmt, interfaceStmt, typeAliasStmt,
    expressionStmt, returnStmt, exportStmt, assignmentStmt]

def id : StatementKind → String
  | importStmt => "import"
  | variableStmt => "variable"
  | functionStmt => "function"
  | classStmt => "class"
  | enumStmt => "enum"
  | interfaceStmt => "interface"
  | typeAliasStmt => "type_alias"
  | expressionStmt => "expression"
  | returnStmt => "return"
  | exportStmt => "export"
  | assignmentStmt => "assignment"

def ofId? (name : String) : Option StatementKind :=
  all.find? (·.id == name)

end StatementKind

/-- The shape of a variable's initial value or of a returned expression. -/
inductive ValueShape where
  | call
  | function
  | object
  | frozenObject
  | literal
  | boolean
  | jsx
  | other
deriving Repr, DecidableEq, Inhabited

namespace ValueShape

def all : List ValueShape :=
  [call, function, object, frozenObject, literal, boolean, jsx, other]

def id : ValueShape → String
  | call => "call"
  | function => "function"
  | object => "object"
  | frozenObject => "frozen_object"
  | literal => "literal"
  | boolean => "boolean"
  | jsx => "jsx"
  | other => "other"

def ofId? (name : String) : Option ValueShape :=
  all.find? (·.id == name)

end ValueShape

/-- The bytes from `start` up to `stop`; line 0 means that lines are not known. -/
structure Span where
  start : Int
  stop : Int
  line : Int := 0
  column : Int := 0
  endLine : Int := 0
deriving Repr, DecidableEq, Inhabited

/-- A span that can be one: it starts at no negative offset and does not end before it starts. -/
def Span.isValid (span : Span) : Bool :=
  0 ≤ span.start && span.start ≤ span.stop

/-- One statement. `names` are the names it declares, `reads` the set of identifiers it reads,
in ascending order. A statement with a body has the statements of that body, if only none. -/
structure Statement where
  kind : StatementKind
  span : Span
  names : List String := []
  reads : List String := []
  leadingComment : Option String := none
  leadingStart : Option Int := none
  callee : Option String := none
  value : Option ValueShape := none
  moduleName : Option String := none
  specifiers : List String := []
  members : List String := []
  target : Option String := none
  isPropsType : Bool := false
  exported : Bool := false
  body : Option (List Statement) := none
deriving Repr, BEq, Inhabited

namespace Statement

def name? (s : Statement) : Option String :=
  s.names.head?

/-- Where the statement's slot begins: at its leading comment, if that comes first. -/
def slotStart (s : Statement) : Int :=
  match s.leadingStart with
  | none => s.span.start
  | some leading => min leading s.span.start

def bodyStatements (s : Statement) : List Statement :=
  s.body.getD []

end Statement

/-- The statements of a file, its name, and its text if that is known. -/
structure SourceUnit where
  name : String
  statements : List Statement
  source : Option SourceText := none
deriving Repr, BEq, Inhabited

end ComponentLint
