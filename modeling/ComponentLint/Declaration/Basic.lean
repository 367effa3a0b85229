import ComponentLint.Section.Basic
import ComponentLint.SourceUnit
import ComponentLint.Text.CaseFolding
/-
  Declarations: the statements of a unit and of its component's body, in one sequence, each
  with what it declares.
-/

namespace ComponentLint

/-- What a statement declares. -/
inductive Kind where
  | imports (moduleName : String) (specifiers : List String)
  | enumeration (members : List String) (frozen : Bool)
  | typeAlias (isProps : Bool)
  | interface (isProps : Bool)
  | constant
  | component
  | hook (name : String)
  | function
  | value (boolean : Bool)
  | render
  | exports (target : String)
  | unrecognised (reason : String)
  /-- A kind that the linter does not know; no unit yields one. -/
  | foreign (tag : String)
deriving Repr, DecidableEq, Inhabited

/-- The two containers of declarations. -/
inductive Scope where
  | module
  | component
deriving Repr, DecidableEq, Inhabited

def Scope.id : Scope → String
  | module => "module"
  | component => "component"

structure Declaration where
  name : String
  kind : Kind
  /-- The position in the sequence. -/
  index : Nat
  scope : Scope
  statement : Statement
  /-- The names it binds. -/
  bound : List String := []
  /-- What it reads of the names that the unit binds, without its own. -/
  reads : List String := []
  /-- The placement that its leading comment asks for. -/
  hint : Option Placement := none
deriving Repr, Inhabited

namespace Declaration

/-- The key of alphabetical order. -/
def sortKey (d : Declaration) : String :=
  Text.foldCase d.name

def isPropsType (d : Declaration) : Bool :=
  match d.kind with
  | .typeAlias isProps => isProps
  | .interface isProps => isProps
  | _ => false

def isComponent (d : Declaration) : Bool :=
  match d.kind with
  | .component => true
  | _ => false

end Declaration

end ComponentLint
