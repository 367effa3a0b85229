import ComponentLint.Declaration.Basic
import ComponentLint.Section.Naming
import ComponentLint.Section.Marker
import ComponentLint.Text.LetterCase
/-
  The outline of a unit: its component, and the declarations of the module with those of the
  component's body right after the component.
-/

namespace ComponentLint

namespace Statement

/-- A function or variable with a body whose name begins with a capital. -/
def isComponent (s : Statement) : Bool :=
  (s.kind == .functionStmt || s.kind == .variableStmt) && s.body.isSome &&
    match s.name? with
    | none => false
    | some name => name.toList.head?.any Text.isUpper

/-- The names that a statement binds. -/
def boundNames (s : Statement) : List String :=
  match s.kind with
  | .exportStmt | .assignmentStmt | .expressionStmt | .returnStmt => []
  | _ => s.names

/-- A text that is there and not empty. -/
def nonEmpty? (text : Option String) : Option String :=
  text.filter (!·.isEmpty)

/-- The owner and the member of a dotted name, cut at its last dot. -/
def ownerAndMember (target : String) : String × String :=
  let member := Hook.baseName target
  (String.ofList (target.toList.take (target.length - member.length - 1)), member)

/-- The members that may be assigned to the component, beside the exports. -/
def staticMembers : List String := ["propTypes", "defaultProps", "displayName"]

/-- What the outline knows of the unit's component. -/
structure Setting where
  component : String
  propsNames : List String

def isPropsTypeIn (setting : Setting) (s : Statement) : Bool :=
  s.isPropsType || setting.propsNames.contains (s.name?.getD "")

def assignmentKind (setting : Setting) (s : Statement) : Kind :=
  let target := (nonEmpty? s.target).getD (s.name?.getD "")
  let (owner, member) := ownerAndMember target
  if owner == setting.component && staticMembers.contains member then .exports target
  else .unrecognised ("assignment to " ++ if target.isEmpty then "unknown target" else target)

/-- The hook that a statement calls. -/
def calledHook? (s : Statement) : Option String :=
  match nonEmpty? s.callee with
  | none => none
  | some callee => if (Hook.section? callee).isSome then some (Hook.baseName callee) else none

/-- The kind of a function, or of a variable that holds one. -/
def functionKind (scope : Scope) : Kind :=
  match scope with
  | .module => .constant
  | .component => .function

def variableKind (scope : Scope) (s : Statement) : Kind :=
  match calledHook? s with
  | some hook => .hook hook
  | none =>
    match s.value with
    | some .frozenObject => .enumeration s.members true
    | some .function => functionKind scope
    | value => match scope with
      | .module => .constant
      | .component => .value (value == some .boolean)

def classKind (scope : Scope) (s : Statement) : Kind :=
  if s.value == some .function then functionKind scope
  else match scope with
    | .module => .constant
    | .component => .unrecognised "class declared inside the component"

/-- What a statement other than the component declares. The last statement of the body, if it
returns, renders the component. -/
def declaredKind (setting : Setting) (scope : Scope) (isLast : Bool) (s : Statement) : Kind :=
  match s.kind with
  | .importStmt =>
    .imports ((nonEmpty? s.moduleName).getD (s.name?.getD ""))
      (if s.specifiers.isEmpty then s.names else s.specifiers)
  | .enumStmt => .enumeration s.members false
  | .interfaceStmt => .interface (s.isPropsTypeIn setting)
  | .typeAliasStmt => .typeAlias (s.isPropsTypeIn setting)
  | .exportStmt => .exports ((nonEmpty? s.target).getD (s.name?.getD "default"))
  | .assignmentStmt => s.assignmentKind setting
  | .returnStmt => if isLast then .render else .unrecognised "early return"
  | .expressionStmt =>
    match s.calledHook? with
    | some hook => .hook hook
    | none => .unrecognised "expression statement"
  | .variableStmt => s.variableKind scope
  | .functionStmt => functionKind scope
  | .classStmt => s.classKind scope

/-- The name of a declaration; a statement without one is named by its kind and line. -/
def declaredName (s : Statement) (kind : Kind) : String :=
  let own := s.name?.getD ("<" ++ s.kind.id ++ "@" ++ toString s.span.line ++ ">")
  match kind with
  | .imports moduleName _ => moduleName
  | .exports target => target
  | .hook name => if s.names.isEmpty then name else own
  | .render => "return"
  | _ => own

end Statement

/-- The component of a unit is its first statement that can be one. -/
def SourceUnit.componentIndex? (unit : SourceUnit) : Option Nat :=
  unit.statements.findIdx? (·.isComponent)

/-- A statement in the flattened sequence. -/
structure Outline.Entry where
  statement : Statement
  scope : Scope
  isComponent : Bool := false
  /-- It is the last statement of the component's body. -/
  isLast : Bool := false

namespace Outline

def bodyEntries : List Statement → List Entry
  | [] => []
  | [s] => [{ statement := s, scope := .component, isLast := true }]
  | s :: rest => { statement := s, scope := .component } :: bodyEntries rest

/-- The statements of the module, with the body of the component after it. -/
def entries (unit : SourceUnit) (component : Nat) : List Entry :=
  unit.statements.zipIdx.flatMap fun (s, index) =>
    if index = component then
      { statement := s, scope := .module, isComponent := true } :: bodyEntries s.bodyStatements
    else [{ statement := s, scope := .module }]

def declaration (setting : Statement.Setting) (declared : List String) (index : Nat)
    (entry : Entry) : Declaration :=
  let s := entry.statement
  let kind := if entry.isComponent then .component
    else s.declaredKind setting entry.scope entry.isLast
  let bound := s.boundNames
  { name := s.declaredName kind
    kind
    index
    scope := entry.scope
    statement := s
    bound
    reads := s.reads.filter fun name => declared.contains name && !bound.contains name
    hint := (s.leadingComment.bind Marker.parse?).map .inSection }

/-- The declarations of a unit whose component stands at an index. -/
def declarations (propsNames : List String) (unit : SourceUnit) (component : Nat) :
    List Declaration :=
  let name := ((unit.statements[component]?).bind (·.name?)).getD ""
  let setting : Statement.Setting := ⟨name, (name ++ "Props") :: propsNames⟩
  let flat := entries unit component
  let declared := flat.flatMap (·.statement.boundNames)
  flat.zipIdx.map fun (entry, index) => declaration setting declared index entry

end Outline

/-- The declarations of a unit, if it has a component. -/
def SourceUnit.outline? (propsNames : List String) (unit : SourceUnit) :
    Option (List Declaration) :=
  unit.componentIndex?.map (Outline.declarations propsNames unit)

/-- The name of the unit's component. -/
def SourceUnit.componentName? (unit : SourceUnit) : Option String :=
  unit.componentIndex?.bind fun index => (unit.statements[index]?).bind (·.name?)

end ComponentLint
