import ComponentLint.Data.Basic
import ComponentLint.Declaration.Outline
import ComponentLint.Lists
import ComponentLint.Section.Naming
/-
  Every declaration is put in exactly one place. A marker comment decides first, then a kind
  that can stand in one section only, then the name of a called hook, then the first word of
  the name, then the shape. So `const getTotal = useMemo(...)` is a memo.
-/

namespace ComponentLint

/-- A place that no run should reach, and what was found there. -/
structure Unreachable where
  reason : String := ""
  context : List (String × Data) := []
deriving Repr, BEq, Inhabited

/-- The reason, followed by the values found, in the order of their names. -/
def Unreachable.message (failure : Unreachable) : String :=
  let reason := if failure.reason.isEmpty then "never() marker reached" else failure.reason
  let details := (sortBy (fun a b => a.1 ≤ b.1) failure.context).map fun (name, value) =>
    name ++ "=" ++ value.spelled
  if details.isEmpty then reason else reason ++ " (" ++ ", ".intercalate details ++ ")"

/-- What decided where a declaration belongs. -/
inductive Evidence where
  | marker
  | kind
  | hookName
  | firstWord
  | shape
  | nothing
deriving Repr, DecidableEq, Inhabited

def Evidence.id : Evidence → String
  | marker => "marker"
  | kind => "structure"
  | hookName => "hook_name"
  | firstWord => "name_prefix"
  | shape => "shape"
  | nothing => "none"

structure Classification where
  placement : Placement
  evidence : Evidence
deriving Repr, DecidableEq, Inhabited

namespace Declaration

/-- A function or value of the component's body. -/
def classifyBinding (d : Declaration) (shape : Section) : Except Unreachable Classification :=
  match d.scope with
  | .module => .error ⟨"body binding outside the component", [("name", .text d.name)]⟩
  | .component =>
    match Naming.suggested? d.name with
    | some place => .ok ⟨.inSection place, .firstWord⟩
    | none => .ok ⟨.inSection shape, .shape⟩

def classify (d : Declaration) : Except Unreachable Classification :=
  match d.hint with
  | some placement => .ok ⟨placement, .marker⟩
  | none =>
    match d.kind with
    | .imports _ _ => .ok ⟨.inSection .imports, .kind⟩
    | .enumeration _ _ => .ok ⟨.inSection .constantsEnums, .kind⟩
    | .typeAlias _ => .ok ⟨.inSection .typesInterfaces, .kind⟩
    | .interface _ => .ok ⟨.inSection .typesInterfaces, .kind⟩
    | .component => .ok ⟨.inSection .componentSignature, .kind⟩
    | .render => .ok ⟨.inSection .render, .kind⟩
    | .exports _ => .ok ⟨.inSection .propTypesExports, .kind⟩
    | .hook name =>
      match Hook.section? name with
      | some place => .ok ⟨.inSection place, .hookName⟩
      | none => .error ⟨"hook binding without a hook section", [("hook", .text name)]⟩
    | .constant => .ok ⟨.inSection .constantsEnums, .shape⟩
    | .function => d.classifyBinding .functions
    | .value _ => d.classifyBinding .derivedValues
    | .unrecognised _ => .ok ⟨.unclassified, .nothing⟩
    | .foreign tag => .error ⟨"unhandled declaration kind", [("kind", .text tag)]⟩

end Declaration

/-- A declaration with its place. -/
structure Classified extends Declaration where
  placement : Placement
  evidence : Evidence
deriving Repr, Inhabited

namespace Classified

def section? (d : Classified) : Option Section :=
  d.placement.section?

def ofDeclaration (d : Declaration) : Except Unreachable Classified :=
  d.classify.map fun c => { d with placement := c.placement, evidence := c.evidence }

end Classified

/-- Places every declaration of a sequence. -/
def classifyAll : List Declaration → Except Unreachable (List Classified)
  | [] => .ok []
  | d :: ds => do
    let first ← Classified.ofDeclaration d
    let rest ← classifyAll ds
    return first :: rest

end ComponentLint
