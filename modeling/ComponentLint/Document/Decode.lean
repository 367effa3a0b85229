import ComponentLint.Document.Scalar
import ComponentLint.SourceUnit
/-
  Units from documents, as they are given: every field is checked and all faults are kept, in
  the order of the fields and depth first. Fields that are not known are passed over.
-/

namespace ComponentLint.Document

variable {α : Type}

def checked (read : Data → Except FaultKind α) (data : Data) : Validated α :=
  match read data with
  | .ok a => .valid a
  | .error kind => .fault kind

/-- A field that has to be there. -/
def required (fields : List (String × Data)) (name : String) (check : Data → Validated α) :
    Validated α :=
  .within (.field name) <| match Data.field? fields name with
    | some data => check data
    | none => .fault .missing

/-- A field with a value of its own when it is left out. -/
def withDefault (fields : List (String × Data)) (name : String) (value : α)
    (check : Data → Validated α) : Validated α :=
  .within (.field name) <| match Data.field? fields name with
    | some data => check data
    | none => .valid value

/-- A field that may be left out or null. -/
def optional (fields : List (String × Data)) (name : String)
    (read : Data → Except FaultKind α) : Validated (Option α) :=
  withDefault fields name none fun
    | .null => .valid none
    | data => (checked read data).map some

def textItems (index : Nat) : List Data → Validated (List String)
  | [] => .valid []
  | item :: items =>
    List.cons <$> .within (.item index) (checked readText item) <*> textItems (index + 1) items

def readTexts : Data → Validated (List String)
  | .list items => textItems 0 items
  | _ => .fault .notAList

def texts (fields : List (String × Data)) (name : String) : Validated (List String) :=
  withDefault fields name [] readTexts

def decodeSpan : Data → Validated Span
  | .record fields =>
    Span.mk <$> required fields "start" (checked readInteger)
      <*> required fields "end" (checked readInteger)
      <*> withDefault fields "line" 0 (checked readInteger)
      <*> withDefault fields "column" 0 (checked readInteger)
      <*> withDefault fields "end_line" 0 (checked readInteger)
  | _ => .fault .notARecord

mutual

def decodeStatement : Data → Validated Statement
  | .record fields =>
    Statement.mk <$> required fields "kind" (checked (readMember StatementKind.ofId?))
      <*> required fields "span" decodeSpan
      <*> texts fields "names"
      <*> texts fields "reads"
      <*> optional fields "leading_comment" readText
      <*> optional fields "leading_start" readInteger
      <*> optional fields "callee" readText
      <*> optional fields "value" (readMember ValueShape.ofId?)
      <*> optional fields "module" readText
      <*> texts fields "specifiers"
      <*> texts fields "members"
      <*> optional fields "target" readText
      <*> withDefault fields "is_props_type" false (checked readBoolean)
      <*> withDefault fields "exported" false (checked readBoolean)
      <*> decodeBody fields
  | _ => .fault .notARecord

/-- The field `body`, which may be left out or null. -/
def decodeBody : List (String × Data) → Validated (Option (List Statement))
  | [] => .valid none
  | (name, data) :: fields =>
    if name = "body" then .within (.field "body") (decodeBodyValue data) else decodeBody fields

def decodeBodyValue : Data → Validated (Option (List Statement))
  | .null => .valid none
  | .list items => some <$> decodeStatements 0 items
  | _ => .fault .notAList

def decodeStatements (index : Nat) : List Data → Validated (List Statement)
  | [] => .valid []
  | item :: items =>
    List.cons <$> .within (.item index) (decodeStatement item) <*> decodeStatements (index + 1) items

end

def decodeStatementList : Data → Validated (List Statement)
  | .list items => decodeStatements 0 items
  | _ => .fault .notAList

def decodeUnit : Data → Validated SourceUnit
  | .record fields =>
    SourceUnit.mk <$> required fields "unit" (checked readText)
      <*> required fields "statements" decodeStatementList
      <*> optional fields "source" readSource
  | _ => .fault .notARecord

end ComponentLint.Document
