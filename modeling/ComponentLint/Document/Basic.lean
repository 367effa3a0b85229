import ComponentLint.Data.Json
import ComponentLint.Document.Decode
/-
  Syntax-tree documents: reading a unit from data or from the bytes of a file, and the data and
  text a unit is written as.
-/

namespace ComponentLint.Document

inductive Error where
  | faulty (faults : List Fault)
  | invalidSpan (names : List String) (kind : StatementKind) (span : Span)
  | rootNotARecord
  | invalidJson
  | integerTooLong
  | unreadable
  | notUtf8
deriving Repr, DecidableEq

def Step.label : Step → String
  | .field name => name
  | .item index => toString index

def FaultKind.label : FaultKind → String
  | .missing => "missing field"
  | .notARecord => "not an object"
  | .notAList => "not an array"
  | .notText => "not a string"
  | .notAMember => "not one of the known names"
  | .notAnInteger => "not an integer"
  | .malformedInteger => "string that is no integer"
  | .fractionalInteger => "number with a fraction"
  | .integerTooLarge => "integer out of range"
  | .notFinite => "number that is not finite"
  | .notABoolean => "not a boolean"
  | .malformedBoolean => "value that is no boolean"

def Fault.label (fault : Fault) : String :=
  ".".intercalate (fault.place.map Step.label) ++ ": " ++ fault.kind.label

def Error.text : Error → String
  | faulty faults => "invalid syntax-tree document: " ++ "; ".intercalate (faults.map Fault.label)
  | invalidSpan names kind span =>
    let label := if names.isEmpty then kind.id else (Data.list (names.map .text)).spelled
    "statement " ++ label ++ " has an invalid span (" ++ toString span.start ++ ", " ++
      toString span.stop ++ ")"
  | rootNotARecord => "document root must be an object"
  | invalidJson => "invalid JSON: malformed text"
  | integerTooLong => "integer with too many digits"
  | unreadable => "failed to read: no such file"
  | notUtf8 => "not UTF-8 text"

/-- The message about a document, which names the document if its name is known. -/
def Error.message (document : String) (error : Error) : String :=
  if document.isEmpty then error.text else document ++ ": " ++ error.text

mutual

/-- The first statement with an invalid span, a statement before its body. -/
def invalidSpan? : Statement → Option Error
  | ⟨kind, span, names, _, _, _, _, _, _, _, _, _, _, _, body⟩ =>
    if span.isValid then invalidSpanInBody? body else some (.invalidSpan names kind span)

def invalidSpanInBody? : Option (List Statement) → Option Error
  | none => none
  | some statements => invalidSpanIn? statements

def invalidSpanIn? : List Statement → Option Error
  | [] => none
  | statement :: statements =>
    match invalidSpan? statement with
    | some error => some error
    | none => invalidSpanIn? statements

end

mutual

/-- Without empty names and reads, and with the reads as a set. -/
def tidy : Statement → Statement
  | ⟨kind, span, names, reads, comment, leading, callee, value, moduleName, specifiers, members,
      target, isPropsType, exported, body⟩ =>
    ⟨kind, span, names.filter (!·.isEmpty), textSet (reads.filter (!·.isEmpty)), comment, leading,
      callee, value, moduleName, specifiers, members, target, isPropsType, exported, tidyBody body⟩

def tidyBody : Option (List Statement) → Option (List Statement)
  | none => none
  | some statements => some (tidyAll statements)

def tidyAll : List Statement → List Statement
  | [] => []
  | statement :: statements => tidy statement :: tidyAll statements

end

/-- The unit that a document holds. -/
def read (data : Data) : Except Error SourceUnit :=
  match decodeUnit data with
  | .invalid faults => .error (.faulty faults)
  | .valid unit =>
    match invalidSpanIn? unit.statements with
    | some error => .error error
    | none => .ok { unit with statements := tidyAll unit.statements }

/-- The unit in the bytes of a document file. -/
def readBytes (bytes : ByteArray) : Except Error SourceUnit :=
  match String.fromUTF8? bytes with
  | none => .error .notUtf8
  | some text =>
    match Json.parse Data.maxDigits text with
    | .error .malformed => .error .invalidJson
    | .error .integerTooLong => .error .integerTooLong
    | .ok (.record fields) => read (.record fields)
    | .ok _ => .error .rootNotARecord

def encodeTexts (values : List String) : Data :=
  .list (values.map .text)

def encodeSpan (span : Span) : Data :=
  .record [("start", .int span.start), ("end", .int span.stop), ("line", .int span.line),
    ("column", .int span.column), ("end_line", .int span.endLine)]

/-- A field that is left out when there is no value. -/
def encodeOptional {α : Type} (name : String) (encode : α → Data) :
    Option α → List (String × Data)
  | none => []
  | some a => [(name, encode a)]

def encodeSource : SourceText → Data
  | .text value => .text value
  | .unpaired value => .unpaired value

mutual

def encodeStatement : Statement → Data
  | ⟨kind, span, names, reads, comment, leading, callee, value, moduleName, specifiers, members,
      target, isPropsType, exported, body⟩ =>
    .record ([("kind", .text kind.id), ("span", encodeSpan span), ("names", encodeTexts names),
        ("reads", encodeTexts reads)] ++ encodeOptional "leading_comment" .text comment ++
      encodeOptional "leading_start" .int leading ++ encodeOptional "callee" .text callee ++
      encodeOptional "value" (fun shape => .text shape.id) value ++
      encodeOptional "module" .text moduleName ++
      [("specifiers", encodeTexts specifiers), ("members", encodeTexts members)] ++
      encodeOptional "target" .text target ++
      [("is_props_type", .bool isPropsType), ("exported", .bool exported)] ++ encodeBody body)

def encodeBody : Option (List Statement) → List (String × Data)
  | none => []
  | some statements => [("body", .list (encodeStatements statements))]

def encodeStatements : List Statement → List Data
  | [] => []
  | statement :: statements => encodeStatement statement :: encodeStatements statements

end

/-- The document of a unit. -/
def encode (unit : SourceUnit) : Data :=
  .record ([("unit", .text unit.name), ("statements", .list (encodeStatements unit.statements))] ++
    encodeOptional "source" encodeSource unit.source)

/-- The text of a document file, unless an integer in it is too long to be written. -/
def render? (unit : SourceUnit) : Option String :=
  (Json.render? Data.maxDigits (encode unit)).map (· ++ "\n")

end ComponentLint.Document
