import ComponentLint.Data.Toml.Moment
import ComponentLint.Data.Toml.Scalar
import ComponentLint.Data.Toml.Table
/-
  TOML documents: keys, values, and the statements of a document.
-/

namespace ComponentLint.Toml

def isBareKeyChar (c : Char) : Bool :=
  c.isAlphanum || c == '-' || c == '_'

/-- One part of a dotted key. -/
def keyPart? (cs : List Char) : Option (String × List Char) :=
  match cs with
  | [] => none
  | c :: _ =>
    if isBareKeyChar c then
      some (String.ofList (cs.takeWhile isBareKeyChar), cs.dropWhile isBareKeyChar)
    else (lineString? cs).map fun (chars, rest) => (String.ofList chars, rest)

/-- A dotted key, and what follows it and the space after it. -/
def key? : Nat → List Char → Option (List String × List Char)
  | 0, _ => none
  | fuel + 1, cs =>
    match keyPart? cs with
    | none => none
    | some (part, rest) =>
      match skipSpace rest with
      | '.' :: more => (key? fuel (skipSpace more)).map fun (parts, after) => (part :: parts, after)
      | rest => some ([part], rest)

/-- Skips space, line feeds and comments inside an array. -/
def skipFiller (inComment : Bool) : List Char → Option (List Char)
  | [] => some []
  | c :: cs =>
    if inComment then
      if c == '\n' then skipFiller false cs
      else if isControl c then none
      else skipFiller true cs
    else if isSpace c || c == '\n' then skipFiller false cs
    else if c == '#' then skipFiller true cs
    else some (c :: cs)

/-- The comment at the head of a text, up to the end of the line. -/
def skipComment (cs : List Char) : Option (List Char) :=
  match cs with
  | '#' :: rest =>
    if (rest.takeWhile (· != '\n')).any isControl then none else some (rest.dropWhile (· != '\n'))
  | _ => some cs

def boolean? (cs : List Char) : Option (Data × List Char) :=
  match Json.afterWord? "true" cs with
  | some rest => some (.bool true, rest)
  | none => (Json.afterWord? "false" cs).map fun rest => (.bool false, rest)

/-- A value that is neither a string nor a container. -/
def plainValue (cs : List Char) : Except Data.ReadFault (Data × List Char) :=
  match readMoment cs with
  | .moment value rest => .ok (.moment value, rest)
  | .impossible => .error .malformed
  | .absent =>
    match boolean? cs with
    | some reading => .ok reading
    | none => number cs

mutual

/-- The value at the head of a text, and what follows it. The fuel bounds the number of nested
and neighbouring values. -/
def value : Nat → List Char → Except Data.ReadFault (Data × List Char)
  | 0, _ => .error .malformed
  | fuel + 1, cs =>
    match cs with
    | [] => .error .malformed
    | c :: rest =>
      if c == '"' || c == '\'' then
        match string? cs with
        | none => .error .malformed
        | some (chars, after) => .ok (.text (String.ofList chars), after)
      else if c == '[' then
        match skipFiller false rest with
        | none => .error .malformed
        | some (']' :: after) => .ok (.list [], after)
        | some inner =>
          match items fuel inner with
          | .error fault => .error fault
          | .ok (items, after) => .ok (.list items, after)
      else if c == '\x7b' then
        match skipSpace rest with
        | '\x7d' :: after => .ok (.record [], after)
        | inner =>
          match pairs fuel [] inner with
          | .error fault => .error fault
          | .ok (entries, after) => .ok (.record (entriesData entries), after)
      else plainValue cs

/-- One item or more of an array, and its closing bracket, before which a comma may stand. -/
def items : Nat → List Char → Except Data.ReadFault (List Data × List Char)
  | 0, _ => .error .malformed
  | fuel + 1, cs =>
    match value fuel cs with
    | .error fault => .error fault
    | .ok (item, rest) =>
      match skipFiller false rest with
      | some (']' :: after) => .ok ([item], after)
      | some (',' :: more) =>
        match skipFiller false more with
        | none => .error .malformed
        | some (']' :: after) => .ok ([item], after)
        | some inner =>
          match items fuel inner with
          | .error fault => .error fault
          | .ok (items, after) => .ok (item :: items, after)
      | _ => .error .malformed

/-- One pair or more of an inline table, and its closing brace, after the entries read so far. -/
def pairs : Nat → Entries → List Char → Except Data.ReadFault (Entries × List Char)
  | 0, _, _ => .error .malformed
  | fuel + 1, entries, cs =>
    match key? (cs.length + 1) cs with
    | some (key, '=' :: rest) =>
      match value fuel (skipSpace rest) with
      | .error fault => .error fault
      | .ok (data, rest) =>
        match addDotted 0 key data entries with
        | none => .error .malformed
        | some entries =>
          match skipSpace rest with
          | '\x7d' :: after => .ok (entries, after)
          | ',' :: more => pairs fuel entries (skipSpace more)
          | _ => .error .malformed
    | _ => .error .malformed

end

/-- The document read so far: its tables, the open header, and the number of headers. -/
structure State where
  entries : Entries := []
  header : List String := []
  headers : Nat := 0

/-- The header of a table or of an item of an array of tables, after its first bracket. -/
def header? (state : State) (cs : List Char) : Option (State × List Char) :=
  let count := state.headers + 1
  match cs with
  | '[' :: rest =>
    let inner := skipSpace rest
    match key? (inner.length + 1) inner with
    | some (key, ']' :: ']' :: after) =>
      match changeAt (openItem (key.getLast?.getD "")) key.dropLast state.entries with
      | some entries => some (⟨entries, key, count⟩, after)
      | none => none
    | _ => none
  | _ =>
    let inner := skipSpace cs
    match key? (inner.length + 1) inner with
    | some (key, ']' :: after) =>
      match changeAt (openTable count (key.getLast?.getD "")) key.dropLast state.entries with
      | some entries => some (⟨entries, key, count⟩, after)
      | none => none
    | _ => none

/-- A key with its value, in the table of the open header. -/
def pair (state : State) (cs : List Char) : Except Data.ReadFault (State × List Char) :=
  match key? (cs.length + 1) cs with
  | some (key, '=' :: rest) =>
    let inner := skipSpace rest
    match value (inner.length + 1) inner with
    | .error fault => .error fault
    | .ok (data, after) =>
      match changeAt (addDotted state.headers key data) state.header state.entries with
      | some entries => .ok ({ state with entries := entries }, after)
      | none => .error .malformed
  | _ => .error .malformed

/-- The statement at the head of a line, if there is one. -/
def statement (state : State) (cs : List Char) : Except Data.ReadFault (State × List Char) :=
  match cs with
  | [] => .ok (state, [])
  | c :: rest =>
    if c == '\n' || c == '#' then .ok (state, cs)
    else if c == '[' then Data.orMalformed (header? state rest)
    else if isBareKeyChar c || c == '"' || c == '\'' then pair state cs
    else .error .malformed

/-- Statements, one a line, each with an optional comment. -/
def statements : Nat → State → List Char → Except Data.ReadFault State
  | 0, _, _ => .error .malformed
  | fuel + 1, state, cs =>
    match statement state (skipSpace cs) with
    | .error fault => .error fault
    | .ok (state, rest) =>
      match skipComment (skipSpace rest) with
      | none => .error .malformed
      | some [] => .ok state
      | some ('\n' :: more) => statements fuel state more
      | some _ => .error .malformed

/-- The root table of a document whose lines end in line feeds. -/
def parse (text : String) : Except Data.ReadFault (List (String × Data)) :=
  let cs := text.toList
  (statements (cs.length + 1) {} cs).map fun state => entriesData state.entries

end ComponentLint.Toml
