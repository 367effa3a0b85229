import ComponentLint.Data.Toml.Document
import ComponentLint.Lists
import ComponentLint.Options.Basic
/-
  Options from a settings table, and from the `lint` table of a configuration file with
  explicit settings on top.
-/

namespace ComponentLint.Options

abbrev Table := Assoc String Data

def commaSeparated (value : String) : List String :=
  nonEmptyNames ((Text.splitAt ',' value.toList).map String.ofList)

/-- A list of names: a text or texts with names separated by commas. All else names nothing. -/
def names : Data → List String
  | .text value => commaSeparated value
  | .list items => items.flatMap fun
    | .text value => commaSeparated value
    | _ => []
  | _ => []

/-- A switch: a boolean, a non-zero integer, or one of the words for yes. -/
def isOn : Data → Bool
  | .bool value => value
  | .int value => value != 0
  | .text value => ["1", "true", "yes", "on"].contains (Text.trim value).toLower
  | _ => false

/-- The threshold of a table, which may be any value that can be spelled. -/
def thresholdText (table : Table) : Except ConfigError (Option String) :=
  match Data.field? table "severity_threshold" with
  | none => .ok none
  | some .null => .ok none
  | some value => if value.isSpellable Data.maxDigits then .ok (some value.plain) else .error .integerTooLong

/-- The options of a table; a list of no names counts as left out, but for the sortable
sections, of which there may be none. -/
def given (table : Table) (threshold : Option String) : Given :=
  let namesAt (key : String) : List String := ((Data.field? table key).map names).getD []
  { order := namesAt "section_order"
    threshold
    namingChecks := (Data.field? table "naming_checks").map isOn
    sortable := (Data.field? table "sortable_sections").map names
    propsNames := if (namesAt "props_type_names").isEmpty then none
      else some (namesAt "props_type_names") }

def ofTable (table : Table) : Except ConfigError Options := do
  let threshold ← thresholdText table
  ofGiven (given table threshold)

/-- The table with explicit settings on top; a null sets nothing. -/
def overlay (table : Table) : Table → Table
  | [] => table
  | (_, .null) :: settings => overlay table settings
  | (key, value) :: settings => overlay (table.put key value) settings

/-- Text with every line ended by a line feed. -/
def unixLines : List Char → List Char
  | [] => []
  | '\r' :: '\n' :: rest => '\n' :: unixLines rest
  | '\r' :: rest => '\n' :: unixLines rest
  | c :: rest => c :: unixLines rest

/-- The `lint` table of a configuration text; the name of its file is for the message. -/
def lintTable (path : String) (toml : String) : Except ConfigError Table :=
  match Toml.parse (String.ofList (unixLines toml.toList)) with
  | .error .malformed => .error (.invalidToml path)
  | .error .integerTooLong => .error .integerTooLong
  | .ok root =>
    match Data.field? root "lint" with
    | none => .ok []
    | some (.record table) => .ok table
    | some _ => .error .notATable

/-- The options of a configuration file, if there is one, with explicit settings on top. -/
def ofConfig (path : String) (toml : Option String) (settings : Table) :
    Except ConfigError Options := do
  let table ← match toml with
    | some text => lintTable path text
    | none => .ok []
  ofTable (overlay table settings)

end ComponentLint.Options
