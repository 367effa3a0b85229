import ComponentLint.Data.Moment
import ComponentLint.Number.Binary64
import ComponentLint.Text.Quoted
/-
  Values of the data formats the tool reads and writes, and their spelling in messages.
  The fields of a record keep their order.
-/

namespace ComponentLint

inductive Data where
  | null
  | bool (value : Bool)
  | int (value : Int)
  | real (value : Binary64)
  | text (value : String)
  | unpaired (value : UnpairedText)
  | moment (value : Moment)
  | list (items : List Data)
  | record (fields : List (String × Data))
deriving Repr, BEq, Inhabited

namespace Data

/-- A field of a record by its name. -/
def field? (fields : List (String × Data)) (name : String) : Option Data :=
  fields.lookup name

/-- The text of code points. A pair of surrogates, which would have been one point, is not kept. -/
def ofPoints (points : List CodePoint) : Data :=
  if h : points.any (·.isSurrogate) = true ∧ CodePoint.hasPair points = false then
    .unpaired ⟨points, h.1, h.2⟩
  else .text (String.ofList (points.map CodePoint.shown))

/-- The most decimal digits of an integer that is read or spelled. -/
def maxDigits : Nat := 4300

/-- Why a text of data cannot be read. -/
inductive ReadFault where
  | malformed
  | integerTooLong
deriving Repr, DecidableEq

/-- A reader that can fail in one way only. -/
def orMalformed {α : Type} : Option α → Except ReadFault α
  | some a => .ok a
  | none => .error .malformed

mutual

/-- No integer in the value has more decimal digits than a given limit. -/
def isSpellable (limit : Nat) : Data → Bool
  | int value => (Nat.toDigits 10 value.natAbs).length ≤ limit
  | list items => areSpellable limit items
  | record fields => fieldsSpellable limit fields
  | _ => true

def areSpellable (limit : Nat) : List Data → Bool
  | [] => true
  | item :: items => isSpellable limit item && areSpellable limit items

def fieldsSpellable (limit : Nat) : List (String × Data) → Bool
  | [] => true
  | (_, value) :: fields => isSpellable limit value && fieldsSpellable limit fields

end

mutual

/-- The value as messages spell it, with texts quoted. -/
def spelled : Data → String
  | null => "None"
  | bool value => if value then "True" else "False"
  | int value => toString value
  | real value => value.toText
  | text value => Text.quoted value
  | unpaired value => Text.quotedUnpaired value
  | moment value => value.spelled
  | list items => "[" ++ ", ".intercalate (spelledItems items) ++ "]"
  | record fields => "\x7b" ++ ", ".intercalate (spelledFields fields) ++ "\x7d"

def spelledItems : List Data → List String
  | [] => []
  | item :: items => spelled item :: spelledItems items

def spelledFields : List (String × Data) → List String
  | [] => []
  | (name, value) :: fields => (Text.quoted name ++ ": " ++ spelled value) :: spelledFields fields

end

/-- The value as plain text: a text is itself, with characters for its surrogates, a moment has its
standard text, and any other value is spelled. -/
def plain : Data → String
  | text value => value
  | unpaired value => value.shown
  | moment value => value.text
  | value => spelled value

end Data

end ComponentLint
