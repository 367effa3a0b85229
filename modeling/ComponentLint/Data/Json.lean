import ComponentLint.Data.Basic
import ComponentLint.Lists
/-
  JSON texts. The writer sorts the fields of every object, indents by two spaces, keeps to
  ASCII, and writes a moment as its text. The reader takes any JSON text, keeps the last of
  repeated fields, and also knows the numbers `NaN`, `Infinity` and `-Infinity`. Both stop at an
  integer with more digits than a given limit.
-/

namespace ComponentLint.Json

/-- A code point beyond the basic plane is written as two surrogates. -/
def escapedCode (n : Nat) : List Char :=
  if n < 0x10000 then '\\' :: 'u' :: Text.hexDigits 4 n
  else
    '\\' :: 'u' :: Text.hexDigits 4 (0xD800 + (n - 0x10000) / 0x400) ++
      '\\' :: 'u' :: Text.hexDigits 4 (0xDC00 + (n - 0x10000) % 0x400)

def escapedChar (c : Char) : List Char :=
  if c = '"' then ['\\', '"']
  else if c = '\\' then ['\\', '\\']
  else if c = '\n' then ['\\', 'n']
  else if c = '\r' then ['\\', 'r']
  else if c = '\t' then ['\\', 't']
  else if c = '\x08' then ['\\', 'b']
  else if c = '\x0c' then ['\\', 'f']
  else if 0x20 ≤ c.toNat && c.toNat < 0x7F then [c]
  else escapedCode c.toNat

def escapedPoint : CodePoint → List Char
  | .char c => escapedChar c
  | .surrogate offset => escapedCode (CodePoint.surrogate offset).code

def pointsText (points : List CodePoint) : List Char :=
  '"' :: points.flatMap escapedPoint ++ ['"']

def stringText (s : String) : List Char :=
  pointsText (s.toList.map .char)

def realText : Binary64 → String
  | .nan => "NaN"
  | .infinite negative => if negative then "-Infinity" else "Infinity"
  | value => value.toText

/-- A line break and the indentation of a level. -/
def newLine (level : Nat) : List Char :=
  '\n' :: List.replicate (2 * level) ' '

mutual

/-- The value with the fields of every record in the order of their names. -/
def sortFields : Data → Data
  | .list items => .list (sortFieldsItems items)
  | .record fields => .record (sortBy (fun a b => a.1 ≤ b.1) (sortFieldsFields fields))
  | value => value

def sortFieldsItems : List Data → List Data
  | [] => []
  | item :: items => sortFields item :: sortFieldsItems items

def sortFieldsFields : List (String × Data) → List (String × Data)
  | [] => []
  | (name, value) :: fields => (name, sortFields value) :: sortFieldsFields fields

end

mutual

/-- The text of a value at a level of indentation. -/
def written (level : Nat) : Data → List Char
  | .null => ['n', 'u', 'l', 'l']
  | .bool true => ['t', 'r', 'u', 'e']
  | .bool false => ['f', 'a', 'l', 's', 'e']
  | .int value => (toString value).toList
  | .real value => (realText value).toList
  | .text value => stringText value
  | .unpaired value => pointsText value.points
  | .moment value => stringText value.text
  | .list [] => ['[', ']']
  | .list (item :: items) =>
    '[' :: newLine (level + 1) ++ written (level + 1) item ++ writtenItems (level + 1) items ++
      newLine level ++ [']']
  | .record [] => ['\x7b', '\x7d']
  | .record ((name, value) :: fields) =>
    '\x7b' :: newLine (level + 1) ++ stringText name ++ [':', ' '] ++ written (level + 1) value ++
      writtenFields (level + 1) fields ++ newLine level ++ ['\x7d']

def writtenItems (level : Nat) : List Data → List Char
  | [] => []
  | item :: items => ',' :: newLine level ++ written level item ++ writtenItems level items

def writtenFields (level : Nat) : List (String × Data) → List Char
  | [] => []
  | (name, value) :: fields =>
    ',' :: newLine level ++ stringText name ++ [':', ' '] ++ written level value ++
      writtenFields level fields

end

/-- The text of a value. -/
def render (value : Data) : String :=
  String.ofList (written 0 (sortFields value))

/-- The text of a value, unless an integer in it has more digits than a given limit. -/
def render? (maxDigits : Nat) (value : Data) : Option String :=
  if value.isSpellable maxDigits then some (render value) else none

def isSpace (c : Char) : Bool :=
  c == ' ' || c == '\n' || c == '\r' || c == '\t'

def skipSpace (cs : List Char) : List Char :=
  cs.dropWhile isSpace

def hexValue? (c : Char) : Option Nat :=
  if c.isDigit then some (c.toNat - '0'.toNat)
  else if 'a' ≤ c && c ≤ 'f' then some (c.toNat - 'a'.toNat + 10)
  else if 'A' ≤ c && c ≤ 'F' then some (c.toNat - 'A'.toNat + 10)
  else none

def hexValues? : List Char → Option Nat :=
  go 0
where
  go (value : Nat) : List Char → Option Nat
    | [] => some value
    | c :: cs => (hexValue? c).bind fun digit => go (16 * value + digit) cs

def isHighSurrogate (n : Nat) : Bool :=
  0xD800 ≤ n && n ≤ 0xDBFF

def isLowSurrogate (n : Nat) : Bool :=
  0xDC00 ≤ n && n ≤ 0xDFFF

/-- The code point of one unit. -/
def unitPoint (n : Nat) : CodePoint :=
  if isHighSurrogate n || isLowSurrogate n then .surrogate (Fin.ofNat 0x800 (n - 0xD800))
  else .char (Char.ofNat n)

def pairChar (high low : Nat) : Char :=
  Char.ofNat (0x10000 + (high - 0xD800) * 0x400 + (low - 0xDC00))

/-- The character that a one-letter escape stands for. -/
def escapeChar? (c : Char) : Option Char :=
  if c = '"' || c = '\\' || c = '/' then some c
  else if c = 'n' then some '\n'
  else if c = 'r' then some '\r'
  else if c = 't' then some '\t'
  else if c = 'b' then some '\x08'
  else if c = 'f' then some '\x0c'
  else none

/-- The low surrogate at the head of a text, if one is escaped there, and what follows it. -/
def lowSurrogate? : List Char → Option (Nat × List Char)
  | '\\' :: 'u' :: a :: b :: c :: d :: rest =>
    match hexValues? [a, b, c, d] with
    | some low => if isLowSurrogate low then some (low, rest) else none
    | none => none
  | _ => none

/-- The next code point of a string and what follows it; no point at the closing quote. -/
def nextPoint? : List Char → Option (Option CodePoint × List Char)
  | '"' :: rest => some (none, rest)
  | '\\' :: 'u' :: a :: b :: c :: d :: rest =>
    match hexValues? [a, b, c, d] with
    | none => none
    | some unit =>
      match if isHighSurrogate unit then lowSurrogate? rest else none with
      | some (low, after) => some (some (.char (pairChar unit low)), after)
      | none => some (some (unitPoint unit), rest)
  | '\\' :: c :: rest => (escapeChar? c).map fun e => (some (.char e), rest)
  | c :: rest => if c.toNat < 0x20 || c = '\\' then none else some (some (.char c), rest)
  | [] => none

/-- The code points of a string up to its closing quote, and what follows. The fuel bounds the
number of points. -/
def readString : Nat → List Char → Option (List CodePoint × List Char)
  | 0, _ => none
  | fuel + 1, cs =>
    match nextPoint? cs with
    | none => none
    | some (none, rest) => some ([], rest)
    | some (some point, rest) =>
      match readString fuel rest with
      | none => none
      | some (points, after) => some (point :: points, after)

def natOfDigits (digits : List Char) : Nat :=
  digits.foldl (fun n c => 10 * n + (c.toNat - '0'.toNat)) 0

/-- The digits after a mark, if there are any. -/
def fraction? : List Char → Option (List Char × List Char)
  | '.' :: rest =>
    let digits := rest.takeWhile Char.isDigit
    if digits.isEmpty then none else some (digits, rest.dropWhile Char.isDigit)
  | _ => none

def signedDigits? (negative : Bool) (cs : List Char) : Option (Int × List Char) :=
  let digits := cs.takeWhile Char.isDigit
  if digits.isEmpty then none
  else
    let value : Int := natOfDigits digits
    some (if negative then -value else value, cs.dropWhile Char.isDigit)

def exponent? : List Char → Option (Int × List Char)
  | mark :: rest =>
    if mark = 'e' || mark = 'E' then
      match rest with
      | '-' :: digits => signedDigits? true digits
      | '+' :: digits => signedDigits? false digits
      | digits => signedDigits? false digits
    else none
  | [] => none

/-- The digits at the head of a text; no digit follows a zero in front. -/
def leadingDigits : List Char → List Char
  | '0' :: _ => ['0']
  | cs => cs.takeWhile Char.isDigit

/-- A number without its sign. A number with a fraction or an exponent is not an integer. -/
def readNumber (maxDigits : Nat) (negative : Bool) (cs : List Char) :
    Except Data.ReadFault (Data × List Char) :=
  let digits := leadingDigits cs
  if digits.isEmpty then .error .malformed
  else
    let rest := cs.drop digits.length
    let (places, rest, isReal) := match fraction? rest with
      | some (places, rest) => (places, rest, true)
      | none => ([], rest, false)
    let (power, rest, isReal) := match exponent? rest with
      | some (power, rest) => (power, rest, true)
      | none => (0, rest, isReal)
    let value := natOfDigits (digits ++ places)
    if isReal then .ok (.real (Binary64.ofDecimal negative value (power - places.length)), rest)
    else if maxDigits < digits.length then .error .integerTooLong
    else .ok (.int (if negative then -(value : Int) else value), rest)

/-- What follows a word at the head of a text. -/
def afterWord? (word : String) (cs : List Char) : Option (List Char) :=
  word.toList.isPrefixOf? cs

/-- A word that stands for a value, and what follows it. -/
def readWord? (cs : List Char) : Option (Data × List Char) :=
  match afterWord? "null" cs with
  | some rest => some (.null, rest)
  | none => match afterWord? "true" cs with
    | some rest => some (.bool true, rest)
    | none => match afterWord? "false" cs with
      | some rest => some (.bool false, rest)
      | none => match afterWord? "NaN" cs with
        | some rest => some (.real .nan, rest)
        | none => match afterWord? "Infinity" cs with
          | some rest => some (.real (.infinite false), rest)
          | none => (afterWord? "-Infinity" cs).map fun rest => (.real (.infinite true), rest)

/-- A value that is neither a string nor a container. -/
def readScalar (maxDigits : Nat) (cs : List Char) : Except Data.ReadFault (Data × List Char) :=
  match readWord? cs with
  | some reading => .ok reading
  | none => match cs with
    | '-' :: rest => readNumber maxDigits true rest
    | _ => readNumber maxDigits false cs

mutual

/-- The value at the head of a text, which no space precedes, and what follows it. The fuel
bounds the number of nested and neighbouring values. -/
def readValue (maxDigits : Nat) : Nat → List Char → Except Data.ReadFault (Data × List Char)
  | 0, _ => .error .malformed
  | fuel + 1, cs =>
    match cs with
    | '"' :: rest =>
      match readString (rest.length + 1) rest with
      | none => .error .malformed
      | some (points, after) => .ok (.ofPoints points, after)
    | '[' :: rest =>
      match skipSpace rest with
      | ']' :: after => .ok (.list [], after)
      | inner =>
        match readItems maxDigits fuel inner with
        | .error fault => .error fault
        | .ok (items, after) => .ok (.list items, after)
    | '\x7b' :: rest =>
      match skipSpace rest with
      | '\x7d' :: after => .ok (.record [], after)
      | inner =>
        match readFields maxDigits fuel [] inner with
        | .error fault => .error fault
        | .ok (fields, after) => .ok (.record fields, after)
    | _ => readScalar maxDigits cs

/-- One item or more, and the closing bracket. -/
def readItems (maxDigits : Nat) :
    Nat → List Char → Except Data.ReadFault (List Data × List Char)
  | 0, _ => .error .malformed
  | fuel + 1, cs =>
    match readValue maxDigits fuel cs with
    | .error fault => .error fault
    | .ok (item, rest) =>
      match skipSpace rest with
      | ']' :: after => .ok ([item], after)
      | ',' :: more =>
        match readItems maxDigits fuel (skipSpace more) with
        | .error fault => .error fault
        | .ok (items, after) => .ok (item :: items, after)
      | _ => .error .malformed

/-- One field or more, and the closing brace, after the fields read so far. A name has characters
for its surrogates. -/
def readFields (maxDigits : Nat) : Nat → List (String × Data) → List Char →
    Except Data.ReadFault (List (String × Data) × List Char)
  | 0, _, _ => .error .malformed
  | fuel + 1, fields, cs =>
    match cs with
    | '"' :: rest =>
      match readString (rest.length + 1) rest with
      | none => .error .malformed
      | some (points, rest) =>
        match skipSpace rest with
        | ':' :: rest =>
          match readValue maxDigits fuel (skipSpace rest) with
          | .error fault => .error fault
          | .ok (value, rest) =>
            let name := String.ofList (points.map CodePoint.shown)
            let fields := Assoc.put fields name value
            match skipSpace rest with
            | '\x7d' :: after => .ok (fields, after)
            | ',' :: more => readFields maxDigits fuel fields (skipSpace more)
            | _ => .error .malformed
        | _ => .error .malformed
    | _ => .error .malformed

end

/-- The value that a whole text stands for. -/
def parse (maxDigits : Nat) (text : String) : Except Data.ReadFault Data :=
  let cs := skipSpace text.toList
  match readValue maxDigits (cs.length + 1) cs with
  | .ok (value, rest) => if (skipSpace rest).isEmpty then .ok value else .error .malformed
  | .error fault => .error fault

end ComponentLint.Json
