import ComponentLint.Data.Json
/-
  Strings and numbers of TOML.
-/

namespace ComponentLint.Toml

def isSpace (c : Char) : Bool :=
  c == ' ' || c == '\t'

def skipSpace (cs : List Char) : List Char :=
  cs.dropWhile isSpace

/-- Control characters, which stand nowhere but for the tab and where lines may end. -/
def isControl (c : Char) : Bool :=
  (c.toNat < 0x20 && c != '\t') || c.toNat == 0x7F

def startsWith (head : List Char) (cs : List Char) : Bool :=
  head.isPrefixOf cs

/-- The character with a given code, which must be no surrogate. -/
def scalar? (digits : List Char) (width : Nat) : Option Char :=
  if digits.length == width then
    (Json.hexValues? digits).bind fun code =>
      if code < 0xD800 || (0xDFFF < code && code < 0x110000) then some (Char.ofNat code) else none
  else none

/-- The rest of a line that ends in a backslash: blank, then a line feed and the blank lines
and indentation that follow. -/
def lineEnd? (cs : List Char) : Option (List Char) :=
  match skipSpace cs with
  | [] => some []
  | '\n' :: rest => some (rest.dropWhile fun c => isSpace c || c == '\n')
  | _ => none

/-- An escape after its backslash: the characters it stands for and what follows. -/
def escape? (multiline : Bool) : List Char → Option (List Char × List Char)
  | 'b' :: rest => some (['\x08'], rest)
  | 't' :: rest => some (['\t'], rest)
  | 'n' :: rest => some (['\n'], rest)
  | 'f' :: rest => some (['\x0c'], rest)
  | 'r' :: rest => some (['\r'], rest)
  | '"' :: rest => some (['"'], rest)
  | '\\' :: rest => some (['\\'], rest)
  | 'u' :: rest => (scalar? (rest.take 4) 4).map fun c => ([c], rest.drop 4)
  | 'U' :: rest => (scalar? (rest.take 8) 8).map fun c => ([c], rest.drop 8)
  | c :: rest =>
    if multiline && (isSpace c || c == '\n') then (lineEnd? (c :: rest)).map fun after => ([], after)
    else none
  | [] => none

/-- The characters of a basic string up to its end, and what follows. -/
def basicString (multiline : Bool) : Nat → List Char → Option (List Char × List Char)
  | 0, _ => none
  | fuel + 1, cs =>
    match cs with
    | [] => none
    | '"' :: rest =>
      if !multiline then some ([], rest)
      else if startsWith ['"', '"'] rest then some ([], rest.drop 2)
      else (basicString multiline fuel rest).map fun (chars, after) => ('"' :: chars, after)
    | '\\' :: rest =>
      match escape? multiline rest with
      | none => none
      | some (escaped, rest) =>
        (basicString multiline fuel rest).map fun (chars, after) => (escaped ++ chars, after)
    | c :: rest =>
      if isControl c && !(multiline && c == '\n') then none
      else (basicString multiline fuel rest).map fun (chars, after) => (c :: chars, after)

/-- The characters of a literal string up to its end, and what follows. -/
def literalString (multiline : Bool) : List Char → Option (List Char × List Char)
  | [] => none
  | c :: rest =>
    if c == '\'' && (!multiline || startsWith ['\'', '\''] rest) then
      some ([], if multiline then rest.drop 2 else rest)
    else if isControl c && !(multiline && c == '\n') then none
    else (literalString multiline rest).map fun (chars, after) => (c :: chars, after)

/-- A string that spans lines may end in up to two more quotes, which belong to it. -/
def withClosingQuotes (quote : Char) (chars cs : List Char) : List Char × List Char :=
  match cs with
  | a :: b :: rest =>
    if a == quote && b == quote then (chars ++ [quote, quote], rest)
    else if a == quote then (chars ++ [quote], b :: rest)
    else (chars, cs)
  | [a] => if a == quote then (chars ++ [quote], []) else (chars, cs)
  | [] => (chars, cs)

/-- A line feed right after the opening quotes does not count. -/
def dropLineFeed : List Char → List Char
  | '\n' :: rest => rest
  | cs => cs

/-- A string of one line, which is also what a quoted key is. -/
def lineString? : List Char → Option (List Char × List Char)
  | '"' :: rest => basicString false (rest.length + 1) rest
  | '\'' :: rest => literalString false rest
  | _ => none

def string? (cs : List Char) : Option (List Char × List Char) :=
  if startsWith ['"', '"', '"'] cs then
    let inner := dropLineFeed (cs.drop 3)
    (basicString true (inner.length + 1) inner).map fun (chars, after) =>
      withClosingQuotes '"' chars after
  else if startsWith ['\'', '\'', '\''] cs then
    (literalString true (dropLineFeed (cs.drop 3))).map fun (chars, after) =>
      withClosingQuotes '\'' chars after
  else lineString? cs

/-- A run of digits with single underscores between them, and what follows it. -/
def grouped (isDigit : Char → Bool) : List Char → List Char × List Char
  | [] => ([], [])
  | [c] => if isDigit c then ([c], []) else ([], [c])
  | c :: d :: rest =>
    if isDigit c then
      let (digits, after) := grouped isDigit (d :: rest)
      (c :: digits, after)
    else if c == '_' && isDigit d then
      let (digits, after) := grouped isDigit rest
      (d :: digits, after)
    else ([], c :: d :: rest)

/-- A run of digits that begins with a digit. -/
def digits? (isDigit : Char → Bool) (cs : List Char) : Option (List Char × List Char) :=
  match cs with
  | c :: _ => if isDigit c then some (grouped isDigit cs) else none
  | [] => none

def ofBase (base : Nat) (digits : List Char) : Nat :=
  digits.foldl (fun n c => base * n + (Json.hexValue? c).getD 0) 0

def based? (base : Nat) (cs : List Char) : Option (Data × List Char) :=
  (digits? (fun c => (Json.hexValue? c).any (· < base)) cs).map fun (digits, rest) =>
    (.int (ofBase base digits), rest)

def fraction? : List Char → Option (List Char × List Char)
  | '.' :: rest => digits? Char.isDigit rest
  | _ => none

def exponent? : List Char → Option (Int × List Char)
  | mark :: rest =>
    if mark == 'e' || mark == 'E' then
      match rest with
      | '-' :: rest => (digits? Char.isDigit rest).map fun (ds, after) => (-(ofBase 10 ds : Int), after)
      | '+' :: rest => (digits? Char.isDigit rest).map fun (ds, after) => ((ofBase 10 ds : Int), after)
      | _ => (digits? Char.isDigit rest).map fun (ds, after) => ((ofBase 10 ds : Int), after)
    else none
  | [] => none

/-- The whole part of a decimal number; a leading zero stands alone. -/
def whole? (cs : List Char) : Option (List Char × List Char) :=
  match cs with
  | '0' :: rest => some (['0'], rest)
  | _ => digits? Char.isDigit cs

/-- A decimal number after its sign, unless there is none. -/
def decimal (negative : Bool) (cs : List Char) :
    Except Data.ReadFault (Option (Data × List Char)) :=
  match whole? cs with
  | none => .ok none
  | some (whole, rest) =>
    let (places, rest, isReal) := match fraction? rest with
      | some (places, rest) => (places, rest, true)
      | none => ([], rest, false)
    let (power, rest, isReal) := match exponent? rest with
      | some (power, rest) => (power, rest, true)
      | none => (0, rest, isReal)
    let value := ofBase 10 (whole ++ places)
    if isReal then
      .ok (some (.real (Binary64.ofDecimal negative value (power - places.length)), rest))
    else if Data.maxDigits < whole.length then .error .integerTooLong
    else .ok (some (.int (if negative then -(value : Int) else value), rest))

/-- The numbers that are not finite, after their sign. -/
def special? (negative : Bool) : List Char → Option (Data × List Char)
  | 'i' :: 'n' :: 'f' :: rest => some (.real (.infinite negative), rest)
  | 'n' :: 'a' :: 'n' :: rest => some (.real .nan, rest)
  | _ => none

def signedNumber (negative : Bool) (cs : List Char) : Except Data.ReadFault (Data × List Char) :=
  match decimal negative cs with
  | .error fault => .error fault
  | .ok (some reading) => .ok reading
  | .ok none => Data.orMalformed (special? negative cs)

/-- A number. Only a decimal integer can have too many digits. -/
def number (cs : List Char) : Except Data.ReadFault (Data × List Char) :=
  match cs with
  | '0' :: 'x' :: rest => Data.orMalformed (based? 16 rest)
  | '0' :: 'o' :: rest => Data.orMalformed (based? 8 rest)
  | '0' :: 'b' :: rest => Data.orMalformed (based? 2 rest)
  | '-' :: rest => signedNumber true rest
  | '+' :: rest => signedNumber false rest
  | _ => signedNumber false cs

end ComponentLint.Toml
