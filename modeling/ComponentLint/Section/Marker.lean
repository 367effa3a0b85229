import ComponentLint.Section.Basic
import ComponentLint.Text.Basic
import ComponentLint.Text.CaseFolding
/-
  Section markers: comments such as `/* ===== State ===== */` that name a section.

  Every comment delimiter becomes a line feed, and what is left is cut at its line breaks. The
  words of a line are its runs of ASCII letters and digits after case folding, and `&` is the word
  `and`. A line names a section if its words are one of the section's titles; the last such line
  counts.
-/

namespace ComponentLint.Marker

/-- The words under which each section is known. -/
def titles : List (String × Section) :=
  [("imports", .imports), ("import", .imports), ("constants", .constantsEnums),
    ("constant", .constantsEnums), ("enums", .constantsEnums),
    ("constants enums", .constantsEnums), ("constants and enums", .constantsEnums),
    ("types", .typesInterfaces), ("interfaces", .typesInterfaces),
    ("types interfaces", .typesInterfaces), ("types and interfaces", .typesInterfaces),
    ("component", .componentSignature), ("component signature", .componentSignature),
    ("redux", .redux), ("hooks", .hooks), ("custom hooks", .hooks), ("state", .state),
    ("refs", .refs), ("memos", .memos), ("memo", .memos), ("memoized values", .memos),
    ("derived", .derivedValues), ("derived values", .derivedValues),
    ("derived state", .derivedValues), ("functions", .functions), ("helpers", .functions),
    ("callbacks", .callbacks), ("handlers", .callbacks), ("event handlers", .callbacks),
    ("effects", .effects), ("render", .render), ("proptypes", .propTypesExports),
    ("prop types", .propTypesExports), ("exports", .propTypesExports),
    ("proptypes exports", .propTypesExports), ("proptypes and exports", .propTypesExports),
    ("prop types exports", .propTypesExports)]

/-- How often a character stands at the head of a text. -/
def leading (c : Char) (cs : List Char) : Nat :=
  (cs.takeWhile (· == c)).length

/-- The length of a slash with stars behind it. -/
def opening? : List Char → Option Nat
  | '/' :: '*' :: rest => some (leading '*' rest + 2)
  | _ => none

/-- The length of stars with a slash behind them. -/
def closing? : List Char → Option Nat
  | '*' :: '/' :: _ => some 2
  | '*' :: rest => (closing? rest).map (· + 1)
  | _ => none

/-- The length of blanks with two slashes or more behind them, or stars, or hashes. The blanks may
be line breaks. -/
def lineHead? (cs : List Char) : Option Nat :=
  let blanks := (cs.takeWhile Text.isBlank).length
  match cs.dropWhile Text.isBlank with
  | '/' :: '/' :: rest => some (blanks + leading '/' rest + 2)
  | '*' :: rest => some (blanks + leading '*' rest + 1)
  | '#' :: rest => some (blanks + leading '#' rest + 1)
  | _ => none

/-- The length of the delimiter at the head of a text. Some delimiters are such only at the start
of a line, which here is the start of the comment or a place behind a line feed. -/
def delimiter? (lineStart : Bool) (cs : List Char) : Option Nat :=
  (opening? cs).or ((closing? cs).or (if lineStart then lineHead? cs else none))

/-- Leaves out so many characters, and puts a line feed for each delimiter after them. -/
def undelimitedAfter (skipped : Nat) (lineStart : Bool) : List Char → List Char
  | [] => []
  | c :: cs =>
    match skipped with
    | n + 1 => undelimitedAfter n (c == '\n') cs
    | 0 =>
      match delimiter? lineStart (c :: cs) with
      | some length => '\n' :: undelimitedAfter (length - 1) (c == '\n') cs
      | none => c :: undelimitedAfter 0 (c == '\n') cs

/-- A comment with a line feed for each delimiter. -/
def undelimited (comment : List Char) : List Char :=
  undelimitedAfter 0 true comment

/-- Puts a character in front of the first line. -/
def consFirst (c : Char) : List (List Char) → List (List Char)
  | [] => [[c]]
  | line :: lines => (c :: line) :: lines

/-- The lines of a text, cut at each line break. -/
def lines : List Char → List (List Char)
  | [] => [[]]
  | c :: cs => if Text.isLineBreak c then [] :: lines cs else consFirst c (lines cs)

def isWordChar (c : Char) : Bool :=
  c.isDigit || c.isLower

/-- The folded text of a line, with `&` spelled out and a space for whatever is in no word. -/
def spaced (line : List Char) : List Char :=
  (line.flatMap Text.foldChar).flatMap fun c =>
    if c == '&' then [' ', 'a', 'n', 'd', ' '] else if isWordChar c then [c] else [' ']

def words (line : List Char) : List String :=
  ((Text.splitAt ' ' (spaced line)).filter (!·.isEmpty)).map String.ofList

/-- Leaves out each `and` between two words; of two in a row the second stays. -/
def withoutAnd : List String → List String
  | [] => []
  | [word] => [word]
  | [first, second] => [first, second]
  | first :: second :: third :: rest =>
    if second = "and" then first :: withoutAnd (third :: rest)
    else first :: withoutAnd (second :: third :: rest)

/-- The section that the words of one line name. -/
def ofWords? (ws : List String) : Option Section :=
  match titles.lookup (" ".intercalate ws) with
  | some place => some place
  | none => titles.lookup (" ".intercalate (withoutAnd ws))

/-- The section that a comment names. -/
def parse? (comment : String) : Option Section :=
  ((lines (undelimited comment.toList)).filterMap fun line => ofWords? (words line)).getLast?

end ComponentLint.Marker
