/-
  Runs of code points, from which the character tables are made; white space, line breaks, trimming
  and splitting; and terminal control sequences, which are left out of what goes to a stream that is
  no terminal.
-/

namespace ComponentLint.Text

/-! ## Runs -/

/-- The code points `first`, `first + step`, `first + 2 * step`, ... up to `last`: with step 1 an
interval, with step 2 the letters of one case where the two cases alternate. -/
structure Run where
  first : Nat
  last : Nat
  step : Nat
deriving Repr, DecidableEq

def Run.covers (run : Run) (code : Nat) : Bool :=
  run.first ≤ code && code ≤ run.last && (code - run.first) % run.step == 0

/-- Some run of the table covers the code point. -/
def Run.covered (runs : List Run) (code : Nat) : Bool :=
  runs.any (·.covers code)

/-! ## White space -/

/-- White space. The information separators U+001C to U+001F count as such; the zero-width space and
the byte order mark do not. -/
def isBlank (c : Char) : Bool :=
  let n := c.toNat
  (0x09 ≤ n && n ≤ 0x0D) || (0x1C ≤ n && n ≤ 0x20) || n == 0x85 || n == 0xA0 || n == 0x1680 ||
    (0x2000 ≤ n && n ≤ 0x200A) || n == 0x2028 || n == 0x2029 || n == 0x202F || n == 0x205F ||
    n == 0x3000

/-- The characters that end a line. -/
def isLineBreak (c : Char) : Bool :=
  let n := c.toNat
  (0x0A ≤ n && n ≤ 0x0D) || (0x1C ≤ n && n ≤ 0x1E) || n == 0x85 || n == 0x2028 || n == 0x2029

/-- Drops the characters of a class at both ends. -/
def trimBy (p : Char → Bool) (cs : List Char) : List Char :=
  ((cs.dropWhile p).reverse.dropWhile p).reverse

def trim (s : String) : String :=
  String.ofList (trimBy isBlank s.toList)

/-- The parts of a text between separators, empty parts included. -/
def splitAt (sep : Char) : List Char → List (List Char)
  | [] => [[]]
  | c :: cs =>
    if c = sep then [] :: splitAt sep cs
    else match splitAt sep cs with
      | [] => [[c]]
      | part :: parts => (c :: part) :: parts

/-! ## Control sequences -/

/-- Parameters are digits, semicolons and question marks. -/
def isParameter (c : Char) : Bool :=
  c.isDigit || c == ';' || c == '?'

/-- The length of the control sequence at the head of a text: an escape character, a bracket,
parameters, and the letter of the command. -/
def controlSequence? : List Char → Option Nat
  | '\x1b' :: '[' :: rest =>
    match rest.dropWhile isParameter with
    | c :: _ => if c.isAlpha then some ((rest.takeWhile isParameter).length + 3) else none
    | [] => none
  | _ => none

/-- Leaves out so many characters, and each control sequence after them. -/
def plainAfter (skipped : Nat) : List Char → List Char
  | [] => []
  | c :: cs =>
    match skipped with
    | n + 1 => plainAfter n cs
    | 0 =>
      match controlSequence? (c :: cs) with
      | some length => plainAfter (length - 1) cs
      | none => c :: plainAfter 0 cs

/-- The text without its control sequences. -/
def withoutControl (text : String) : String :=
  String.ofList (plainAfter 0 text.toList)

end ComponentLint.Text
