import ComponentLint.Text.Basic
/-
  Integers written as text. White space around the number, a plus, zeros at its head, zeros
  after a point and single underscores between its digits do not count; what is left is a
  decimal integer without a leading zero. A minus stands before all digits or, if there is no
  sign, right after the zeros at the head.
-/

namespace ComponentLint.IntegerText

inductive Fault where
  | malformed
  | tooLong
deriving Repr, DecidableEq

/-- The most digits that are read. -/
def maxDigits : Nat := 4300

/-- White space around a number; the separators U+001C to U+001F are none here. -/
def isSpace (c : Char) : Bool :=
  Text.isBlank c && !(0x1C ≤ c.toNat && c.toNat ≤ 0x1F)

/-- Whether a minus stands at the head, and what follows the sign. A minus after a plus is none. -/
def sign? : List Char → Option (Bool × List Char)
  | '+' :: '-' :: _ => none
  | '+' :: rest => some (false, rest)
  | '-' :: rest => some (true, rest)
  | cs => some (false, cs)

/-- What follows zeros and underscores, the last of which is given: it stays at the end of the
text and before a point. -/
def afterZeros? (last : Char) : List Char → Option (List Char)
  | [] => some [last]
  | c :: rest =>
    if c = '0' || c = '_' then afterZeros? c rest
    else if c = '.' then some (last :: c :: rest)
    else if c.isDigit || c = '-' then some (c :: rest)
    else none

/-- Drops the zeros at the head, and the underscores among them. -/
def dropZeros? : List Char → Option (List Char)
  | [] => none
  | c :: rest =>
    if c = '0' then afterZeros? c rest
    else if c.isDigit || c = '-' then some (c :: rest)
    else none

/-- Drops a point with nothing but zeros after it. -/
def dropPlaces (cs : List Char) : List Char :=
  match cs.dropWhile (· ≠ '.') with
  | _ :: c :: places => if (c :: places).all (· == '0') then cs.takeWhile (· ≠ '.') else cs
  | _ => cs

/-- No underscore stands at an end or beside another one. -/
def isGrouped (cs : List Char) : Bool :=
  cs.head? != some '_' && cs.getLast? != some '_' &&
    !(cs.zip cs.tail).any fun (a, b) => a == '_' && b == '_'

def dropUnderscores (cs : List Char) : List Char :=
  if isGrouped cs then cs.filter (· != '_') else cs

/-- A number of decimal digits; zero is the only one that begins with a zero. -/
def natural? (cs : List Char) : Option Nat :=
  if cs.isEmpty || !cs.all Char.isDigit || (cs.head? == some '0' && 1 < cs.length) ||
      maxDigits < cs.length then none
  else some (cs.foldl (fun n c => 10 * n + (c.toNat - '0'.toNat)) 0)

def integer? : List Char → Option Int
  | '-' :: digits => (natural? digits).map fun n => -(n : Int)
  | digits => (natural? digits).map fun n => (n : Int)

/-- The number without all that does not count. -/
def bare? (text : String) : Option (List Char) :=
  match sign? (Text.trimBy isSpace text.toList) with
  | none => none
  | some (negative, cs) =>
    (dropZeros? cs).map fun cs =>
      let digits := dropUnderscores (dropPlaces cs)
      if negative then '-' :: digits else digits

/-- A text is given up as too long when it begins with a plain integer of too many digits,
whatever follows. -/
def isOverlong (text : String) : Bool :=
  let digits := match text.toList with
    | '-' :: rest => rest
    | cs => cs
  digits.head? != some '0' && maxDigits < (digits.takeWhile Char.isDigit).length

/-- The integer that a text stands for. -/
def read (text : String) : Except Fault Int :=
  if isOverlong text then .error .tooLong
  else match (bare? text).bind integer? with
    | some value => .ok value
    | none => .error .malformed

end ComponentLint.IntegerText
