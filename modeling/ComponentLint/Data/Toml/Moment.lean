import ComponentLint.Data.Moment
/-
  Dates and times of TOML.
-/

namespace ComponentLint.Toml

def digitValue (c : Char) : Nat :=
  c.toNat - '0'.toNat

/-- A number of two digits from `lo` to `hi`, and what follows it. -/
def twoDigits? (lo hi : Nat) : List Char → Option (Nat × List Char)
  | a :: b :: rest =>
    let n := 10 * digitValue a + digitValue b
    if a.isDigit && b.isDigit && lo ≤ n && n ≤ hi then some (n, rest) else none
  | _ => none

/-- A mark, a number of two digits, and what follows them. -/
def markedDigits? (mark : Char) (lo hi : Nat) : List Char → Option (Nat × List Char)
  | [] => none
  | c :: rest => if c = mark then twoDigits? lo hi rest else none

/-- A date; its day need not be in the calendar. -/
def date? (cs : List Char) : Option (Date × List Char) := do
  let (century, rest) ← twoDigits? 0 99 cs
  let (year, rest) ← twoDigits? 0 99 rest
  let (month, rest) ← markedDigits? '-' 1 12 rest
  let (day, rest) ← markedDigits? '-' 1 31 rest
  return (⟨100 * century + year, month, day⟩, rest)

/-- The microseconds after a point, of which more than six digits are read and not kept. -/
def microseconds (cs : List Char) : Nat × List Char :=
  match cs with
  | '.' :: rest =>
    let places := rest.takeWhile Char.isDigit
    if places.isEmpty then (0, cs)
    else
      (((places ++ List.replicate 6 '0').take 6).foldl (fun n c => 10 * n + digitValue c) 0,
        rest.dropWhile Char.isDigit)
  | _ => (0, cs)

def time? (cs : List Char) : Option (TimeOfDay × List Char) := do
  let (hour, rest) ← twoDigits? 0 23 cs
  let (minute, rest) ← markedDigits? ':' 0 59 rest
  let (second, rest) ← markedDigits? ':' 0 59 rest
  let (microsecond, rest) := microseconds rest
  return (⟨hour, minute, second, microsecond⟩, rest)

/-- The minutes ahead of universal time, after their sign. -/
def offsetMinutes? (cs : List Char) : Option (Nat × List Char) := do
  let (hours, rest) ← twoDigits? 0 23 cs
  let (minutes, rest) ← markedDigits? ':' 0 59 rest
  return (60 * hours + minutes, rest)

def offset? : List Char → Option (Int × List Char)
  | [] => none
  | c :: rest =>
    if c = 'Z' || c = 'z' then some (0, rest)
    else if c = '+' then (offsetMinutes? rest).map fun (n, after) => ((n : Int), after)
    else if c = '-' then (offsetMinutes? rest).map fun (n, after) => (-(n : Int), after)
    else none

/-- The time after a date and the mark between them. -/
def timeAfterDate? : List Char → Option (TimeOfDay × List Char)
  | [] => none
  | c :: rest => if c = 'T' || c = 't' || c = ' ' then time? rest else none

/-- What stands at the head of a text: no moment, one that is not in the calendar, or a moment
and what follows it. -/
inductive MomentReading where
  | absent
  | impossible
  | moment (value : Moment) (rest : List Char)

def readMoment (cs : List Char) : MomentReading :=
  match date? cs with
  | some (date, rest) =>
    if !date.isValid then .impossible
    else match timeAfterDate? rest with
      | none => .moment (.date date) rest
      | some (time, rest) =>
        match offset? rest with
        | none => .moment (.both date time none) rest
        | some (minutes, rest) => .moment (.both date time (some minutes)) rest
  | none =>
    match time? cs with
    | none => .absent
    | some (time, rest) => .moment (.time time) rest

end ComponentLint.Toml
