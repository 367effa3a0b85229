/-
  Dates and times of the day: the calendar, the standard text of a moment, and how messages
  spell one inside a list or record.
-/

namespace ComponentLint

structure Date where
  year : Nat
  month : Nat
  day : Nat
deriving Repr, DecidableEq

structure TimeOfDay where
  hour : Nat
  minute : Nat
  second : Nat
  microsecond : Nat := 0
deriving Repr, DecidableEq

/-- A date, a time of day, or both, then perhaps with the minutes by which the clock is ahead
of universal time. -/
inductive Moment where
  | date (date : Date)
  | time (time : TimeOfDay)
  | both (date : Date) (time : TimeOfDay) (offset : Option Int)
deriving Repr, DecidableEq

namespace Date

def isLeapYear (year : Nat) : Bool :=
  year % 4 == 0 && (year % 100 != 0 || year % 400 == 0)

def daysInMonth (year month : Nat) : Nat :=
  if month == 2 then (if isLeapYear year then 29 else 28)
  else if [4, 6, 9, 11].contains month then 30
  else 31

/-- The day is in the calendar, which begins with the year 1. -/
def isValid (date : Date) : Bool :=
  1 ≤ date.year && 1 ≤ date.month && date.month ≤ 12 && 1 ≤ date.day &&
    date.day ≤ daysInMonth date.year date.month

end Date

namespace Moment

/-- The last `width` decimal digits of a number. -/
def digits (width n : Nat) : List Char :=
  match width with
  | 0 => []
  | width + 1 => digits width (n / 10) ++ [Nat.digitChar (n % 10)]

def padded (width n : Nat) : String :=
  String.ofList (digits width n)

def dateText (date : Date) : String :=
  padded 4 date.year ++ "-" ++ padded 2 date.month ++ "-" ++ padded 2 date.day

/-- Microseconds are left out when there are none. -/
def timeText (time : TimeOfDay) : String :=
  padded 2 time.hour ++ ":" ++ padded 2 time.minute ++ ":" ++ padded 2 time.second ++
    (if time.microsecond = 0 then "" else "." ++ padded 6 time.microsecond)

def offsetText (offset : Int) : String :=
  (if offset < 0 then "-" else "+") ++ padded 2 (offset.natAbs / 60) ++ ":" ++
    padded 2 (offset.natAbs % 60)

/-- The moment as plain text. -/
def text : Moment → String
  | date d => dateText d
  | time t => timeText t
  | both d t offset => dateText d ++ " " ++ timeText t ++ (offset.map offsetText).getD ""

/-- Hour and minute, and then seconds and microseconds up to the last that is not zero. -/
def timeParts (t : TimeOfDay) : List Nat :=
  if t.microsecond != 0 then [t.hour, t.minute, t.second, t.microsecond]
  else if t.second != 0 then [t.hour, t.minute, t.second]
  else [t.hour, t.minute]

/-- An offset behind universal time is a day back and so many seconds on. -/
def offsetSpelled (offset : Int) : String :=
  if offset = 0 then "datetime.timezone.utc"
  else if offset < 0 then
    "datetime.timezone(datetime.timedelta(days=-1, seconds=" ++ toString (86400 + 60 * offset) ++ "))"
  else "datetime.timezone(datetime.timedelta(seconds=" ++ toString (60 * offset) ++ "))"

def call (name : String) (parts : List String) : String :=
  "datetime." ++ name ++ "(" ++ ", ".intercalate parts ++ ")"

/-- The moment as messages spell it inside other values. -/
def spelled : Moment → String
  | date d => call "date" ([d.year, d.month, d.day].map toString)
  | time t => call "time" ((timeParts t).map toString)
  | both d t offset =>
    call "datetime" (([d.year, d.month, d.day] ++ timeParts t).map toString ++
      (offset.map fun minutes => "tzinfo=" ++ offsetSpelled minutes).toList)

end Moment

end ComponentLint
