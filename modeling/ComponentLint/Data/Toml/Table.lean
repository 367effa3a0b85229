import ComponentLint.Data.Basic
import ComponentLint.Lists
/-
  The tables of a TOML document while it is read. A table may be opened once by a header, a
  table that dotted keys made can be added to only until the next header, and a value that
  stands after an equals sign is never added to.
-/

namespace ComponentLint.Toml

/-- What a key stands for. A table is closed from a section on, sections being counted by the
headers before them; of an array of tables the last one is open. -/
inductive Node where
  | value (data : Data)
  | table (closedFrom : Option Nat) (entries : List (String × Node))
  | tables (earlier : List Data) (last : List (String × Node))

abbrev Entries := Assoc String Node

mutual

def Node.toData : Node → Data
  | .value data => data
  | .table _ entries => .record (entriesData entries)
  | .tables earlier last => .list (earlier ++ [.record (entriesData last)])

def entriesData : List (String × Node) → List (String × Data)
  | [] => []
  | (key, node) :: entries => (key, node.toData) :: entriesData entries

end

/-- Changes the table at a path; tables on the way are made if they are not there. -/
def changeAt (change : Entries → Option Entries) : List String → Entries → Option Entries
  | [], entries => change entries
  | key :: path, entries =>
    match entries.lookup key with
    | none => (changeAt change path []).map fun inner => entries.put key (.table none inner)
    | some (.table closedFrom inner) =>
      (changeAt change path inner).map fun inner => entries.put key (.table closedFrom inner)
    | some (.tables earlier last) =>
      (changeAt change path last).map fun last => entries.put key (.tables earlier last)
    | some (.value _) => none

/-- Changes the table that a dotted key of a section leads to. The tables on the way must be
open, and are closed from the next section on. -/
def changeDotted (count : Nat) (change : Entries → Option Entries) :
    List String → Entries → Option Entries
  | [], entries => change entries
  | key :: path, entries =>
    match entries.lookup key with
    | none =>
      (changeDotted count change path []).map fun inner =>
        entries.put key (.table (some (count + 1)) inner)
    | some (.table closedFrom inner) =>
      if closedFrom.any (· ≤ count) then none
      else (changeDotted count change path inner).map fun inner =>
        entries.put key (.table (some (count + 1)) inner)
    | some _ => none

/-- A new key with its value. -/
def addValue (key : String) (data : Data) (entries : Entries) : Option Entries :=
  if (entries.lookup key).isSome then none else some (entries.put key (.value data))

/-- Opens the table of a header. -/
def openTable (count : Nat) (key : String) (entries : Entries) : Option Entries :=
  match entries.lookup key with
  | none => some (entries.put key (.table (some count) []))
  | some (.table closedFrom inner) =>
    if closedFrom.any (· ≤ count) then none
    else some (entries.put key (.table (some count) inner))
  | some _ => none

/-- Opens one more table of an array of tables. -/
def openItem (key : String) (entries : Entries) : Option Entries :=
  match entries.lookup key with
  | none => some (entries.put key (.tables [] []))
  | some (.tables earlier last) =>
    some (entries.put key (.tables (earlier ++ [.record (entriesData last)]) []))
  | some _ => none

/-- Adds a value under a dotted key, relative to a table. -/
def addDotted (count : Nat) (key : List String) (data : Data) (entries : Entries) :
    Option Entries :=
  match key.getLast? with
  | none => none
  | some last => changeDotted count (addValue last data) key.dropLast entries

end ComponentLint.Toml
