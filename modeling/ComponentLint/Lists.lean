/-
  Lists in order, lists as sets, and lists as maps. Sorting is by insertion: structural, stable, and
  so plain that a sorted list evaluates.
-/

namespace ComponentLint

variable {α : Type}

/-- Inserts before the first element that is not smaller. -/
def insertSorted (le : α → α → Bool) (a : α) : List α → List α
  | [] => [a]
  | b :: bs => if le a b then a :: b :: bs else b :: insertSorted le a bs

/-- The list in ascending order; elements that `le` does not tell apart keep their order. -/
def sortBy (le : α → α → Bool) : List α → List α
  | [] => []
  | a :: as => insertSorted le a (sortBy le as)

/-- Inserts a text into an ascending list without repetitions. -/
def insertNew (a : String) : List String → List String
  | [] => [a]
  | b :: bs =>
    if a < b then a :: b :: bs
    else if a = b then b :: bs
    else b :: insertNew a bs

/-- The texts of a list as a set: each once, in ascending order. -/
def textSet : List String → List String
  | [] => []
  | a :: as => insertNew a (textSet as)

/-- Keys with their values, in the order in which the keys came up. The first entry of a key
counts. -/
abbrev Assoc (κ ν : Type) := List (κ × ν)

namespace Assoc

variable {κ ν : Type} [DecidableEq κ]

/-- Sets the value of a key: a key that is there keeps its place. -/
def put (entries : Assoc κ ν) (key : κ) (value : ν) : Assoc κ ν :=
  match entries with
  | [] => [(key, value)]
  | entry :: rest => if entry.1 = key then (key, value) :: rest else entry :: put rest key value

/-- The value of a key, or another one if the key is not there. -/
def get (entries : Assoc κ ν) (key : κ) (default : ν) : ν :=
  (entries.lookup key).getD default

end Assoc

end ComponentLint
