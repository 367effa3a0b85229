/-
  Checking a document field by field: a check gives a value or all the faults it found, each
  with the place where it is.
-/

namespace ComponentLint.Document

/-- One step into a document. -/
inductive Step where
  | field (name : String)
  | item (index : Nat)
deriving Repr, DecidableEq

inductive FaultKind where
  | missing
  | notARecord
  | notAList
  | notText
  | notAMember
  | notAnInteger
  | malformedInteger
  | fractionalInteger
  | integerTooLarge
  | notFinite
  | notABoolean
  | malformedBoolean
deriving Repr, DecidableEq

structure Fault where
  place : List Step
  kind : FaultKind
deriving Repr, DecidableEq

inductive Validated (α : Type) where
  | valid (value : α)
  | invalid (faults : List Fault)

namespace Validated

variable {α β : Type}

/-- A fault at this very place. -/
def fault (kind : FaultKind) : Validated α :=
  invalid [⟨[], kind⟩]

def map (f : α → β) : Validated α → Validated β
  | valid a => valid (f a)
  | invalid faults => invalid faults

/-- Applies a checked function to a checked value; the faults of both are kept, in order. -/
def apply : Validated (α → β) → Validated α → Validated β
  | valid f, valid a => valid (f a)
  | valid _, invalid faults => invalid faults
  | invalid faults, valid _ => invalid faults
  | invalid faults, invalid more => invalid (faults ++ more)

instance : Functor Validated where
  map := map

instance : Pure Validated where
  pure := valid

instance : Seq Validated where
  seq f a := apply f (a ())

/-- The check of a part: its faults are one step further in. -/
def within (step : Step) : Validated α → Validated α
  | valid a => valid a
  | invalid faults => invalid (faults.map fun fault => { fault with place := step :: fault.place })

end Validated

end ComponentLint.Document
