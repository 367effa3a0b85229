import ComponentLint.Section.Order
import ComponentLint.Severity
/-
  Lint options.
-/

namespace ComponentLint

structure Options where
  order : SectionOrder
  threshold : Severity
  namingChecks : Bool
  /-- The sections whose declarations are put in alphabetical order. -/
  sortable : List Section
  /-- The names a props type can have, besides the component's name followed by `Props`. -/
  propsNames : List String

namespace Options

/-- The options as they are written down; what is left out has its default. -/
structure Given where
  order : List String := []
  threshold : Option String := none
  namingChecks : Option Bool := none
  sortable : Option (List String) := none
  propsNames : Option (List String) := none

/-- The sections that a list of names means. -/
def sections : List String → Except ConfigError (List Section)
  | [] => .ok []
  | name :: names =>
    match Placement.parse name with
    | .error e => .error e
    | .ok .unclassified => .error .unclassifiedSorted
    | .ok (.inSection place) => (sections names).map (place :: ·)

def nonEmptyNames (names : List String) : List String :=
  (names.map Text.trim).filter (!·.isEmpty)

/-- Checks the order first, then the threshold, then the sortable sections. -/
def ofGiven (given : Given) : Except ConfigError Options := do
  let order ← SectionOrder.ofNames given.order
  let threshold ← match given.threshold with
    | some name => Severity.parse name
    | none => .ok .warning
  let sortable ← match given.sortable with
    | some names => sections names
    | none => .ok Section.sortedByDefault
  return {
    order
    threshold
    namingChecks := given.namingChecks.getD true
    sortable
    propsNames := nonEmptyNames (given.propsNames.getD ["Props"]) }

def standard : Options where
  order := .canonical
  threshold := .warning
  namingChecks := true
  sortable := Section.sortedByDefault
  propsNames := ["Props"]

instance : Inhabited Options := ⟨standard⟩

/-- The index of a placement in the section order; unclassified has none. -/
def position? (options : Options) : Placement → Option Nat
  | .inSection place => some (options.order.position place)
  | .unclassified => none

end Options

end ComponentLint
