import ComponentLint.Declaration.Classified
import ComponentLint.Rule.Order
import ComponentLint.Section.Naming
import ComponentLint.Violation
/-
  The rules on single declarations: their names, and the order of the members of an
  enumeration and of the specifiers of an import.
-/

namespace ComponentLint.Rule

/-- Whether a declaration is a value known to be true or false. -/
def isBoolean (d : Classified) : Bool :=
  match d.kind with
  | .value boolean => boolean
  | _ => false

/-- What is wrong with the name of a declaration, given the section it belongs to. Of the
derived values only booleans have a rule. -/
def namingProblem? (d : Classified) (place : Section) : Option NamingProblem :=
  match Naming.wanted? place with
  | none => none
  | some wanted =>
    if wanted.any (Naming.startsWithWord d.name) then none
    else if place = .derivedValues then
      if isBoolean d then some .booleanWord else none
    else match Naming.reserved.find? (Naming.startsWithWord d.name) with
      | some word => some (.reservedWord word wanted)
      | none => some (.otherWord wanted)

/-- The members of a declaration that are in alphabetical order, and what they are called. -/
def orderedMembers : Kind → Option (String × List String)
  | .enumeration members _ => some ("member", members)
  | .imports _ specifiers => some ("specifier", specifiers)
  | _ => none

/-- The first two neighbouring members that are out of order. -/
def memberProblem? (d : Classified) : Option Finding :=
  match orderedMembers d.kind with
  | none => none
  | some (noun, members) =>
    ((neighbours members).find? fun (first, second) =>
        !decide (Text.foldCase first ≤ Text.foldCase second)).map fun (first, second) =>
      .memberOrder noun first second

/-- Why a declaration has no section. -/
def missingSectionReason : Kind → String
  | .unrecognised reason => reason
  | _ => "no recognisable section"

end ComponentLint.Rule
