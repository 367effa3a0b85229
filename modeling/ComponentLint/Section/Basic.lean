/-
  The sections of a component unit, in their canonical order, and where a declaration belongs.
-/

namespace ComponentLint

inductive Section where
  | imports
  | constantsEnums
  | typesInterfaces
  | componentSignature
  | redux
  | hooks
  | state
  | refs
  | memos
  | derivedValues
  | functions
  | callbacks
  | effects
  | render
  | propTypesExports
deriving Repr, DecidableEq, Inhabited

namespace Section

/-- Every section, in canonical order. -/
def all : List Section :=
  [imports, constantsEnums, typesInterfaces, componentSignature, redux, hooks, state, refs, memos,
    derivedValues, functions, callbacks, effects, render, propTypesExports]

/-- The name of the section in options and reports. -/
def id : Section → String
  | imports => "imports"
  | constantsEnums => "constants_enums"
  | typesInterfaces => "types_interfaces"
  | componentSignature => "component_signature"
  | redux => "redux"
  | hooks => "hooks"
  | state => "state"
  | refs => "refs"
  | memos => "memos"
  | derivedValues => "derived_values"
  | functions => "functions"
  | callbacks => "callbacks"
  | effects => "effects"
  | render => "render"
  | propTypesExports => "prop_types_exports"

/-- The heading under which messages speak of the section. -/
def title : Section → String
  | imports => "Imports"
  | constantsEnums => "Constants & Enums"
  | typesInterfaces => "Types & Interfaces"
  | componentSignature => "Component"
  | redux => "Redux"
  | hooks => "Hooks"
  | state => "State"
  | refs => "Refs"
  | memos => "Memos"
  | derivedValues => "Derived Values"
  | functions => "Functions"
  | callbacks => "Callbacks"
  | effects => "Effects"
  | render => "Render"
  | propTypesExports => "PropTypes & Exports"

/-- Effects run in declaration order; the other sections left out hold a single statement or a
module tail whose order counts. -/
def sortedByDefault : List Section :=
  [imports, constantsEnums, typesInterfaces, redux, hooks, state, refs, memos, derivedValues,
    functions, callbacks]

theorem mem_all (s : Section) : s ∈ all := by
  cases s <;> decide

theorem nodup_all : all.Nodup := by
  decide

end Section

/-- Where a declaration belongs: in a section, or nowhere. -/
inductive Placement where
  | inSection (place : Section)
  | unclassified
deriving Repr, DecidableEq, Inhabited

namespace Placement

def id : Placement → String
  | inSection place => place.id
  | unclassified => "unclassified"

def section? : Placement → Option Section
  | inSection place => some place
  | unclassified => none

/-- The placement of a given name, without regard to ASCII case: all names are ASCII. -/
def named? (name : String) : Option Placement :=
  (Section.all.map inSection ++ [unclassified]).find? (·.id == name.toLower)

end Placement

end ComponentLint
