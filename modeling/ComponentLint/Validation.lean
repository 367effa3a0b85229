import ComponentLint.Rule.Naming
/-
  All rules applied to the declarations of a unit, and the order that a fix would give them.
-/

namespace ComponentLint

structure Validation where
  violations : List Violation
  /-- The declarations in the order a fix would give them. -/
  arranged : List Classified
  resorted : List Section
  cyclic : List Section

namespace Validation

def violation (d : Classified) (finding : Finding) (expected : Nat) : Violation where
  finding := finding
  name := d.name
  placement := d.placement
  expected := expected
  actual := d.index
  line := d.statement.span.line
  column := d.statement.span.column

/-- The position of a declaration in an arrangement. -/
def positionIn (arranged : List Classified) (d : Classified) : Nat :=
  (arranged.map (·.index)).idxOf d.index

def misplacedFinding (m : Rule.Misplaced) : Finding :=
  if m.isRead then .afterReader m.earlier.name else .afterNeighbour m.earlier.name

/-- The members of a cycle of a section's graph. -/
def cycleDeclarations (ds : List Classified) (cycle : List Nat) : List Classified :=
  ds.filter fun d => cycle.contains d.index

/-- A cycle is told of its first member. -/
def cycleViolation? (ds : List Classified) (expected : Classified → Nat) (cycle : List Nat) :
    Option Violation :=
  let members := cycleDeclarations ds cycle
  members.head?.map fun first =>
    violation first (.cycle (sortBy (· ≤ ·) (members.map (·.name)))) (expected first)

/-- The violations of every rule, rule after rule. -/
def findings (options : Options) (graphs : List SectionGraph) (misplaced : List Rule.Misplaced)
    (ds arranged : List Classified) : List Violation :=
  let expected := positionIn arranged
  ((Rule.outOfSection options.order (fun _ => none) ds).map fun (d, later) =>
      violation d (.afterSection later) (expected d)) ++
    (misplaced.map fun m =>
      violation m.declaration (misplacedFinding m) (expected m.declaration)) ++
    ((Rule.propsNotLast? ds).toList.map fun props =>
      violation props .propsNotLast (expected props)) ++
    (ds.filterMap fun d => (Rule.memberProblem? d).map fun finding =>
      violation d finding (expected d)) ++
    (if options.namingChecks then
      ds.filterMap fun d => (d.section?.bind (Rule.namingProblem? d)).map fun problem =>
        violation d (.naming problem) d.index
    else []) ++
    ((ds.filter (·.placement == .unclassified)).map fun d =>
      violation d (.noSection (Rule.missingSectionReason d.kind)) d.index) ++
    graphs.flatMap fun graph => graph.cycles.filterMap (cycleViolation? ds expected)

def cyclicSections (graphs : List SectionGraph) : List Section :=
  (graphs.filter (·.isCyclic)).map (·.place)

end Validation

/-- Checks a sequence of declarations. The violations are in source order. -/
def validate (options : Options) (ds : List Classified) : Validation :=
  let graphs := sectionGraphs ds
  let misplaced := Rule.misplaced options graphs ds
  let resorted := Rule.resorted options misplaced ds
  let arranged := arrange options.order resorted graphs ds
  { violations := sortBy Violation.le (Validation.findings options graphs misplaced ds arranged)
    arranged
    resorted
    cyclic := Validation.cyclicSections graphs }

end ComponentLint
