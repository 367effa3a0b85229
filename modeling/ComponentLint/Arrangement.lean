import ComponentLint.Graph.TopologicalOrder
import ComponentLint.Options.Basic
import ComponentLint.SectionGraph
/-
  The arrangement of declarations: the sections in their order, a section to be sorted in the
  least topological order and any other in source order. Declarations stay in their container,
  and one without a section stays behind the declaration it follows.
-/

namespace ComponentLint

/-- A declaration of a section with the unclassified ones that follow it. -/
structure Block where
  place : Section
  anchor : Classified
  followers : List Classified

namespace Block

def items (block : Block) : List Classified :=
  block.anchor :: block.followers

/-- Props types last, then by name without regard to case, then by source order. -/
def le (a b : Block) : Bool :=
  let x := a.anchor
  let y := b.anchor
  if x.isPropsType != y.isPropsType then y.isPropsType
  else x.sortKey < y.sortKey || (x.sortKey == y.sortKey && x.index ≤ y.index)

end Block

/-- Cuts a container into the unclassified declarations at its head and the blocks after them. -/
def blocks : List Classified → List Classified × List Block
  | [] => ([], [])
  | d :: ds =>
    let (head, rest) := blocks ds
    match d.section? with
    | none => (d :: head, rest)
    | some place => ([], ⟨place, d, head⟩ :: rest)

/-- The blocks of one section and container, sorted if the section is to be sorted and no
declarations of it read each other in a circle. -/
def arrangeSection (graph : SectionGraph) (resorted : List Section) (members : List Block) :
    List Block :=
  if resorted.contains graph.place && !graph.isCyclic then
    let here := members.map (·.anchor.index)
    let nodes := members.map fun b =>
      (b, (graph.edges.successors b.anchor.index).filter here.contains)
    (topologicalOrder (·.1.anchor.index) Prod.snd (fun a b => Block.le a.1 b.1) nodes).map Prod.fst
  else members

/-- A container's declarations in order; the graphs are those of the whole unit. -/
def arrangeContainer (order : SectionOrder) (resorted : List Section)
    (graphs : List SectionGraph) (members : List Classified) : List Classified :=
  let (head, rest) := blocks members
  head ++ order.sections.flatMap fun place =>
    (arrangeSection (graphAt graphs place) resorted (rest.filter (·.place == place))).flatMap
      Block.items

def inScope (scope : Scope) (ds : List Classified) : List Classified :=
  ds.filter (·.scope == scope)

/-- The declarations of a unit in order, those of the body right after the component. -/
def arrange (order : SectionOrder) (resorted : List Section) (graphs : List SectionGraph)
    (ds : List Classified) : List Classified :=
  let body := arrangeContainer order resorted graphs (inScope .component ds)
  (arrangeContainer order resorted graphs (inScope .module ds)).flatMap fun d =>
    if d.isComponent then d :: body else [d]

/-- Numbers declarations by their positions. -/
def renumber (ds : List Classified) : List Classified :=
  ds.zipIdx.map fun (d, index) => { d with index }

end ComponentLint
