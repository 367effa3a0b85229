import ComponentLint.Declaration.Classified
import ComponentLint.Graph.Components
/-
  Dependencies between the declarations of one section: which of them reads which, and the
  groups that read each other in a circle.
-/

namespace ComponentLint

/-- A declaration reads another one when it reads a name the other binds. Declarations of the
same name do not count. -/
def Declaration.readsFrom (d other : Declaration) : Bool :=
  d.index != other.index && d.name != other.name && d.reads.any other.bound.contains

/-- `edges` lead from each member to those it reads, which have to come before it. -/
structure SectionGraph where
  place : Section
  members : List Nat
  edges : Graph Nat
  cycles : List (List Nat)
deriving Repr

/-- The declarations of a section, in source order. -/
def sectionMembers (ds : List Classified) (place : Section) : List Classified :=
  ds.filter fun d => d.section? == some place

namespace SectionGraph

/-- Every number once, with the numbers of those that a member of this number reads. -/
def edgesOf (members : List Classified) : Graph Nat :=
  (members.map (·.index)).eraseDups.map fun i =>
    let readers := members.filter (·.index == i)
    (i, (members.filter fun e => readers.any (·.readsFrom e.toDeclaration)).map (·.index))

/-- The components of two nodes or more, by their least node. -/
def cyclesOf (edges : Graph Nat) : List (List Nat) :=
  sortBy (fun a b => a.head?.getD 0 ≤ b.head?.getD 0)
    ((edges.components (· ≤ ·)).filter (1 < ·.length))

def ofMembers (place : Section) (members : List Classified) : SectionGraph :=
  let edges := edgesOf members
  { place, members := members.map (·.index), edges, cycles := cyclesOf edges }

/-- The graph of a section of a sequence of declarations. -/
def of (ds : List Classified) (place : Section) : SectionGraph :=
  ofMembers place (sectionMembers ds place)

def dependsOn (graph : SectionGraph) (dependent dependency : Nat) : Bool :=
  (graph.edges.successors dependent).contains dependency

def cycleMembers (graph : SectionGraph) : List Nat :=
  graph.cycles.flatten

def isCyclic (graph : SectionGraph) : Bool :=
  !graph.cycles.isEmpty

end SectionGraph

/-- The sections of a sequence of declarations, in order of first appearance. -/
def sectionsPresent (ds : List Classified) : List Section :=
  (ds.filterMap (·.section?)).eraseDups

/-- The graphs of the sections present, in the same order. -/
def sectionGraphs (ds : List Classified) : List SectionGraph :=
  (sectionsPresent ds).map (SectionGraph.of ds)

/-- The graph of a section; a section without declarations has an empty one. -/
def graphAt (graphs : List SectionGraph) (place : Section) : SectionGraph :=
  (graphs.find? (·.place == place)).getD (.ofMembers place [])

end ComponentLint
