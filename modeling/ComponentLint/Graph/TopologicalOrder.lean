import ComponentLint.Lists
/-
  Topological order: at every step the least of the nodes that are ready is placed, so that
  dependencies come before their dependents and all else follows the order of the nodes. Nodes that
  never become ready, on a cycle or behind something unknown, are left out.

  Every node keeps the numbers that it still waits for. Placing a node takes its number away from
  those that follow it, and one that waits for nothing any more joins the queue of the ready ones.
-/

namespace ComponentLint

/-- A placing of nodes under way. -/
structure Placing (ι β : Type) where
  /-- The numbers that the node of each number still waits for. -/
  incoming : Assoc ι (List ι)
  /-- The queue: nodes that wait for nothing and have not been placed, the least first. -/
  ready : List β
  order : List β := []

section

variable {ι β : Type} [DecidableEq ι] (id : β → ι) (dependencies : β → List ι) (le : β → β → Bool)

/-- Adds a node to those that follow a number. -/
def addFollower (outgoing : Assoc ι (List β)) (edge : ι × β) : Assoc ι (List β) :=
  let followers := outgoing.get edge.1 []
  if followers.any fun b => id b = id edge.2 then outgoing
  else outgoing.put edge.1 (followers ++ [edge.2])

/-- For every number the nodes that have it as a dependency. -/
def outgoingOf (nodes : List β) : Assoc ι (List β) :=
  (nodes.flatMap fun b => (dependencies b).map fun i => (i, b)).foldl (addFollower id) []

namespace Placing

/-- Before any node is placed, those without dependencies are ready. -/
def start (nodes : List β) : Placing ι β where
  incoming := nodes.map fun b => (id b, dependencies b)
  ready := sortBy le (nodes.filter fun b => (dependencies b).isEmpty)

/-- A node no longer waits for a number. -/
def release (i : ι) (p : Placing ι β) (follower : β) : Placing ι β :=
  let left := (p.incoming.get (id follower) []).filter (· ≠ i)
  { p with
    incoming := p.incoming.put (id follower) left
    ready := if left.isEmpty then insertSorted le follower p.ready else p.ready }

/-- Places the least node that is ready, so many times at most, as long as there is one. -/
def run (outgoing : Assoc ι (List β)) : Nat → Placing ι β → Placing ι β
  | 0, p => p
  | rounds + 1, p =>
    match p.ready with
    | [] => p
    | b :: ready =>
      run outgoing rounds <|
        (outgoing.get (id b) []).foldl (release id le (id b)) { p with ready, order := p.order ++ [b] }

end Placing

/-- The placing of all nodes after so many rounds. -/
def placing (nodes : List β) (rounds : Nat) : Placing ι β :=
  (Placing.start id dependencies le nodes).run id le (outgoingOf id dependencies nodes) rounds

/-- The nodes in topological order. No node is placed twice, so their number bounds the rounds. -/
def topologicalOrder (nodes : List β) : List β :=
  (placing id dependencies le nodes nodes.length).order

end

end ComponentLint
