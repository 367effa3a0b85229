import ComponentLint.Lists
/-
  Directed graphs and their strongly connected components, by one depth-first search.

  Two nodes are in one component when each reaches the other. The search numbers the nodes as it
  enters them and keeps those that are in no component yet on a stack. The lowlink of a node is the
  least number on the stack that the search has come upon from the node. A node that is left with
  its own number as its lowlink closes a component: all that is above it on the stack, and the node
  itself. So a component comes after every other one that it reaches.
-/

namespace ComponentLint

/-- Nodes with their successors. A successor need not be listed itself, and has none then. -/
abbrev Graph (α : Type) := Assoc α (List α)

/-- A search under way. -/
structure Search (α : Type) where
  /-- The number of the node that is entered next. -/
  next : Nat := 0
  indices : Assoc α Nat := []
  lowlinks : Assoc α Nat := []
  /-- The nodes that have been entered and are in no component yet, the latest first. -/
  stack : List α := []
  onStack : List α := []
  components : List (List α) := []

namespace Search

variable {α : Type} [DecidableEq α]

def entered (s : Search α) (a : α) : Bool :=
  (s.indices.lookup a).isSome

def index (s : Search α) (a : α) : Nat :=
  s.indices.get a 0

def lowlink (s : Search α) (a : α) : Nat :=
  s.lowlinks.get a 0

def enter (s : Search α) (node : α) : Search α :=
  { s with
    next := s.next + 1
    indices := s.indices.put node s.next
    lowlinks := s.lowlinks.put node s.next
    stack := node :: s.stack
    onStack := node :: s.onStack }

/-- Lowers the lowlink of a node to a number, unless it is lower already. -/
def lower (s : Search α) (node : α) (number : Nat) : Search α :=
  { s with lowlinks := s.lowlinks.put node (min (s.lowlink node) number) }

/-- What is taken off a stack until a node has been taken, and what is left. -/
def unstack (node : α) : List α → List α × List α
  | [] => ([], [])
  | a :: rest =>
    if a = node then ([a], rest)
    else (a :: (unstack node rest).1, (unstack node rest).2)

/-- Makes a component of a node and all that is above it on the stack. -/
def close (s : Search α) (node : α) : Search α :=
  let popped := unstack node s.stack
  { s with
    stack := popped.2
    onStack := s.onStack.filter (· ∉ popped.1)
    components := s.components ++ [popped.1] }

/-- A successor that is new is visited and passes its lowlink on to the node; one that is on the
stack passes on its number. -/
def follow (visit : Search α → α → Option (Search α)) (node : α) (s : Search α) (a : α) :
    Option (Search α) :=
  if s.entered a then
    if a ∈ s.onStack then some (s.lower node (s.index a)) else some s
  else
    (visit s a).map fun later => later.lower node (later.lowlink a)

/-- Leaves a node, and closes its component if its lowlink is its own number. -/
def leave (s : Search α) (node : α) : Search α :=
  if s.lowlink node = s.index node then s.close node else s

end Search

namespace Graph

variable {α : Type} [DecidableEq α]

def successors (g : Graph α) (node : α) : List α :=
  g.get node []

/-- All nodes, listed ones first. -/
def nodes (g : Graph α) : List α :=
  (g.map Prod.fst ++ g.flatMap Prod.snd).eraseDups

variable (le : α → α → Bool)

/-- Enters a node, follows its successors in ascending order, and leaves it. There is no result if
visits are nested deeper than `depth`. -/
def visit (g : Graph α) : Nat → Search α → α → Option (Search α)
  | 0, _, _ => none
  | depth + 1, s, node =>
    ((sortBy le (g.successors node)).foldlM (Search.follow (visit g depth) node) (s.enter node)).map
      (·.leave node)

/-- Visits every listed node that has not been entered, in ascending order. -/
def search? (g : Graph α) (depth : Nat) : Option (Search α) :=
  (sortBy le (g.map Prod.fst)).foldlM
    (fun s node => if s.entered node then some s else visit le g depth s node) {}

/-- The strongly connected components, each in ascending order, if the search for them nests visits
no deeper than `depth`. -/
def components? (g : Graph α) (depth : Nat) : Option (List (List α)) :=
  (g.search? le depth).map fun s => s.components.map (sortBy le)

/-- The strongly connected components. No node is entered twice, so their number bounds the
nesting. -/
def components (g : Graph α) : List (List α) :=
  (g.components? le g.nodes.length).getD []

end Graph

end ComponentLint
