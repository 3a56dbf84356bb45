import Workflows.Entries

/-!
# Graph — directed graphs on names

A graph lists its nodes in order, and for each of them the nodes its edges lead to, in order. Edges
from a node to itself and edges to names that are no nodes do not occur in the graphs of this
library.

Main definitions:

* `Graph`, `Graph.nodes`, `Graph.successors`, `Graph.Edge`;
* `Graph.leadingTo`, `Graph.reaches` — where walks of a bounded length lead;
* `Graph.longestChain?` — the number of nodes on a longest path of a graph without cycles.
-/

namespace Workflows

structure Graph where
  /-- The nodes, each with its successors. -/
  adjacency : Entries (List String)
  deriving Repr

namespace Graph

def nodes (g : Graph) : List String :=
  g.adjacency.keys

def successors (g : Graph) (node : String) : List String :=
  (g.adjacency.get? node).getD []

/-- There is an edge from the first node to the second. -/
def Edge (g : Graph) (u v : String) : Prop :=
  v ∈ g.successors u

instance (g : Graph) (u v : String) : Decidable (g.Edge u v) :=
  inferInstanceAs (Decidable (v ∈ g.successors u))

/-! ## Walks -/

/-- Whether an edge leads from a node to one of the goals. -/
def touches (g : Graph) (goals : List String) (node : String) : Bool :=
  (g.successors node).any goals.contains

/-- The nodes among `allowed` from which a walk of at most `steps` edges, with all nodes in between
from `allowed` too, leads to one of the goals. -/
def leadingWithin (g : Graph) : Nat → List String → List String → List String
  | 0, _, _ => []
  | steps + 1, goals, allowed =>
    let found := allowed.filter (g.touches goals)
    let others := allowed.filter fun u => !g.touches goals u
    if found.isEmpty then [] else found ++ leadingWithin g steps found others

/-- The nodes among `allowed` from which a walk through `allowed` leads to the goal. -/
def leadingTo (g : Graph) (goal : String) (allowed : List String) : List String :=
  g.leadingWithin allowed.length [goal] allowed

def reaches (g : Graph) (steps : Nat) (start goal : String) : Bool :=
  start == goal
    || (g.leadingWithin steps [goal] (g.nodes.filter (· != goal))).contains start

/-! ## Chains -/

/-- Whether an edge from one of some nodes leads to the node. -/
def isEntered (g : Graph) (among : List String) (node : String) : Bool :=
  among.any fun u => (g.successors u).contains node

/-- The number of times the nodes that no other one leads to can be taken away until nothing is
left; there is no such number when a cycle is left. -/
def layers? (g : Graph) : Nat → List String → Option Nat
  | _, [] => some 0
  | 0, _ :: _ => none
  | rounds + 1, left => (layers? g rounds (left.filter (g.isEntered left))).map (· + 1)

def longestChain? (g : Graph) : Option Nat :=
  g.layers? g.nodes.length g.nodes

end Graph
end Workflows
