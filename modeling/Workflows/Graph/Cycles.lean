import Workflows.Graph
import Workflows.NameSet

/-!
# Cycles — the elementary cycles of a graph

An elementary cycle passes through no node twice. It is listed from its least name on, so that each
cycle has one list. The search for cycles follows a path only as long as the path can be closed,
and it ends when as many cycles are found as were asked for.

In large graphs only the first cycle is looked for that a depth-first search comes upon.

Main definitions:

* `Graph.cyclesUpTo` — elementary cycles, not more than a given number;
* `Graph.firstCycle?` — the cycle that a depth-first search meets first.
-/

namespace Workflows
namespace Graph

/-! ## All cycles -/

/-- Extends the cycles found by those that close a path. The path is given from its end to its
start, which is the least node of the cycle; `free` are the nodes it may still pass through. -/
def closures (g : Graph) (limit : Nat) (start : String) :
    Nat → List String → List String → List (List String) → List (List String)
  | 0, _, _, found => found
  | _, _, [], found => found
  | steps + 1, free, node :: path, found =>
    let useful := g.leadingTo start free
    (g.successors node).foldl
      (fun found next =>
        -- The limit is looked at before each step, so it is never exceeded.
        if limit ≤ found.length then found
        else if next = start then found ++ [(node :: path).reverse]
        else if useful.contains next then
          closures g limit start steps (free.erase next) (next :: node :: path) found
        else found)
      found

/-- Extends the cycles found by those whose least node is the given one. -/
def cyclesFrom (g : Graph) (limit : Nat) (found : List (List String)) (start : String) :
    List (List String) :=
  -- Cycles through lesser nodes are found from those.
  let free := g.nodes.filter (start < ·)
  g.closures limit start (free.length + 1) free [start] found

/-- The elementary cycles, or as many of them as the limit allows. -/
def cyclesUpTo (g : Graph) (limit : Nat) : List (List String) :=
  (NameSet.insertAll g.nodes []).foldl (g.cyclesFrom limit) []

/-! ## The first cycle -/

/-- A depth-first search: the cycle it has met, or the nodes it is done with. -/
inductive Search
  | cycle (members : List String)
  | done (finished : List String)
  deriving Repr

/-- Goes on searching unless a cycle is met already. -/
def Search.andThen (s : Search) (continuation : List String → Search) : Search :=
  match s with
  | cycle members => cycle members
  | done finished => continuation finished

/-- The part of a path, given from its end to its start, that begins at a node. -/
def backTo (node : String) (path : List String) : List String :=
  node :: (path.takeWhile (· != node)).reverse

/-- Searches everything behind a node that lies at the end of a path. -/
def search (g : Graph) : Nat → List String → List String → String → Search
  | 0, _, finished, _ => .done finished
  | steps + 1, path, finished, node =>
    let here := node :: path
    let behind : Search := (g.successors node).foldl
      (fun s next => s.andThen fun finished =>
        -- A node on the path closes a cycle, also if all behind it is done with.
        if here.contains next then .cycle (backTo next here)
        else if finished.contains next then .done finished
        else search g steps here finished next)
      (.done finished)
    behind.andThen fun finished => .done (node :: finished)

def searchAll (g : Graph) : Search :=
  g.nodes.foldl
    (fun s node => s.andThen fun finished =>
      if finished.contains node then .done finished
      else g.search (g.nodes.length + 1) [] finished node)
    (.done [])

def firstCycle? (g : Graph) : Option (List String) :=
  match g.searchAll with
  | .cycle members => some members
  | .done _ => none

end Graph
end Workflows
