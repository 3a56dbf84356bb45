import Workflows.Catalog
import Workflows.Report

/-!
# Scene — a document and the types of its nodes

Nodes are referred to by name. When several nodes bear a name, the first one is meant; the others
are reported and otherwise checked like any node.

Main definitions:

* `Scene` — a document with the catalog of its node types;
* `Scene.typeOf`, `Scene.node?`, `Scene.executing`;
* `Scene.structureIssues` — the findings about the document as a whole.
-/

namespace Workflows

structure Scene where
  document : Document
  catalog : Catalog
  deriving Repr

namespace Scene

def nodes (s : Scene) : List Node :=
  s.document.nodes

def typeOf (s : Scene) (n : Node) : Option NodeType :=
  s.catalog.find? n.type

def node? (s : Scene) (name : String) : Option Node :=
  s.document.node? name

/-- The name of the first node with the id. -/
def nameOfId? (s : Scene) (id : String) : Option String :=
  (s.nodes.find? (·.id == id)).map (·.name)

def names (s : Scene) : List String :=
  s.document.nodeNames.eraseDups

/-! ## Kinds of nodes -/

/-- Whether a node starts the workflow. For a type that is not in the catalog the name decides. -/
def isTrigger (s : Scene) (n : Node) : Bool :=
  match s.typeOf n with
  | some t => t.isTrigger
  | none => TypeName.looksLikeTrigger n.type

/-- The types of nodes that are notes to the reader. -/
def passiveTypes : List String := ["nodes-base.stickyNote"]

/-- Whether a node does anything: it is enabled and no note. -/
def executes (s : Scene) (n : Node) : Bool :=
  !n.disabled && (s.typeOf n).all fun t => !passiveTypes.contains t.name

def executing (s : Scene) : List Node :=
  s.nodes.filter s.executes

def triggers (s : Scene) : List Node :=
  s.executing.filter s.isTrigger

def isLoopCapable (s : Scene) (n : Node) : Bool :=
  (s.typeOf n).any (·.isLoopCapable)

/-! ## Structure -/

/-- The findings for names and ids that nodes before have already. -/
def duplicateIssues (names ids : List String) : List Node → List Issue
  | [] => []
  | n :: rest =>
    (if names.contains n.name then
        [{ (Issue.error .structural "duplicate_name"
              ("Duplicate node name: \"" ++ n.name ++ "\"")).onNode n with
            fix := some "Node names must be unique; rename one of the nodes" }]
      else [])
      ++ (if ids.contains n.id then
            [(Issue.error .structural "duplicate_id"
              ("Duplicate node ID: \"" ++ n.id ++ "\"")).onNode n]
          else [])
      ++ duplicateIssues (n.name :: names) (n.id :: ids) rest

def noConnections : Issue :=
  { Issue.error .connection "no_connections" "Multi-node workflow has no connections" with
    fix := some "Connect the nodes so data flows from the trigger onwards" }

def noTrigger : Issue :=
  Issue.warning .structural "no_trigger"
    "Workflow has no trigger nodes; it can only be executed manually"

/-- The findings about names, ids, and what the document lacks. -/
def structureIssues (s : Scene) : List Issue :=
  let executing := s.executing
  duplicateIssues [] [] s.nodes
    -- A single node needs no connections, nor do notes and disabled nodes.
    ++ (if 1 < executing.length ∧ s.document.connections.all (fun c => c.2.isEmpty) then
          [noConnections]
        else [])
    ++ (if !executing.isEmpty && s.triggers.isEmpty then [noTrigger] else [])

end Scene
end Workflows
