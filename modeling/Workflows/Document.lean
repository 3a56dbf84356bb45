import Workflows.Document.Connections
import Workflows.Document.Node

/-!
# Document — a workflow with its nodes and connections

Main definitions:

* `Document`, `Document.decode`, `Document.toValue` — documents, from values and back;
* `Document.node?` — the first node that bears a name;
* `ShapeIssue`, `ShapeIssue.summary` — the report of a value that is no document.
-/

namespace Workflows

structure Document where
  name : String := ""
  nodes : List Node
  connections : Connections := []
  settings : Entries Value := []
  tags : List String := []
  extra : Entries Value := []
  deriving Repr

namespace Document

def nodeNames (d : Document) : List String :=
  d.nodes.map (·.name)

/-- The first node that bears the name. -/
def node? (name : String) (d : Document) : Option Node :=
  d.nodes.find? (·.name == name)

def fieldNames : List FieldName :=
  [.single "name", .single "nodes", .single "connections", .single "settings", .single "tags"]

def ofEntries (es : Entries Value) : Decoded Document :=
  Document.mk
    <$> Shape.optional (.single "name") "" Shape.string es
    <*> Shape.required (.single "nodes") (Shape.list Node.decode) es
    <*> Shape.optional (.single "connections") [] Connections.decode es
    <*> Shape.optional (.single "settings") [] Shape.object es
    <*> Shape.optional (.single "tags") [] (Shape.list Shape.string) es
    <*> .ok (Shape.leftovers fieldNames es)

def decode : Value → Decoded Document
  | .obj es => ofEntries es
  | v => .fail (.notDocument v.kind)

def toEntries (d : Document) : Entries Value :=
  [("name", .str d.name), ("nodes", .arr (d.nodes.map fun n => .obj n.toEntries)),
    ("connections", d.connections.toValue), ("settings", .obj d.settings),
    ("tags", .strings d.tags)] ++ d.extra.withoutNulls

/-- The wire form of a document: fields that are not set and extra entries that are null are left
out, nulls inside free-form values are kept. -/
def toValue (d : Document) : Value :=
  .obj d.toEntries

end Document

/-- A structural problem of a value that was to be a document. -/
structure ShapeIssue where
  path : String
  message : String
  deriving DecidableEq, Repr

def Fault.shapeIssue (f : Fault) : ShapeIssue :=
  ⟨f.place.text, f.message⟩

namespace ShapeIssue

def text (i : ShapeIssue) : String :=
  i.path ++ ": " ++ i.message

/-- The first three problems, and the number of the others. -/
def summary (issues : List ShapeIssue) : String :=
  let shown := Text.join "; " ((issues.take 3).map text)
  let more :=
    if issues.length > 3 then " (+" ++ toString (issues.length - 3) ++ " more)" else ""
  "Malformed workflow document: " ++ shown ++ more

end ShapeIssue
end Workflows
