import Workflows.Document
import Workflows.Value.Literal

/-!
# Operation — one step of an edit

An edit of a document is a list of operations, each of which adds, removes or changes one thing.
An operation is an object whose `type` says which kind it is; fields that its kind does not have
are faults.

Main definitions:

* `NodeRef` — a node by its id or its name;
* `Action`, `Operation` — the kinds of operations;
* `Operation.decode`, `Operation.toValue`;
* `Operation.parse` — operations from values, with a report on each malformed one.
-/

namespace Workflows

/-- A node by its id or its name; the id goes first when both are given. -/
structure NodeRef where
  id : Option String
  name : Option String
  given : id.isSome ∨ name.isSome
  deriving DecidableEq, Repr

namespace NodeRef

def text (r : NodeRef) : String :=
  r.id.getD (r.name.getD "")

end NodeRef

structure AddedLink where
  source : String
  target : String
  output : String
  input : String
  sourceIndex : Int
  targetIndex : Int
  deriving DecidableEq, Repr

/-- The links to be removed: those of one slot, or of every slot when none is given. -/
structure RemovedLinks where
  source : String
  target : String
  output : String
  input : String
  sourceIndex : Option Int
  deriving DecidableEq, Repr

/-- What is to become of a link; what is not given stays. -/
structure LinkChanges where
  output : Option String
  input : Option String
  sourceIndex : Option Int
  targetIndex : Option Int
  deriving DecidableEq, Repr

structure ChangedLink where
  source : String
  target : String
  output : String
  sourceIndex : Option Int
  changes : LinkChanges
  deriving DecidableEq, Repr

inductive Action
  | addNode (node : NewNode)
  | removeNode (node : NodeRef)
  /-- Assigns to dotted paths in a node. -/
  | updateNode (node : NodeRef) (changes : List (String × Value))
  | moveNode (node : NodeRef) (position : Position)
  | enableNode (node : NodeRef)
  | disableNode (node : NodeRef)
  | addConnection (link : AddedLink)
  | removeConnection (links : RemovedLinks)
  | updateConnection (link : ChangedLink)
  | updateSettings (settings : List (String × Value))
  | updateName (name : String)
  | addTag (tag : String)
  | removeTag (tag : String)
  deriving Repr

structure Operation where
  description : Option String
  action : Action
  deriving Repr

namespace Action

def words : List String :=
  ["addNode", "removeNode", "updateNode", "moveNode", "enableNode", "disableNode",
    "addConnection", "removeConnection", "updateConnection", "updateSettings", "updateName",
    "addTag", "removeTag"]

def word : Action → String
  | addNode _ => "addNode"
  | removeNode _ => "removeNode"
  | updateNode _ _ => "updateNode"
  | moveNode _ _ => "moveNode"
  | enableNode _ => "enableNode"
  | disableNode _ => "disableNode"
  | addConnection _ => "addConnection"
  | removeConnection _ => "removeConnection"
  | updateConnection _ => "updateConnection"
  | updateSettings _ => "updateSettings"
  | updateName _ => "updateName"
  | addTag _ => "addTag"
  | removeTag _ => "removeTag"

end Action

/-! ## Reading -/

namespace Operation

def typeField : FieldName := .single "type"

def descriptionField : FieldName := .single "description"

def nodeIdField : FieldName := ⟨"nodeId", "node_id"⟩

def nodeNameField : FieldName := ⟨"nodeName", "node_name"⟩

def sourceOutputField : FieldName := ⟨"sourceOutput", "source_output"⟩

def targetInputField : FieldName := ⟨"targetInput", "target_input"⟩

def sourceIndexField : FieldName := ⟨"sourceIndex", "source_index"⟩

def targetIndexField : FieldName := ⟨"targetIndex", "target_index"⟩

/-- Reads an optional field that may be null. -/
def maybe (f : FieldName) (kind : Value → Decoded α) (es : Entries Value) :
    Decoded (Option α) :=
  Shape.optional f none (Shape.nullable kind) es

/-- An operation with the given fields, beside those that every kind has. -/
def withFields (fields : List FieldName) (action : Entries Value → Decoded Action)
    (es : Entries Value) : Decoded Operation :=
  (fun description action _ => ⟨description, action⟩)
    <$> maybe descriptionField Shape.string es
    <*> action es
    <*> Shape.noLeftovers (descriptionField :: typeField :: fields) es

/-- An operation on one node, which has to be given once all fields are read. -/
def onNode (fields : List FieldName) (action : Entries Value → Decoded (NodeRef → Action))
    (es : Entries Value) : Decoded Operation :=
  let checked :=
    (fun description id name action _ => (description, id, name, action))
      <$> maybe descriptionField Shape.string es
      <*> maybe nodeIdField Shape.string es
      <*> maybe nodeNameField Shape.string es
      <*> action es
      <*> Shape.noLeftovers
            (descriptionField :: nodeIdField :: nodeNameField :: typeField :: fields) es
  -- That a node is given is asked last, so it is the only fault when it is one.
  checked.bind fun (description, id, name, action) =>
    if given : id.isSome ∨ name.isSome then .ok ⟨description, action ⟨id, name, given⟩⟩
    else .fail .noNodeReference

def filledObject (v : Value) : Decoded (Entries Value) :=
  (Shape.object v).bind fun es => if es.isEmpty then .fail .emptyObject else .ok es

def decodeAddedLink (es : Entries Value) : Decoded AddedLink :=
  AddedLink.mk
    <$> Shape.required (.single "source") Shape.string es
    <*> Shape.required (.single "target") Shape.string es
    <*> Shape.optional sourceOutputField "main" Shape.string es
    <*> Shape.optional targetInputField "main" Shape.string es
    <*> Shape.optional sourceIndexField 0 Shape.integer es
    <*> Shape.optional targetIndexField 0 Shape.integer es

def decodeRemovedLinks (es : Entries Value) : Decoded RemovedLinks :=
  RemovedLinks.mk
    <$> Shape.required (.single "source") Shape.string es
    <*> Shape.required (.single "target") Shape.string es
    <*> Shape.optional sourceOutputField "main" Shape.string es
    <*> Shape.optional targetInputField "main" Shape.string es
    <*> maybe sourceIndexField Shape.integer es

def decodeLinkChanges : Value → Decoded LinkChanges :=
  Shape.model "ConnectionChanges" fun es =>
    (fun output input sourceIndex targetIndex _ => ⟨output, input, sourceIndex, targetIndex⟩)
      <$> maybe sourceOutputField Shape.string es
      <*> maybe targetInputField Shape.string es
      <*> maybe sourceIndexField Shape.integer es
      <*> maybe targetIndexField Shape.integer es
      <*> Shape.noLeftovers
            [sourceOutputField, targetInputField, sourceIndexField, targetIndexField] es

def decodeChangedLink (es : Entries Value) : Decoded ChangedLink :=
  ChangedLink.mk
    <$> Shape.required (.single "source") Shape.string es
    <*> Shape.required (.single "target") Shape.string es
    <*> Shape.optional sourceOutputField "main" Shape.string es
    <*> maybe sourceIndexField Shape.integer es
    <*> Shape.required (.single "changes") decodeLinkChanges es

def reader? : String → Option (Entries Value → Decoded Operation)
  | "addNode" => some <| withFields [.single "node"] fun es =>
      .addNode <$> Shape.required (.single "node") NewNode.decode es
  | "removeNode" => some <| onNode [] fun _ => .ok .removeNode
  | "updateNode" => some <| onNode [.single "changes"] fun es =>
      (fun changes node => .updateNode node changes)
        <$> Shape.required (.single "changes") filledObject es
  | "moveNode" => some <| onNode [.single "position"] fun es =>
      (fun position node => .moveNode node position)
        <$> Shape.required (.single "position") NodeBody.decodePosition es
  | "enableNode" => some <| onNode [] fun _ => .ok .enableNode
  | "disableNode" => some <| onNode [] fun _ => .ok .disableNode
  | "addConnection" => some <|
      withFields
        [.single "source", .single "target", sourceOutputField, targetInputField,
          sourceIndexField, targetIndexField]
        fun es => .addConnection <$> decodeAddedLink es
  | "removeConnection" => some <|
      withFields
        [.single "source", .single "target", sourceOutputField, targetInputField,
          sourceIndexField]
        fun es => .removeConnection <$> decodeRemovedLinks es
  | "updateConnection" => some <|
      withFields
        [.single "source", .single "target", sourceOutputField, sourceIndexField,
          .single "changes"]
        fun es => .updateConnection <$> decodeChangedLink es
  | "updateSettings" => some <| withFields [.single "settings"] fun es =>
      .updateSettings <$> Shape.required (.single "settings") Shape.object es
  | "updateName" => some <| withFields [.single "name"] fun es =>
      .updateName <$> Shape.required (.single "name") Shape.filledString es
  | "addTag" => some <| withFields [.single "tag"] fun es =>
      .addTag <$> Shape.required (.single "tag") Shape.filledString es
  | "removeTag" => some <| withFields [.single "tag"] fun es =>
      .removeTag <$> Shape.required (.single "tag") Shape.filledString es
  | _ => none

/-- An operation from the entries of an object. Faults lie under the kind of the operation. -/
def ofEntries (es : Entries Value) : Decoded Operation :=
  match es.get? "type" with
  | none => .fail (.noTag "type")
  | some (.str word) =>
    -- The kind alone decides which fields are read, so no faults of other kinds are reported.
    match reader? word with
    | some read => (read es).under (.key word)
    | none => .fail (.unknownTag "type" word Action.words)
  | some v => .fail (.unknownTag "type" v.shown Action.words)

/-! ## Writing -/

def textOrNull (o : Option String) : Value :=
  (o.map Value.str).getD .null

def wholeOrNull (o : Option Int) : Value :=
  (o.map Value.int).getD .null

def refEntries (r : NodeRef) : Entries Value :=
  [("nodeId", textOrNull r.id), ("nodeName", textOrNull r.name)]

def linkChangesValue (c : LinkChanges) : Value :=
  .obj
    [("sourceOutput", textOrNull c.output), ("targetInput", textOrNull c.input),
      ("sourceIndex", wholeOrNull c.sourceIndex), ("targetIndex", wholeOrNull c.targetIndex)]

/-- The fields of an operation beside its description and kind. -/
def actionEntries : Action → Entries Value
  | .addNode n => [("node", .obj (n.toAllEntries n.idValue))]
  | .removeNode r | .enableNode r | .disableNode r => refEntries r
  | .updateNode r changes => refEntries r ++ [("changes", .obj changes)]
  | .moveNode r p => refEntries r ++ [("position", NodeBody.positionValue p)]
  | .addConnection l =>
    [("source", .str l.source), ("target", .str l.target), ("sourceOutput", .str l.output),
      ("targetInput", .str l.input), ("sourceIndex", .int l.sourceIndex),
      ("targetIndex", .int l.targetIndex)]
  | .removeConnection l =>
    [("source", .str l.source), ("target", .str l.target), ("sourceOutput", .str l.output),
      ("targetInput", .str l.input), ("sourceIndex", wholeOrNull l.sourceIndex)]
  | .updateConnection l =>
    [("source", .str l.source), ("target", .str l.target), ("sourceOutput", .str l.output),
      ("sourceIndex", wholeOrNull l.sourceIndex), ("changes", linkChangesValue l.changes)]
  | .updateSettings settings => [("settings", .obj settings)]
  | .updateName name => [("name", .str name)]
  | .addTag tag | .removeTag tag => [("tag", .str tag)]

/-- The wire form of an operation, with everything that is not set as null. -/
def toValue (o : Operation) : Value :=
  .obj ([("description", textOrNull o.description), ("type", .str o.action.word)]
    ++ actionEntries o.action)

end Operation
end Workflows
