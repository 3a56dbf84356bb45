import Workflows.Shape.Decoded
import Workflows.Text.Blank

/-!
# Node — a step of a workflow

A node has a name, which connections refer to, an id, a type and the parameters of that type. The
attributes that control its execution are strict: a word or a number is no truth value. What a node
holds beside its fields is kept.

A node that is still to be added may lack the id, and has to say where it is placed.

Main definitions:

* `NodeBody`, `Node`, `NewNode`;
* `Node.decode`, `NewNode.decode` — nodes from values, with all faults;
* `Node.toEntries` — the wire form, in which fields that are not set are left out.
-/

namespace Workflows

structure Position where
  x : Number
  y : Number
  deriving DecidableEq, Repr

/-- Everything about a node but its id. -/
structure NodeBody where
  name : String
  type : String
  typeVersion : Option Number := none
  position : Position := ⟨.int 0, .int 0⟩
  parameters : Entries Value := []
  credentials : Option (Entries Value) := none
  disabled : Bool := false
  notes : Option String := none
  notesInFlow : Option Bool := none
  onError : Option String := none
  continueOnFail : Option Bool := none
  retryOnFail : Option Bool := none
  maxTries : Option Int := none
  waitBetweenTries : Option Int := none
  alwaysOutputData : Option Bool := none
  executeOnce : Option Bool := none
  extra : Entries Value := []
  deriving Repr

structure Node extends NodeBody where
  id : String
  deriving Repr

structure NewNode extends NodeBody where
  id : Option String
  deriving Repr

namespace NodeBody

/-! ## Reading -/

/-- The fields of a node, in the order in which their faults are listed. -/
def fieldNames : List FieldName :=
  [.single "id", .single "name", .single "type", ⟨"typeVersion", "type_version"⟩,
    .single "position", .single "parameters", .single "credentials", .single "disabled",
    .single "notes", ⟨"notesInFlow", "notes_in_flow"⟩, ⟨"onError", "on_error"⟩,
    ⟨"continueOnFail", "continue_on_fail"⟩, ⟨"retryOnFail", "retry_on_fail"⟩,
    ⟨"maxTries", "max_tries"⟩, ⟨"waitBetweenTries", "wait_between_tries"⟩,
    ⟨"alwaysOutputData", "always_output_data"⟩, ⟨"executeOnce", "execute_once"⟩]

/-- A name with something in it beside white space. -/
def decodeName (v : Value) : Decoded String :=
  (Shape.string v).bind fun s =>
    if Text.allBlank s.toList then .fail .emptyNodeName else .ok s

def decodePosition (v : Value) : Decoded Position :=
  (Shape.list Shape.number v).bind fun ns =>
    match ns with
    -- The numbers are checked before they are counted.
    | [x, y] => .ok ⟨x, y⟩
    | _ => .fail (.positionSize ns.length)

/-- The fields of a node behind its id. How the position is read is left open. -/
def decode (position : Entries Value → Decoded Position) (es : Entries Value) :
    Decoded NodeBody :=
  NodeBody.mk
    <$> Shape.required (.single "name") decodeName es
    <*> Shape.required (.single "type") Shape.string es
    <*> Shape.optional ⟨"typeVersion", "type_version"⟩ none (Shape.nullable Shape.number) es
    <*> position es
    <*> Shape.optional (.single "parameters") [] Shape.object es
    <*> Shape.optional (.single "credentials") none (Shape.nullable Shape.object) es
    <*> Shape.optional (.single "disabled") false Shape.boolean es
    <*> Shape.optional (.single "notes") none (Shape.nullable Shape.string) es
    <*> Shape.optional ⟨"notesInFlow", "notes_in_flow"⟩ none (Shape.nullable Shape.boolean) es
    <*> Shape.optional ⟨"onError", "on_error"⟩ none (Shape.nullable Shape.string) es
    <*> Shape.optional ⟨"continueOnFail", "continue_on_fail"⟩ none
          (Shape.nullable Shape.boolean) es
    <*> Shape.optional ⟨"retryOnFail", "retry_on_fail"⟩ none (Shape.nullable Shape.boolean) es
    <*> Shape.optional ⟨"maxTries", "max_tries"⟩ none (Shape.nullable Shape.integer) es
    <*> Shape.optional ⟨"waitBetweenTries", "wait_between_tries"⟩ none
          (Shape.nullable Shape.integer) es
    <*> Shape.optional ⟨"alwaysOutputData", "always_output_data"⟩ none
          (Shape.nullable Shape.boolean) es
    <*> Shape.optional ⟨"executeOnce", "execute_once"⟩ none (Shape.nullable Shape.boolean) es
    -- The id is no field of the body, but it is not left over either.
    <*> .ok (Shape.leftovers fieldNames es)

/-! ## Writing -/

def positionValue (p : Position) : Value :=
  .arr [.num p.x, .num p.y]

/-- The entries of a node in wire spelling, the id being given; null stands for what is not set. -/
def toAllEntries (id : Value) (b : NodeBody) : Entries Value :=
  let truth := fun (o : Option Bool) => (o.map Value.bool).getD .null
  let text := fun (o : Option String) => (o.map Value.str).getD .null
  let whole := fun (o : Option Int) => (o.map Value.int).getD .null
  [("id", id), ("name", .str b.name), ("type", .str b.type),
    ("typeVersion", (b.typeVersion.map Value.num).getD .null),
    ("position", positionValue b.position),
    ("parameters", .obj b.parameters),
    ("credentials", (b.credentials.map Value.obj).getD .null),
    ("disabled", .bool b.disabled),
    ("notes", text b.notes),
    ("notesInFlow", truth b.notesInFlow),
    ("onError", text b.onError),
    ("continueOnFail", truth b.continueOnFail),
    ("retryOnFail", truth b.retryOnFail),
    ("maxTries", whole b.maxTries),
    ("waitBetweenTries", whole b.waitBetweenTries),
    ("alwaysOutputData", truth b.alwaysOutputData),
    ("executeOnce", truth b.executeOnce)] ++ b.extra

end NodeBody

/-- The entries whose values are not null. -/
def Entries.withoutNulls (es : Entries Value) : Entries Value :=
  es.filter fun e => !e.2.isNull

namespace Node

def ofEntries (es : Entries Value) : Decoded Node :=
  (fun id body => { toNodeBody := body, id := id })
    <$> Shape.required (.single "id") Shape.string es
    <*> NodeBody.decode
          (Shape.optional (.single "position") ⟨.int 0, .int 0⟩ NodeBody.decodePosition) es

def decode : Value → Decoded Node :=
  Shape.model "WorkflowNode" ofEntries

def toEntries (n : Node) : Entries Value :=
  (n.toAllEntries (.str n.id)).withoutNulls

end Node

namespace NewNode

def ofEntries (es : Entries Value) : Decoded NewNode :=
  (fun id body => { toNodeBody := body, id := id })
    <$> Shape.optional (.single "id") none (Shape.nullable Shape.string) es
    <*> NodeBody.decode (Shape.required (.single "position") NodeBody.decodePosition) es

def decode : Value → Decoded NewNode :=
  Shape.model "NewNode" ofEntries

def idValue (n : NewNode) : Value :=
  (n.id.map Value.str).getD .null

def toEntries (n : NewNode) : Entries Value :=
  (n.toAllEntries n.idValue).withoutNulls

end NewNode
end Workflows
