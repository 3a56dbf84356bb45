import Workflows.NodeType.Property
import Workflows.TypeName

/-!
# NodeType — what a catalog says about a type of nodes

Main definitions:

* `Version` — one version number, or the list of those that exist;
* `NodeType`, `NodeType.decode`, `NodeType.toEntries`;
* `NodeType.latest`, `NodeType.isVersioned`.
-/

namespace Workflows

inductive Version
  | single (n : Number)
  | many (ns : List Number)
  deriving DecidableEq, Repr

structure CredentialNeed where
  name : String
  required : Bool
  deriving DecidableEq, Repr

structure NodeType where
  name : String
  displayName : String := ""
  version : Version := .single (.int 1)
  isTrigger : Bool := false
  /-- Whether an output may lead back to the node. -/
  isLoopCapable : Bool := false
  outputs : List String := ["main"]
  /-- Whether the number of outputs depends on the parameters. -/
  dynamicOutputs : Bool := false
  /-- The properties as they were given; they are read one by one, so that a malformed one leaves
  the others alone. -/
  properties : List Value := []
  credentials : List CredentialNeed := []
  deriving Repr

namespace NodeType

/-- The faults of a value that is neither a number nor a list of numbers. -/
def versionFaults (v : Value) : List Fault :=
  (Shape.number v).faults
    ++ ((Shape.list Shape.number v).under (.key "list[union[int,float]]")).faults

def decodeVersion (v : Value) : Decoded Version :=
  match (Shape.number v).value?, (Shape.list Shape.number v).value? with
  | some n, _ => .ok (.single n)
  | none, some ns => .ok (.many ns)
  | none, none => .ofFaults (.many []) (versionFaults v)

def decodeCredential : Value → Decoded CredentialNeed :=
  Shape.model "CredentialRequirement" fun es =>
    CredentialNeed.mk
      <$> Shape.required (.single "name") Shape.string es
      <*> Shape.optional (.single "required") false Shape.looseBoolean es

def decode : Value → Decoded NodeType :=
  Shape.model "NodeTypeSchema" fun es =>
    NodeType.mk
      <$> Shape.required ⟨"nodeType", "node_type"⟩ Shape.string es
      <*> Shape.optional ⟨"displayName", "display_name"⟩ "" Shape.string es
      <*> Shape.optional (.single "version") (.single (.int 1)) decodeVersion es
      <*> Shape.optional ⟨"isTrigger", "is_trigger"⟩ false Shape.looseBoolean es
      <*> Shape.optional ⟨"isLoopCapable", "is_loop_capable"⟩ false Shape.looseBoolean es
      <*> Shape.optional (.single "outputs") ["main"] (Shape.list Shape.string) es
      <*> Shape.optional ⟨"dynamicOutputs", "dynamic_outputs"⟩ false Shape.looseBoolean es
      <*> Shape.optional (.single "properties") [] (Shape.list Shape.any) es
      <*> Shape.optional (.single "credentials") [] (Shape.list decodeCredential) es

/-- Whether documents have to say which version of the type they mean. -/
def isVersioned (t : NodeType) : Bool :=
  match t.version with
  | .single _ => false
  | .many _ => true

def latest (t : NodeType) : Number :=
  match t.version with
  | .single n => n
  | .many ns => (Number.greatest? ns).getD (.int 1)

def shortName (t : NodeType) : String :=
  TypeName.short t.name

def versionValue : Version → Value
  | .single n => .num n
  | .many ns => .arr (ns.map .num)

def credentialValue (c : CredentialNeed) : Value :=
  .obj [("name", .str c.name), ("required", .bool c.required)]

def toEntries (t : NodeType) : Entries Value :=
  [("nodeType", .str t.name), ("displayName", .str t.displayName),
    ("version", versionValue t.version), ("isTrigger", .bool t.isTrigger),
    ("isLoopCapable", .bool t.isLoopCapable), ("outputs", .strings t.outputs),
    ("dynamicOutputs", .bool t.dynamicOutputs), ("properties", .arr t.properties),
    ("credentials", .arr (t.credentials.map credentialValue))]

end NodeType
end Workflows
