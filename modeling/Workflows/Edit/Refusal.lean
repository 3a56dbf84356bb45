import Workflows.Document
import Workflows.Edit.DottedPath
import Workflows.TypeName

/-!
# Refusal — why an operation cannot be carried out

Main definitions:

* `LookupFault` — a reference that does not mean exactly one node;
* `Refusal`, `Refusal.message`;
* `Document.resolve` — the node that a reference means.
-/

namespace Workflows

/-- A reference that does not mean exactly one node. -/
inductive LookupFault
  | unknown (reference : String)
  | ambiguous (reference : String) (count : Nat)
  deriving DecidableEq, Repr

namespace LookupFault

/-- The message behind its first word. -/
def tail : LookupFault → String
  | unknown reference => " not found: \"" ++ reference ++ "\""
  | ambiguous reference count =>
    " reference \"" ++ reference ++ "\" is ambiguous: it matches " ++ toString count ++ " nodes"

def message (f : LookupFault) : String :=
  "Node" ++ f.tail

end LookupFault

inductive Refusal
  | noNode (f : LookupFault)
  | noSource (f : LookupFault)
  | noTarget (f : LookupFault)
  | nameTaken (name : String)
  | idTaken (id : String)
  | badType (f : TypeName.FormFault)
  | badPath (f : PathFault)
  | badUpdate (node : String) (f : Fault)
  | renameTaken (old new : String)
  | newIdTaken (node id : String)
  | negativeSource (index : Int)
  | negativeTarget (index : Int)
  | noOutput (index : Int) (node : String) (declared : Nat) (type : String)
  | linkExists (source target : String)
  | noLink (source target output : String)
  | severalLinks (source target : String)
  deriving DecidableEq, Repr

namespace Refusal

def message : Refusal → String
  | noNode f => f.message
  | noSource f => "Source node" ++ f.tail
  | noTarget f => "Target node" ++ f.tail
  | nameTaken name => "Node with name \"" ++ name ++ "\" already exists"
  | idTaken id => "Node with id \"" ++ id ++ "\" already exists"
  | badType f => f.message
  | badPath f => f.message
  | badUpdate node f => "Invalid update for node \"" ++ node ++ "\": " ++ f.text
  | renameTaken old new =>
    "Cannot rename \"" ++ old ++ "\": a node named \"" ++ new ++ "\" exists"
  | newIdTaken node id => "Cannot change id of \"" ++ node ++ "\": id \"" ++ id ++ "\" is in use"
  | negativeSource index =>
    "Invalid source index " ++ toString index ++ ": must be non-negative"
  | negativeTarget index =>
    "Invalid target index " ++ toString index ++ ": must be non-negative"
  | noOutput index node declared type =>
    "Output index " ++ toString index ++ " of \"" ++ node ++ "\" exceeds the "
      ++ toString declared ++ " output(s) declared by " ++ type
  | linkExists source target =>
    "Connection already exists from \"" ++ source ++ "\" to \"" ++ target ++ "\""
  | noLink source target output =>
    "No connection exists from \"" ++ source ++ "\" to \"" ++ target ++ "\" on output \""
      ++ output ++ "\""
  | severalLinks source target =>
    "Connection from \"" ++ source ++ "\" to \"" ++ target
      ++ "\" exists on several outputs; specify sourceIndex"

end Refusal

/-! ## References -/

/-- Whether a reference is the id or the name of a node. -/
def Node.answersTo (reference : String) (n : Node) : Bool :=
  reference == n.id || reference == n.name

/-- The only node that a reference means. -/
def Document.resolve (d : Document) (reference : String) : Except LookupFault Node :=
  match d.nodes.filter (Node.answersTo reference) with
  | [] => .error (.unknown reference)
  | [n] => .ok n
  | ns => .error (.ambiguous reference ns.length)

end Workflows
