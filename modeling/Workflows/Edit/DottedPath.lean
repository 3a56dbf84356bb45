import Workflows.Text.Pieces
import Workflows.Value

/-!
# DottedPath — assignments deep inside an object

A dotted path such as `parameters.url` names a place by the keys that lead to it. An assignment
makes objects on the way where there is nothing or null, and fails where there is anything else
but an object.

Main definitions:

* `DottedPath.assign` — the object after an assignment;
* `DottedPath.store` — an assignment in an object that stays, and what it leaves when it fails;
* `DottedPath.read?` — what stands at a place;
* `PathFault` — why an assignment is not possible.
-/

namespace Workflows

inductive PathFault
  | emptyKey (path : String)
  /-- Something on the way is no object. -/
  | blocked (path : String) (place : String)
  deriving DecidableEq, Repr

def PathFault.message : PathFault → String
  | emptyKey path => "Invalid change path '" ++ path ++ "'"
  | blocked path place => "Cannot set '" ++ path ++ "': '" ++ place ++ "' is not an object"

namespace DottedPath

def keys (path : String) : List String :=
  Text.pieces '.' path

/-- What stands at the end of a way of keys. -/
def read? : List String → Entries Value → Option Value
  | [], es => some (.obj es)
  | [key], es => es.get? key
  | key :: rest, es =>
    match es.get? key with
    | some (.obj inner) => read? rest inner
    | _ => none

/-- Assigns at the end of a way of keys, or tells how many keys lead to what is no object. -/
def assignKeys (value : Value) : List String → Entries Value → Except Nat (Entries Value)
  | [], es => .ok es
  | [key], es => .ok (es.put key value)
  | key :: rest, es =>
    let within := fun (inner : Entries Value) =>
      match assignKeys value rest inner with
      | .ok inner => .ok (es.put key (.obj inner))
      | .error steps => .error (steps + 1)
    match es.get? key with
    | none | some .null => within []
    | some (.obj inner) => within inner
    | some _ => .error 1

def assign (path : String) (value : Value) (es : Entries Value) :
    Except PathFault (Entries Value) :=
  let ks := keys path
  if ks.contains "" then .error (.emptyKey path)
  else
    match assignKeys value ks es with
    | .ok es => .ok es
    | .error steps => .error (.blocked path (Text.join "." (ks.take steps)))

/-- Assigns at the end of a way of keys within an object that stays: how many keys lead to what is no
object, if there is such a thing, and what has become of the object until then. -/
def assignInPlace (value : Value) : List String → Entries Value → Option Nat × Entries Value
  | [], es => (none, es)
  | [key], es => (none, es.put key value)
  | key :: rest, es =>
    -- An object that is made on the way is in its place before the assignment goes on in it.
    let within := fun (inner : Entries Value) =>
      let (fault, inner) := assignInPlace value rest inner
      (fault.map (· + 1), es.put key (.obj inner))
    match es.get? key with
    | none | some .null => within []
    | some (.obj inner) => within inner
    | some _ => (some 1, es)

/-- Assigns within an object that stays: why it was not possible, and the object as it is left. -/
def store (path : String) (value : Value) (es : Entries Value) :
    Option PathFault × Entries Value :=
  let ks := keys path
  if ks.contains "" then (some (.emptyKey path), es)
  else
    let (fault, es) := assignInPlace value ks es
    (fault.map fun steps => .blocked path (Text.join "." (ks.take steps)), es)

/-- The object after several assignments, one after the other. -/
def assignAll : List (String × Value) → Entries Value → Except PathFault (Entries Value)
  | [], es => .ok es
  | (path, value) :: rest, es =>
    match assign path value es with
    | .ok es => assignAll rest es
    | .error f => .error f

end DottedPath
end Workflows
