import Workflows.Edit.DottedPath

/-!
# NodeChanges — several assignments to one object

The changes of an update are carried out twice: once on trial and once for good, both times on the
object as it was before. An object that a change assigns takes in what later changes assign inside
it, and it still has that when it is assigned the second time. So the second run may end
differently from the first: something that a later change has put into such an object can be in
the way of an earlier one.

Main definitions:

* `Change` — a place, the value that is assigned there, and the changes whose objects it holds;
* `ChangeRun`, `ChangeRun.run` — one run of all changes.
-/

namespace Workflows

structure Change where
  path : String
  value : Value
  /-- The changes whose objects lie within the value. -/
  holds : List Nat := []
  deriving Repr

namespace Change

def keys (c : Change) : List String :=
  DottedPath.keys c.path

def isObject (c : Change) : Bool :=
  c.value.obj?.isSome

/-- Whether the place of the second change is that of the first, or lies within it. -/
def encloses (c d : Change) : Bool :=
  c.keys.isPrefixOf d.keys

def ofEntries (changes : List (String × Value)) : List Change :=
  changes.map fun (path, value) => { path := path, value := value }

end Change

/-- A run of changes: the object so far, the changes as they have become, and those of them whose
objects lie in the object at their places. -/
structure ChangeRun where
  data : Entries Value
  changes : List Change
  placed : List Nat := []
  deriving Repr

namespace ChangeRun

/-- Whether the change of an index lies within the given one. -/
def within (r : ChangeRun) (c : Change) (index : Nat) : Bool :=
  (r.changes[index]?).any c.encloses

/-- A change as it has become, given its index. -/
def refreshed (r : ChangeRun) (c : Change) (index : Nat) : Change :=
  if r.placed.contains index then
    -- The object is shared with the place it was assigned to, so it changes along with it.
    { c with
      value := (DottedPath.read? c.keys r.data).getD c.value
      holds := r.placed.filter fun j => j != index && r.within c j }
  else c

def step (r : ChangeRun) (index : Nat) (c : Change) : Except PathFault ChangeRun :=
  match DottedPath.assign c.path c.value r.data with
  | .error f => .error f
  | .ok data =>
    -- What has been placed within is overwritten, but the value may hold earlier objects itself.
    let others := r.placed.filter fun j => !r.within c j
    let r :=
      { r with
        data := data
        placed := others ++ (if c.isObject then index :: c.holds else []) }
    .ok { r with changes := r.changes.zipIdx.map fun (d, j) => r.refreshed d j }

/-- Carries out the changes from an index on. -/
def steps : Nat → Nat → ChangeRun → Except PathFault ChangeRun
  | 0, _, r => .ok r
  | count + 1, index, r =>
    match r.changes[index]? with
    | none => .ok r
    | some c =>
      match r.step index c with
      | .error f => .error f
      | .ok r => steps count (index + 1) r

def run (changes : List Change) (data : Entries Value) : Except PathFault ChangeRun :=
  steps changes.length 0 { data := data, changes := changes }

end ChangeRun
end Workflows
