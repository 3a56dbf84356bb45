import Workflows.Shape.Fault
import Workflows.Value

/-!
# Walk — every value of a parameter tree with its field path

A walk goes through a tree in document order, the containers before what they hold, and gives every
value with the path that leads to it. It stops below a given depth, leaves out back-references to
enclosing containers, and can leave out the entries whose keys begin with two underscores.

What happens on the way is a list of events, which depends on nothing but the place in the tree.
Only the first overrun of the depth becomes an anomaly; back-references become one each.

Main definitions:

* `Walk.events` — visits, overruns and back-references in order;
* `Walk.visits`, `Walk.anomalies` — what a caller sees of them.
-/

namespace Workflows

/-- A value met on a walk: its path, the key or index it stands under, and the value. The root of
the tree stands under no key. -/
structure Visit where
  path : String
  step : Option PlaceStep
  value : Value
  deriving Repr

namespace Visit

/-- The key a value stands under, if that is a key and no index. -/
def key? (v : Visit) : Option String :=
  match v.step with
  | some (.key name) => some name
  | _ => none

end Visit

inductive Anomaly
  | tooDeep (path : String) (limit : Number)
  | circular (path : String)
  deriving DecidableEq, Repr

namespace Anomaly

def path : Anomaly → String
  | tooDeep path _ => path
  | circular path => path

def message : Anomaly → String
  | tooDeep _ limit =>
    "Maximum nesting depth (" ++ limit.text ++
      ") exceeded; deeper values were not validated"
  | circular _ => "Circular reference detected; value skipped"

/-- Path and message in one line; the root has a name of its own. -/
def text (a : Anomaly) : String :=
  (if a.path = "" then "<root>" else a.path) ++ ": " ++ a.message

end Anomaly

/-- How deep to go, and whether to leave out private entries. -/
structure WalkLimits where
  depth : Number := .int 100
  skipPrivate : Bool := false
  deriving DecidableEq, Repr

/-- The depth of the deepest values that are visited. Depths are whole numbers, so a fraction of the
limit makes no difference. -/
def WalkLimits.deepest (limits : WalkLimits) : Int :=
  limits.depth.floor

namespace Walk

inductive Event
  | visit (v : Visit)
  | overrun (path : String)
  | backReference (path : String)
  deriving Repr

def isPrivate (key : String) : Bool :=
  ['_', '_'].isPrefixOf key.toList

mutual

/-- The events of the tree under a path, at a depth. -/
def events (limits : WalkLimits) (depth : Nat) (path : String) (step : Option PlaceStep) :
    Value → List Event
  | .obj fields =>
    if limits.deepest < depth then [.overrun path]
    else .visit ⟨path, step, .obj fields⟩ :: fieldEvents limits (depth + 1) path fields
  | .arr items =>
    if limits.deepest < depth then [.overrun path]
    else .visit ⟨path, step, .arr items⟩ :: itemEvents limits (depth + 1) path 0 items
  -- A reference lies as deep as the container would that it stands for.
  | .up _ =>
    if limits.deepest < depth then [.overrun path]
    else [.backReference path]
  | scalar =>
    if limits.deepest < depth then [.overrun path] else [.visit ⟨path, step, scalar⟩]

def itemEvents (limits : WalkLimits) (depth : Nat) (path : String) :
    Nat → List Value → List Event
  | _, [] => []
  | i, v :: rest =>
    events limits depth (Place.extend path (.index i)) (some (.index i)) v
      ++ itemEvents limits depth path (i + 1) rest

def fieldEvents (limits : WalkLimits) (depth : Nat) (path : String) :
    List (String × Value) → List Event
  | [] => []
  | (k, v) :: rest =>
    -- What lies under a private key is left out with it.
    (if limits.skipPrivate && isPrivate k then []
      else events limits depth (Place.extend path (.key k)) (some (.key k)) v)
      ++ fieldEvents limits depth path rest

end

/-- Turns events into anomalies; of the overruns only the first counts. -/
def anomaliesFrom (limit : Number) (reported : Bool) : List Event → List Anomaly
  | [] => []
  | .visit _ :: rest => anomaliesFrom limit reported rest
  | .backReference path :: rest => .circular path :: anomaliesFrom limit reported rest
  | .overrun path :: rest =>
    -- One report is enough, as the limit is the same everywhere.
    if reported then anomaliesFrom limit reported rest
    else .tooDeep path limit :: anomaliesFrom limit true rest

def visitsOf (es : List Event) : List Visit :=
  es.filterMap fun
    | .visit v => some v
    | _ => none

/-- The values met on a walk through a tree that stands under `root`. -/
def visits (limits : WalkLimits) (root : String) (tree : Value) : List Visit :=
  visitsOf (events limits 0 root none tree)

/-- The problems met on a walk through a tree that stands under `root`. -/
def anomalies (limits : WalkLimits) (root : String) (tree : Value) : List Anomaly :=
  anomaliesFrom limits.depth false (events limits 0 root none tree)

end Walk
end Workflows
