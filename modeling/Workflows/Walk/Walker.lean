import Workflows.Walk

/-!
# Walker — walks with a record

A walker goes through a tree value by value. It hands on what it meets and keeps a record of the
problems, in which an overrun of the depth is noted once only. It knows the containers that it has
entered and not left yet: a value that is one of them is a reference back, and is not entered again.
Every walk begins with an empty record, so a walker can be used again.

Main definitions:

* `Walker` — limits, and the record of the last walk;
* `Walker.Course` — a walk under way;
* `Walker.walk` — what is handed on, and the walker afterwards.
-/

namespace Workflows

structure Walker where
  limits : WalkLimits := {}
  anomalies : List Anomaly := []
  /-- Whether an overrun of the depth has been noted. -/
  overrun : Bool := false
  deriving Repr

namespace Walker

/-- A walk under way. Around a value there is one container at each depth, so the containers that
the walk is in are known by their depths. -/
structure Course where
  walker : Walker
  inside : List Nat := []
  visits : List Visit := []
  deriving Repr

namespace Course

def handOn (c : Course) (v : Visit) : Course :=
  { c with visits := c.visits ++ [v] }

def note (c : Course) (a : Anomaly) : Course :=
  { c with walker := { c.walker with anomalies := c.walker.anomalies ++ [a] } }

/-- One note is enough, as the limit is the same everywhere. -/
def noteOverrun (c : Course) (path : String) : Course :=
  if c.walker.overrun then c
  else
    let noted := c.note (.tooDeep path c.walker.limits.depth)
    { noted with walker := { noted.walker with overrun := true } }

def enter (c : Course) (container : Nat) : Course :=
  { c with inside := container :: c.inside }

def leave (c : Course) (container : Nat) : Course :=
  { c with inside := c.inside.erase container }

/-- Passes a container, going through what it holds unless the walk is in it already. -/
def through (c : Course) (depth : Nat) (path : String) (step : Option PlaceStep) (v : Value)
    (container : Nat) (inner : Course → Course) : Course :=
  if c.walker.limits.deepest < depth then c.noteOverrun path
  else if c.inside.contains container then c.note (.circular path)
  else (inner ((c.handOn ⟨path, step, v⟩).enter container)).leave container

end Course

mutual

/-- The walk after a value that stands under a path, at a depth. -/
def pass (depth : Nat) (path : String) (step : Option PlaceStep) : Value → Course → Course
  | .obj fields, c =>
    c.through depth path step (.obj fields) depth fun c => passFields (depth + 1) path fields c
  | .arr items, c =>
    c.through depth path step (.arr items) depth fun c => passItems (depth + 1) path 0 items c
  -- A reference is the container itself that lies so many levels further out.
  | .up levels, c => c.through depth path step (.up levels) (depth - levels) id
  | scalar, c =>
    if c.walker.limits.deepest < depth then c.noteOverrun path else c.handOn ⟨path, step, scalar⟩

def passItems (depth : Nat) (path : String) : Nat → List Value → Course → Course
  | _, [], c => c
  | i, v :: rest, c =>
    passItems depth path (i + 1) rest
      (pass depth (Place.extend path (.index i)) (some (.index i)) v c)

def passFields (depth : Nat) (path : String) : List (String × Value) → Course → Course
  | [], c => c
  | (k, v) :: rest, c =>
    passFields depth path rest
      (if c.walker.limits.skipPrivate && Walk.isPrivate k then c
        else pass depth (Place.extend path (.key k)) (some (.key k)) v c)

end

/-- What is met on a walk through a tree that stands under `root`, and the walker afterwards. -/
def walk (w : Walker) (root : String) (tree : Value) : List Visit × Walker :=
  let c := pass 0 root none tree { walker := { w with anomalies := [], overrun := false } }
  (c.visits, c.walker)

end Walker
end Workflows
