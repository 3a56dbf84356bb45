import Workflows.Proofs.Walk.Exact
import Workflows.Walk.Walker

/-!
# Walker — a walker follows the events of the tree

When a walker comes to a value, it is inside the containers around it, one at each depth; and when
it goes on, it has left those again that it has entered. So a reference back is a container that the
walker is inside of, and nothing else is: what the walker hands on and notes are the events of the
tree, from whatever record it starts.

Main definitions:

* `Value.Anchored` — references back stand for containers around them;
* `Walker.pass_eq` — a walker follows the events;
* `Walker.walk_exact` — what a walker hands on and notes, place by place.
-/

namespace Workflows

/-- Every reference back stands for a container around it, where the tree lies in so many. -/
def Value.Anchored (depth : Nat) (tree : Value) : Prop :=
  ∀ place levels, (Value.up levels).At place tree → 1 ≤ levels ∧ levels ≤ depth + place.length

/-- A part of an anchored value is anchored, one container further in. -/
theorem Value.Anchored.part {depth : Nat} {tree inner : Value} {s : PlaceStep}
    (h : tree.Anchored depth) (hholds : inner.Holds s tree) : inner.Anchored (depth + 1) := by
  intro place levels hat
  have hlevels := h (s :: place) levels (.within hholds hat)
  rw [List.length_cons] at hlevels
  omega

namespace Walker

open Walk

/-- The containers around a value at a depth, innermost first. -/
def around (depth : Nat) : List Nat :=
  (List.range depth).reverse

/-- The containers around a value are those at smaller depths. -/
theorem mem_around_iff {depth container : Nat} : container ∈ around depth ↔ container < depth := by
  simp [around]

theorem around_succ (depth : Nat) : around (depth + 1) = depth :: around depth := by
  simp [around, List.range_succ]

namespace Course

def happen (c : Course) : Event → Course
  | .visit v => c.handOn v
  | .overrun path => c.noteOverrun path
  | .backReference path => c.note (.circular path)

variable {c : Course} {es : List Event}

/-- An event leaves the limits of a walker as they are. -/
@[simp] theorem limits_happen (c : Course) (e : Event) :
    (c.happen e).walker.limits = c.walker.limits := by
  cases e with
  | overrun path =>
    unfold happen noteOverrun
    dsimp only
    split <;> rfl
  | _ => rfl

@[simp] theorem inside_happen (c : Course) (e : Event) : (c.happen e).inside = c.inside := by
  cases e with
  | overrun path =>
    unfold happen noteOverrun
    dsimp only
    split <;> rfl
  | _ => rfl

/-- An event does not depend on which containers are entered. -/
theorem happen_enter (c : Course) (container : Nat) (e : Event) :
    (c.enter container).happen e = (c.happen e).enter container := by
  cases e with
  | overrun path => cases h : c.walker.overrun <;> simp [happen, noteOverrun, note, enter, h]
  | _ => rfl

/-- A course of events leaves the limits of a walker as they are. -/
theorem limits_foldl (c : Course) (es : List Event) :
    (es.foldl happen c).walker.limits = c.walker.limits := by
  induction es generalizing c with
  | nil => rfl
  | cons e rest ih => rw [List.foldl_cons, ih, limits_happen]

/-- A course of events leaves the walk where it is. -/
theorem inside_foldl (c : Course) (es : List Event) : (es.foldl happen c).inside = c.inside := by
  induction es generalizing c with
  | nil => rfl
  | cons e rest ih => rw [List.foldl_cons, ih, inside_happen]

/-- What happens inside a container that is entered and left is what happens without it. -/
theorem foldl_happen_enter (c : Course) (container : Nat) (es : List Event) :
    (es.foldl happen (c.enter container)).leave container = es.foldl happen c := by
  induction es generalizing c with
  | nil => simp [enter, leave]
  | cons e rest ih => rw [List.foldl_cons, happen_enter, ih, List.foldl_cons]

/-- A course of events adds its visits, in order. -/
theorem visits_foldl (c : Course) (es : List Event) :
    (es.foldl happen c).visits = c.visits ++ visitsOf es := by
  induction es generalizing c with
  | nil => simp [visitsOf]
  | cons e rest ih =>
    rw [List.foldl_cons, ih]
    cases e with
    | visit v => simp [happen, handOn, visitsOf]
    | backReference path => rfl
    | overrun path =>
      have hvisits : (c.noteOverrun path).visits = c.visits := by
        unfold noteOverrun
        split <;> rfl
      rw [happen, hvisits]
      rfl

/-- A course of events adds its anomalies, in order. -/
theorem anomalies_foldl (c : Course) (es : List Event) :
    (es.foldl happen c).walker.anomalies =
      c.walker.anomalies ++ anomaliesFrom c.walker.limits.depth c.walker.overrun es := by
  induction es generalizing c with
  | nil => simp [anomaliesFrom]
  | cons e rest ih =>
    rw [List.foldl_cons, ih, limits_happen]
    cases e with
    | visit v => rfl
    | backReference path => simp [happen, note, anomaliesFrom]
    | overrun path =>
      cases h : c.walker.overrun <;> simp [happen, noteOverrun, note, anomaliesFrom, h]

end Course

open Course

/-! ## Passing a value -/

/-- A walker that comes to the values at a depth, inside the containers around them, follows their
events. -/
def Follows (depth : Nat) (v : Value) : Prop :=
  ∀ (path : String) (step : Option PlaceStep) (c : Course), c.inside = around depth →
    pass depth path step v c = (events c.walker.limits depth path step v).foldl happen c

/-- The walk through the items of a list makes the events of the list. -/
theorem passItems_eq {depth : Nat} {items : List Value} (h : ∀ v ∈ items, Follows depth v)
    (path : String) (start : Nat) (c : Course) (hinside : c.inside = around depth) :
    passItems depth path start items c =
      (itemEvents c.walker.limits depth path start items).foldl happen c := by
  induction items generalizing start c with
  | nil => rfl
  | cons v rest ih =>
    rcases List.forall_mem_cons.1 h with ⟨hfirst, hrest⟩
    have hstill : ∀ es : List Event, (es.foldl happen c).inside = around depth := by
      intro es
      rw [inside_foldl, hinside]
    rw [passItems, hfirst _ _ c hinside, ih hrest _ _ (hstill _), limits_foldl, itemEvents,
      List.foldl_append]

/-- The walk through the fields of an object makes the events of the object. -/
theorem passFields_eq {depth : Nat} {fields : List (String × Value)}
    (h : ∀ field ∈ fields, Follows depth field.2) (path : String) (c : Course)
    (hinside : c.inside = around depth) :
    passFields depth path fields c =
      (fieldEvents c.walker.limits depth path fields).foldl happen c := by
  induction fields generalizing c with
  | nil => rfl
  | cons field rest ih =>
    rcases field with ⟨key, v⟩
    rcases List.forall_mem_cons.1 h with ⟨hfirst, hrest⟩
    rw [passFields, fieldEvents, List.foldl_append]
    cases hskip : c.walker.limits.skipPrivate && isPrivate key with
    | true => exact ih hrest c hinside
    | false =>
      have hpass := hfirst (Place.extend path (.key key)) (some (.key key)) c hinside
      simp only [Bool.false_eq_true, if_false, hpass]
      rw [ih hrest _ (by rw [inside_foldl, hinside]), limits_foldl]

/-- A container that the walker is not inside of is entered, and left after what happens in it. -/
theorem through_eq {depth : Nat} {path : String} {step : Option PlaceStep} {v : Value} {c : Course}
    {inner : Course → Course} (hinside : c.inside = around depth)
    (hvisit : ownEvent path step v = .visit ⟨path, step, v⟩)
    (hinner : ∀ c' : Course, c'.inside = around (depth + 1) →
      inner c' = (innerEvents c'.walker.limits (depth + 1) path v).foldl happen c') :
    c.through depth path step v depth inner =
      (events c.walker.limits depth path step v).foldl happen c := by
  have hoff : c.inside.contains depth = false := by
    rw [hinside]
    simp [mem_around_iff]
  rw [events_eq, through, hoff]
  by_cases hdeep : c.walker.limits.deepest < depth
  · simp only [hdeep, if_true]
    rfl
  · have hentered : ((c.handOn ⟨path, step, v⟩).enter depth).inside = around (depth + 1) := by
      rw [around_succ, ← hinside]
      rfl
    simp only [hdeep, if_false, Bool.false_eq_true, hinner _ hentered, List.foldl_cons, hvisit]
    exact foldl_happen_enter _ depth _

/-- A walker that comes to a value inside the containers around it follows the events. -/
theorem pass_eq {depth : Nat} {v : Value} (h : v.Anchored depth) : Follows depth v := by
  -- The invariant is that the walker is inside exactly the containers around the value.
  induction v using Value.holds_induction generalizing depth with
  | within v ih =>
    intro path step c hinside
    have hparts : ∀ s inner, inner.Holds s v → Follows (depth + 1) inner := fun s inner hholds =>
      ih s inner hholds (h.part hholds)
    cases v with
    | obj fields =>
      refine through_eq hinside rfl fun c' hc' => passFields_eq ?_ path c' hc'
      intro field hfield
      exact hparts (.key field.1) field.2 (.field hfield)
    | arr items =>
      refine through_eq hinside rfl fun c' hc' =>
        passItems_eq ?_ path 0 c' hc'
      intro inner hinner
      rcases List.getElem?_of_mem hinner with ⟨i, hi⟩
      exact hparts (.index i) inner (.item hi)
    | up levels =>
      -- The container lies around the reference, so the walker is inside of it.
      have hlevels := h [] levels .here
      rw [List.length_nil] at hlevels
      have hon : c.inside.contains (depth - levels) = true := by
        rw [hinside, List.contains_iff_mem, mem_around_iff]
        omega
      rw [events_eq, pass, through, hon]
      by_cases hdeep : c.walker.limits.deepest < depth <;>
        simp only [hdeep, if_true, if_false] <;> rfl
    | _ =>
      rw [events_eq]
      change (if c.walker.limits.deepest < depth then c.noteOverrun path else c.handOn _) = _
      by_cases hdeep : c.walker.limits.deepest < depth <;>
        simp only [hdeep, if_true, if_false] <;> rfl

/-! ## Whole walks -/

/-- Of the walker itself only its limits count. -/
theorem walk_congr {w w' : Walker} (h : w.limits = w'.limits) (root : String) (tree : Value) :
    w.walk root tree = w'.walk root tree := by
  unfold walk
  rw [h]

/-- A walk from the top, whatever is on the record. -/
theorem walk_eq (w : Walker) (root : String) {tree : Value} (h : tree.Anchored 0) :
    (w.walk root tree).1 = Walk.visits w.limits root tree ∧
      (w.walk root tree).2.anomalies = Walk.anomalies w.limits root tree ∧
      (w.walk root tree).2.limits = w.limits := by
  have hpass := pass_eq h root none
    { walker := { w with anomalies := [], overrun := false } } rfl
  simp only [walk, hpass, visits_foldl, anomalies_foldl, limits_foldl]
  exact ⟨rfl, rfl, trivial⟩

/-- The outcome of a walk that visits all it can and notes what it cannot visit: every reference
back, and the first place that is too deep. -/
structure Thorough (limits : WalkLimits) (root : String) (tree : Value)
    (outcome : List Visit × Walker) : Prop where
  visits : outcome.1 = (tree.positions.filter (isVisited limits)).map (visitOf root)
  circular : outcome.2.anomalies.filter Anomaly.isCircular =
    (tree.positions.filter (isLoop limits)).map fun e => .circular (e.1.foldl Place.extend root)
  overrun : outcome.2.anomalies.filter (fun a => !a.isCircular) =
    (((tree.positions.filter (isTooDeep limits)).map fun e =>
      Anomaly.tooDeep (e.1.foldl Place.extend root) limits.depth).head?).toList

/-- A walker goes through all places of a tree once in document order, visits what lies within its
limits and notes the rest; and one that has walked before does what a new one does. -/
theorem walk_exact (w : Walker) (root : String) {tree : Value} (hkeys : tree.Keyed)
    (hback : tree.Anchored 0) (hdepth : 0 ≤ w.limits.deepest) :
    tree.Enumerates tree.positions ∧ Thorough w.limits root tree (w.walk root tree) ∧
      ∀ (before : String) (other : Value), other.Anchored 0 →
        (w.walk before other).2.walk root tree =
          ({ limits := w.limits } : Walker).walk root tree := by
  have hwithin : 0 ≤ w.limits.deepest + 1 := by omega
  obtain ⟨hvisits, hanomalies, -⟩ := walk_eq w root hback
  refine ⟨Value.enumerates_positions hkeys, ⟨?_, ?_, ?_⟩, ?_⟩
  · rw [hvisits, visits_eq]
  · rw [hanomalies, circular_anomalies_eq hwithin]
  · rw [hanomalies, overrun_anomalies_eq hwithin]
  · intro before other hother
    obtain ⟨-, -, hlimits⟩ := walk_eq w before hother
    exact walk_congr hlimits root tree

/-- A tree with a private entry, a reference back and a list that lies deep. -/
def branching : Value :=
  .obj [("__meta", .obj [("a", .null)]), ("body", .arr [.up 2, .null]), ("parent", .up 1)]

def used : Walker :=
  { limits := { depth := .int 1, skipPrivate := true }
    anomalies := [.tooDeep "old" (.int 1)]
    overrun := true }

theorem walk_exact_branching :
    branching.Keyed ∧ branching.Anchored 0 ∧ 0 ≤ used.limits.deepest ∧
      (used.walk "" branching).1 =
        [⟨"", none, branching⟩, ⟨"body", some (.key "body"), .arr [.up 2, .null]⟩] ∧
      (used.walk "" branching).2.anomalies.filter Anomaly.isCircular = [.circular "parent"] ∧
      (used.walk "" branching).2.anomalies.filter (fun a => !a.isCircular) =
        [.tooDeep "body[0]" (.int 1)] := by
  have hkeys : branching.Keyed := by
    intro place fields hat
    have hmem := Value.mem_positions_iff.2 hat
    simp [branching, Value.positions, Value.fieldPositions, Value.itemPositions,
      Place.behind] at hmem
    rcases hmem with ⟨-, rfl⟩ | ⟨-, rfl⟩ <;> simp [Entries.Distinct, Entries.keys]
  have hback : branching.Anchored 0 := by
    intro place levels hat
    have hmem := Value.mem_positions_iff.2 hat
    simp [branching, Value.positions, Value.fieldPositions, Value.itemPositions,
      Place.behind] at hmem
    rcases hmem with ⟨rfl, rfl⟩ | ⟨rfl, rfl⟩ <;> simp
  have hdepth : 0 ≤ used.limits.deepest := by decide
  obtain ⟨-, hwalk, -⟩ := walk_exact used "" hkeys hback hdepth
  exact ⟨hkeys, hback, hdepth, hwalk.visits.trans rfl, hwalk.circular.trans rfl,
    hwalk.overrun.trans rfl⟩

end Walker
end Workflows
