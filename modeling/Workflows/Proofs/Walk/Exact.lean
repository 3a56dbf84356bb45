import Workflows.Proofs.Walk.Positions

/-!
# Exact — what happens on a walk, place by place

The events of a walk are those of the places that it meets, in document order: the places down to
its depth and one step further, apart from those behind private keys. Down to its depth it visits
what stands there, or finds a reference back; one step further there is an overrun, of which the
first one is an anomaly.

Main definitions:

* `Walk.events_eq_positions` — the events of a walk;
* `Walk.visits_eq` — the visits are those of the places `Walk.isVisited`;
* `Walk.circular_anomalies_eq`, `Walk.overrun_anomalies_eq` — the anomalies.
-/

namespace Workflows

def Value.isReference : Value → Bool
  | .up _ => true
  | _ => false

def Anomaly.isCircular : Anomaly → Bool
  | .circular _ => true
  | .tooDeep _ _ => false

namespace Walk

/-! ## Events place by place -/

def entered (limits : WalkLimits) (place : Place) : Bool :=
  place.all (enters limits)

def isMet (limits : WalkLimits) (depth : Nat) (e : Place × Value) : Bool :=
  entered limits e.1 && decide ((depth + e.1.length : Nat) ≤ limits.deepest + 1)

/-- What happens at a place that is met. -/
def eventOf (limits : WalkLimits) (depth : Nat) (path : String) (step : Option PlaceStep)
    (e : Place × Value) : Event :=
  if limits.deepest < (depth + e.1.length : Nat) then .overrun (e.1.foldl Place.extend path)
  else ownEvent (e.1.foldl Place.extend path) (e.1.getLast?.or step) e.2

section Events

variable {limits : WalkLimits} {depth : Nat} {path : String} {step : Option PlaceStep}
  {tree : Value}

/-- The events of a list are those of its items. -/
theorem itemEvents_eq (start : Nat) (items : List Value) :
    itemEvents limits depth path start items =
      (items.zipIdx start).flatMap fun item =>
        events limits depth (Place.extend path (.index item.2)) (some (.index item.2)) item.1 := by
  induction items generalizing start with
  | nil => rfl
  | cons v rest ih => rw [itemEvents, ih, List.zipIdx_cons, List.flatMap_cons]

/-- The events of an object are those of the fields that are entered. -/
theorem fieldEvents_eq (fields : List (String × Value)) :
    fieldEvents limits depth path fields =
      fields.flatMap fun field =>
        if enters limits (.key field.1) then
          events limits depth (Place.extend path (.key field.1)) (some (.key field.1)) field.2
        else [] := by
  induction fields with
  | nil => rfl
  | cons field rest ih =>
    rcases field with ⟨key, v⟩
    rw [fieldEvents, ih, List.flatMap_cons]
    congr 1
    cases hskip : limits.skipPrivate && isPrivate key <;> simp [enters, hskip]

/-- Inside a container happens what happens in its parts, one after the other. -/
theorem innerEvents_eq (tree : Value) :
    innerEvents limits depth path tree =
      tree.parts.flatMap fun part =>
        if enters limits part.1 then
          events limits depth (Place.extend path part.1) (some part.1) part.2
        else [] := by
  cases tree with
  | arr items =>
    rw [innerEvents, itemEvents_eq, Value.parts, List.flatMap_map]
    rfl
  | obj fields => rw [innerEvents, fieldEvents_eq, Value.parts, List.flatMap_map]
  | _ => rfl

/-- A place within a part is met if the part is entered and the place is met from there. -/
theorem isMet_behind (s : PlaceStep) (e : Place × Value) :
    isMet limits depth (Place.behind s e) = (enters limits s && isMet limits (depth + 1) e) := by
  have hlength : depth + (s :: e.1).length = depth + 1 + e.1.length := by
    rw [List.length_cons]
    omega
  simp only [isMet, Place.behind, entered, List.all_cons, hlength, Bool.and_assoc]

/-- The event at a place within a part is that of the part, at the longer path. -/
theorem eventOf_behind (s : PlaceStep) (e : Place × Value) :
    eventOf limits depth path step (Place.behind s e) =
      eventOf limits (depth + 1) (Place.extend path s) (some s) e := by
  have hlength : depth + (s :: e.1).length = depth + 1 + e.1.length := by
    rw [List.length_cons]
    omega
  simp only [eventOf, Place.behind, hlength, List.foldl_cons, getLast?_cons_or]

/-- What is met within a part is what a walk meets that has gone into the part. -/
theorem eventsOf_behind (s : PlaceStep) (es : List (Place × Value)) :
    ((es.map (Place.behind s)).filter (isMet limits depth)).map (eventOf limits depth path step) =
      if enters limits s then
        (es.filter (isMet limits (depth + 1))).map
          (eventOf limits (depth + 1) (Place.extend path s) (some s))
      else [] := by
  have hmet : isMet limits depth ∘ Place.behind s =
      fun e => enters limits s && isMet limits (depth + 1) e := funext (isMet_behind s)
  have hevent : eventOf limits depth path step ∘ Place.behind s =
      eventOf limits (depth + 1) (Place.extend path s) (some s) := funext (eventOf_behind s)
  rw [List.filter_map, List.map_map, hmet, hevent]
  cases enters limits s <;> simp

/-- The events of a walk are those of the places that it meets, in document order. -/
theorem events_eq_positions (h : depth ≤ limits.deepest + 1) :
    events limits depth path step tree =
      (tree.positions.filter (isMet limits depth)).map (eventOf limits depth path step) := by
  induction tree using Value.holds_induction generalizing depth path step with
  | within tree ih =>
    have hhere : isMet limits depth ([], tree) = true := by simpa [isMet, entered] using h
    rw [events_eq, Value.positions_eq, List.filter_cons_of_pos hhere, List.map_cons]
    by_cases hdeep : limits.deepest < depth
    · -- Nothing within the tree is met, as it lies deeper still.
      have hnone : ∀ e, isMet limits (depth + 1) e = false := by
        intro e
        have hfar : ¬ ((depth + 1 + e.1.length : Nat) : Int) ≤ limits.deepest + 1 := by omega
        rw [isMet, decide_eq_false hfar, Bool.and_false]
      have hrest : (tree.parts.flatMap fun part =>
          part.2.positions.map (Place.behind part.1)).filter (isMet limits depth) = [] := by
        refine List.filter_eq_nil_iff.2 ?_
        intro e he
        rcases List.mem_flatMap.1 he with ⟨part, -, hmem⟩
        rcases List.mem_map.1 hmem with ⟨e', -, rfl⟩
        simp [isMet_behind, hnone]
      rw [if_pos hdeep, hrest]
      simp [eventOf, hdeep]
    · have hown : eventOf limits depth path step ([], tree) = ownEvent path step tree := by
        simp [eventOf, hdeep]
      rw [if_neg hdeep, hown, innerEvents_eq, List.filter_flatMap, List.map_flatMap]
      congr 1
      refine List.flatMap_congr ?_
      intro part hpart
      have hwithin : ((depth + 1 : Nat) : Int) ≤ limits.deepest + 1 := by omega
      rw [eventsOf_behind, ih part.1 part.2 (Value.holds_iff_mem_parts.2 hpart) hwithin]

end Events

/-! ## Visits and anomalies -/

def isVisited (limits : WalkLimits) (e : Place × Value) : Bool :=
  entered limits e.1 && decide (e.1.length ≤ limits.deepest) && !e.2.isReference

/-- A walk finds a reference back at a place. -/
def isLoop (limits : WalkLimits) (e : Place × Value) : Bool :=
  entered limits e.1 && decide (e.1.length ≤ limits.deepest) && e.2.isReference

/-- A walk gets to a place that is just too deep. -/
def isTooDeep (limits : WalkLimits) (e : Place × Value) : Bool :=
  entered limits e.1 && decide (e.1.length = limits.deepest + 1)

def visitOf (root : String) (e : Place × Value) : Visit :=
  ⟨e.1.foldl Place.extend root, e.1.getLast?, e.2⟩

def circularAt? : Event → Option Anomaly
  | .backReference path => some (.circular path)
  | _ => none

def overrunAt? (limit : Number) : Event → Option Anomaly
  | .overrun path => some (.tooDeep path limit)
  | _ => none

/-- The anomalies on circular references are those of the events, whatever the limit on the depth
is. -/
theorem filter_isCircular_anomaliesFrom (limit : Number) (reported : Bool) (es : List Event) :
    (anomaliesFrom limit reported es).filter Anomaly.isCircular = es.filterMap circularAt? := by
  induction es generalizing reported with
  | nil => rfl
  | cons e rest ih =>
    cases e with
    | visit v => exact ih reported
    | backReference p => exact congrArg (List.cons (Anomaly.circular p)) (ih reported)
    | overrun p => cases reported <;> exact ih true

/-- After the first overrun no other one is reported. -/
theorem filter_overrun_anomaliesFrom (limit : Number) (es : List Event) :
    (anomaliesFrom limit true es).filter (fun a => !a.isCircular) = [] ∧
      (anomaliesFrom limit false es).filter (fun a => !a.isCircular) =
        (es.filterMap (overrunAt? limit)).head?.toList := by
  induction es with
  | nil => exact ⟨rfl, rfl⟩
  | cons e rest ih =>
    cases e with
    | visit v => exact ih
    | backReference p => exact ih
    | overrun p => exact ⟨ih.1, congrArg (List.cons (Anomaly.tooDeep p limit)) ih.1⟩

section Positions

variable {limits : WalkLimits} {root : String} {tree : Value}

/-- What happens at a place, seen from the root of the tree. -/
inductive Happens (limits : WalkLimits) (root : String) (e : Place × Value) : Option Event → Prop
  | unmet (hvisited : isVisited limits e = false) (hloop : isLoop limits e = false)
      (hdeep : isTooDeep limits e = false) : Happens limits root e none
  | visit (hvisited : isVisited limits e = true) (hloop : isLoop limits e = false)
      (hdeep : isTooDeep limits e = false) : Happens limits root e (some (.visit (visitOf root e)))
  | loop (hvisited : isVisited limits e = false) (hloop : isLoop limits e = true)
      (hdeep : isTooDeep limits e = false) :
      Happens limits root e (some (.backReference (e.1.foldl Place.extend root)))
  | overrun (hvisited : isVisited limits e = false) (hloop : isLoop limits e = false)
      (hdeep : isTooDeep limits e = true) :
      Happens limits root e (some (.overrun (e.1.foldl Place.extend root)))

/-- At every place happens what the limits say: one event, or none. -/
theorem happens (limits : WalkLimits) (root : String) (e : Place × Value) :
    Happens limits root e
      (if isMet limits 0 e then some (eventOf limits 0 root none e) else none) := by
  rcases e with ⟨place, v⟩
  -- Below a private key nothing happens. Elsewhere it is the depth that decides: what is near
  -- enough is visited or is a loop, one level below the walk is broken off, and further down
  -- nothing is met.
  cases hentered : entered limits place with
  | false =>
    have hmet : isMet limits 0 (place, v) = false := by simp [isMet, hentered]
    rw [hmet]
    exact .unmet (by simp [isVisited, hentered]) (by simp [isLoop, hentered])
      (by simp [isTooDeep, hentered])
  | true =>
    by_cases hnear : (place.length : Int) ≤ limits.deepest
    · have hmet : isMet limits 0 (place, v) = true := by
        simp only [isMet, hentered, Bool.true_and, decide_eq_true_eq, Nat.zero_add]
        omega
      have hdeep : isTooDeep limits (place, v) = false := by
        simp only [isTooDeep, hentered, Bool.true_and, decide_eq_false_iff_not]
        omega
      have hevent : eventOf limits 0 root none (place, v) =
          ownEvent (place.foldl Place.extend root) place.getLast? v := by
        simp [eventOf, hnear]
      rw [hmet, if_pos rfl, hevent]
      cases hreference : v.isReference with
      | true =>
        cases v with
        | up levels => exact .loop (by simp [isVisited, hreference]) (by simp [isLoop, *]) hdeep
        | _ => cases hreference
      | false =>
        cases v with
        | up levels => cases hreference
        | _ => exact .visit (by simp [isVisited, *]) (by simp [isLoop, hreference]) hdeep
    · have hvisited : isVisited limits (place, v) = false := by simp [isVisited, hnear]
      have hloop : isLoop limits (place, v) = false := by simp [isLoop, hnear]
      by_cases hfirst : (place.length : Int) = limits.deepest + 1
      · have hmet : isMet limits 0 (place, v) = true := by simp [isMet, hentered, hfirst]
        have hevent : eventOf limits 0 root none (place, v) =
            .overrun (place.foldl Place.extend root) := by
          simp [eventOf, not_le.1 hnear]
        rw [hmet, if_pos rfl, hevent]
        exact .overrun hvisited hloop (by simp [isTooDeep, hentered, hfirst])
      · have hmet : isMet limits 0 (place, v) = false := by
          simp only [isMet, hentered, Bool.true_and, decide_eq_false_iff_not, Nat.zero_add]
          omega
        rw [hmet]
        exact .unmet hvisited hloop (by simp [isTooDeep, hfirst])

/-- A selection among the events is one among the places, if the events selected are those that
happen at the places selected. -/
theorem filterMap_events {β : Type} {select : Event → Option β} {test : Place × Value → Bool}
    {make : Place × Value → β} (h : 0 ≤ limits.deepest + 1)
    (hsame : ∀ e o, Happens limits root e o →
      o.bind select = if test e then some (make e) else none) :
    (events limits 0 root none tree).filterMap select = (tree.positions.filter test).map make := by
  have hplace : ∀ e, (if isMet limits 0 e then select (eventOf limits 0 root none e) else none) =
      if test e then some (make e) else none := by
    intro e
    rw [← hsame e _ (happens limits root e)]
    split <;> rfl
  calc
    (events limits 0 root none tree).filterMap select
        = tree.positions.filterMap fun e =>
            if isMet limits 0 e then select (eventOf limits 0 root none e) else none := by
          rw [events_eq_positions h, List.filterMap_map, List.filterMap_filter]
          rfl
    _ = tree.positions.filterMap fun e => if test e then some (make e) else none := by
          simp only [hplace]
    _ = (tree.positions.filter test).map make := by
          rw [← List.filterMap_eq_map, List.filterMap_filter]
          rfl

/-- The visits of a walk are those of the places that it visits, in document order. -/
theorem visits_eq (limits : WalkLimits) (root : String) (tree : Value) :
    visits limits root tree = (tree.positions.filter (isVisited limits)).map (visitOf root) := by
  by_cases h : 0 ≤ limits.deepest + 1
  · refine filterMap_events h ?_
    intro e o ho
    cases ho <;> simp [*]
  · -- Below that limit a walk does not even visit the tree itself, and no place is visited.
    have hdeep : limits.deepest < (0 : Nat) := by omega
    have hnone : tree.positions.filter (isVisited limits) = [] := by
      refine List.filter_eq_nil_iff.2 ?_
      intro e _
      have hfar : ¬ ((e.1.length : Nat) : Int) ≤ limits.deepest := by omega
      simp [isVisited, hfar]
    rw [hnone, visits, events_eq, if_pos hdeep]
    rfl

/-- A circular reference is reported for each reference back that the walk finds. -/
theorem circular_anomalies_eq (h : 0 ≤ limits.deepest + 1) :
    (anomalies limits root tree).filter Anomaly.isCircular =
      (tree.positions.filter (isLoop limits)).map fun e =>
        .circular (e.1.foldl Place.extend root) := by
  rw [anomalies, filter_isCircular_anomaliesFrom]
  refine filterMap_events h ?_
  intro e o ho
  cases ho <;> simp [circularAt?, *]

/-- An overrun is reported for the first place that is too deep. -/
theorem overrun_anomalies_eq (h : 0 ≤ limits.deepest + 1) :
    (anomalies limits root tree).filter (fun a => !a.isCircular) =
      (((tree.positions.filter (isTooDeep limits)).map fun e =>
        Anomaly.tooDeep (e.1.foldl Place.extend root) limits.depth).head?).toList := by
  rw [anomalies, (filter_overrun_anomaliesFrom _ _).2]
  refine congrArg (fun as : List Anomaly => as.head?.toList) (filterMap_events h ?_)
  intro e o ho
  cases ho <;> simp [overrunAt?, *]

end Positions

end Walk
end Workflows
