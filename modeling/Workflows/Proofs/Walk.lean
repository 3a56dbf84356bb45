import Mathlib.Data.List.Basic
import Workflows.Walk

/-!
# Walk — the places a walk visits

A place is the list of the keys and indices that lead from a tree to a value in it. A walk visits
the places down to its depth, apart from those behind a private key and from back-references.

Main definitions:

* `Place.fieldPath` — the text of a place, as it is shown in findings;
* `Value.Holds`, `Value.At` — a value lies directly in a container, or in a tree at a place;
* `Walk.Open`, `Walk.Beyond` — a place is open to a walk, or the first that is too deep for it;
* `Walk.mem_events_iff` — what happens on a walk happens at such places;
* `Walk.mem_visits_iff` — what a walk visits is what stands at open places;
* `Walk.circular_mem_anomalies_iff`, `Walk.of_tooDeep_mem_anomalies` — where its anomalies are.
-/

namespace Workflows

/-- The keys and indices of a place in one text. -/
def Place.fieldPath (place : Place) : String :=
  place.foldl Place.extend ""

namespace Value

/-- A container holds the value `v` under a key or an index. -/
inductive Holds (v : Value) : PlaceStep → Value → Prop
  | item {items : List Value} {i : Nat} (h : items[i]? = some v) : Holds v (.index i) (.arr items)
  | field {fields : List (String × Value)} {key : String} (h : (key, v) ∈ fields) :
      Holds v (.key key) (.obj fields)

/-- The value `v` stands in a tree at a place. -/
inductive At (v : Value) : Place → Value → Prop
  | here : At v [] v
  | within {s : PlaceStep} {place : Place} {inner tree : Value} (h : inner.Holds s tree)
      (rest : At v place inner) : At v (s :: place) tree

/-- A part is smaller than the whole. -/
theorem Holds.sizeOf_lt {v tree : Value} {s : PlaceStep} (h : v.Holds s tree) :
    sizeOf v < sizeOf tree := by
  cases h with
  | @item items i h =>
    have hlt := List.sizeOf_lt_of_mem (List.mem_of_getElem? h)
    simp only [Value.arr.sizeOf_spec]
    omega
  | @field fields key h =>
    have hlt := List.sizeOf_lt_of_mem h
    simp only [Prod.mk.sizeOf_spec] at hlt
    simp only [Value.obj.sizeOf_spec]
    omega

/-- What holds of a tree as soon as it holds of all values that the tree holds is true of every
tree. -/
@[elab_as_elim]
theorem holds_induction {motive : Value → Prop}
    (within : ∀ v : Value, (∀ s inner, Holds inner s v → motive inner) → motive v) (v : Value) :
    motive v :=
  within v fun _ inner _ => holds_induction within inner
termination_by sizeOf v
decreasing_by
  rename_i hholds
  exact hholds.sizeOf_lt

/-- At the empty place is the whole value. -/
theorem at_nil {v tree : Value} : v.At [] tree ↔ v = tree := by
  constructor
  · intro h
    cases h
    rfl
  · rintro rfl
    exact .here

/-- At a longer place is what is at the rest of it within a part. -/
theorem at_cons {v tree : Value} {s : PlaceStep} {place : Place} :
    v.At (s :: place) tree ↔ ∃ inner : Value, inner.Holds s tree ∧ v.At place inner := by
  constructor
  · intro h
    cases h with
    | within h rest => exact ⟨_, h, rest⟩
  · intro hexists
    rcases hexists with ⟨inner, h, rest⟩
    exact .within h rest

end Value

namespace Walk

/-- Whether a walk goes along a step. -/
def enters (limits : WalkLimits) : PlaceStep → Bool
  | .key name => !(limits.skipPrivate && isPrivate name)
  | .index _ => true

/-- A place is open to a walk that has come to a depth. -/
structure Open (limits : WalkLimits) (depth : Nat) (place : Place) : Prop where
  near : (depth + place.length : Nat) ≤ limits.deepest
  entered : ∀ s ∈ place, enters limits s = true

section Open

variable {limits : WalkLimits} {depth : Nat} {place : Place} {s : PlaceStep}

/-- The way to the value itself is open if its depth is within the limits. -/
theorem open_nil : Open limits depth [] ↔ ¬limits.deepest < depth := by
  constructor
  · intro h hdeep
    have hnear := h.near
    simp only [List.length_nil, Nat.add_zero] at hnear
    omega
  · intro h
    refine ⟨?_, by simp⟩
    simp only [List.length_nil, Nat.add_zero]
    omega

/-- The way to a place is open if its first step is taken and the rest is open from there. -/
theorem open_cons :
    Open limits depth (s :: place) ↔ enters limits s = true ∧ Open limits (depth + 1) place := by
  have hlength : depth + (s :: place).length = depth + 1 + place.length := by
    simp only [List.length_cons]
    omega
  constructor
  · intro h
    rcases List.forall_mem_cons.1 h.entered with ⟨hs, hplace⟩
    exact ⟨hs, hlength ▸ h.near, hplace⟩
  · intro hboth
    rcases hboth with ⟨hs, h⟩
    exact ⟨hlength ▸ h.near, List.forall_mem_cons.2 ⟨hs, h.entered⟩⟩

/-- Where a walk has come too deep, nothing is open to it. -/
theorem Open.not_deep (h : Open limits depth place) : ¬limits.deepest < depth := by
  have hnear := h.near
  omega

end Open

/-- A place is the first one too deep for a walk that has come to a depth. -/
inductive Beyond (limits : WalkLimits) : Nat → Place → Prop
  | here {depth : Nat} (h : limits.deepest < depth) : Beyond limits depth []
  | within {depth : Nat} {s : PlaceStep} {place : Place} (h : ¬limits.deepest < depth)
      (henters : enters limits s = true) (rest : Beyond limits (depth + 1) place) :
      Beyond limits depth (s :: place)

/-! ## One layer -/

/-- What happens at a value itself. -/
def ownEvent (path : String) (step : Option PlaceStep) : Value → Event
  | .up _ => .backReference path
  | v => .visit ⟨path, step, v⟩

/-- What happens inside a value. -/
def innerEvents (limits : WalkLimits) (depth : Nat) (path : String) : Value → List Event
  | .obj fields => fieldEvents limits depth path fields
  | .arr items => itemEvents limits depth path 0 items
  | _ => []

section Events

variable {limits : WalkLimits} {depth : Nat} {path : String} {step : Option PlaceStep}
  {e : Event} {w : Visit} {tree : Value}

/-- The events of a value are its own and those within it, or the one that it lies too deep. -/
theorem events_eq :
    events limits depth path step tree =
      if limits.deepest < depth then [.overrun path]
      else ownEvent path step tree :: innerEvents limits (depth + 1) path tree := by
  cases tree <;> rfl

/-- The event of a value itself is a visit unless the value is a reference back. -/
theorem visit_eq_ownEvent :
    .visit w = ownEvent path step tree ↔
      w = ⟨path, step, tree⟩ ∧ ∀ levels, tree ≠ .up levels := by
  cases tree <;> simp [ownEvent]

/-- The events of the items of a list are those of one item, at its index. -/
theorem mem_itemEvents_iff {start : Nat} {items : List Value} :
    e ∈ itemEvents limits depth path start items ↔
      ∃ i inner, items[i]? = some inner ∧
        e ∈ events limits depth (Place.extend path (.index ↑(start + i)))
          (some (.index ↑(start + i))) inner := by
  induction items generalizing start with
  | nil => simp [itemEvents]
  | cons v rest ih =>
    unfold itemEvents
    rw [List.mem_append, ih]
    constructor
    · intro hcases
      rcases hcases with h | ⟨i, inner, hi, h⟩
      · exact ⟨0, v, rfl, h⟩
      · refine ⟨i + 1, inner, hi, ?_⟩
        rwa [Nat.add_right_comm, Nat.add_assoc] at h
    · intro hexists
      rcases hexists with ⟨i, inner, hi, h⟩
      cases i with
      | zero =>
        obtain rfl : v = inner := Option.some.inj hi
        exact .inl h
      | succ i =>
        refine .inr ⟨i, inner, hi, ?_⟩
        rwa [Nat.add_right_comm, Nat.add_assoc]

/-- The events of the fields of an object are those of one field that is entered, at its key. -/
theorem mem_fieldEvents_iff {fields : List (String × Value)} :
    e ∈ fieldEvents limits depth path fields ↔
      ∃ key inner, (key, inner) ∈ fields ∧ enters limits (.key key) = true ∧
        e ∈ events limits depth (Place.extend path (.key key)) (some (.key key)) inner := by
  induction fields with
  | nil => simp [fieldEvents]
  | cons field rest ih =>
    rcases field with ⟨key, inner⟩
    unfold fieldEvents
    rw [List.mem_append, ih]
    cases hskip : limits.skipPrivate && isPrivate key with
    | true =>
      -- The events of a private entry are left out, and the entry is one that is not entered.
      have hclosed : enters limits (.key key) = false := by simp [enters, hskip]
      constructor
      · intro hcases
        rcases hcases with h | ⟨other, v, hmem, h⟩
        · simp at h
        · exact ⟨other, v, List.mem_cons_of_mem _ hmem, h⟩
      · intro hexists
        rcases hexists with ⟨other, v, hmem, henters, h⟩
        rcases List.mem_cons.1 hmem with heq | hmem
        · obtain ⟨rfl, rfl⟩ := Prod.mk.inj heq
          simp [hclosed] at henters
        · exact .inr ⟨other, v, hmem, henters, h⟩
    | false =>
      have hopen : enters limits (.key key) = true := by simp [enters, hskip]
      constructor
      · intro hcases
        rcases hcases with h | ⟨other, v, hmem, h⟩
        · exact ⟨key, inner, List.mem_cons_self, hopen, by simpa using h⟩
        · exact ⟨other, v, List.mem_cons_of_mem _ hmem, h⟩
      · intro hexists
        rcases hexists with ⟨other, v, hmem, henters, h⟩
        rcases List.mem_cons.1 hmem with heq | hmem
        · obtain ⟨rfl, rfl⟩ := Prod.mk.inj heq
          exact .inl (by simpa using h)
        · exact .inr ⟨other, v, hmem, henters, h⟩

/-- The events within a value are those of one part that is entered. -/
theorem mem_innerEvents_iff :
    e ∈ innerEvents limits depth path tree ↔
      ∃ s inner, inner.Holds s tree ∧ enters limits s = true ∧
        e ∈ events limits depth (Place.extend path s) (some s) inner := by
  constructor
  · intro h
    cases tree with
    | obj fields =>
      rcases mem_fieldEvents_iff.1 h with ⟨key, inner, hmem, henters, h⟩
      exact ⟨.key key, inner, .field hmem, henters, h⟩
    | arr items =>
      rcases mem_itemEvents_iff.1 h with ⟨i, inner, hi, h⟩
      rw [Nat.zero_add] at h
      exact ⟨.index i, inner, .item hi, rfl, h⟩
    | _ => simp [innerEvents] at h
  · intro hexists
    rcases hexists with ⟨s, inner, hholds, henters, h⟩
    cases hholds with
    | @item items i hi =>
      refine mem_itemEvents_iff.2 ⟨i, inner, hi, ?_⟩
      rwa [Nat.zero_add]
    | @field fields key hmem => exact mem_fieldEvents_iff.2 ⟨key, inner, hmem, henters, h⟩

/-! ## Places -/

/-- A visit of what stands at a place, seen from a tree under a path. -/
structure VisitAt (path : String) (step : Option PlaceStep) (tree : Value) (place : Place)
    (w : Visit) : Prop where
  stands : w.value.At place tree
  path : w.path = place.foldl Place.extend path
  step : w.step = place.getLast?.or step
  notBack : ∀ levels, w.value ≠ .up levels

/-- What happens at a place, seen from a tree under a path. -/
inductive EventAt (limits : WalkLimits) (depth : Nat) (path : String) (step : Option PlaceStep)
    (tree : Value) (place : Place) : Event → Prop
  | overrun {v : Value} (hbeyond : Beyond limits depth place) (hstands : v.At place tree) :
      EventAt limits depth path step tree place (.overrun (place.foldl Place.extend path))
  | own {v : Value} (hopen : Open limits depth place) (hstands : v.At place tree) :
      EventAt limits depth path step tree place
        (ownEvent (place.foldl Place.extend path) (place.getLast?.or step) v)

/-- Beyond the limit on the depth a value makes one event, and this says so. -/
theorem eventAt_nil_of_deep (h : limits.deepest < depth) :
    EventAt limits depth path step tree [] e ↔ e = .overrun path := by
  constructor
  · intro hevent
    cases hevent with
    | overrun _ _ => rfl
    | own hopen _ => exact absurd h hopen.not_deep
  · rintro rfl
    exact .overrun (.here h) .here

/-- Within the limit on the depth a value makes an event of its own. -/
theorem eventAt_nil_of_not_deep (h : ¬limits.deepest < depth) :
    EventAt limits depth path step tree [] e ↔ e = ownEvent path step tree := by
  constructor
  · intro hevent
    cases hevent with
    | overrun hbeyond _ =>
      cases hbeyond with
      | here hdeep => exact absurd hdeep h
    | own _ hstands =>
      rw [Value.at_nil.1 hstands]
      rfl
  · rintro rfl
    exact .own (open_nil.2 h) .here

/-- A value behind a step stands under the last step of its place, or under that step. -/
theorem getLast?_cons_or (s : PlaceStep) (place : Place) (step : Option PlaceStep) :
    (s :: place).getLast?.or step = place.getLast?.or (some s) := by
  cases hlast : place.getLast? <;> simp [List.getLast?_cons, hlast]

/-- The events at a longer place are those at the rest of it within a part. -/
theorem eventAt_cons {s : PlaceStep} {place : Place} :
    EventAt limits depth path step tree (s :: place) e ↔
      ¬limits.deepest < depth ∧ enters limits s = true ∧ ∃ inner : Value, inner.Holds s tree ∧
        EventAt limits (depth + 1) (Place.extend path s) (some s) inner place e := by
  have hstep := getLast?_cons_or s place step
  constructor
  · intro hevent
    cases hevent with
    | overrun hbeyond hstands =>
      cases hbeyond with
      | within hdepth henters hrest =>
        rcases Value.at_cons.1 hstands with ⟨inner, hholds, hstands⟩
        exact ⟨hdepth, henters, inner, hholds, .overrun hrest hstands⟩
    | own hopen hstands =>
      rcases Value.at_cons.1 hstands with ⟨inner, hholds, hstands⟩
      rcases open_cons.1 hopen with ⟨henters, hrest⟩
      rw [hstep]
      exact ⟨hopen.not_deep, henters, inner, hholds, .own hrest hstands⟩
  · intro h
    rcases h with ⟨hdepth, henters, inner, hholds, hevent⟩
    cases hevent with
    | overrun hbeyond hstands =>
      exact .overrun (.within hdepth henters hbeyond) (.within hholds hstands)
    | own hopen hstands =>
      rw [← hstep]
      exact .own (open_cons.2 ⟨henters, hopen⟩) (.within hholds hstands)

/-- The events of a walk are what happens at the places it comes to. -/
theorem mem_events_iff :
    e ∈ events limits depth path step tree ↔
      ∃ place, EventAt limits depth path step tree place e := by
  -- An event belongs to the tree itself, or to a value that the tree holds.
  induction tree using Value.holds_induction generalizing depth path step with | within tree ih =>
  rw [events_eq]
  by_cases hdepth : limits.deepest < depth
  · rw [if_pos hdepth, List.mem_singleton]
    constructor
    · intro h
      exact ⟨[], (eventAt_nil_of_deep hdepth).2 h⟩
    · intro hexists
      rcases hexists with ⟨place, hevent⟩
      cases place with
      | nil => exact (eventAt_nil_of_deep hdepth).1 hevent
      | cons s place => exact absurd hdepth (eventAt_cons.1 hevent).1
  · rw [if_neg hdepth, List.mem_cons, mem_innerEvents_iff]
    constructor
    · intro hcases
      rcases hcases with h | ⟨s, inner, hholds, henters, h⟩
      · exact ⟨[], (eventAt_nil_of_not_deep hdepth).2 h⟩
      · rcases (ih s inner hholds).1 h with ⟨place, hevent⟩
        exact ⟨s :: place, eventAt_cons.2 ⟨hdepth, henters, inner, hholds, hevent⟩⟩
    · intro hexists
      rcases hexists with ⟨place, hevent⟩
      cases place with
      | nil => exact .inl ((eventAt_nil_of_not_deep hdepth).1 hevent)
      | cons s place =>
        rcases eventAt_cons.1 hevent with ⟨-, henters, inner, hholds, hevent⟩
        exact .inr ⟨s, inner, hholds, henters, (ih s inner hholds).2 ⟨place, hevent⟩⟩

/-- The visits among the events are those of what stands at open places. -/
theorem visit_mem_events_iff :
    .visit w ∈ events limits depth path step tree ↔
      ∃ place, Open limits depth place ∧ VisitAt path step tree place w := by
  rw [mem_events_iff]
  constructor
  · intro h
    rcases h with ⟨place, hevent⟩
    generalize he : Event.visit w = e at hevent
    cases hevent with
    | overrun _ _ => cases he
    | own hopen hstands =>
      rcases visit_eq_ownEvent.1 he with ⟨rfl, hback⟩
      exact ⟨place, hopen, hstands, rfl, rfl, hback⟩
  · intro h
    rcases h with ⟨place, hopen, hstands, hpath, hstep, hback⟩
    have hown : Event.visit w =
        ownEvent (place.foldl Place.extend path) (place.getLast?.or step) w.value := by
      rw [visit_eq_ownEvent, ← hpath, ← hstep]
      exact ⟨rfl, hback⟩
    exact ⟨place, hown ▸ .own hopen hstands⟩

/-- The event that a value lies too deep is none of its own. -/
theorem overrun_eq_ownEvent {p : String} : .overrun p ≠ ownEvent path step tree := by
  cases tree <;> simp [ownEvent]

/-- The event of a value itself is a reference back if the value is one. -/
theorem backReference_eq_ownEvent {p : String} :
    .backReference p = ownEvent path step tree ↔ p = path ∧ ∃ levels, tree = .up levels := by
  cases tree <;> simp [ownEvent]

/-- The overruns among the events are those of what stands at places that are just too deep. -/
theorem overrun_mem_events_iff {p : String} :
    .overrun p ∈ events limits depth path step tree ↔
      ∃ (place : Place) (v : Value), Beyond limits depth place ∧ v.At place tree ∧
        p = place.foldl Place.extend path := by
  rw [mem_events_iff]
  constructor
  · intro h
    rcases h with ⟨place, hevent⟩
    generalize he : Event.overrun p = e at hevent
    cases hevent with
    | overrun hbeyond hstands => exact ⟨place, _, hbeyond, hstands, Event.overrun.inj he⟩
    | own _ _ => exact absurd he overrun_eq_ownEvent
  · intro h
    rcases h with ⟨place, v, hbeyond, hstands, rfl⟩
    exact ⟨place, .overrun hbeyond hstands⟩

/-- The back-references among the events are those that stand at open places. -/
theorem backReference_mem_events_iff {p : String} :
    .backReference p ∈ events limits depth path step tree ↔
      ∃ place levels, Open limits depth place ∧ (Value.up levels).At place tree ∧
        p = place.foldl Place.extend path := by
  rw [mem_events_iff]
  constructor
  · intro h
    rcases h with ⟨place, hevent⟩
    generalize he : Event.backReference p = e at hevent
    cases hevent with
    | overrun _ _ => cases he
    | own hopen hstands =>
      rcases backReference_eq_ownEvent.1 he with ⟨hp, levels, rfl⟩
      exact ⟨place, levels, hopen, hstands, hp⟩
  · intro h
    rcases h with ⟨place, levels, hopen, hstands, rfl⟩
    exact ⟨place, .own hopen hstands⟩

/-- What is visited in a course of events are its visits. -/
theorem mem_visitsOf_iff {es : List Event} : w ∈ visitsOf es ↔ .visit w ∈ es := by
  unfold visitsOf
  rw [List.mem_filterMap]
  constructor
  · intro hexists
    rcases hexists with ⟨e, he, hw⟩
    cases e with
    | visit v =>
      obtain rfl : v = w := Option.some.inj hw
      exact he
    | overrun p => simp at hw
    | backReference p => simp at hw
  · intro h
    exact ⟨.visit w, h, rfl⟩

/-- What a walk visits is what stands at the places that are open to it, apart from
back-references. -/
theorem mem_visits_iff {root : String} :
    w ∈ visits limits root tree ↔ ∃ place, Open limits 0 place ∧ VisitAt root none tree place w := by
  unfold visits
  rw [mem_visitsOf_iff, visit_mem_events_iff]

/-! ## Anomalies -/

/-- Every reference back becomes an anomaly. -/
theorem circular_mem_anomaliesFrom {limit : Number} {reported : Bool} {es : List Event}
    {p : String} : .circular p ∈ anomaliesFrom limit reported es ↔ .backReference p ∈ es := by
  induction es generalizing reported with
  | nil => simp [anomaliesFrom]
  | cons e rest ih =>
    cases e with
    | visit v => simp [anomaliesFrom, ih]
    | backReference q => simp [anomaliesFrom, ih]
    | overrun q => cases reported <;> simp [anomaliesFrom, ih]

/-- An anomaly on the depth comes from a value that lies too deep. -/
theorem of_tooDeep_mem_anomaliesFrom {limit limit' : Number} {reported : Bool} {es : List Event}
    {p : String} (h : .tooDeep p limit' ∈ anomaliesFrom limit reported es) :
    limit' = limit ∧ .overrun p ∈ es := by
  induction es generalizing reported with
  | nil => simp [anomaliesFrom] at h
  | cons e rest ih =>
    have hlater : ∀ reported', .tooDeep p limit' ∈ anomaliesFrom limit reported' rest →
        limit' = limit ∧ .overrun p ∈ e :: rest :=
      fun _ h => ⟨(ih h).1, List.mem_cons_of_mem _ (ih h).2⟩
    cases e with
    | visit v => exact hlater _ h
    | backReference q => exact hlater _ (by simpa [anomaliesFrom] using h)
    | overrun q =>
      cases reported with
      | true => exact hlater _ h
      | false =>
        rcases List.mem_cons.1 h with heq | h
        · obtain ⟨rfl, rfl⟩ := Anomaly.tooDeep.inj heq
          exact ⟨rfl, List.mem_cons_self⟩
        · exact hlater _ h

/-- A circular reference is reported wherever a back-reference stands at an open place. -/
theorem circular_mem_anomalies_iff {root p : String} :
    .circular p ∈ anomalies limits root tree ↔
      ∃ place levels, Open limits 0 place ∧ (Value.up levels).At place tree ∧
        p = place.foldl Place.extend root := by
  rw [anomalies, circular_mem_anomaliesFrom, backReference_mem_events_iff]

/-- An overrun is reported of what stands at a place that is just too deep. -/
theorem of_tooDeep_mem_anomalies {root p : String} {limit : Number}
    (h : .tooDeep p limit ∈ anomalies limits root tree) :
    limit = limits.depth ∧ ∃ (place : Place) (v : Value), Beyond limits 0 place ∧
      v.At place tree ∧ p = place.foldl Place.extend root := by
  rcases of_tooDeep_mem_anomaliesFrom h with ⟨hlimit, hmem⟩
  exact ⟨hlimit, overrun_mem_events_iff.1 hmem⟩

end Events

end Walk
end Workflows
