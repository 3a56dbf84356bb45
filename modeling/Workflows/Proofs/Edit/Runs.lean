import Workflows.Proofs.Edit.Saved
import Workflows.Proofs.Edit.Settled

/-!
# Runs — what the steps of a run of changes do

A step assigns the value of a change and places its object. The objects that have been placed are
shared with the changes they have come from, so these change along with what is assigned within
them. A run does what the values at the time of each step do, assigned one after the other.

Main definitions:

* `Change.assignment`, `ChangeRun.pairs` — changes as assignments;
* `ChangeRun.Consistent`, `ChangeRun.Becomes` — where shared objects stand, and what they become;
* `ChangeRun.Carried` — what is known of a run after a step;
* `ChangeRun.run_of_inv` — from what the steps keep to what a run does.
-/

namespace Workflows

open Value

def Change.assignment (c : Change) : List String × Value :=
  (c.keys, c.value)

namespace ChangeRun

variable {r r' : ChangeRun} {c d e : Change} {t i : Nat} {data : Entries Value}

/-! ## One step -/

/-- The changes whose objects lie in the object after a step. -/
def placedAfter (r : ChangeRun) (t : Nat) (c : Change) : List Nat :=
  r.placed.filter (fun j => !r.within c j) ++ if c.isObject then t :: c.holds else []

/-- A run after the change of an index has led to an object. -/
def after (r : ChangeRun) (t : Nat) (c : Change) (data : Entries Value) : ChangeRun :=
  let s := { r with data := data, placed := r.placedAfter t c }
  { s with changes := r.changes.zipIdx.map fun (d, j) => s.refreshed d j }

theorem step_eq_ok_iff :
    r.step t c = .ok r' ↔
      ∃ data, DottedPath.assign c.path c.value r.data = .ok data ∧ r' = r.after t c data := by
  unfold step
  cases DottedPath.assign c.path c.value r.data with
  | error f => simp
  | ok data =>
    constructor
    · intro h
      exact ⟨data, rfl, (Except.ok.inj h).symm⟩
    · intro hexists
      rcases hexists with ⟨_, ⟨rfl⟩, rfl⟩
      rfl

theorem within_iff (he : r.changes[i]? = some e) : r.within c i = true ↔ c.keys <+: e.keys := by
  simp [within, he, Change.encloses]

theorem mem_placedAfter_iff (he : r.changes[i]? = some e) :
    i ∈ r.placedAfter t c ↔
      (i ∈ r.placed ∧ ¬ c.keys <+: e.keys) ∨ (c.isObject = true ∧ (i = t ∨ i ∈ c.holds)) := by
  have hbefore : i ∈ r.placed.filter (fun j => !r.within c j) ↔
      i ∈ r.placed ∧ ¬ c.keys <+: e.keys := by
    rw [List.mem_filter, Bool.not_eq_true', ← Bool.not_eq_true, within_iff he]
  unfold placedAfter
  rw [List.mem_append, hbefore]
  cases c.isObject <;> simp

theorem of_mem_placedAfter (h : i ∈ r.placedAfter t c) :
    i ∈ r.placed ∨ (c.isObject = true ∧ (i = t ∨ i ∈ c.holds)) := by
  rw [placedAfter, List.mem_append, List.mem_filter] at h
  refine h.imp And.left ?_
  intro h
  split at h
  · rename_i hc
    exact ⟨hc, List.mem_cons.1 h⟩
  · simp at h

/-- A change after a step: as it was if its object does not lie in the object, and else with what
stands at its place. -/
theorem exists_of_after (he : (r.after t c data).changes[i]? = some e) :
    ∃ d, r.changes[i]? = some d ∧ e.path = d.path ∧
      (i ∉ r.placedAfter t c → e = d) ∧
      (i ∈ r.placedAfter t c →
        (∀ u, readAt d.keys (.obj data) = some u → e.value = u) ∧
          e.holds = (r.placedAfter t c).filter fun j => j != i && r.within d j) := by
  simp only [after, List.getElem?_map, List.getElem?_zipIdx, Option.map_map,
    Option.map_eq_some_iff, Function.comp_apply, Nat.zero_add] at he
  rcases he with ⟨d, hd, rfl⟩
  refine ⟨d, hd, ?_, ?_, ?_⟩
  · simp only [refreshed]
    split <;> rfl
  · intro hout
    rw [refreshed, if_neg (by simpa using hout)]
  · intro hin
    rw [refreshed, if_pos (by simpa using hin)]
    refine ⟨?_, rfl⟩
    intro u hu
    rw [DottedPath.read?_eq, hu, Option.getD_some]

/-- The objects of the changes that have been placed stand at their places. -/
def Consistent (r : ChangeRun) : Prop :=
  ∀ i ∈ r.placed, ∀ e, r.changes[i]? = some e → readAt e.keys (.obj r.data) = some e.value

/-- The changes that one holds lie within it, and something stands in its value for each. -/
def HoldsWithin (r : ChangeRun) (c : Change) : Prop :=
  ∀ j ∈ c.holds, ∀ d, r.changes[j]? = some d →
    ∃ w u, d.keys = c.keys ++ w ∧ readAt w c.value = some u

theorem holdsWithin_of_nil (h : c.holds = []) : r.HoldsWithin c := by
  simp [HoldsWithin, h]

/-- What a change that has been placed becomes by the change of an index. -/
inductive Becomes (r : ChangeRun) (t : Nat) (c : Change) (i : Nat) (d : Change) : Value → Prop
  /-- It has nothing to do with the place. -/
  | kept (hi : i ∈ r.placed) (hparted : Parted d.keys c.keys) : Becomes r t c i d d.value
  /-- Something is assigned within its object. -/
  | filled {w : List String} {u : Value} (hi : i ∈ r.placed) (hkeys : c.keys = d.keys ++ w)
      (hout : ¬ c.keys <+: d.keys) (h : assignAt w c.value d.value = some u) :
      Becomes r t c i d u
  /-- It is carried out itself. -/
  | assigned (hc : c.isObject = true) (hi : i = t) : Becomes r t c i d c.value
  /-- Its object comes with the one that is assigned. -/
  | held {w : List String} {u : Value} (hc : c.isObject = true) (hi : i ∈ c.holds)
      (hkeys : d.keys = c.keys ++ w) (h : readAt w c.value = some u) : Becomes r t c i d u

/-- What a change becomes is what stands at its place. -/
theorem exists_becomes (hr : r.Consistent) (hholds : r.HoldsWithin c)
    (ht : r.changes[t]? = some c)
    (hassign : assignAt c.keys c.value (.obj r.data) = some (.obj data))
    (hd : r.changes[i]? = some d) (hi : i ∈ r.placedAfter t c) :
    ∃ u, r.Becomes t c i d u ∧ readAt d.keys (.obj data) = some u := by
  rcases (mem_placedAfter_iff hd).1 hi with ⟨hplaced, hout⟩ | ⟨hc, rfl | hheld⟩
  · -- It was placed before, and the place that is assigned does not take in its own.
    have hread := hr i hplaced d hd
    rcases covered_or_within_or_parted d.keys c.keys with hin | ⟨w, hkeys, -⟩ | hparted
    · exact absurd hin hout
    · rw [hkeys, assignAt_append hread] at hassign
      rcases Option.bind_eq_some_iff.1 hassign with ⟨u, hu, hput⟩
      exact ⟨u, .filled hplaced hkeys hout hu, readAt_assignAt_self hput⟩
    · exact ⟨d.value, .kept hplaced hparted, readAt_assignAt_apart hparted hassign hread⟩
  · obtain rfl : c = d := Option.some.inj (ht.symm.trans hd)
    exact ⟨c.value, .assigned hc rfl, readAt_assignAt_self hassign⟩
  · rcases hholds i hheld d hd with ⟨w, u, hkeys, hu⟩
    refine ⟨u, .held hc hheld hkeys hu, ?_⟩
    rw [hkeys, readAt_append, readAt_assignAt_self hassign, Option.bind_some, hu]

/-- What one step makes of a change. -/
structure Follows (r : ChangeRun) (t : Nat) (c : Change) (i : Nat) (d e : Change) : Prop where
  path : e.path = d.path
  apart : i ∉ r.placedAfter t c → e = d
  becomes : i ∈ r.placedAfter t c → r.Becomes t c i d e.value

theorem Follows.keys (h : r.Follows t c i d e) : e.keys = d.keys :=
  congrArg DottedPath.keys h.path

/-- What is known of a run after a step: its changes come of those before, their objects still stand
at their places, and one that has been placed holds others that have been. -/
structure Carried (r : ChangeRun) (t : Nat) (c : Change) (r' : ChangeRun) : Prop where
  placed : r'.placed = r.placedAfter t c
  consistent : r'.Consistent
  follows : ∀ i e, r'.changes[i]? = some e → ∃ d, r.changes[i]? = some d ∧ r.Follows t c i d e
  holds : ∀ i e, r'.changes[i]? = some e → i ∈ r'.placed → ∀ j ∈ e.holds, j ∈ r'.placed ∧
    ∀ f, r'.changes[j]? = some f →
      ∃ w, f.keys = e.keys ++ w ∧ readAt w e.value = some f.value

theorem step_carried (hr : r.Consistent) (hholds : r.HoldsWithin c) (ht : r.changes[t]? = some c)
    (h : r.step t c = .ok r') : r.Carried t c r' := by
  rcases step_eq_ok_iff.1 h with ⟨data, hassign, rfl⟩
  have hassign := (DottedPath.assign_eq_ok_iff.1 hassign).2
  -- A placed change is given what stands at its place, so that is what it becomes.
  have hvalue : ∀ i e d, (r.after t c data).changes[i]? = some e → r.changes[i]? = some d →
      i ∈ r.placedAfter t c → r.Becomes t c i d e.value ∧
        readAt e.keys (.obj data) = some e.value := by
    intro i e d he hd hi
    rcases exists_of_after he with ⟨d', hd', hpath, -, hin⟩
    obtain rfl : d = d' := Option.some.inj (hd.symm.trans hd')
    rcases exists_becomes hr hholds ht hassign hd hi with ⟨u, hu, hread⟩
    have hkeys : e.keys = d.keys := congrArg DottedPath.keys hpath
    obtain rfl : e.value = u := (hin hi).1 u hread
    exact ⟨hu, hkeys ▸ hread⟩
  have hconsistent : (r.after t c data).Consistent := by
    intro i hi e he
    rcases exists_of_after he with ⟨d, hd, -⟩
    exact (hvalue i e d he hd hi).2
  refine ⟨rfl, hconsistent, ?_, ?_⟩
  · intro i e he
    rcases exists_of_after he with ⟨d, hd, hpath, hout, -⟩
    exact ⟨d, hd, hpath, hout, fun hi => (hvalue i e d he hd hi).1⟩
  · intro i e he hi j hj
    rcases exists_of_after he with ⟨d, hd, hpath, -, hin⟩
    rw [(hin hi).2, List.mem_filter, Bool.and_eq_true] at hj
    refine ⟨hj.1, ?_⟩
    intro f hf
    rcases exists_of_after hf with ⟨g, hg, hfpath, -⟩
    rcases (within_iff hg).1 hj.2.2 with ⟨w, hw⟩
    have hkeys : f.keys = e.keys ++ w := by
      rw [Change.keys, hfpath, Change.keys, hpath]
      exact hw.symm
    have hread := hconsistent j hj.1 f hf
    rw [hkeys, readAt_append, hconsistent i hi e he, Option.bind_some] at hread
    exact ⟨w, hkeys, hread⟩

/-! ## Several steps -/

theorem of_steps_succ {count : Nat} (hc : r.changes[t]? = some c)
    (h : steps (count + 1) t r = .ok r') :
    ∃ s, r.step t c = .ok s ∧ steps count (t + 1) s = .ok r' := by
  simp only [steps, hc] at h
  cases hstep : r.step t c with
  | error f => simp [hstep] at h
  | ok s =>
    rw [hstep] at h
    exact ⟨s, rfl, h⟩

section Pairs

variable {cs ds : List Change}

theorem getElem?_of_paths (h : ds.map (·.path) = cs.map (·.path)) (hd : ds[i]? = some d) :
    ∃ c, cs[i]? = some c ∧ d.path = c.path := by
  have hpath := congrArg (·[i]?) h
  simp only [List.getElem?_map, hd, Option.map_some] at hpath
  rcases Option.map_eq_some_iff.1 hpath.symm with ⟨c, hc, heq⟩
  exact ⟨c, hc, heq.symm⟩

/-- The changes of an index assign at one place if the paths are the same. -/
theorem keys_eq_of_paths (h : ds.map (·.path) = cs.map (·.path)) (hd : ds[i]? = some d)
    (hc : cs[i]? = some c) : d.keys = c.keys := by
  rcases getElem?_of_paths h hd with ⟨c', hc', hpath⟩
  rw [Option.some.inj (hc.symm.trans hc')]
  exact congrArg DottedPath.keys hpath

theorem getElem?_eq_none_of_paths (h : ds.map (·.path) = cs.map (·.path)) (hd : ds[i]? = none) :
    cs[i]? = none := by
  have hlength := congrArg List.length h
  rw [List.length_map, List.length_map] at hlength
  rw [List.getElem?_eq_none_iff] at hd ⊢
  omega

def pairs (cs : List Change) : List (String × Value) :=
  cs.map fun c => (c.path, c.value)

theorem getElem?_pairs (hpaths : ds.map (·.path) = cs.map (·.path))
    (hvalue : ∀ d c, ds[t]? = some d → cs[t]? = some c → d.value = c.value) :
    (ds[t]?).map (fun c => (c.path, c.value)) = (pairs cs)[t]? := by
  rw [pairs, List.getElem?_map]
  cases hd : ds[t]? with
  | none => simp [getElem?_eq_none_of_paths hpaths hd]
  | some d =>
    rcases getElem?_of_paths hpaths hd with ⟨c, hc, hpath⟩
    simp [hc, hpath, hvalue d c hd hc]

theorem exists_obj_of_assignAt {path : String} {x v v' : Value}
    (h : assignAt (DottedPath.keys path) x v = some v') : ∃ es, v' = .obj es := by
  rcases hkeys : DottedPath.keys path with _ | ⟨key, rest⟩
  · exact absurd hkeys (DottedPath.keys_ne_nil path)
  · rw [hkeys] at h
    rcases assignAt_cons_eq_some.1 h with ⟨es, inner, -, -, rfl⟩
    exact ⟨_, rfl⟩

/-- Dotted paths are assigned to as the ways of their keys. -/
theorem assignAll_pairs_iff {es : Entries Value} :
    DottedPath.assignAll (pairs cs) data = .ok es ↔
      (∀ c ∈ cs, "" ∉ c.keys) ∧
        assignAts (cs.map Change.assignment) (.obj data) = some (.obj es) := by
  induction cs generalizing data with
  | nil => simp [pairs, DottedPath.assignAll, assignAts]
  | cons c rest ih =>
    rw [List.forall_mem_cons, List.map_cons, pairs, List.map_cons, ← pairs]
    simp only [DottedPath.assignAll]
    constructor
    · intro h
      cases hassign : DottedPath.assign c.path c.value data with
      | error f => simp [hassign] at h
      | ok es' =>
        rw [hassign] at h
        rcases DottedPath.assign_eq_ok_iff.1 hassign with ⟨hkeys, hat⟩
        rcases ih.1 h with ⟨hrest, hats⟩
        have hfirst : assignAt c.assignment.1 c.assignment.2 (.obj data) = some (.obj es') := hat
        refine ⟨⟨hkeys, hrest⟩, ?_⟩
        rw [assignAts, hfirst, Option.bind_some, hats]
    · intro hboth
      rcases hboth with ⟨⟨hkeys, hrest⟩, h⟩
      rcases Option.bind_eq_some_iff.1 h with ⟨v, hv, hats⟩
      rcases exists_obj_of_assignAt hv with ⟨es', rfl⟩
      have hassign : DottedPath.assign c.path c.value data = .ok es' :=
        DottedPath.assign_eq_ok_iff.2 ⟨hkeys, hv⟩
      rw [hassign]
      exact ih.2 ⟨hrest, hats⟩

end Pairs

variable {L : List (String × Value)} {I : Nat → ChangeRun → Prop}

/-- Steps before each of which the change in turn is the one that a list names do what the
assignments of the list do. -/
theorem steps_of_inv (hturn : ∀ t r, I t r →
      (r.changes[t]?).map (fun c => (c.path, c.value)) = L[t]?)
    (hstep : ∀ t r r' c, I t r → r.changes[t]? = some c → r.step t c = .ok r' → I (t + 1) r')
    {count : Nat} (hr : I t r) (hcount : t + count = L.length) :
    (∀ r', steps count t r = .ok r' →
        I L.length r' ∧ DottedPath.assignAll (L.drop t) r.data = .ok r'.data) ∧
      ∀ es, DottedPath.assignAll (L.drop t) r.data = .ok es →
        ∃ r', steps count t r = .ok r' := by
  -- The induction is on the steps that are left. Before each of them the run and the assignments
  -- agree on the object, and the invariant tells that they assign the same next.
  induction count generalizing t r with
  | zero =>
    have hdrop : L.drop t = [] := List.drop_eq_nil_of_le (by omega)
    obtain rfl : t = L.length := by omega
    rw [hdrop]
    refine ⟨?_, fun es _ => ⟨r, rfl⟩⟩
    intro r' h
    cases h
    exact ⟨hr, rfl⟩
  | succ count ih =>
    have hlt : t < L.length := by omega
    have hnow := hturn t r hr
    rw [List.getElem?_eq_getElem hlt] at hnow
    rcases Option.map_eq_some_iff.1 hnow with ⟨c, hc, hpair⟩
    rw [List.drop_eq_getElem_cons hlt, ← hpair]
    simp only [steps, hc, DottedPath.assignAll]
    cases hassign : DottedPath.assign c.path c.value r.data with
    | error f =>
      have herror : r.step t c = .error f := by
        unfold step
        rw [hassign]
      simp [herror]
    | ok data =>
      have hok : r.step t c = .ok (r.after t c data) := step_eq_ok_iff.2 ⟨data, hassign, rfl⟩
      simp only [hok]
      exact ih (hstep t r _ c hr hc hok) (by omega)

/-- A run of changes whose paths stay as they are, and whose values are those given when it is their
turn, does what the assignments do. -/
theorem run_of_inv {cs : List Change}
    (hpaths : ∀ t r, I t r → r.changes.map (·.path) = cs.map (·.path))
    (hvalue : ∀ t r, I t r → ∀ d c : Change, r.changes[t]? = some d → cs[t]? = some c →
      d.value = c.value)
    (hstep : ∀ t r r' c, I t r → r.changes[t]? = some c → r.step t c = .ok r' → I (t + 1) r')
    (hstart : I 0 { data := data, changes := cs }) :
    (∀ r, run cs data = .ok r →
        I cs.length r ∧ DottedPath.assignAll (pairs cs) data = .ok r.data) ∧
      ∀ es, DottedPath.assignAll (pairs cs) data = .ok es → ∃ r, run cs data = .ok r := by
  have hlength : 0 + cs.length = (pairs cs).length := by simp [pairs]
  have hturn : ∀ t r, I t r → (r.changes[t]?).map (fun c => (c.path, c.value)) = (pairs cs)[t]? :=
    fun t r hr => getElem?_pairs (hpaths t r hr) (hvalue t r hr)
  have h := steps_of_inv hturn hstep hstart hlength
  rw [← hlength, Nat.zero_add, List.drop_zero] at h
  exact h

theorem holds_ofEntries (changes : List (String × Value)) :
    ∀ c ∈ Change.ofEntries changes, c.holds = [] := by
  intro c hc
  rcases List.mem_map.1 hc with ⟨p, -, rfl⟩
  rfl

end ChangeRun
end Workflows
