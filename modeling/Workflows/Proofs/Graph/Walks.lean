import Mathlib.Data.List.Chain
import Mathlib.Data.List.Perm.Subperm
import Workflows.Graph

/-!
# Walks — where a search backwards from some goals arrives

The nodes that lead to a goal are found in layers: first those with an edge to it, then those with
an edge to the first layer, and so on. A node that is found is not looked at again, and a layer is
looked at from the one before only. Nothing is lost by that: a walk that touches an early layer on
its way can be cut off there.

Main definitions:

* `Graph.Leads` — walks of a bounded length through allowed nodes;
* `Graph.mem_leadingWithin_iff` — the search finds exactly the nodes from which such a walk leads
  to a goal;
* `Graph.mem_leadingTo_of_path` — no path to the goal is missed.
-/

namespace Workflows
namespace Graph

variable {g : Graph}

/-! ## Walks -/

/-- A walk of at most so many edges leads from a node to one of the goals, through allowed nodes
only. -/
inductive Leads (g : Graph) (goals allowed : List String) : Nat → String → Prop
  | touch {steps : Nat} {v : String} :
      v ∈ allowed → g.touches goals v = true → Leads g goals allowed (steps + 1) v
  | step {steps : Nat} {v w : String} :
      v ∈ allowed → g.Edge v w → Leads g goals allowed steps w → Leads g goals allowed (steps + 1) v

variable {goals allowed : List String} {steps : Nat} {v : String}

/-- A node touches the goals if one of them is a successor. -/
theorem touches_iff : g.touches goals v = true ↔ ∃ w ∈ goals, g.Edge v w := by
  simp only [touches, List.any_eq_true, List.contains_iff_mem, Edge]
  constructor
  · rintro ⟨w, hedge, hgoal⟩
    exact ⟨w, hgoal, hedge⟩
  · rintro ⟨w, hgoal, hedge⟩
    exact ⟨w, hedge, hgoal⟩

def firstLayer (g : Graph) (goals allowed : List String) : List String :=
  allowed.filter (g.touches goals)

def behindFirst (g : Graph) (goals allowed : List String) : List String :=
  allowed.filter fun u => !g.touches goals u

/-- The nodes that lead to the goals are those of the first layer and those that lead to this
layer. -/
theorem leadingWithin_succ :
    g.leadingWithin (steps + 1) goals allowed =
      if (g.firstLayer goals allowed).isEmpty then []
      else g.firstLayer goals allowed ++
        g.leadingWithin steps (g.firstLayer goals allowed) (g.behindFirst goals allowed) :=
  rfl

theorem mem_firstLayer : v ∈ g.firstLayer goals allowed ↔ v ∈ allowed ∧ g.touches goals v = true :=
  List.mem_filter

/-- Behind the first layer are the nodes that do not touch the goals. -/
theorem mem_behindFirst :
    v ∈ g.behindFirst goals allowed ↔ v ∈ allowed ∧ g.touches goals v = false := by
  simp [behindFirst]

namespace Leads

/-- A node that leads to the goals is one of those that are allowed. -/
theorem mem_allowed (h : g.Leads goals allowed steps v) : v ∈ allowed := by
  cases h with
  | touch hv _ => exact hv
  | step hv _ _ => exact hv

/-- Nothing leads to no goals. -/
theorem not_nil : ¬ g.Leads [] allowed steps v := by
  intro h
  induction h with
  | touch _ htouch => simp [touches_iff] at htouch
  | step _ _ _ ih => exact ih

/-- A walk either touches a goal at once, or it leads through the nodes behind the first layer to
that layer. -/
theorem peel (h : g.Leads goals allowed (steps + 1) v) :
    v ∈ g.firstLayer goals allowed ∨
      g.Leads (g.firstLayer goals allowed) (g.behindFirst goals allowed) steps v := by
  induction steps generalizing v with
  | zero =>
    cases h with
    | touch hv htouch => exact Or.inl (mem_firstLayer.2 ⟨hv, htouch⟩)
    | step _ _ hw => cases hw
  | succ steps ih =>
    cases h with
    | touch hv htouch => exact Or.inl (mem_firstLayer.2 ⟨hv, htouch⟩)
    | @step _ _ w hv hedge hw =>
      cases htouch : g.touches goals v with
      | true => exact Or.inl (mem_firstLayer.2 ⟨hv, htouch⟩)
      | false =>
        have hbehind : v ∈ g.behindFirst goals allowed := mem_behindFirst.2 ⟨hv, htouch⟩
        rcases ih hw with hfirst | hlater
        · exact Or.inr (touch hbehind (touches_iff.2 ⟨w, hfirst, hedge⟩))
        · exact Or.inr (step hbehind hedge hlater)

/-- A walk to the first layer can be continued to a goal. -/
theorem unpeel
    (h : g.Leads (g.firstLayer goals allowed) (g.behindFirst goals allowed) steps v) :
    g.Leads goals allowed (steps + 1) v := by
  induction h with
  | touch hv htouch =>
    rcases touches_iff.1 htouch with ⟨w, hw, hedge⟩
    rcases mem_firstLayer.1 hw with ⟨hallowed, hgoal⟩
    exact step (mem_behindFirst.1 hv).1 hedge (touch hallowed hgoal)
  | step hv hedge _ ih => exact step (mem_behindFirst.1 hv).1 hedge ih

/-- A path through allowed nodes leads to the goal at its end. -/
theorem of_path {goal : String} {tail : List String}
    (hpath : List.IsChain g.Edge (v :: (tail ++ [goal]))) (hallowed : ∀ u ∈ v :: tail, u ∈ allowed)
    (hsteps : tail.length < steps) : g.Leads [goal] allowed steps v := by
  induction tail generalizing v steps with
  | nil =>
    cases steps with
    | zero => simp at hsteps
    | succ steps =>
      have hedge : g.Edge v goal := by simpa using hpath
      exact touch (hallowed v List.mem_cons_self) (touches_iff.2 ⟨goal, by simp, hedge⟩)
  | cons w tail ih =>
    cases steps with
    | zero => simp at hsteps
    | succ steps =>
      rcases List.isChain_cons_cons.1 hpath with ⟨hedge, hrest⟩
      have hbehind : g.Leads [goal] allowed steps w :=
        ih hrest (fun u hu => hallowed u (List.mem_cons_of_mem v hu))
          (Nat.lt_of_succ_lt_succ hsteps)
      exact step (hallowed v List.mem_cons_self) hedge hbehind

end Leads

/-! ## The search -/

/-- The search finds exactly the nodes from which a walk leads to a goal. -/
theorem mem_leadingWithin_iff :
    v ∈ g.leadingWithin steps goals allowed ↔ g.Leads goals allowed steps v := by
  -- The induction is on the steps, for all goals: what touches a goal is a goal for the rest.
  induction steps generalizing goals allowed with
  | zero =>
    refine ⟨fun h => absurd h (by simp [leadingWithin]), ?_⟩
    intro h
    cases h
  | succ steps ih =>
    rw [leadingWithin_succ]
    constructor
    · intro h
      split at h
      · simp at h
      · rcases List.mem_append.1 h with hfirst | hlater
        · rcases mem_firstLayer.1 hfirst with ⟨hv, htouch⟩
          exact Leads.touch hv htouch
        · exact (ih.1 hlater).unpeel
    · intro h
      have hfound : (g.firstLayer goals allowed).isEmpty = false := by
        rcases h.peel with hfirst | hlater
        · exact List.isEmpty_eq_false_iff_exists_mem.2 ⟨v, hfirst⟩
        · by_contra hempty
          rw [Bool.not_eq_false, List.isEmpty_iff] at hempty
          rw [hempty] at hlater
          exact Leads.not_nil hlater
      rw [hfound, if_neg Bool.false_ne_true]
      exact List.mem_append.2 (h.peel.imp id ih.2)

/-- What leads to the goal is among the nodes that are allowed. -/
theorem mem_allowed_of_mem_leadingTo {goal : String} (h : v ∈ g.leadingTo goal allowed) :
    v ∈ allowed :=
  (mem_leadingWithin_iff.1 h).mem_allowed

/-- A path through allowed nodes has no more nodes than there are, so the search is long enough
for it. -/
theorem mem_leadingTo_of_path {goal : String} {tail : List String}
    (hpath : List.IsChain g.Edge (v :: (tail ++ [goal]))) (hallowed : ∀ u ∈ v :: tail, u ∈ allowed)
    (hnodup : (v :: tail).Nodup) : v ∈ g.leadingTo goal allowed := by
  have hlength : (v :: tail).length ≤ allowed.length :=
    (List.subperm_of_subset hnodup hallowed).length_le
  exact mem_leadingWithin_iff.2 (Leads.of_path hpath hallowed (Nat.lt_of_succ_le hlength))

end Graph
end Workflows
