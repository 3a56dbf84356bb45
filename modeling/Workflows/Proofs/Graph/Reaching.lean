import Workflows.Proofs.Graph.Elementary

/-!
# Reaching — the bounded search for a way back

Whether a node leads to another one is asked with a bound on the number of edges. The search goes
backwards from the goal and never enters the goal again, nor a node that it has found before. All
the same it finds every node from which a walk within the bound leads to the goal, however often the
walk passes through the goal or anything else.

Main definitions:

* `WalkTo` — walks of a bounded length;
* `Graph.reaches_iff` — the search is exact.
-/

namespace Workflows

/-- A walk of at most so many edges leads from a node to the goal. -/
inductive WalkTo (r : String → String → Prop) (goal : String) : Nat → String → Prop
  | here {steps : Nat} : WalkTo r goal steps goal
  | step {steps : Nat} {u v : String} :
      r u v → WalkTo r goal steps v → WalkTo r goal (steps + 1) u

namespace Graph

variable {g : Graph} {steps : Nat} {allowed : List String} {u goal : String}

/-- Where a node leads within some steps there is a walk of no more steps. -/
theorem Leads.walkTo (h : g.Leads [goal] allowed steps u) : WalkTo g.Edge goal steps u := by
  induction h with
  | touch _ htouch =>
    rcases touches_iff.1 htouch with ⟨w, hw, hedge⟩
    rw [List.mem_singleton.1 hw] at hedge
    exact .step hedge .here
  | step _ hedge _ ih => exact .step hedge ih

/-- A walk that starts elsewhere can be cut off where it comes to the goal for the first time. -/
theorem leads_of_walkTo (hg : g.Simple) (h : WalkTo g.Edge goal steps u) (hother : u ≠ goal) :
    g.Leads [goal] (g.nodes.filter (· != goal)) steps u := by
  induction h with
  | here => exact absurd rfl hother
  | @step steps u v hedge _ ih =>
    have hallowed : u ∈ g.nodes.filter (· != goal) :=
      List.mem_filter.2 ⟨(hg.inside u v hedge).1, by simpa using hother⟩
    by_cases hgoal : v = goal
    · exact .touch hallowed (touches_iff.2 ⟨goal, List.mem_singleton_self goal, hgoal ▸ hedge⟩)
    · exact .step hallowed hedge (ih hgoal)

/-- The search finds exactly the nodes to which there is a walk that is short enough. -/
theorem reaches_iff (hg : g.Simple) :
    g.reaches steps u goal = true ↔ WalkTo g.Edge goal steps u := by
  rw [reaches, Bool.or_eq_true, beq_iff_eq, List.contains_iff_mem, mem_leadingWithin_iff]
  constructor
  · intro h
    rcases h with rfl | hleads
    · exact .here
    · exact hleads.walkTo
  · intro hwalk
    by_cases hgoal : u = goal
    · exact Or.inl hgoal
    · exact Or.inr (leads_of_walkTo hg hwalk hgoal)

end Graph
end Workflows
