import Workflows.Proofs.Graph.Reaching
import Workflows.Proofs.Number
import Workflows.Proofs.Validation.CycleErrors

/-!
# LoopWiring — what is reported about the outputs of loop nodes

Where the loop output of a loop node leads, a way back has to exist; where its other output leads,
none must. A way back is a walk along valid main links, of no more links than the settings say. The
targets are those of the document itself, whether or not their links are valid; all that is asked of
them is that they are nodes, and not the loop node.

Main definitions:

* `Scene.HasLoop`, `Scene.loops` — the loop nodes whose outputs are looked at;
* `Scene.strays`, `Scene.returning` — the targets that ought to lead back and do not, and the other
  way round;
* `Validator.loop_wiring` — these targets are what is reported, in order.
-/

namespace Workflows

/-- Parts that pass a test as a whole, or not at all, can be chosen before they are put together. -/
theorem filter_flatMap_of_test {α β : Type} {whole : α → Bool} {test : β → Bool}
    {parts : α → List β} {l : List α} (h : ∀ a, ∀ b ∈ parts a, test b = whole a) :
    (l.flatMap parts).filter test = (l.filter whole).flatMap parts := by
  induction l with
  | nil => rfl
  | cons a rest ih =>
    rw [List.flatMap_cons, List.filter_append, ih]
    cases hwhole : whole a with
    | true =>
      rw [List.filter_cons_of_pos hwhole, List.flatMap_cons,
        List.filter_eq_self.2 fun b hb => (h a b hb).trans hwhole]
    | false =>
      rw [List.filter_cons_of_neg (by simp [hwhole]),
        List.filter_eq_nil_iff.2 fun b hb => by simp [h a b hb, hwhole], List.nil_append]

namespace Issue

/-- Whether a finding is attributed to the node, going by its name and id. -/
def isOn (n : Node) (i : Issue) : Bool :=
  i.nodeName == some n.name && i.nodeId == some n.id

end Issue

namespace Scene

variable {s : Scene} {settings : Settings} {n : Node} {t : NodeType} {c : Nat} {u v : String}

/-! ## Ways back -/

/-- A search in the graph finds a way back where there is a walk along main links. -/
theorem reaches_mainGraph_iff :
    (s.mainGraph s.wiring).reaches c u v = true ↔ WalkTo s.MainLink v c u := by
  rw [Graph.reaches_iff simple_mainGraph, edge_eq_mainLink]

instance (s : Scene) (c : Nat) (u v : String) : Decidable (WalkTo s.MainLink v c u) :=
  decidable_of_iff _ reaches_mainGraph_iff

/-- An enabled node of a type made for loops, with an output for the body of the loop and one for
the time when the loop is done. -/
structure HasLoop (s : Scene) (n : Node) (t : NodeType) : Prop where
  enabled : n.disabled = false
  type : s.typeOf n = some t
  capable : t.isLoopCapable = true
  done : "done" ∈ t.outputs
  loop : "loop" ∈ t.outputs

/-- The nodes other than the node itself that the main links of one of its outputs lead to. -/
def others (s : Scene) (n : Node) (slot : Nat) : List String :=
  ((s.document.connections.slotTargets n.name "main" slot).map (·.node)).filter fun name =>
    name ≠ n.name ∧ name ∈ s.document.nodeNames

/-- The nodes on the loop output from which no walk of at most so many links leads back. -/
def strays (s : Scene) (c : Nat) (n : Node) (t : NodeType) : List String :=
  (s.others n (t.outputs.idxOf "loop")).filter fun name => ¬ WalkTo s.MainLink n.name c name

/-- The nodes on the other output from which one does. -/
def returning (s : Scene) (c : Nat) (n : Node) (t : NodeType) : List String :=
  (s.others n (t.outputs.idxOf "done")).filter fun name => WalkTo s.MainLink n.name c name

def strayIssues (s : Scene) (c : Nat) (n : Node) (t : NodeType) : List Issue :=
  (s.strays c n t).map (loopNotClosed n)

def returningIssues (s : Scene) (c : Nat) (n : Node) (t : NodeType) : List Issue :=
  (s.returning c n t).map (outputsReversed n (t.outputs.idxOf "done") (t.outputs.idxOf "loop"))

/-! ## One loop node -/

/-- The targets other than the node itself are those that the check looks at. -/
theorem others_eq_slotNodes (slot : Nat) : s.others n slot = s.slotNodes n.name slot := by
  refine List.filter_congr ?_
  intro name _
  rw [Bool.eq_iff_iff]
  simp [Option.isSome_iff_exists, exists_node?_iff]

/-- The place of a name in a list of names is found if the name is there. -/
theorem idxOf?_of_mem {name : String} {names : List String} (h : name ∈ names) :
    names.idxOf? name = some (names.idxOf name) := by
  rcases Option.isSome_iff_exists.1 (List.isSome_idxOf?.2 h) with ⟨i, hi⟩
  rw [List.idxOf_eq_getD_idxOf?, hi, Option.getD_some]

/-- A node with a loop is told which of its targets lead to the wrong places. -/
theorem loopNodeIssues_of_hasLoop (hc : settings.loopBackMaxDepth.sameValue (.int c) = true)
    (h : s.HasLoop n t) :
    s.loopNodeIssues settings (s.mainGraph s.wiring) n t =
      s.strayIssues c n t ++ s.returningIssues c n t := by
  have hreturns : ∀ name,
      (s.mainGraph s.wiring).reaches settings.loopBackMaxDepth.ceiling.toNat name n.name =
        decide (WalkTo s.MainLink n.name c name) := by
    intro name
    rw [Number.ceiling_of_sameValue hc, Int.toNat_natCast, Bool.eq_iff_iff, decide_eq_true_iff]
    exact reaches_mainGraph_iff
  rw [loopNodeIssues, idxOf?_of_mem h.done, idxOf?_of_mem h.loop]
  simp only [hreturns, ← others_eq_slotNodes, strayIssues, returningIssues, strays, returning,
    decide_not]

/-! ## All loop nodes -/

def loopType? (s : Scene) (n : Node) : Option NodeType :=
  (s.typeOf n).filter fun t =>
    !n.disabled && t.isLoopCapable && (t.outputs.contains "done" && t.outputs.contains "loop")

/-- The type with which a node has a loop is found if it has one. -/
theorem loopType?_eq_some_iff : s.loopType? n = some t ↔ s.HasLoop n t := by
  simp only [loopType?, Option.filter_eq_some_iff, Bool.and_eq_true, Bool.not_eq_true',
    List.contains_iff_mem]
  constructor
  · intro h
    rcases h with ⟨htype, ⟨henabled, hcapable⟩, hdone, hloop⟩
    exact ⟨henabled, htype, hcapable, hdone, hloop⟩
  · intro h
    rcases h with ⟨henabled, htype, hcapable, hdone, hloop⟩
    exact ⟨htype, ⟨henabled, hcapable⟩, hdone, hloop⟩

def loops (s : Scene) : List (Node × NodeType) :=
  s.nodes.filterMap fun n => (s.loopType? n).map fun t => (n, t)

/-- The nodes with loops are on the list, with their types. -/
theorem mem_loops_iff : (n, t) ∈ s.loops ↔ n ∈ s.nodes ∧ s.HasLoop n t := by
  simp only [loops, List.mem_filterMap, Option.map_eq_some_iff, Prod.mk.injEq]
  constructor
  · intro h
    rcases h with ⟨m, hm, t', ht', rfl, rfl⟩
    exact ⟨hm, loopType?_eq_some_iff.1 ht'⟩
  · intro h
    rcases h with ⟨hn, ht⟩
    exact ⟨n, hn, t, loopType?_eq_some_iff.2 ht, rfl, rfl⟩

/-- The findings on loops are those of one loop node after the other. -/
theorem loopIssues_eq (hc : settings.loopBackMaxDepth.sameValue (.int c) = true) :
    s.loopIssues settings (s.mainGraph s.wiring) =
      s.loops.flatMap fun (n, t) => s.strayIssues c n t ++ s.returningIssues c n t := by
  rw [loopIssues, loops, List.filterMap_eq_flatMap_toList, List.flatMap_assoc]
  refine List.flatMap_congr ?_
  intro n _
  cases hloop : s.loopType? n with
  | some t =>
    have h := loopType?_eq_some_iff.1 hloop
    simp [h.type, h.enabled, h.capable, loopNodeIssues_of_hasLoop hc h]
  | none =>
    rw [Option.map_none, Option.toList_none, List.flatMap_nil]
    cases htype : s.typeOf n with
    | none => rfl
    | some t =>
      dsimp only
      split
      · rename_i hcapable
        -- One of the two outputs is missing, since nothing else is.
        have hmissing : "done" ∉ t.outputs ∨ "loop" ∉ t.outputs := by
          by_contra hboth
          rw [not_or, not_not, not_not] at hboth
          simp only [Bool.and_eq_true, Bool.not_eq_true'] at hcapable
          have h : s.HasLoop n t := ⟨hcapable.1, htype, hcapable.2, hboth.1, hboth.2⟩
          rw [loopType?_eq_some_iff.2 h] at hloop
          cases hloop
        rw [loopNodeIssues]
        rcases hmissing with hdone | hloop
        · rw [List.idxOf?_eq_none_iff.2 hdone]
        · rw [List.idxOf?_eq_none_iff.2 hloop]
          split
          · rename_i heq
            cases heq
          · rfl
      · rfl

/-- The two kinds of findings can be told apart by their codes. -/
theorem filter_loopIssues (hc : settings.loopBackMaxDepth.sameValue (.int c) = true)
    (codes : List String) :
    (s.loopIssues settings (s.mainGraph s.wiring)).filter (Issue.hasCode codes) =
      s.loops.flatMap fun (n, t) =>
        (if "loop_not_closed" ∈ codes then s.strayIssues c n t else []) ++
          if "loop_outputs_reversed" ∈ codes then s.returningIssues c n t else [] := by
  have hkind : ∀ {issues : List Issue} {code : String}, (∀ i ∈ issues, i.code = code) →
      issues.filter (Issue.hasCode codes) = if code ∈ codes then issues else [] := by
    intro issues code hcode
    split
    · rename_i hmem
      exact List.filter_eq_self.2 fun i hi => Issue.hasCode_iff.2 ((hcode i hi).symm ▸ hmem)
    · rename_i hnot
      exact List.filter_eq_nil_iff.2 fun i hi htest => hnot (hcode i hi ▸ Issue.hasCode_iff.1 htest)
  rw [loopIssues_eq hc, List.filter_flatMap]
  refine List.flatMap_congr ?_
  intro p _
  have hstray : ∀ i ∈ s.strayIssues c p.1 p.2, i.code = "loop_not_closed" :=
    List.forall_mem_map.2 fun _ _ => rfl
  have hreturning : ∀ i ∈ s.returningIssues c p.1 p.2, i.code = "loop_outputs_reversed" :=
    List.forall_mem_map.2 fun _ _ => rfl
  rw [List.filter_append, hkind hstray, hkind hreturning]

/-- Loop nodes that pass a test are those among the nodes that pass it. -/
theorem loops_filter (test : Node → Bool) :
    (s.loops.filter fun p => test p.1) =
      (s.nodes.filter test).filterMap fun n => (s.loopType? n).map fun t => (n, t) := by
  rw [loops, List.filter_filterMap, List.filterMap_filter]
  refine List.filterMap_congr ?_
  intro n _
  cases s.loopType? n <;> cases htest : test n <;> simp [htest]

/-- Where no other node has the name and the id of a loop node, the findings on that node are its
own. -/
theorem filter_isOn_loops {found : Node → NodeType → List Issue} (h : s.HasLoop n t)
    (hfound : ∀ m t', ∀ i ∈ found m t', i.nodeName = some m.name ∧ i.nodeId = some m.id)
    (halone : (s.nodes.filter fun m => m.name == n.name && m.id == n.id) = [n]) :
    (s.loops.flatMap fun (m, t') => found m t').filter (Issue.isOn n) = found n t := by
  have hown : (s.loops.filter fun p => p.1.name == n.name && p.1.id == n.id) = [(n, t)] := by
    rw [loops_filter fun m => m.name == n.name && m.id == n.id, halone,
      List.filterMap_cons_some (by rw [loopType?_eq_some_iff.2 h, Option.map_some]),
      List.filterMap_nil]
  rw [filter_flatMap_of_test fun p i hi => ?_, hown, List.flatMap_singleton]
  simp [Issue.isOn, hfound p.1 p.2 i hi]

end Scene

namespace Validator

variable {v : Validator} {d : Document} {profile : Profile} {r : Report} {c : Nat}
  {codes : List String}

/-- What a report says about loop nodes is what its policy makes of the findings about them. -/
theorem loop_issues (hcodes : ∀ code ∈ codes, code ∈ Scene.loopCodes)
    (h : v.report profile d = .ok r) :
    r.errors.filter (Issue.hasCode codes) = profile.policy.errors
        (((v.scene d).loopIssues v.settings
          ((v.scene d).mainGraph (v.scene d).wiring)).filter (Issue.hasCode codes)) ∧
      r.warnings.filter (Issue.hasCode codes) = profile.policy.warnings
        (((v.scene d).loopIssues v.settings
          ((v.scene d).mainGraph (v.scene d).wiring)).filter (Issue.hasCode codes)) := by
  by_cases hnodes : d.nodes = []
  · -- Without nodes the checks do not run, and would have nothing to say about loops.
    have hother : [emptyWorkflow].filter (Issue.hasCode codes) = [] := by
      have hcode : ∀ i ∈ [emptyWorkflow], i.code ∈ ["empty_workflow"] := by simp [emptyWorkflow]
      refine Issue.filter_hasCode_eq_nil hcode ?_
      intro code hempty hmem
      rw [List.mem_singleton.1 hempty] at hmem
      exact absurd (hcodes _ hmem) (by decide)
    have hnone :
        (v.scene d).loopIssues v.settings ((v.scene d).mainGraph (v.scene d).wiring) = [] := by
      rw [Scene.loopIssues, Scene.nodes, scene, hnodes, List.flatMap_nil]
    rcases issues_of_empty hnodes h with ⟨herrors, hwarnings⟩
    rw [herrors, hwarnings, ← Policy.errors_filter_hasCode, ← Policy.warnings_filter_hasCode,
      hother, hnone, List.filter_nil]
    exact ⟨rfl, rfl⟩
  · rcases (report_eq_ok_iff hnodes).1 h with ⟨nodes, texts, hfound, htexts, rfl⟩
    rw [errors_reportOf, warnings_reportOf, ← Policy.errors_filter_hasCode,
      ← Policy.warnings_filter_hasCode, ← Issue.filter_hasCode_of_subset hcodes,
      Scene.allIssues_filter_loopCodes hfound htexts]
    exact ⟨rfl, rfl⟩

/-- Where warnings are kept, the loop outputs of all loop nodes get a warning for each of their
targets from which no walk of at most so many valid main links leads back, in order; and whatever
the profile is, the other outputs get an error for each of their targets from which one does. A loop
node that shares its name and id with no other node finds these targets of its own under its name
and id. -/
theorem loop_wiring (hc : v.settings.loopBackMaxDepth.sameValue (.int c) = true)
    (h : v.report profile d = .ok r) :
    (profile.policy.keepWarnings = true →
      r.warnings.filter (Issue.hasCode ["loop_not_closed"]) =
        (v.scene d).loops.flatMap fun (n, t) =>
          ((v.scene d).strays c n t).map (Scene.loopNotClosed n)) ∧
    r.errors.filter (Issue.hasCode ["loop_outputs_reversed"]) =
      ((v.scene d).loops.flatMap fun (n, t) =>
        ((v.scene d).returning c n t).map
          (Scene.outputsReversed n (t.outputs.idxOf "done") (t.outputs.idxOf "loop"))) ∧
    ∀ n t, (v.scene d).HasLoop n t →
      (d.nodes.filter fun m => m.name == n.name && m.id == n.id) = [n] →
        (profile.policy.keepWarnings = true →
          (r.warnings.filter (Issue.hasCode ["loop_not_closed"])).filter (Issue.isOn n) =
            ((v.scene d).strays c n t).map (Scene.loopNotClosed n)) ∧
        (r.errors.filter (Issue.hasCode ["loop_outputs_reversed"])).filter (Issue.isOn n) =
          ((v.scene d).returning c n t).map
            (Scene.outputsReversed n (t.outputs.idxOf "done") (t.outputs.idxOf "loop")) := by
  -- The findings for all loops are reported in turn, as no policy drops or changes any of them
  -- where it keeps warnings.
  have hwarnings : profile.policy.keepWarnings = true →
      r.warnings.filter (Issue.hasCode ["loop_not_closed"]) =
        (v.scene d).loops.flatMap fun (n, t) => (v.scene d).strayIssues c n t := by
    intro hkeep
    rw [(loop_issues (by decide) h).2, Scene.filter_loopIssues hc]
    simp only [List.mem_singleton, if_true, String.reduceEq, if_false, List.append_nil]
    refine Policy.warnings_eq_self hkeep (List.forall_mem_flatMap.2 ?_)
    intro p _
    exact List.forall_mem_map.2 fun name _ => ⟨rfl, by simp [Scene.loopNotClosed, Issue.onNode,
      Issue.warning]⟩
  have herrors : r.errors.filter (Issue.hasCode ["loop_outputs_reversed"]) =
      (v.scene d).loops.flatMap fun (n, t) => (v.scene d).returningIssues c n t := by
    rw [(loop_issues (by decide) h).1, Scene.filter_loopIssues hc]
    simp only [List.mem_singleton, if_true, String.reduceEq, if_false, List.nil_append]
    refine Policy.errors_eq_self (List.forall_mem_flatMap.2 ?_)
    intro p _
    exact List.forall_mem_map.2 fun name _ => ⟨rfl, by simp [Scene.outputsReversed, Issue.onNode,
      Issue.error]⟩
  refine ⟨hwarnings, herrors, fun n t hloop halone => ⟨?_, ?_⟩⟩
  · intro hkeep
    rw [hwarnings hkeep]
    exact Scene.filter_isOn_loops hloop
      (fun m t' => List.forall_mem_map.2 fun _ _ => ⟨rfl, rfl⟩) halone
  · rw [herrors]
    exact Scene.filter_isOn_loops hloop
      (fun m t' => List.forall_mem_map.2 fun _ _ => ⟨rfl, rfl⟩) halone

def batchType : NodeType :=
  { name := "x.batch", isLoopCapable := true, outputs := ["done", "loop"] }

/-- A way back may have two links. -/
def batchTypes : Validator where
  catalog := .ofTypes "1" [batchType, { name := "x.step" }]
  settings := { loopBackMaxDepth := .int 2 }

def batchNode : Node :=
  { id := "L", name := "L", type := "x.batch" }

/-- The way from `C` back to the loop node has three links; from `B`, which comes after the loop,
there is one of a single link. -/
def batches : Document where
  nodes := batchNode :: nodesOf "x.step" ["A", "B", "C", "D"]
  connections :=
    [("L", [("main", [some [⟨"B", "main", 0⟩, ⟨"D", "main", 0⟩],
        some [⟨"A", "main", 0⟩, ⟨"C", "main", 0⟩, ⟨"L", "main", 0⟩, ⟨"Z", "main", 0⟩]])]),
      leads "A" ["B"], leads "B" ["L"], leads "C" ["A"]]

theorem batches_reported :
    ∃ r, batchTypes.report .runtime batches = .ok r ∧
      (r.warnings.filter (Issue.hasCode ["loop_not_closed"])).filter (Issue.isOn batchNode) =
        [Scene.loopNotClosed batchNode "C"] ∧
      (r.errors.filter (Issue.hasCode ["loop_outputs_reversed"])).filter (Issue.isOn batchNode) =
        [Scene.outputsReversed batchNode 0 1 "B"] := by
  have hplain : ∀ type t, batchTypes.catalog.find? type = some t → t.isPlain = true := by
    intro type t ht
    rcases List.mem_pair.1 (Catalog.mem_of_find?_ofTypes ht) with rfl | rfl <;> rfl
  have hloop : (batchTypes.scene batches).HasLoop batchNode batchType :=
    ⟨rfl, rfl, rfl, by decide, by decide⟩
  have hstrays : (batchTypes.scene batches).strays 2 batchNode batchType = ["C"] := by
    decide +kernel
  have hreturning : (batchTypes.scene batches).returning 2 batchNode batchType = ["B"] := by
    decide +kernel
  rcases exists_report_of_bare (d := batches) .runtime hplain rfl with ⟨r, hr⟩
  rcases (loop_wiring (c := 2) (by decide +kernel) hr).2.2 batchNode batchType hloop rfl with
    ⟨hwarnings, herrors⟩
  rw [hstrays] at hwarnings
  rw [hreturning] at herrors
  exact ⟨r, hr, hwarnings rfl, herrors⟩

end Validator
end Workflows
