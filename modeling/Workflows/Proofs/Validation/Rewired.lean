import Workflows.Proofs.Unwiring
import Workflows.Proofs.Validation.Counts
import Workflows.Proofs.Validation.Filed

/-!
# Rewired — reports on documents that differ in their links

With other connections a document keeps its nodes, and whether there is a report on it depends on
them alone. What one link more changes in the report is followed here: it is counted as valid or as
invalid, and if it is valid, no error about links comes or goes.

Main definitions:

* `Scene.rewired` — the scene with other connections;
* `Validator.exists_report_rewired` — whether there is a report;
* `Scene.valid_addTarget`, `Scene.invalid_addTarget`, `Scene.faults_addTarget` — one link more.
-/

namespace Workflows

/-! ## Slots -/

namespace Connections

variable {β : Type} {slot : Nat} {t : Target} {slots : List Slot}

/-- Where the items of a slot are the same with the target as without it, and empty slots have none,
the items of all slots are the same after the addition. -/
theorem flatMap_withTarget (items : Nat → List Target → List β) (hnone : ∀ i, items i [] = [])
    (hadd : ∀ targets, items slot (targets ++ [t]) = items slot targets) :
    (withTarget slot t slots).zipIdx.flatMap (fun p => items p.2 (Slot.targets p.1)) =
      slots.zipIdx.flatMap fun p => items p.2 (Slot.targets p.1) := by
  have hsame : (withTarget slot t slots).zipIdx.map (fun p => items p.2 (Slot.targets p.1)) =
      (padded slot slots).zipIdx.map fun p => items p.2 (Slot.targets p.1) := by
    refine List.ext_getElem? ?_
    intro i
    rw [withTarget, List.getElem?_map, List.getElem?_map, List.getElem?_zipIdx,
      List.getElem?_zipIdx, List.getElem?_modify]
    cases (padded slot slots)[i]? with
    | none => rfl
    | some s =>
      by_cases hi : slot = i
      · have hslot : items i (s.targets ++ [t]) = items i s.targets := hi ▸ hadd s.targets
        simpa [hi, Slot.targets] using hslot
      · simp [hi]
  -- The slots that were made before the one of the target have no items.
  have hmade : ((List.replicate (slot + 1 - slots.length) (some ([] : List Target))).zipIdx
      (0 + slots.length)).flatMap (fun p => items p.2 (Slot.targets p.1)) = [] := by
    refine List.flatMap_eq_nil_iff.2 ?_
    intro p hp
    have hempty : p.1 = some [] := List.eq_of_mem_replicate (List.fst_mem_of_mem_zipIdx hp)
    rw [hempty]
    exact hnone p.2
  calc (withTarget slot t slots).zipIdx.flatMap (fun p => items p.2 (Slot.targets p.1))
      = (padded slot slots).zipIdx.flatMap fun p => items p.2 (Slot.targets p.1) := by
        rw [List.flatMap_def, hsame, List.flatMap_def]
    _ = slots.zipIdx.flatMap fun p => items p.2 (Slot.targets p.1) := by
        rw [padded, List.zipIdx_append, List.flatMap_append, hmade, List.append_nil]

end Connections

namespace Scene

def rewired (s : Scene) (cs : Connections) : Scene :=
  ⟨{ s.document with connections := cs }, s.catalog⟩

variable {s : Scene} {cs : Connections}

/-! ## Nodes -/

/-- The checks of nodes find the same whatever the connections are. -/
theorem allNodeFindings_rewired (profile : Profile) :
    (s.rewired cs).allNodeFindings profile = s.allNodeFindings profile :=
  findingsOf_congr (List.forall₂_same.2 fun n _ => nodeFindings_of_catalog rfl n)

/-- Whether expressions can be checked does not depend on the connections. -/
theorem exists_textFindings_rewired {settings : Settings} {w : Wiring} {f : TextFindings}
    (h : s.textFindings settings w = .ok f) (cs : Connections) (w' : Wiring) :
    ∃ f', (s.rewired cs).textFindings settings w' = .ok f' := by
  have hformat : ∀ n ∈ s.executing, ∃ issues,
      s.formatIssues settings.maxExpressionDepth n = .ok issues :=
    exists_textFindingsOf_iff.1 ⟨f, h⟩
  exact exists_textFindingsOf_iff.2 hformat

end Scene

/-- Whether there is a report does not depend on the connections. -/
theorem Validator.exists_report_rewired {v : Validator} {profile : Profile} {d : Document}
    {r : Report} (h : v.report profile d = .ok r) (hnodes : d.nodes ≠ []) (cs : Connections) :
    ∃ r', v.report profile { d with connections := cs } = .ok r' := by
  rcases (report_eq_ok_iff hnodes).1 h with ⟨nodes, texts, hfound, htexts, -⟩
  have hfound' : ((v.scene d).rewired cs).allNodeFindings profile = .ok nodes := by
    rw [Scene.allNodeFindings_rewired, hfound]
  rcases Scene.exists_textFindings_rewired htexts cs ((v.scene d).rewired cs).wiring with
    ⟨texts', htexts'⟩
  exact ⟨_, (report_eq_ok_iff (d := { d with connections := cs }) hnodes).2
    ⟨nodes, texts', hfound', htexts', rfl⟩⟩

/-! ## One link more -/

namespace Scene

variable {s : Scene} {cs : Connections} {n : Node} {source output : String} {slot : Nat}
  {t : Target}

/-- The scene with one link more. -/
abbrev withLink (s : Scene) (l : Link) : Scene :=
  s.rewired (s.document.connections.addTarget l.source l.output l.slot l.target)

/-- Of the links after an addition one more passes a test if the new one does. -/
theorem length_filter_links_addTarget (test : Link → Bool) :
    ((cs.addTarget source output slot t).links.filter test).length =
      (cs.links.filter test).length + if test ⟨source, output, slot, t⟩ then 1 else 0 := by
  have hperm := Connections.links_addTarget_perm source output slot t cs
  rw [(hperm.filter test).length_eq]
  by_cases htest : test ⟨source, output, slot, t⟩ = true
  · rw [List.filter_cons_of_pos htest, if_pos htest, List.length_cons]
  · rw [List.filter_cons_of_neg htest, if_neg htest, Nat.add_zero]

variable {l : Link}

/-- A link more is a valid link more if it is usable. -/
theorem valid_addTarget :
    (s.withLink l).wiring.valid.length = s.wiring.valid.length + if s.isUsable l then 1 else 0 := by
  rw [valid_wiring, valid_wiring]
  exact length_filter_links_addTarget s.isUsable

/-- A link that is added to a node counts as invalid unless it is valid. -/
theorem invalid_addTarget (hnode : s.node? l.source = some n) :
    (s.withLink l).wiring.invalid = s.wiring.invalid + if s.isValidLink n l then 0 else 1 := by
  have hnone : ∀ os, s.strayCounts (l.source, os) = [] := by
    intro os
    simp [strayCounts, hnode]
  have hcounts : (s.document.connections.addTarget l.source l.output l.slot l.target).flatMap
      s.strayCounts = s.document.connections.flatMap s.strayCounts := by
    refine Entries.flatMap_put ?_
    cases hos : Entries.get? l.source s.document.connections <;>
      simp [Entries.itemsAt, hos, hnone]
  have hstray : (s.withLink l).strayCount = s.strayCount := congrArg List.sum hcounts
  have hlinks : ((s.withLink l).document.connections.links.filter (s.withLink l).isBroken).length =
      (s.document.connections.links.filter s.isBroken).length + if s.isBroken l then 1 else 0 :=
    length_filter_links_addTarget s.isBroken
  have hbroken : s.isBroken l = !s.isValidLink n l := isBroken_of_node? hnode
  have hone : (if s.isBroken l then 1 else 0) = if s.isValidLink n l then 0 else 1 := by
    rw [hbroken]
    cases s.isValidLink n l <;> rfl
  rw [invalid_wiring, invalid_wiring, hstray, hlinks, hone]
  exact Nat.add_right_comm _ _ _

/-! ### Errors about links -/

def outputFaults (s : Scene) (n : Node) (o : String × List Slot) : List Issue :=
  (s.slotFindings n o).filter (Issue.hasCode faultCodes)

def entryFaults (s : Scene) (e : String × Outputs) : List Issue :=
  (s.entryWiring e).issues.filter (Issue.hasCode faultCodes)

/-- The faults of the wiring are those of its entries. -/
theorem faults_wiring :
    s.wiring.issues.filter (Issue.hasCode faultCodes) =
      s.document.connections.flatMap s.entryFaults := by
  rw [wiring_eq_join, Wiring.issues_join, List.flatMap_map, List.filter_flatMap]
  rfl

/-- Remarks are no faults. -/
theorem filter_remarks {issues : List Issue} (h : ∀ i ∈ issues, i.code ∈ remarkCodes) :
    issues.filter (Issue.hasCode faultCodes) = [] :=
  Issue.filter_hasCode_eq_nil h (by decide)

/-- The faults of the entry of a node are those of its outputs. -/
theorem entryFaults_of_node? {name : String} (hnode : s.node? name = some n) (os : Outputs) :
    s.entryFaults (name, os) = os.flatMap (s.outputFaults n) := by
  have hremarks : (s.errorOutputIssues n os).filter (Issue.hasCode faultCodes) = [] :=
    filter_remarks (code_errorOutputIssues n os)
  calc s.entryFaults (name, os)
      = (os.flatMap (s.slotFindings n) ++ s.errorOutputIssues n os).filter
          (Issue.hasCode faultCodes) := by
        rw [entryFaults, entryWiring_of_node? hnode, issues_sourceWiring]
    _ = (os.flatMap (s.slotFindings n)).filter (Issue.hasCode faultCodes) := by
        rw [List.filter_append, hremarks, List.append_nil]
    _ = os.flatMap (s.outputFaults n) := by
        rw [List.filter_flatMap]
        rfl

/-- A valid link is no reason for an error about its slot. -/
theorem faults_slotWiring_append {targets : List Target}
    (houtput : s.hasOutput n output slot = true) (htarget : s.targetFault? t = none) :
    (s.slotWiring n output slot (targets ++ [t])).issues.filter (Issue.hasCode faultCodes) =
      (s.slotWiring n output slot targets).issues.filter (Issue.hasCode faultCodes) := by
  have hremarks : ∀ i ∈ (s.targetIssues n t).map
      (fun i => (i.onNode n).atPath (slotPath n.name output slot)), i.code ∈ remarkCodes :=
    List.forall_mem_map.2 fun i hi => code_targetIssues_of_valid htarget n i hi
  have hnone := filter_remarks hremarks
  have hissues : (s.slotWiring n output slot (targets ++ [t])).issues =
      (s.slotWiring n output slot targets).issues ++
        (s.targetIssues n t).map fun i => (i.onNode n).atPath (slotPath n.name output slot) := by
    simp [slotWiring, houtput]
  rw [hissues, List.filter_append, hnone, List.append_nil]

/-- A valid link that is added makes no difference to the errors about links. -/
theorem faults_addTarget (hnode : s.node? l.source = some n) (hvalid : s.isValidLink n l = true) :
    (s.withLink l).wiring.issues.filter (Issue.hasCode faultCodes) =
      s.wiring.issues.filter (Issue.hasCode faultCodes) := by
  have houtput : s.hasOutput n l.output l.slot = true := (Bool.and_eq_true_iff.1 hvalid).1
  have htarget : s.targetFault? l.target = none :=
    Option.isNone_iff_eq_none.1 (Bool.and_eq_true_iff.1 hvalid).2
  -- In its slot, in its output and in the entry of its source, the link brings no error.
  have hslots : ∀ os : Outputs, s.outputFaults n
      (l.output, Connections.withTarget l.slot l.target (os.slots l.output)) =
      Entries.itemsAt (s.outputFaults n) l.output os := by
    intro os
    have hsame : s.outputFaults n
        (l.output, Connections.withTarget l.slot l.target (os.slots l.output)) =
        s.outputFaults n (l.output, os.slots l.output) := by
      simp only [outputFaults, slotFindings, List.filter_flatMap]
      exact Connections.flatMap_withTarget (fun i targets =>
        (s.slotWiring n l.output i targets).issues.filter (Issue.hasCode faultCodes))
        (fun i => rfl) fun targets => faults_slotWiring_append houtput htarget
    rw [hsame, Outputs.slots, Entries.itemsAt]
    cases Entries.get? l.output os <;> rfl
  have hentry : s.entryFaults (l.source, (s.document.connections.outputs l.source).put l.output
      (Connections.withTarget l.slot l.target (s.document.connections.slots l.source l.output))) =
      Entries.itemsAt s.entryFaults l.source s.document.connections := by
    rw [entryFaults_of_node? hnode, Connections.slots, Entries.flatMap_put (hslots _),
      ← entryFaults_of_node? hnode, Connections.outputs, Entries.itemsAt]
    cases Entries.get? l.source s.document.connections with
    | none => exact entryFaults_of_node? hnode []
    | some os => rfl
  rw [faults_wiring, faults_wiring]
  exact Entries.flatMap_put hentry

end Scene
end Workflows
