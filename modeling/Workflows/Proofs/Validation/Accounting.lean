import Workflows.Proofs.Validation.CycleErrors
import Workflows.Proofs.Validation.Rewired

/-!
# Accounting — what the counts of valid and invalid links stand for

The links of a document are counted slot by slot, an entry whose name no node bears is counted on
its own, and errors are put down on the way. In the end the counts can be told from the links alone:
which are valid, and how many there are at all. None is counted as invalid exactly if none of these
errors has been put down, and every profile reports them all.

Main definitions:

* `Scene.PortAllowed`, `Scene.Sound` — the outputs that a node has, and the links that are valid;
* `Scene.length_usable_add_broken` — a link of a node is either valid or not;
* `Scene.faults_eq_nil_iff` — the errors and the count of invalid links;
* `Validator.connections_accounted` — the counts of a report.
-/

namespace Workflows
namespace Scene

variable {s : Scene} {n : Node} {l : Link} {output : String} {slot : Nat} {targets : List Target}

/-! ## Valid links -/

/-- All outputs of other types than the main one are allowed, and so are all outputs of a node whose
type is unknown or has dynamic outputs. Otherwise the slot has to be one of the declared outputs, or
the one for failures behind them. -/
def PortAllowed (s : Scene) (n : Node) (output : String) (slot : Nat) : Prop :=
  output ≠ "main" ∨ ∀ t, s.typeOf n = some t → t.dynamicOutputs = true ∨
    slot < t.outputs.length + if n.onError = some "continueErrorOutput" then 1 else 0

/-- An output exists if the type allows it. -/
theorem hasOutput_iff : s.hasOutput n output slot = true ↔ s.PortAllowed n output slot := by
  rw [hasOutput, PortAllowed, Bool.or_eq_true, bne_iff_ne, declaredOutputs?]
  refine or_congr Iff.rfl ?_
  cases s.typeOf n with
  | none => simp
  | some t =>
    cases hdynamic : t.dynamicOutputs with
    | true => simp [hdynamic]
    | false =>
      simp only [hdynamic, Bool.false_eq_true, if_false, Option.all_some, decide_eq_true_iff,
        Option.some.injEq, forall_eq', false_or]
      rfl

/-- A link from an output that its source may have, to an input of a node, with an index that is not
negative. -/
structure Sound (s : Scene) (l : Link) : Prop where
  source : ∃ n, s.node? l.source = some n ∧ s.PortAllowed n l.output l.slot
  target : l.target.node ∈ s.document.nodeNames
  index : 0 ≤ l.target.index

/-- The usable links are the sound ones. -/
theorem isUsable_iff_sound : s.isUsable l = true ↔ s.Sound l := by
  rw [isUsable_iff]
  constructor
  · intro h
    rcases h with ⟨⟨n, hnode, houtput⟩, htarget, hindex⟩
    exact ⟨⟨n, hnode, hasOutput_iff.1 houtput⟩, htarget, hindex⟩
  · intro h
    rcases h with ⟨⟨n, hnode, houtput⟩, htarget, hindex⟩
    exact ⟨⟨n, hnode, hasOutput_iff.2 houtput⟩, htarget, hindex⟩

instance (s : Scene) : DecidablePred s.Sound :=
  fun _ => decidable_of_iff _ isUsable_iff_sound

/-! ## Counts -/

/-- A name is not found if no node bears it. -/
theorem isNone_node?_iff {name : String} :
    (s.node? name).isNone = true ↔ name ∉ s.document.nodeNames := by
  rw [Option.isNone_iff_eq_none]
  exact Document.node?_eq_none_iff

/-- Each link of a node is either valid or not, and no other one is either. -/
theorem length_usable_add_broken (links : List Link) :
    (links.filter s.isUsable).length + (links.filter s.isBroken).length =
      (links.filter fun l => l.source ∈ s.document.nodeNames).length := by
  induction links with
  | nil => rfl
  | cons l rest ih =>
    cases hnode : s.node? l.source with
    | none =>
      have hstray : l.source ∉ s.document.nodeNames := Document.node?_eq_none_iff.1 hnode
      simpa [isUsable, isBroken, hnode, hstray] using ih
    | some n =>
      have hknown : l.source ∈ s.document.nodeNames := exists_node?_iff.1 ⟨n, hnode⟩
      cases hvalid : s.isValidLink n l
      all_goals
        simp only [List.filter_cons, isUsable_of_node? hnode, isBroken_of_node? hnode, hvalid,
          hknown, Bool.not_true, Bool.not_false, decide_true, if_true, Bool.false_eq_true, if_false,
          List.length_cons]
        omega

/-- The entries without a source count once each, or once for each target. -/
theorem strayCount_eq :
    s.strayCount = ((s.document.connections.filter fun e => e.1 ∉ s.document.nodeNames).map
      fun e => max 1 e.2.size).sum := by
  rw [strayCount]
  induction s.document.connections with
  | nil => rfl
  | cons e rest ih =>
    have hcons : ((e :: rest).flatMap s.strayCounts).sum =
        (s.strayCounts e).sum + (rest.flatMap s.strayCounts).sum := by
      rw [List.flatMap_cons, List.sum_append]
    by_cases hstray : e.1 ∉ s.document.nodeNames
    · have hcounts : (s.strayCounts e).sum = max 1 e.2.size := by
        rw [strayCounts, if_pos (isNone_node?_iff.2 hstray), List.sum_singleton]
      have hfilter : (e :: rest).filter (fun e => e.1 ∉ s.document.nodeNames) =
          e :: rest.filter fun e => e.1 ∉ s.document.nodeNames :=
        List.filter_cons_of_pos (by simpa using hstray)
      rw [hcons, hcounts, ih, hfilter]
      rfl
    · have hcounts : (s.strayCounts e).sum = 0 := by
        rw [strayCounts, if_neg fun hnone => hstray (isNone_node?_iff.1 hnone)]
        rfl
      have hfilter : (e :: rest).filter (fun e => e.1 ∉ s.document.nodeNames) =
          rest.filter fun e => e.1 ∉ s.document.nodeNames :=
        List.filter_cons_of_neg (by simpa using hstray)
      rw [hcons, hcounts, Nat.zero_add, ih, hfilter]

/-- Counted are the links of nodes, and for each entry that belongs to no node its links, or one. -/
theorem valid_add_invalid :
    s.wiring.valid.length + s.wiring.invalid =
      (s.document.connections.links.filter fun l => l.source ∈ s.document.nodeNames).length +
        ((s.document.connections.filter fun e => e.1 ∉ s.document.nodeNames).map
          fun e => max 1 e.2.size).sum := by
  have hlinks := s.length_usable_add_broken
  calc s.wiring.valid.length + s.wiring.invalid
      = (s.document.connections.links.filter s.isUsable).length +
          ((s.document.connections.links.filter s.isBroken).length + s.strayCount) := by
        rw [valid_wiring, invalid_wiring]
    _ = ((s.document.connections.links.filter s.isUsable).length +
          (s.document.connections.links.filter s.isBroken).length) + s.strayCount := by
        rw [Nat.add_assoc]
    _ = _ := by rw [hlinks, strayCount_eq]

/-! ## Errors -/

/-- A slot is without errors exactly if all its links are valid. -/
theorem faults_slotWiring_eq_nil_iff :
    (s.slotWiring n output slot targets).issues.filter (Issue.hasCode faultCodes) = [] ↔
      (s.slotWiring n output slot targets).invalid = 0 := by
  rw [invalid_slotWiring_eq_zero_iff, slotWiring, List.filter_append, List.append_eq_nil_iff]
  constructor
  · -- The error for the output is put down once for the slot, so any target of it will do.
    intro h t ht
    rcases h with ⟨houtputs, htargets⟩
    have houtput : s.hasOutput n output slot = true := by
      by_contra hnone
      have hfilled : targets.isEmpty = false := List.isEmpty_eq_false_iff_exists_mem.2 ⟨t, ht⟩
      rw [Bool.not_eq_true] at hnone
      rw [hfilled, hnone] at houtputs
      exact List.filter_eq_nil_iff.1 houtputs _ (List.mem_singleton_self _) rfl
    have htarget : s.targetFault? t = none := by
      by_contra hsome
      rcases Option.ne_none_iff_exists'.1 hsome with ⟨fault, hfault⟩
      have hissue : targetFaultIssue n t fault ∈ targets.flatMap (s.targetIssues n) :=
        List.mem_flatMap.2 ⟨t, ht, by simp [targetIssues, hfault]⟩
      refine List.filter_eq_nil_iff.1 htargets _ (List.mem_map_of_mem hissue) ?_
      exact Issue.hasCode_iff.2 (code_targetFaultIssue n t fault)
    simp [isValidLink, houtput, htarget]
  · intro hvalid
    have hparts : ∀ t ∈ targets, s.hasOutput n output slot = true ∧ s.targetFault? t = none := by
      intro t ht
      simpa [isValidLink] using hvalid t ht
    refine ⟨?_, filter_remarks (List.forall_mem_map.2 (List.forall_mem_flatMap.2 ?_))⟩
    · cases targets with
      | nil => rfl
      | cons t rest =>
        rw [(hparts t List.mem_cons_self).1]
        rfl
    · intro t ht
      exact code_targetIssues_of_valid (hparts t ht).2 n

/-- An output is without errors exactly if none of its slots counts an invalid link. -/
theorem outputFaults_eq_nil_iff (o : String × List Slot) :
    s.outputFaults n o = [] ↔
      (Wiring.join (o.2.zipIdx.map fun p => s.slotWiring n o.1 p.2 p.1.targets)).invalid = 0 := by
  rw [Wiring.invalid_join_eq_zero_iff, List.forall_mem_map, outputFaults, slotFindings,
    List.filter_flatMap, List.flatMap_eq_nil_iff]
  constructor
  · intro h p hp
    exact faults_slotWiring_eq_nil_iff.1 (h p hp)
  · intro h p hp
    exact faults_slotWiring_eq_nil_iff.2 (h p hp)

/-- Nothing is wrong with an entry exactly if none of its links counts as invalid. -/
theorem entryFaults_eq_nil_iff (e : String × Outputs) :
    s.entryFaults e = [] ↔ (s.entryWiring e).invalid = 0 := by
  rcases e with ⟨name, os⟩
  cases hnode : s.node? name with
  | none =>
    -- All that is said of an entry without a source is an error of the connections.
    have hstray : s.entryWiring (name, os) = s.strayWiring name os := by simp [entryWiring, hnode]
    have hsome : (s.strayWiring name os).issues ≠ [] := by simp [strayWiring]
    have hall : (s.strayWiring name os).issues.filter (Issue.hasCode faultCodes) =
        (s.strayWiring name os).issues := by
      refine List.filter_eq_self.2 ?_
      intro i hi
      exact Issue.hasCode_iff.2 (code_strayWiring name os i hi)
    rw [entryFaults, hstray, hall]
    exact iff_of_false hsome (s.invalid_strayWiring_ne_zero name os)
  | some n =>
    have hfaults : s.entryFaults (name, os) = [] ↔ ∀ o ∈ os, s.outputFaults n o = [] := by
      rw [entryFaults_of_node? hnode, List.flatMap_eq_nil_iff]
    have hinvalid : (s.entryWiring (name, os)).invalid = 0 ↔ ∀ o ∈ os, (Wiring.join
        (o.2.zipIdx.map fun p => s.slotWiring n o.1 p.2 p.1.targets)).invalid = 0 := by
      rw [entryWiring_of_node? hnode, sourceWiring, Wiring.invalid_append, Nat.add_zero,
        Wiring.invalid_join_eq_zero_iff, List.forall_mem_map]
    rw [hfaults, hinvalid]
    exact forall₂_congr fun o _ => outputFaults_eq_nil_iff o

/-- Nothing is counted as invalid exactly if there are no errors about links. -/
theorem faults_eq_nil_iff :
    s.wiring.issues.filter (Issue.hasCode faultCodes) = [] ↔ s.wiring.invalid = 0 := by
  have hfaults : s.wiring.issues.filter (Issue.hasCode faultCodes) = [] ↔
      ∀ e ∈ s.document.connections, s.entryFaults e = [] := by
    rw [faults_wiring, List.flatMap_eq_nil_iff]
  have hinvalid : s.wiring.invalid = 0 ↔
      ∀ e ∈ s.document.connections, (s.entryWiring e).invalid = 0 := by
    rw [wiring_eq_join, Wiring.invalid_join_eq_zero_iff, List.forall_mem_map]
  rw [hfaults, hinvalid]
  constructor
  · intro h e he
    exact (entryFaults_eq_nil_iff e).1 (h e he)
  · intro h e he
    exact (entryFaults_eq_nil_iff e).2 (h e he)

/-- What is found about links that are not valid are errors, and no matters of style. -/
theorem isError_faults :
    ∀ i ∈ s.wiring.issues.filter (Issue.hasCode faultCodes),
      i.isError = true ∧ i.category ≠ .style := by
  have hremark : ∀ i : Issue, i.code ∈ remarkCodes → i.code ∈ faultCodes →
      i.isError = true ∧ i.category ≠ .style := by
    intro i hremarks hfaults
    have hapart : ∀ code ∈ remarkCodes, code ∉ faultCodes := by decide
    exact absurd hfaults (hapart i.code hremarks)
  have hall : ∀ i ∈ s.wiring.issues, i.code ∈ faultCodes →
      i.isError = true ∧ i.category ≠ .style := by
    refine forall_wiring ?_ ?_
      (fun n os i hi => hremark i (code_errorOutputIssues n os i hi)) ?_
    · intro n output slot _
      exact ⟨rfl, by simp [outputIssue, Issue.onNode, Issue.atPath, Issue.error]⟩
    · intro n t path i hi
      cases hfault : s.targetFault? t with
      | none => exact hremark _ (code_targetIssues_of_valid hfault n i hi)
      | some fault =>
        intro _
        simp only [targetIssues, hfault, List.mem_singleton] at hi
        rw [hi]
        cases fault <;>
          exact ⟨rfl, by simp [targetFaultIssue, Issue.onNode, Issue.atPath, Issue.error]⟩
    · intro name os i hi _
      simp only [strayWiring, List.mem_singleton] at hi
      rw [hi]
      cases s.nameOfId? name <;> exact ⟨rfl, by simp [Issue.atPath, Issue.error]⟩
  intro i hi
  rcases List.mem_filter.1 hi with ⟨hmem, hcode⟩
  exact hall i hmem (Issue.hasCode_iff.1 hcode)

end Scene

namespace Validator

variable {v : Validator} {d : Document} {profile : Profile} {r : Report}

/-- The errors about links are those that the check of links finds, under every profile. -/
theorem errors_filter_faultCodes (hnodes : d.nodes ≠ []) (h : v.report profile d = .ok r) :
    r.errors.filter (Issue.hasCode Scene.faultCodes) =
      (v.scene d).wiring.issues.filter (Issue.hasCode Scene.faultCodes) := by
  rw [faulty_errors hnodes h, Policy.errors_eq_self Scene.isError_faults]

/-- The links that are counted as valid are the sound ones. Those that are counted at all are the
links of nodes, and for each entry whose name no node bears its links, or one if it has none. None
is counted as invalid exactly if there is no error about links. -/
theorem connections_accounted (hnodes : d.nodes ≠ []) (h : v.report profile d = .ok r) :
    r.statistics.validConnections =
        (d.connections.links.filter fun l => (v.scene d).Sound l).length ∧
      r.statistics.validConnections + r.statistics.invalidConnections =
        (d.connections.links.filter fun l => l.source ∈ d.nodeNames).length +
          ((d.connections.filter fun e => e.1 ∉ d.nodeNames).map fun e => max 1 e.2.size).sum ∧
      (r.statistics.invalidConnections = 0 ↔ ∀ i ∈ r.errors, i.code ∉
        ["unknown_source", "unknown_target", "connection_uses_id", "invalid_connection_index",
          "invalid_output_index"]) := by
  have hvalid := validConnections_of_report hnodes h
  have hinvalid := invalidConnections_of_nodes hnodes h
  refine ⟨?_, ?_, ?_⟩
  · have hsound : (v.scene d).wiring.valid =
        d.connections.links.filter fun l => (v.scene d).Sound l := by
      rw [Scene.valid_wiring]
      refine List.filter_congr ?_
      intro l _
      rw [Bool.eq_iff_iff, Scene.isUsable_iff_sound, decide_eq_true_iff]
    rw [hvalid, hsound]
  · rw [hvalid, hinvalid]
    exact_mod_cast Scene.valid_add_invalid (s := v.scene d)
  · have hcodes : (∀ i ∈ r.errors, i.code ∉ Scene.faultCodes) ↔
        r.errors.filter (Issue.hasCode Scene.faultCodes) = [] := by
      rw [List.filter_eq_nil_iff]
      exact forall₂_congr fun i _ => not_congr Issue.hasCode_iff.symm
    rw [hinvalid, Int.natCast_eq_zero, ← Scene.faults_eq_nil_iff,
      ← errors_filter_faultCodes hnodes h, ← hcodes]
    rfl

/-- Five links of nodes, three of which are not valid; an entry with an id for a name, which has two
links, and one with an unknown name, which has none. -/
def accounts : Document where
  nodes := { id := "1", name := "L", type := "x.loop" } :: nodesOf "x.step" ["A", "B"]
  connections :=
    [("L", [("main", [some [⟨"A", "main", 0⟩, ⟨"A", "main", -1⟩], none,
        some [⟨"B", "main", 0⟩]])]),
      leads "A" ["B", "Z"], leads "1" ["A", "B"], ("Y", [])]

theorem accounts_reported :
    ∃ r, loopTypes.report .minimal accounts = .ok r ∧ r.statistics.validConnections = 2 ∧
      r.statistics.validConnections + r.statistics.invalidConnections = 5 + 3 ∧
      ¬ ∀ i ∈ r.errors, i.code ∉
        ["unknown_source", "unknown_target", "connection_uses_id", "invalid_connection_index",
          "invalid_output_index"] := by
  rcases exists_loopTypes_report (d := accounts) .minimal rfl with ⟨r, hr⟩
  rcases connections_accounted (by decide) hr with ⟨hvalid, hall, hnone⟩
  have hsound : (accounts.connections.links.filter fun l =>
      (loopTypes.scene accounts).Sound l).length = 2 := by
    decide +kernel
  have hlinks : (accounts.connections.links.filter fun l => l.source ∈ accounts.nodeNames).length =
      5 := by
    decide +kernel
  have hstray : ((accounts.connections.filter fun e => e.1 ∉ accounts.nodeNames).map
      fun e => max 1 e.2.size).sum = 3 := by
    decide +kernel
  rw [hsound] at hvalid
  rw [hlinks, hstray] at hall
  refine ⟨r, hr, hvalid, hall, ?_⟩
  intro hclean
  have hzero := hnone.2 hclean
  omega

end Validator
end Workflows
