import Workflows.Proofs.Edit.WellFormed
import Workflows.Validation

/-!
# Wiring — when no link of a document is counted as invalid

The links are counted by going through the sources one by one. Nothing is counted exactly if every
link leads from a node to a node, on an output that its source has and an input with an index that
is not negative; a source without links has to be a node too. Nodes are found by name, so the source
of a link is the first node of its name.

Main definitions:

* `Scene.OutputsExist` — every link uses an output of its source;
* `Scene.invalid_eq_zero_iff` — when nothing is counted;
* `Validator.invalidConnections`, `Validator.invalidConnections_of_report` — the count in reports.
-/

namespace Workflows

/-! ## Sums -/

namespace Wiring

/-- Invalid links are counted part by part. -/
theorem invalid_append (a b : Wiring) : (a ++ b).invalid = a.invalid + b.invalid :=
  rfl

/-- No link is invalid if none is in any of the parts. -/
theorem invalid_join_eq_zero_iff {ws : List Wiring} :
    (join ws).invalid = 0 ↔ ∀ w ∈ ws, w.invalid = 0 := by
  -- The counts so far are never taken back, so they have to be zero from the beginning.
  have hgeneral : ∀ (ws : List Wiring) (acc : Wiring),
      (ws.foldl append acc).invalid = 0 ↔ acc.invalid = 0 ∧ ∀ w ∈ ws, w.invalid = 0 := by
    intro ws
    induction ws with
    | nil => intro acc; simp
    | cons w rest ih =>
      intro acc
      have hsum : (append acc w).invalid = acc.invalid + w.invalid := rfl
      rw [List.foldl_cons, ih, hsum]
      simp [Nat.add_eq_zero_iff, and_assoc]
  have hzero : ({} : Wiring).invalid = 0 := rfl
  simpa [join, hzero] using hgeneral ws {}

end Wiring

namespace Scene

variable {s : Scene}

/-- Every link uses an output that its source has. -/
def OutputsExist (s : Scene) : Prop :=
  ∀ l ∈ s.document.connections.links, ∀ n, s.node? l.source = some n →
    s.hasOutput n l.output l.slot = true

/-! ## Single links -/

/-- A node that is found by its name bears this name. -/
theorem name_of_node? {name : String} {n : Node} (h : s.node? name = some n) : n.name = name := by
  simpa using List.find?_some h

/-- A target is valid if it names a node and its index is not negative. -/
theorem targetFault?_eq_none_iff {t : Target} :
    s.targetFault? t = none ↔ t.node ∈ s.document.nodeNames ∧ 0 ≤ t.index := by
  unfold targetFault?
  cases hnode : s.node? t.node with
  | none =>
    have hnot : t.node ∉ s.document.nodeNames := Document.node?_eq_none_iff.1 hnode
    cases s.nameOfId? t.node <;> simp [hnot]
  | some n =>
    have hmem : t.node ∈ s.document.nodeNames := by
      by_contra hnot
      have hnone := Document.node?_eq_none_iff.2 hnot
      simp [node?, hnone] at hnode
    simp [hmem]

/-- A link is valid if its output exists and its target is valid. -/
theorem isValidLink_iff {n : Node} {l : Link} :
    s.isValidLink n l = true ↔
      s.hasOutput n l.output l.slot = true ∧
        l.target.node ∈ s.document.nodeNames ∧ 0 ≤ l.target.index := by
  simp [isValidLink, targetFault?_eq_none_iff]

/-! ## Counting -/

/-- No link of a slot is invalid if all that it leads to is valid. -/
theorem invalid_slotWiring_eq_zero_iff {n : Node} {output : String} {slot : Nat}
    {targets : List Target} :
    (s.slotWiring n output slot targets).invalid = 0 ↔
      ∀ t ∈ targets, s.isValidLink n ⟨n.name, output, slot, t⟩ = true := by
  simp [slotWiring]

/-- No link of an output is invalid if all of them are valid. -/
theorem invalid_outputWiring_eq_zero_iff {n : Node} {output : String} {slots : List Slot} :
    (Wiring.join (slots.zipIdx.map fun (slot, i) =>
        s.slotWiring n output i slot.targets)).invalid = 0 ↔
      ∀ l ∈ Connections.linksFrom n.name output 0 slots, s.isValidLink n l = true := by
  rw [Wiring.invalid_join_eq_zero_iff]
  constructor
  · intro h l hl
    rcases (Connections.mem_linksFrom_iff n.name output).1 hl with ⟨hsource, houtput, j, hj, ht⟩
    rw [Nat.zero_add] at hj
    cases hslot : slots[j]? with
    | none => simp [hslot, Slot.targets] at ht
    | some slot =>
      have hzero := h _ (List.mem_map_of_mem (List.mk_mem_zipIdx_iff_getElem?.2 hslot))
      have hvalid := invalid_slotWiring_eq_zero_iff.1 hzero l.target (by simpa [hslot] using ht)
      rwa [← hsource, ← houtput, ← hj] at hvalid
  · intro h w hw
    rcases List.mem_map.1 hw with ⟨⟨slot, i⟩, hslot, rfl⟩
    have hget := List.mk_mem_zipIdx_iff_getElem?.1 hslot
    refine invalid_slotWiring_eq_zero_iff.2 fun t ht => h _ ?_
    exact (Connections.mem_linksFrom_iff n.name output).2
      ⟨rfl, rfl, i, (Nat.zero_add i).symm, by simpa [hget] using ht⟩

/-- No link of a source is invalid if all of them are valid. -/
theorem invalid_sourceWiring_eq_zero_iff {n : Node} {os : Outputs} :
    (s.sourceWiring n os).invalid = 0 ↔
      ∀ l ∈ Connections.outputLinks n.name os, s.isValidLink n l = true := by
  unfold sourceWiring
  rw [Wiring.invalid_append, Nat.add_zero, Wiring.invalid_join_eq_zero_iff]
  constructor
  · intro h l hl
    rcases List.mem_flatMap.1 hl with ⟨⟨output, slots⟩, ho, hlink⟩
    have hzero := h _ (List.mem_map_of_mem ho)
    exact invalid_outputWiring_eq_zero_iff.1 hzero l hlink
  · intro h w hw
    rcases List.mem_map.1 hw with ⟨⟨output, slots⟩, ho, rfl⟩
    exact invalid_outputWiring_eq_zero_iff.2 fun l hl => h l (List.mem_flatMap.2 ⟨_, ho, hl⟩)

/-- An entry without a source counts as invalid whatever it holds. -/
theorem invalid_strayWiring_ne_zero (name : String) (os : Outputs) :
    (s.strayWiring name os).invalid ≠ 0 := by
  have hpos : 0 < max 1 os.size := by omega
  exact Nat.ne_of_gt hpos

/-- An entry of the connections counts nothing exactly if its name is that of a node and all its
links are valid. One whose name no node bears would be counted even without links. -/
theorem invalid_entry_eq_zero_iff {name : String} {os : Outputs} :
    (match s.node? name with
      | some n => s.sourceWiring n os
      | none => s.strayWiring name os).invalid = 0 ↔
      ∃ n, s.node? name = some n ∧
        ∀ l ∈ Connections.outputLinks name os, s.isValidLink n l = true := by
  cases hn : s.node? name with
  | none =>
    have hcounted := s.invalid_strayWiring_ne_zero name os
    simp [hcounted]
  | some n =>
    have hname : n.name = name := name_of_node? hn
    simp [invalid_sourceWiring_eq_zero_iff, hname]

/-- Nothing is counted exactly if all links are valid, and all sources are nodes. -/
theorem invalid_eq_zero_iff_valid :
    s.wiring.invalid = 0 ↔
      (∀ name ∈ s.document.connections.keys, ∃ n, s.node? name = some n) ∧
        ∀ l ∈ s.document.connections.links, ∀ n, s.node? l.source = some n →
          s.isValidLink n l = true := by
  unfold wiring
  rw [Wiring.invalid_join_eq_zero_iff]
  constructor
  · intro h
    have hentry : ∀ name os, (name, os) ∈ s.document.connections →
        ∃ n, s.node? name = some n ∧
          ∀ l ∈ Connections.outputLinks name os, s.isValidLink n l = true :=
      fun name os he => invalid_entry_eq_zero_iff.1 (h _ (List.mem_map_of_mem he))
    constructor
    · intro name hname
      rcases List.mem_map.1 hname with ⟨⟨name', os⟩, he, rfl⟩
      rcases hentry name' os he with ⟨n, hn, -⟩
      exact ⟨n, hn⟩
    · intro l hl n hn
      rw [Connections.links_eq] at hl
      rcases List.mem_flatMap.1 hl with ⟨⟨name, os⟩, he, hl⟩
      rcases hentry name os he with ⟨m, hm, hvalid⟩
      have hsource : l.source = name := Connections.source_of_mem_outputLinks hl
      have hsame : m = n := Option.some.inj (hm.symm.trans (hsource ▸ hn))
      exact hsame ▸ hvalid l hl
  · intro hboth w hw
    rcases hboth with ⟨hsources, hvalid⟩
    rcases List.mem_map.1 hw with ⟨⟨name, os⟩, he, rfl⟩
    rcases hsources name (Entries.key_mem_keys he) with ⟨n, hn⟩
    refine invalid_entry_eq_zero_iff.2 ⟨n, hn, ?_⟩
    intro l hl
    have hsource : l.source = name := Connections.source_of_mem_outputLinks hl
    have hmem : l ∈ s.document.connections.links := by
      rw [Connections.links_eq]
      exact List.mem_flatMap.2 ⟨_, he, hl⟩
    exact hvalid l hmem n (hsource.symm ▸ hn)

/-- A node is found by a name if one bears it. -/
theorem exists_node?_iff {name : String} :
    (∃ n, s.node? name = some n) ↔ name ∈ s.document.nodeNames := by
  rw [← Option.isSome_iff_exists, ← Option.ne_none_iff_isSome]
  exact (not_congr Document.node?_eq_none_iff).trans not_not

/-- Nothing is counted exactly if all ends of links are right and all outputs exist. -/
theorem invalid_eq_zero_iff : s.wiring.invalid = 0 ↔ s.document.Linked ∧ s.OutputsExist := by
  rw [invalid_eq_zero_iff_valid]
  constructor
  · intro h
    rcases h with ⟨hsources, hvalid⟩
    -- The source of a link is a node, by which the link is judged.
    have hlink : ∀ l ∈ s.document.connections.links, ∃ n, s.isValidLink n l = true := by
      intro l hl
      rcases Connections.mem_links_iff.1 hl with ⟨os, he, -⟩
      rcases hsources l.source (Entries.key_mem_keys he) with ⟨n, hn⟩
      exact ⟨n, hvalid l hl n hn⟩
    have hlinked : s.document.Linked := by
      constructor
      case sources =>
        intro name hname
        exact exists_node?_iff.1 (hsources name hname)
      case targets =>
        intro l hl
        rcases hlink l hl with ⟨n, hn⟩
        exact (isValidLink_iff.1 hn).2.1
      case indices =>
        intro l hl
        rcases hlink l hl with ⟨n, hn⟩
        exact (isValidLink_iff.1 hn).2.2
    refine ⟨hlinked, ?_⟩
    intro l hl n hn
    exact (isValidLink_iff.1 (hvalid l hl n hn)).1
  · intro h
    rcases h with ⟨hlinked, houtputs⟩
    constructor
    · intro name hname
      exact exists_node?_iff.2 (hlinked.sources name hname)
    · intro l hl n hn
      exact isValidLink_iff.2 ⟨houtputs l hl n hn, hlinked.targets l hl, hlinked.indices l hl⟩

end Scene

/-! ## Reports -/

namespace Report

/-- Issues that are added leave the statistics as they are. -/
theorem statistics_addAll (r : Report) (issues : List Issue) :
    (r.addAll issues).statistics = r.statistics := by
  unfold addAll
  induction issues generalizing r with
  | nil => rfl
  | cons i rest ih =>
    rw [List.foldl_cons, ih]
    unfold add
    split <;> rfl

/-- Of the issues that are added the errors become errors of the report. -/
theorem errors_addAll (r : Report) (issues : List Issue) :
    (r.addAll issues).errors = r.errors ++ issues.filter Issue.isError := by
  unfold addAll
  induction issues generalizing r with
  | nil => simp
  | cons i rest ih =>
    rw [List.foldl_cons, ih]
    cases hseverity : i.severity <;> simp [add, hseverity, Issue.isError]

/-- Of the issues that are added the warnings become warnings of the report. -/
theorem warnings_addAll (r : Report) (issues : List Issue) :
    (r.addAll issues).warnings = r.warnings ++ issues.filter fun i => i.severity == .warning := by
  unfold addAll
  induction issues generalizing r with
  | nil => simp
  | cons i rest ih =>
    rw [List.foldl_cons, ih]
    cases hseverity : i.severity <;> simp [add, hseverity]

/-- A report stays valid as long as no errors are added. -/
theorem valid_addAll (r : Report) (issues : List Issue) :
    (r.addAll issues).valid = (r.valid && (issues.filter Issue.isError).isEmpty) := by
  unfold addAll
  induction issues generalizing r with
  | nil => simp
  | cons i rest ih =>
    rw [List.foldl_cons, ih]
    cases hseverity : i.severity <;> simp [add, hseverity, Issue.isError]

/-- Issues that are added leave the suggestions as they are. -/
theorem suggestions_addAll (r : Report) (issues : List Issue) :
    (r.addAll issues).suggestions = r.suggestions := by
  unfold addAll
  induction issues generalizing r with
  | nil => rfl
  | cons i rest ih =>
    rw [List.foldl_cons, ih]
    unfold add
    split <;> rfl

/-- Issues that are added leave the profile as it is. -/
theorem profile_addAll (r : Report) (issues : List Issue) :
    (r.addAll issues).profile = r.profile := by
  unfold addAll
  induction issues generalizing r with
  | nil => rfl
  | cons i rest ih =>
    rw [List.foldl_cons, ih]
    unfold add
    split <;> rfl

/-- What is milder than a warning becomes a note. -/
theorem notes_addAll (r : Report) (issues : List Issue) :
    (r.addAll issues).notes =
      r.notes ++ (issues.filter fun i => i.severity == .info).map fun i =>
        i.location ++ ": " ++ i.message := by
  unfold addAll
  induction issues generalizing r with
  | nil => simp
  | cons i rest ih =>
    rw [List.foldl_cons, ih]
    cases hseverity : i.severity <;> simp [add, hseverity]

end Report

namespace Validator

variable {v : Validator} {d : Document}

/-- A test that the report passes tells that there is one. -/
theorem exists_report {profile : Profile} {test : Report → Bool}
    (h : ((v.report profile d).toOption.any test) = true) :
    ∃ r, v.report profile d = .ok r ∧ test r = true := by
  cases hreport : v.report profile d with
  | error e => simp [hreport, Except.toOption] at h
  | ok r => exact ⟨r, rfl, by simpa [hreport, Except.toOption] using h⟩

/-- The number of links that are counted as invalid; of a document without nodes none are. -/
def invalidConnections (v : Validator) (d : Document) : Nat :=
  if d.nodes.isEmpty then 0 else (v.scene d).wiring.invalid

/-- What reports say does not depend on the profile. -/
theorem invalidConnections_of_report {profile : Profile} {r : Report}
    (h : v.report profile d = .ok r) : r.statistics.invalidConnections = v.invalidConnections d := by
  unfold report at h
  unfold invalidConnections
  dsimp only at h
  split at h
  · rename_i hempty
    have heq := Except.ok.inj h
    rw [← heq, if_pos hempty]
    simp [fileIssues, Report.statistics_addAll]
  · rename_i hfilled
    rw [if_neg hfilled]
    split at h
    · simp at h
    · split at h
      · simp at h
      · have heq := Except.ok.inj h
        rw [← heq]
        simp [reportOf, fileIssues, Report.statistics_addAll, statistics]

/-- As long as all ends of links are right, what is counted are links from outputs that do not
exist. -/
theorem invalidConnections_eq_zero_iff (h : d.Linked) :
    v.invalidConnections d = 0 ↔ (v.scene d).OutputsExist := by
  unfold invalidConnections
  by_cases hempty : d.nodes.isEmpty
  · -- Without nodes there is nothing for a link to lead to.
    have hnone : d.nodeNames = [] := by
      simp [Document.nodeNames, List.isEmpty_iff.1 hempty]
    have hlinks : ∀ l, l ∉ d.connections.links := by
      intro l hl
      simpa [hnone] using h.targets l hl
    have houtputs : (v.scene d).OutputsExist := fun l hl => absurd hl (hlinks l)
    simp [hempty, houtputs]
  · have hall : (v.scene d).wiring.invalid = 0 ↔ d.Linked ∧ (v.scene d).OutputsExist :=
      Scene.invalid_eq_zero_iff
    simp [hempty, hall, h]

end Validator
end Workflows
