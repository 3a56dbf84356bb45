import Workflows.Proofs.Cleared
import Workflows.Proofs.Validation.Rewired

/-!
# EmptyEntries — containers without links in a report

Objects and lists among the connections that hold no links mean nothing, and most checks take no
notice of them: the links are the same when they are cleared away, and so are the graph, the counts
and what is found in each slot. Two checks do notice them. That several nodes have no connections is
not reported when a source without links has an output; and that the output for failures leads
nowhere is reported only of nodes that have an entry.

Main definitions:

* `Scene.AwaitsErrorOutput` — nodes of which the second check may speak;
* `Scene.shapeIssues_cleared`, `Scene.textFindings_cleared` — checks that take no notice;
* `Validator.report_cleared_iff` — when the report stays the same.
-/

namespace Workflows

/-! ## Parts that are left out -/

section Parts

variable {α β : Type} (left : α → Prop) [DecidablePred left] (parts : α → List β) (l : List α)

/-- To leave out some of the lists is to leave out some of the items. -/
theorem flatMap_ite_sublist :
    (l.flatMap fun a => if left a then [] else parts a).Sublist (l.flatMap parts) := by
  induction l with
  | nil => exact List.Sublist.slnil
  | cons a rest ih =>
    rw [List.flatMap_cons, List.flatMap_cons]
    refine List.Sublist.append ?_ ih
    split
    · exact List.nil_sublist _
    · exact List.Sublist.refl _

/-- Parts may be left out exactly if there is nothing in them. -/
theorem flatMap_ite_eq_iff :
    (l.flatMap fun a => if left a then [] else parts a) = l.flatMap parts ↔
      ∀ a ∈ l, left a → parts a = [] := by
  induction l with
  | nil => simp
  | cons a rest ih =>
    simp only [List.flatMap_cons, List.forall_mem_cons, ← ih]
    by_cases ha : left a
    · have hlength := (flatMap_ite_sublist left parts rest).length_le
      rw [if_pos ha, List.nil_append]
      constructor
      · intro heq
        -- The whole is no longer than what is left of the rest.
        have hnone : parts a = [] := by
          have hsum := congrArg List.length heq
          rw [List.length_append] at hsum
          exact List.length_eq_zero_iff.1 (by omega)
        have hrest : (rest.flatMap fun a => if left a then [] else parts a) =
            rest.flatMap parts := by simpa [hnone] using heq
        exact ⟨fun _ => hnone, hrest⟩
      · intro h
        rcases h with ⟨hnone, hrest⟩
        rw [hnone ha, List.nil_append, hrest]
    · rw [if_neg ha, List.append_cancel_left_eq]
      simp [ha]

end Parts

namespace Scene

variable {s : Scene} {cs : Connections} {n : Node} {os : Outputs} {w w' : Wiring}

/-! ## Checks that go by the valid links -/

/-- The graph is made of valid links. -/
theorem mainGraph_of_valid (h : w'.valid = w.valid) : s.mainGraph w' = s.mainGraph w := by
  simp only [mainGraph, mainTargets, h]

/-- Whether nodes are without links is a matter of valid links. -/
theorem orphanIssues_of_valid (h : w'.valid = w.valid) : s.orphanIssues w' = s.orphanIssues w := by
  simp only [orphanIssues, Wiring.isConnected, h]

theorem textFindings_of_valid (h : w'.valid = w.valid) (settings : Settings) :
    (s.rewired cs).textFindings settings w' = s.textFindings settings w := by
  have hnode : ∀ n, (s.rewired cs).nodeTextFindings settings.maxExpressionDepth w' n =
      s.nodeTextFindings settings.maxExpressionDepth w n := by
    intro n
    have hcontext : (s.rewired cs).expressionContext w' n = s.expressionContext w n := by
      simp only [expressionContext, Wiring.isFed, h]
      rfl
    simp only [nodeTextFindings, expressionFindings, hcontext]
    rfl
  refine textFindingsOf_congr (List.forall₂_same.2 ?_)
  intro n _
  exact hnode n

/-- The findings on the graph are the same for the same valid links, if the main slots have the same
targets. -/
theorem shapeIssues_of_valid (h : w'.valid = w.valid)
    (hslots : ∀ source slot, cs.slotTargets source mainOutput slot =
      s.document.connections.slotTargets source mainOutput slot) (settings : Settings) :
    (s.rewired cs).shapeIssues settings w' = s.shapeIssues settings w := by
  have hgraph : (s.rewired cs).mainGraph w' = s.mainGraph w := mainGraph_of_valid h
  have horphan : (s.rewired cs).orphanIssues w' = s.orphanIssues w := orphanIssues_of_valid h
  have hslot : (s.rewired cs).slotNodes = s.slotNodes := by
    funext source slot
    have hsame : (s.rewired cs).document.connections.slotTargets source mainOutput slot =
        s.document.connections.slotTargets source mainOutput slot := hslots source slot
    simp only [slotNodes, hsame]
    rfl
  have hloop : ∀ g, (s.rewired cs).loopIssues settings g = s.loopIssues settings g := by
    intro g
    simp only [loopIssues, loopNodeIssues, hslot]
    rfl
  simp only [shapeIssues, hgraph, horphan, hloop]
  rfl

/-! ## Single sources -/

/-- Nothing is found on empty slots at the end of an output. -/
theorem slotFindings_trim (n : Node) (output : String) (slots : List Slot) :
    s.slotFindings n (output, Connections.trim slots) = s.slotFindings n (output, slots) := by
  rcases Connections.exists_trim_append slots with ⟨tail, heq, htail⟩
  let kept := Connections.trim slots
  let found (p : Slot × Nat) := (s.slotWiring n output p.2 (Slot.targets p.1)).issues
  have hnone : (tail.zipIdx (0 + kept.length)).flatMap found = [] := by
    refine List.flatMap_eq_nil_iff.2 ?_
    intro p hp
    have hempty : Slot.targets p.1 = [] := by
      simpa [Slot.isEmpty] using htail p.1 (List.fst_mem_of_mem_zipIdx hp)
    simp only [found, hempty]
    rfl
  -- What is taken away stands behind, so the slots that stay keep their numbers.
  have hwhole : slots.zipIdx.flatMap found = kept.zipIdx.flatMap found := by
    calc
      slots.zipIdx.flatMap found
          = (kept ++ tail).zipIdx.flatMap found := by rw [← heq]
      _ = kept.zipIdx.flatMap found ++ (tail.zipIdx (0 + kept.length)).flatMap found := by
          rw [List.zipIdx_append, List.flatMap_append]
      _ = kept.zipIdx.flatMap found := by rw [hnone, List.append_nil]
  exact hwhole.symm

/-- The output for errors is empty before clearing if it is empty afterwards. -/
theorem errorOutputIssues_cleared (h : os.Distinct) :
    s.errorOutputIssues n os.cleared = s.errorOutputIssues n os := by
  have hempty : ∀ index : Nat, Slot.isEmpty (((os.cleared.slots mainOutput)[index]?).getD none) =
      Slot.isEmpty (((os.slots mainOutput)[index]?).getD none) := by
    intro index
    rw [Outputs.slots_cleared h, Slot.isEmpty, Slot.isEmpty, Connections.targets_trim]
  simp only [errorOutputIssues, hempty]

/-- Of a node with an entry, the same is found whether the entry is cleared or not. -/
theorem issues_entryWiring_cleared {name : String} (hnode : s.node? name = some n)
    (h : os.Distinct) :
    (s.entryWiring (name, os.cleared)).issues = (s.entryWiring (name, os)).issues := by
  have hslots : os.cleared.flatMap (s.slotFindings n) = os.flatMap (s.slotFindings n) := by
    calc
      os.cleared.flatMap (s.slotFindings n)
          = os.flatMap fun o => s.slotFindings n (o.1, Connections.trim o.2) :=
            Entries.flatMap_mapFilled_of_nil fun _ => rfl
      _ = os.flatMap (s.slotFindings n) :=
            List.flatMap_congr fun o _ => slotFindings_trim n o.1 o.2
  rw [entryWiring_of_node? hnode, entryWiring_of_node? hnode]
  rw [issues_sourceWiring, issues_sourceWiring]
  rw [hslots, errorOutputIssues_cleared h]

/-- A node that passes its failures on by an output of its own. -/
def AwaitsErrorOutput (s : Scene) (n : Node) : Prop :=
  n.onError = some errorOutputPolicy ∧ ∃ t, s.typeOf n = some t ∧ t.dynamicOutputs = false

/-- The finding about the output for failures is a warning that is no matter of style. -/
theorem warning_of_mem_errorOutputIssues :
    ∀ i ∈ s.errorOutputIssues n os, i.severity = .warning ∧ i.category = .rule := by
  unfold errorOutputIssues
  split
  · simp
  · dsimp only
    split
    · simp [Issue.warning, Issue.onNode, Issue.atPath]
    · simp

section Reported

variable (p : Policy)

/-- A remark on an output for errors is reported if the policy keeps warnings. -/
theorem reported_errorOutputIssues :
    (s.errorOutputIssues n os).filterMap p.apply =
      if p.keepWarnings then s.errorOutputIssues n os else [] := by
  have happly : ∀ i ∈ s.errorOutputIssues n os,
      p.apply i = if p.keepWarnings then some i else none := by
    intro i hi
    rcases warning_of_mem_errorOutputIssues i hi with ⟨hseverity, hcategory⟩
    cases hkeep : p.keepWarnings with
    | true => simp [Policy.apply, Policy.keep, hcategory, hkeep]
    | false => simp [Policy.apply, Policy.keep, Issue.isError, hseverity, hcategory, hkeep]
  rw [List.filterMap_congr happly]
  split
  · exact List.filterMap_some
  · exact List.filterMap_none _

theorem errors_errorOutputIssues : p.errors (s.errorOutputIssues n os) = [] := by
  rw [Policy.errors, reported_errorOutputIssues, List.filter_eq_nil_iff]
  intro i hi
  split at hi
  · simp [Issue.isError, (warning_of_mem_errorOutputIssues i hi).1]
  · simp at hi

theorem warnings_errorOutputIssues :
    p.warnings (s.errorOutputIssues n os) =
      if p.keepWarnings then s.errorOutputIssues n os else [] := by
  rw [Policy.warnings, reported_errorOutputIssues, List.filter_eq_self]
  intro i hi
  split at hi
  · simp [(warning_of_mem_errorOutputIssues i hi).1]
  · simp at hi

end Reported

/-- A source without outputs is remarked upon only if its failures are to go somewhere. -/
theorem errorOutputIssues_nil_eq_nil_iff :
    s.errorOutputIssues n [] = [] ↔ ¬ s.AwaitsErrorOutput n := by
  unfold errorOutputIssues AwaitsErrorOutput
  cases s.typeOf n with
  | none => simp
  | some t => simp [Outputs.slots, Slot.isEmpty, Slot.targets]

/-! ## All sources -/

abbrev cleared (s : Scene) : Scene :=
  s.rewired s.document.connections.cleared

/-- Clearing leaves the valid links. -/
theorem valid_cleared : s.cleared.wiring.valid = s.wiring.valid := by
  have hlinks : s.cleared.document.connections.links = s.document.connections.links :=
    Connections.links_cleared _
  rw [valid_wiring, valid_wiring, hlinks]
  rfl

/-- Clearing leaves the findings on the graph. -/
theorem shapeIssues_cleared (hkeyed : s.document.connections.Keyed) (settings : Settings) :
    s.cleared.shapeIssues settings s.cleared.wiring = s.shapeIssues settings s.wiring := by
  have hslots : ∀ source slot,
      s.document.connections.cleared.slotTargets source mainOutput slot =
        s.document.connections.slotTargets source mainOutput slot := by
    intro source slot
    exact Connections.slotTargets_cleared hkeyed source mainOutput slot
  exact shapeIssues_of_valid valid_cleared hslots settings

/-- Clearing leaves the findings on expressions. -/
theorem textFindings_cleared (settings : Settings) :
    s.cleared.textFindings settings s.cleared.wiring = s.textFindings settings s.wiring :=
  textFindings_of_valid valid_cleared settings

section Known

variable (hkeys : ∀ name ∈ s.document.connections.keys, ∃ n, s.node? name = some n)

include hkeys

/-- No entry is stray in a document whose sources are its nodes. -/
theorem strayCount_eq_zero : s.strayCount = 0 := by
  have hnone : s.document.connections.flatMap s.strayCounts = [] := by
    refine List.flatMap_eq_nil_iff.2 ?_
    intro e he
    rcases hkeys e.1 (Entries.key_mem_keys he) with ⟨n, hnode⟩
    simp [strayCounts, hnode]
  simp only [strayCount, hnone, List.sum_nil]

/-- Clearing leaves the number of invalid links. -/
theorem invalid_cleared : s.cleared.wiring.invalid = s.wiring.invalid := by
  have hlinks : s.cleared.document.connections.links = s.document.connections.links :=
    Connections.links_cleared _
  have hkeys' : ∀ name ∈ s.cleared.document.connections.keys,
      ∃ n, s.cleared.node? name = some n := by
    intro name hname
    exact hkeys name ((Entries.keys_mapFilled_sublist _ _).subset hname)
  have hstray : s.strayCount = 0 := strayCount_eq_zero hkeys
  have hstray' : s.cleared.strayCount = 0 := strayCount_eq_zero hkeys'
  simp only [invalid_wiring, hlinks, hstray, hstray']
  rfl

variable (hkeyed : s.document.connections.Keyed)

include hkeyed

/-- Of the findings about links those are lost that are about entries without links. -/
theorem issues_wiring_cleared :
    s.cleared.wiring.issues =
      s.document.connections.flatMap fun e =>
        if e.2.cleared = [] then [] else (s.entryWiring e).issues := by
  have hentry : ∀ e ∈ s.document.connections,
      (if e.2.cleared = [] then [] else (s.entryWiring (e.1, e.2.cleared)).issues) =
        if e.2.cleared = [] then [] else (s.entryWiring e).issues := by
    intro e he
    rcases hkeys e.1 (Entries.key_mem_keys he) with ⟨n, hnode⟩
    rw [issues_entryWiring_cleared hnode (hkeyed.outputs e he)]
  calc
    s.cleared.wiring.issues
        = s.document.connections.cleared.flatMap fun e => (s.entryWiring e).issues := by
          rw [wiring_eq_join, Wiring.issues_join, List.flatMap_map]
          rfl
    _ = s.document.connections.flatMap fun e =>
          if e.2.cleared = [] then [] else (s.entryWiring (e.1, e.2.cleared)).issues :=
        Entries.flatMap_mapFilled _
    _ = _ := List.flatMap_congr hentry

end Known

/-- Of a source without links the output for failures is all that can be spoken of. -/
theorem issues_entryWiring_of_cleared {e : String × Outputs} (hnode : s.node? e.1 = some n)
    (hdistinct : e.2.Distinct) (hempty : e.2.cleared = []) :
    (s.entryWiring e).issues = s.errorOutputIssues n [] := by
  calc
    (s.entryWiring e).issues
        = (s.entryWiring (e.1, e.2.cleared)).issues :=
          (issues_entryWiring_cleared hnode hdistinct).symm
    _ = (s.sourceWiring n []).issues := by rw [hempty, entryWiring_of_node? hnode]
    _ = s.errorOutputIssues n [] := by
      rw [issues_sourceWiring]
      rfl

/-! ## What is reported -/

/-- Several nodes execute and there are no links, but there is a source with an output. -/
def LooksConnected (s : Scene) : Prop :=
  1 < s.executing.length ∧ s.document.connections.links = [] ∧
    ∃ e ∈ s.document.connections, e.2 ≠ []

/-- A node with an output for failures has an entry without links. -/
def HasIdleErrorOutput (s : Scene) : Prop :=
  ∃ e ∈ s.document.connections, e.2.size = 0 ∧ ∃ n, s.node? e.1 = some n ∧ s.AwaitsErrorOutput n

section Reported

variable (hkeys : ∀ name ∈ s.document.connections.keys, ∃ n, s.node? name = some n)
  (hkeyed : s.document.connections.Keyed) (p : Policy)

include hkeys hkeyed

/-- What is kept of the findings about links is the same exactly if nothing is kept of those about
outputs for failures, where these belong to entries without links. -/
theorem kept_wiring_cleared_iff (kept : List Issue → List Issue) (hnone : kept [] = [])
    (hflat : ∀ parts : String × Outputs → List Issue,
      kept (s.document.connections.flatMap parts) =
        s.document.connections.flatMap fun e => kept (parts e)) :
    kept s.cleared.wiring.issues = kept s.wiring.issues ↔
      ∀ e ∈ s.document.connections, e.2.size = 0 → ∀ n, s.node? e.1 = some n →
        kept (s.errorOutputIssues n []) = [] := by
  have hwhole : s.wiring.issues =
      s.document.connections.flatMap fun e => (s.entryWiring e).issues := by
    rw [wiring_eq_join, Wiring.issues_join, List.flatMap_map]
  have hite : ∀ e : String × Outputs,
      kept (if e.2.cleared = [] then [] else (s.entryWiring e).issues) =
        if e.2.cleared = [] then [] else kept (s.entryWiring e).issues := by
    intro e
    split
    · exact hnone
    · rfl
  have hparts : kept s.cleared.wiring.issues = s.document.connections.flatMap fun e =>
      if e.2.cleared = [] then [] else kept (s.entryWiring e).issues := by
    calc
      kept s.cleared.wiring.issues
          = s.document.connections.flatMap fun e =>
              kept (if e.2.cleared = [] then [] else (s.entryWiring e).issues) := by
            rw [issues_wiring_cleared hkeys hkeyed, hflat]
      _ = _ := List.flatMap_congr fun e _ => hite e
  have hentry : ∀ e ∈ s.document.connections,
      (e.2.cleared = [] → kept (s.entryWiring e).issues = []) ↔
        (e.2.size = 0 → ∀ n, s.node? e.1 = some n → kept (s.errorOutputIssues n []) = []) := by
    intro e he
    rw [← Outputs.cleared_eq_nil_iff]
    refine imp_congr_right ?_
    intro hempty
    have hissues : ∀ n, s.node? e.1 = some n →
        (s.entryWiring e).issues = s.errorOutputIssues n [] := by
      intro n hnode
      exact issues_entryWiring_of_cleared hnode (hkeyed.outputs e he) hempty
    constructor
    · intro hnothing n hnode
      rw [← hissues n hnode, hnothing]
    · intro hall
      rcases hkeys e.1 (Entries.key_mem_keys he) with ⟨n, hnode⟩
      rw [hissues n hnode, hall n hnode]
  -- Each entry without links has to be one of which nothing is kept.
  rw [hparts, hwhole, hflat, flatMap_ite_eq_iff]
  exact forall₂_congr hentry

/-- Clearing leaves the errors of the wiring. -/
theorem errors_wiring_cleared : p.errors s.cleared.wiring.issues = p.errors s.wiring.issues := by
  have hsame := kept_wiring_cleared_iff hkeys hkeyed p.errors rfl fun parts =>
    Policy.errors_flatMap parts _
  refine hsame.2 ?_
  intro e _ _ n _
  exact errors_errorOutputIssues p

/-- The warnings about links are the same unless one is kept that is about an output for failures
of a node without links. -/
theorem warnings_wiring_cleared_iff :
    p.warnings s.cleared.wiring.issues = p.warnings s.wiring.issues ↔
      ¬ (p.keepWarnings = true ∧ s.HasIdleErrorOutput) := by
  have hkept := kept_wiring_cleared_iff hkeys hkeyed p.warnings rfl fun parts =>
    Policy.warnings_flatMap parts _
  rw [hkept]
  simp only [warnings_errorOutputIssues, ite_eq_right_iff, errorOutputIssues_nil_eq_nil_iff]
  constructor
  · intro hall hidle
    rcases hidle with ⟨hkeep, e, he, hsize, n, hnode, hawaits⟩
    exact hall e he hsize n hnode hkeep hawaits
  · intro hnot e he hsize n hnode hkeep hawaits
    exact hnot ⟨hkeep, e, he, hsize, n, hnode, hawaits⟩

/-- Clearing leaves what is reported of the wiring, but for outputs for errors that lead nowhere. -/
theorem reported_wiring_cleared (h : ¬ (p.keepWarnings = true ∧ s.HasIdleErrorOutput)) :
    s.cleared.wiring.issues.filterMap p.apply = s.wiring.issues.filterMap p.apply := by
  have hsame := kept_wiring_cleared_iff hkeys hkeyed (List.filterMap p.apply) rfl fun parts =>
    List.filterMap_flatMap
  refine hsame.2 ?_
  intro e he hsize n hnode
  rw [reported_errorOutputIssues]
  split
  case isTrue hkeep =>
    refine errorOutputIssues_nil_eq_nil_iff.2 ?_
    intro hawaits
    exact h ⟨hkeep, e, he, hsize, n, hnode, hawaits⟩
  case isFalse => rfl

end Reported

/-! ## Whether anything is connected -/

/-- Several nodes execute, and no source has an output. -/
def LacksConnections (s : Scene) : Prop :=
  1 < s.executing.length ∧ ∀ e ∈ s.document.connections, e.2 = []

/-- A cleared document lacks connections if it has no links at all. -/
theorem lacksConnections_cleared_iff :
    s.cleared.LacksConnections ↔ 1 < s.executing.length ∧ s.document.connections.links = [] := by
  rw [← Connections.cleared_eq_nil_iff]
  refine and_congr_right ?_
  intro _
  constructor
  · intro hall
    -- What is left after clearing is not empty.
    refine List.eq_nil_iff_forall_not_mem.2 ?_
    intro e he
    exact Entries.ne_nil_of_mem_mapFilled he (hall e he)
  · intro hnone e he
    have hmem : e ∈ s.document.connections.cleared := he
    simp [hnone] at hmem

/-- Where connections are lacking, there are no links either. -/
theorem LacksConnections.cleared (h : s.LacksConnections) : s.cleared.LacksConnections := by
  refine lacksConnections_cleared_iff.2 ⟨h.1, ?_⟩
  rw [Connections.links_eq, List.flatMap_eq_nil_iff]
  intro e he
  rw [h.2 e he]
  rfl

/-- A document looks connected if it is only clearing that shows that it is not. -/
theorem looksConnected_iff :
    s.LooksConnected ↔ s.cleared.LacksConnections ∧ ¬ s.LacksConnections := by
  rw [lacksConnections_cleared_iff, LooksConnected, LacksConnections]
  constructor
  · intro h
    rcases h with ⟨hmany, hlinks, e, he, hfilled⟩
    refine ⟨⟨hmany, hlinks⟩, ?_⟩
    intro hlacks
    exact hfilled (hlacks.2 e he)
  · intro h
    rcases h with ⟨⟨hmany, hlinks⟩, hnot⟩
    refine ⟨hmany, hlinks, ?_⟩
    by_contra hnone
    have hempty : ∀ e ∈ s.document.connections, e.2 = [] := by
      intro e he
      by_contra hfilled
      exact hnone ⟨e, he, hfilled⟩
    exact hnot ⟨hmany, hempty⟩

instance (s : Scene) : Decidable s.LacksConnections :=
  inferInstanceAs (Decidable (1 < s.executing.length ∧ ∀ e ∈ s.document.connections, e.2 = []))

def triggerIssues (s : Scene) : List Issue :=
  if !s.executing.isEmpty && s.triggers.isEmpty then [noTrigger] else []

/-- The findings on the structure, with those on missing connections apart. -/
theorem structureIssues_eq (s : Scene) :
    s.structureIssues = duplicateIssues [] [] s.nodes ++
      (if s.LacksConnections then [noConnections] else []) ++ s.triggerIssues := by
  have hlacks : s.LacksConnections ↔
      1 < s.executing.length ∧ s.document.connections.all (fun c => c.2.isEmpty) = true := by
    simp only [LacksConnections, List.all_eq_true, List.isEmpty_iff]
  simp only [hlacks]
  rfl

/-- Clearing leaves the findings on the structure of a document that does not merely look
connected. -/
theorem structureIssues_cleared (h : ¬ s.LooksConnected) :
    s.cleared.structureIssues = s.structureIssues := by
  rw [looksConnected_iff, not_and_not_right] at h
  have hlacks : s.cleared.LacksConnections ↔ s.LacksConnections :=
    ⟨h, LacksConnections.cleared⟩
  simp only [structureIssues_eq, hlacks]
  rfl

/-- Clearing brings up that a document merely looks connected. -/
theorem structureIssues_of_looksConnected (h : s.LooksConnected) :
    s.cleared.structureIssues =
        duplicateIssues [] [] s.nodes ++ [noConnections] ++ s.triggerIssues ∧
      s.structureIssues = duplicateIssues [] [] s.nodes ++ s.triggerIssues := by
  rcases looksConnected_iff.1 h with ⟨hlacks, hnot⟩
  constructor
  · rw [structureIssues_eq, if_pos hlacks]
    rfl
  · rw [structureIssues_eq, if_neg hnot, List.append_nil]

section Reported

variable (p : Policy)

theorem reported_noConnections :
    p.errors [noConnections] = [noConnections] ∧ p.warnings [noConnections] = [] := by
  have happly : p.apply noConnections = some noConnections := by
    simp [Policy.apply, Policy.keep, noConnections, Issue.error, Issue.isError]
  have hreported : [noConnections].filterMap p.apply = [noConnections] := by
    rw [List.filterMap_cons_some happly, List.filterMap_nil]
  constructor
  · rw [Policy.errors, hreported]
    rfl
  · rw [Policy.warnings, hreported]
    rfl

/-- That connections are lacking is an error under every policy, so it shows in the number. -/
theorem length_errors_structureIssues_cleared (h : s.LooksConnected) :
    (p.errors s.cleared.structureIssues).length = (p.errors s.structureIssues).length + 1 := by
  rcases structureIssues_of_looksConnected h with ⟨hwith, hwithout⟩
  rw [hwith, hwithout]
  simp only [Policy.errors_append, List.length_append, (reported_noConnections p).1,
    List.length_singleton]
  omega

/-- Clearing leaves the warnings on the structure. -/
theorem warnings_structureIssues_cleared :
    p.warnings s.cleared.structureIssues = p.warnings s.structureIssues := by
  by_cases h : s.LooksConnected
  · rcases structureIssues_of_looksConnected h with ⟨hwith, hwithout⟩
    rw [hwith, hwithout]
    simp only [Policy.warnings_append, (reported_noConnections p).2, List.append_nil]
  · rw [structureIssues_cleared h]

end Reported

end Scene

/-! ## Reports -/

namespace Validator

variable {v : Validator} {profile : Profile} {d : Document}

section Same

variable {s : Scene} {settings : Settings} {nodes : NodeFindings} {texts : TextFindings}
  (hkeys : ∀ name ∈ s.document.connections.keys, ∃ n, s.node? name = some n)
  (hkeyed : s.document.connections.Keyed)

include hkeys hkeyed

/-- Clearing leaves the report exactly if the document does not merely look connected and no output
for errors is remarked upon. -/
theorem reportOf_cleared_iff :
    reportOf profile settings s.cleared nodes texts = reportOf profile settings s nodes texts ↔
      ¬ s.LooksConnected ∧ ¬ (profile.policy.keepWarnings = true ∧ s.HasIdleErrorOutput) := by
  have hshape : s.cleared.shapeIssues settings s.cleared.wiring =
      s.shapeIssues settings s.wiring := Scene.shapeIssues_cleared hkeyed settings
  constructor
  · intro hsame
    -- The errors about links are the same in any case, so that one more of the others shows in
    -- their number; the other warnings are the same in any case, so those about links have to be.
    have herrors := congrArg (fun r : Report => r.errors.length) hsame
    have hwarnings := congrArg (fun r : Report => r.warnings) hsame
    simp only [errors_reportOf, Scene.allIssues, hshape, Policy.errors_append,
      List.length_append, Scene.errors_wiring_cleared hkeys hkeyed] at herrors
    simp only [warnings_reportOf, Scene.allIssues, hshape, Policy.warnings_append,
      Scene.warnings_structureIssues_cleared, List.append_cancel_left_eq,
      List.append_cancel_right_eq] at hwarnings
    constructor
    · intro hlooks
      have hmore := Scene.length_errors_structureIssues_cleared profile.policy hlooks
      omega
    · exact (Scene.warnings_wiring_cleared_iff hkeys hkeyed profile.policy).1 hwarnings
  · intro h
    rcases h with ⟨hlooks, hidle⟩
    have hissues : (s.cleared.allIssues settings nodes texts).filterMap profile.policy.apply =
        (s.allIssues settings nodes texts).filterMap profile.policy.apply := by
      simp only [Scene.allIssues, hshape, Scene.structureIssues_cleared hlooks,
        List.filterMap_append,
        Scene.reported_wiring_cleared hkeys hkeyed profile.policy hidle]
    have hstatistics : statistics s.cleared s.cleared.wiring texts =
        statistics s s.wiring texts := by
      have hvalid : s.cleared.wiring.valid = s.wiring.valid := Scene.valid_cleared
      have hinvalid : s.cleared.wiring.invalid = s.wiring.invalid := Scene.invalid_cleared hkeys
      simp only [statistics, hvalid, hinvalid]
      rfl
    exact reportOf_eq_of_reported hissues hstatistics

end Same

/-- The report stays the same when containers without links are cleared away, unless one of the two
checks speaks that take notice of them. -/
theorem report_cleared_iff (hkeys : ∀ name ∈ d.connections.keys, name ∈ d.nodeNames)
    (hkeyed : d.connections.Keyed) :
    v.report profile d.cleared = v.report profile d ↔
      ∀ r, v.report profile d = .ok r →
        ¬ (v.scene d).LooksConnected ∧
          ¬ (profile.policy.keepWarnings = true ∧ (v.scene d).HasIdleErrorOutput) := by
  have hknown : ∀ name ∈ (v.scene d).document.connections.keys,
      ∃ n, (v.scene d).node? name = some n := by
    intro name hname
    exact Scene.exists_node?_iff.2 (hkeys name hname)
  by_cases hnodes : d.nodes = []
  · -- Without nodes there are no entries of which a check could take notice.
    have hentries : ∀ e, e ∉ (v.scene d).document.connections := by
      intro e he
      have hname : e.1 ∈ d.nodeNames := hkeys e.1 (Entries.key_mem_keys he)
      simp [Document.nodeNames, hnodes] at hname
    have hsame : v.report profile d.cleared = v.report profile d := by
      simp [report, Document.cleared, hnodes]
    have hlooks : ¬ (v.scene d).LooksConnected := by
      intro hlooks
      rcases hlooks with ⟨-, -, e, he, -⟩
      exact hentries e he
    have hidle : ¬ (profile.policy.keepWarnings = true ∧ (v.scene d).HasIdleErrorOutput) := by
      intro hidle
      rcases hidle with ⟨-, e, he, -⟩
      exact hentries e he
    exact iff_of_true hsame fun r _ => ⟨hlooks, hidle⟩
  · have hfilled : d.nodes.isEmpty = false := List.isEmpty_eq_false_iff.2 hnodes
    have hfilled' : d.cleared.nodes.isEmpty = false := hfilled
    have hscene : v.scene d.cleared = (v.scene d).cleared := rfl
    have hfound : (v.scene d).cleared.allNodeFindings profile =
        (v.scene d).allNodeFindings profile := Scene.allNodeFindings_rewired profile
    have htexts : (v.scene d).cleared.textFindings v.settings (v.scene d).cleared.wiring =
        (v.scene d).textFindings v.settings (v.scene d).wiring :=
      Scene.textFindings_cleared v.settings
    simp only [report, hfilled, hfilled', hscene, hfound, htexts]
    cases (v.scene d).allNodeFindings profile with
    | error e => simp
    | ok nodes =>
      cases (v.scene d).textFindings v.settings (v.scene d).wiring with
      | error e => simp
      | ok texts =>
        have hreport : reportOf profile v.settings (v.scene d).cleared nodes texts =
            reportOf profile v.settings (v.scene d) nodes texts ↔
              ¬ (v.scene d).LooksConnected ∧
                ¬ (profile.policy.keepWarnings = true ∧ (v.scene d).HasIdleErrorOutput) :=
          reportOf_cleared_iff hknown hkeyed
        simpa using hreport

/-- A node that has a link to another, and room for more. -/
def roomy : Document where
  nodes :=
    [{ id := "1", name := "A", type := "n8n-nodes-base.set" },
      { id := "2", name := "B", type := "n8n-nodes-base.set" }]
  connections :=
    [("A", [("main", [some [⟨"B", "main", 0⟩], none, some []]), ("error", [none])]), ("B", [])]

/-- The room goes without a trace in the report. -/
theorem roomy_report_cleared :
    roomy.connections.cleared = [("A", [("main", [some [⟨"B", "main", 0⟩]])])] ∧
      setTypes.report .runtime roomy.cleared = setTypes.report .runtime roomy := by
  have hkeyed : roomy.connections.Keyed := ⟨by decide, by decide⟩
  have hlooks : ¬ (setTypes.scene roomy).LooksConnected := by
    intro hlooks
    rcases hlooks with ⟨-, hlinks, -⟩
    exact absurd hlinks (by decide)
  have hidle : ¬ (setTypes.scene roomy).HasIdleErrorOutput := by
    intro hidle
    rcases hidle with ⟨e, -, -, n, hnode, hawaits⟩
    have hfound : roomy.nodes.find? (·.name == e.1) = some n := hnode
    have hpolicy : ∀ m ∈ roomy.nodes, m.onError = none := by decide
    have hnone : n.onError = none := hpolicy n (List.mem_of_find?_eq_some hfound)
    rw [hawaits.1] at hnone
    cases hnone
  refine ⟨rfl, (report_cleared_iff (by decide) hkeyed).2 ?_⟩
  intro r _
  exact ⟨hlooks, fun h => hidle h.2⟩

def codesOf (v : Validator) (profile : Profile) (d : Document) : Option (List String) :=
  (v.report profile d).toOption.map fun r => (r.errors ++ r.warnings).map Issue.code

/-- Reports with different codes are different. -/
theorem report_ne_of_codesOf {d d' : Document} (h : v.codesOf profile d ≠ v.codesOf profile d') :
    v.report profile d ≠ v.report profile d' := by
  intro heq
  have hcodes : v.codesOf profile d = v.codesOf profile d' := by
    simp only [codesOf, heq]
  exact h hcodes

/-- Two nodes, with no links but an output. -/
def bare : Document :=
  { roomy with connections := [("A", [("main", [])])] }

/-- A node with an output for failures behind another node, and its entry without links. -/
def idle : Document where
  nodes :=
    [{ id := "1", name := "A", type := "n8n-nodes-base.set" },
      { id := "2", name := "B", type := "n8n-nodes-base.set"
        onError := some "continueErrorOutput" }]
  connections := [("A", [("main", [some [⟨"B", "main", 0⟩]])]), ("B", [])]

/-- With the empty output an error is missing that is there without it, and with the empty entry
there is a warning that is missing without it. -/
theorem bare_and_idle_report_cleared :
    (bare.connections.keys ⊆ bare.nodeNames ∧ bare.connections.Keyed ∧
        setTypes.report .runtime bare.cleared ≠ setTypes.report .runtime bare) ∧
      idle.connections.keys ⊆ idle.nodeNames ∧ idle.connections.Keyed ∧
        setTypes.report .runtime idle.cleared ≠ setTypes.report .runtime idle := by
  have hbare : setTypes.codesOf .runtime bare.cleared ≠ setTypes.codesOf .runtime bare := by
    decide +kernel
  have hidle : setTypes.codesOf .runtime idle.cleared ≠ setTypes.codesOf .runtime idle := by
    decide +kernel
  refine ⟨⟨by decide, ⟨by decide, by decide⟩, report_ne_of_codesOf hbare⟩, ?_⟩
  exact ⟨by decide, ⟨by decide, by decide⟩, report_ne_of_codesOf hidle⟩

end Validator
end Workflows
