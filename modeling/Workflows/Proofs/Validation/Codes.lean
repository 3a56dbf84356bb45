import Workflows.Proofs.Profile.Monotone
import Workflows.Proofs.Validation.MainGraph

/-!
# Codes — which codes each check uses, and which node it speaks of

A report is one list of errors, in which the errors of all checks follow each other. From which
check an error comes can be told by its code: the checks of names, of single nodes, of links, of the
shape of the graph and of expressions each keep to a list of codes. What the checks of single nodes
and of expressions find is moreover attributed to the node that they look at, always.

Main definitions:

* `Issue.IsAbout` — a finding of a check on one node;
* `Scene.about_nodeFindings`, `Scene.about_nodeTextFindings` — the findings on one node;
* `Scene.code_structureIssues`, `Scene.code_wiring`, `Scene.code_shapeIssues` — the codes of the
  other checks.
-/

namespace Workflows

namespace Issue

variable {n : Node} {codes : List String} {i : Issue}

def hasCode (codes : List String) (i : Issue) : Bool :=
  codes.contains i.code

/-- An issue has one of some codes if its code is one of them. -/
theorem hasCode_iff : i.hasCode codes = true ↔ i.code ∈ codes := by
  simp [hasCode]

/-- None of the findings has one of the codes if theirs are others. -/
theorem filter_hasCode_eq_nil {issues : List Issue} {others : List String}
    (h : ∀ i ∈ issues, i.code ∈ others) (hothers : ∀ code ∈ others, code ∉ codes) :
    issues.filter (hasCode codes) = [] := by
  refine List.filter_eq_nil_iff.2 ?_
  intro i hi hcode
  exact hothers i.code (h i hi) (hasCode_iff.1 hcode)

/-- Findings with some of the codes are among those with the codes. -/
theorem filter_hasCode_of_subset {issues : List Issue} {fewer : List String}
    (h : ∀ code ∈ fewer, code ∈ codes) :
    (issues.filter (hasCode codes)).filter (hasCode fewer) = issues.filter (hasCode fewer) := by
  rw [List.filter_filter]
  refine List.filter_congr ?_
  intro i _
  cases hfewer : i.hasCode fewer with
  | false => rfl
  | true => simpa using hasCode_iff.2 (h i.code (hasCode_iff.1 hfewer))

def cycleCodes : List String := ["cycle", "too_many_cycles"]

/-- A finding that is attributed to the node and has one of the codes. -/
def IsAbout (n : Node) (codes : List String) (i : Issue) : Prop :=
  i.nodeName = some n.name ∧ i.code ∈ codes

/-! ## How findings are put together -/

@[simp] theorem code_error (category : Category) (code message : String) :
    (error category code message).code = code := rfl

@[simp] theorem code_warning (category : Category) (code message : String) :
    (warning category code message).code = code := rfl

@[simp] theorem code_onNode (n : Node) (i : Issue) : (i.onNode n).code = i.code := rfl

@[simp] theorem code_atPath (path : String) (i : Issue) : (i.atPath path).code = i.code := rfl

@[simp] theorem nodeName_onNode (n : Node) (i : Issue) :
    (i.onNode n).nodeName = some n.name := rfl

@[simp] theorem nodeName_atPath (path : String) (i : Issue) :
    (i.atPath path).nodeName = i.nodeName := rfl

/-- An issue that is put on a node is about the node. -/
@[simp] theorem isAbout_onNode_iff : (i.onNode n).IsAbout n codes ↔ i.code ∈ codes := by
  simp [IsAbout]

@[simp] theorem isAbout_atPath_iff {path : String} :
    (i.atPath path).IsAbout n codes ↔ i.IsAbout n codes := Iff.rfl

end Issue

namespace Scene

variable {s : Scene} {n : Node} {w : Wiring}

/-! ## Single nodes -/

def nodeCodes : List String :=
  ["invalid_type_prefix", "unknown_node_type", "missing_type_version", "invalid_type_version",
    "outdated_type_version", "misplaced_property", "invalid_value", "incompatible", "deprecated",
    "inefficient", "best_practice", "missing_credential_id", "invalid_type", "malformed_schema",
    "missing_required", "security", "hidden_property"]

def typeCodes : List String := ["invalid_type_prefix", "unknown_node_type"]

def knownCodes : List String :=
  ["missing_type_version", "invalid_type_version", "outdated_type_version", "misplaced_property",
    "invalid_value", "incompatible", "deprecated", "inefficient", "best_practice",
    "missing_credential_id", "invalid_type", "malformed_schema", "missing_required", "security",
    "hidden_property"]

/-- The codes of findings on nodes of known types are codes of findings on nodes. -/
theorem knownCodes_subset : ∀ code ∈ knownCodes, code ∈ nodeCodes := by
  decide

/-- The findings on the version of a type are about the node. -/
theorem about_versionIssues (n : Node) (t : NodeType) :
    ∀ i ∈ versionIssues n t, i.IsAbout n knownCodes := by
  have hversion : ∀ (latest : Number) (i : Issue), i.code ∈ knownCodes →
      ∀ found ∈ [versionIssue n latest i], found.IsAbout n knownCodes := by
    intro latest i hi found hfound
    rw [List.mem_singleton.1 hfound]
    exact ⟨rfl, hi⟩
  unfold versionIssues
  dsimp only
  split
  · simp
  · split
    · exact hversion _ _ (by simp [knownCodes])
    · split
      · exact hversion _ _ (by simp [knownCodes])
      · split
        · exact hversion _ _ (by simp [knownCodes])
        · split
          · exact hversion _ _ (by simp [knownCodes])
          · simp

/-- The findings on the error policy are about the node. -/
theorem about_onErrorIssues (n : Node) : ∀ i ∈ onErrorIssues n, i.IsAbout n knownCodes := by
  unfold onErrorIssues
  split
  · simp
  · split
    · simp
    · simp [Issue.IsAbout, knownCodes]

/-- The findings on the older attribute for errors are about the node. -/
theorem about_continueIssues (n : Node) : ∀ i ∈ continueIssues n, i.IsAbout n knownCodes := by
  unfold continueIssues
  split
  · simp
  · split
    · simp [knownCodes]
    · simp [Issue.IsAbout, knownCodes]

/-- The findings on the number of tries are about the node. -/
theorem about_triesIssues (n : Node) : ∀ i ∈ triesIssues n, i.IsAbout n knownCodes := by
  unfold triesIssues
  split
  · simp
  · split
    · simp [knownCodes]
    · split
      · simp [knownCodes]
      · simp

/-- The findings on the time between tries are about the node. -/
theorem about_waitIssues (n : Node) : ∀ i ∈ waitIssues n, i.IsAbout n knownCodes := by
  unfold waitIssues
  split
  · simp
  · split
    · simp [knownCodes]
    · split
      · simp [knownCodes]
      · simp

/-- The findings on tries are about the node. -/
theorem about_retryIssues (n : Node) : ∀ i ∈ retryIssues n, i.IsAbout n knownCodes := by
  unfold retryIssues
  split
  · exact List.forall_mem_append.2 ⟨about_triesIssues n, about_waitIssues n⟩
  · split
    · simp [knownCodes]
    · simp

/-- The findings on credentials are about the node. -/
theorem about_credentialIssues (n : Node) :
    ∀ i ∈ credentialIssues n, i.IsAbout n knownCodes := by
  intro i hi
  rcases List.mem_filterMap.1 hi with ⟨⟨name, value⟩, -, heq⟩
  dsimp only at heq
  unfold credentialIssue? at heq
  split at heq
  · split at heq
    · simp at heq
    · rw [← Option.some.inj heq]
      simp [knownCodes]
  · rw [← Option.some.inj heq]
    simp [knownCodes]

/-- The findings on all attributes are about the node. -/
theorem about_settingIssues (n : Node) : ∀ i ∈ settingIssues n, i.IsAbout n knownCodes := by
  have hmisplaced : ∀ i ∈ misplacedIssues n, i.IsAbout n knownCodes := by
    refine List.forall_mem_map.2 ?_
    intro key _
    simp [knownCodes]
  unfold settingIssues
  simp only [List.forall_mem_append]
  exact ⟨⟨⟨⟨hmisplaced, about_onErrorIssues n⟩, about_continueIssues n⟩, about_retryIssues n⟩,
    about_credentialIssues n⟩

/-- What is found in the parameters of a node gets the name of the node before it is reported, and
profiles change neither names nor codes. -/
theorem about_configIssues (profile : Profile) (n : Node) (t : NodeType)
    (visible : List Property) :
    ∀ i ∈ configIssues profile n (config n t) visible, i.IsAbout n knownCodes := by
  let c := config n t
  intro i hi
  rcases List.mem_map.1 hi with ⟨reported, hreported, rfl⟩
  rcases c.exists_finding_of_mem_reportOf profile visible hreported with ⟨named, hnamed, happly⟩
  rcases List.mem_map.1 hnamed with ⟨found, hfound, rfl⟩
  have hkinds : ∀ kind ∈ Issue.parameterKinds, kind.2 ∈ knownCodes := by decide
  have hcode : found.code ∈ knownCodes := by
    rcases c.listed_findings profile.policy visible found hfound with hmalformed | hlisted
    · rw [(NodeConfig.of_mem_malformedIssues hmalformed).2.2]
      simp [knownCodes]
    · exact hlisted.of_kinds (p := fun _ code => code ∈ knownCodes) hkinds
  have hsame : reported.code = found.code := (Policy.category_apply happly).2
  exact ⟨Policy.nodeName_apply happly, hsame ▸ hcode⟩

/-- What is found on a node of a known type is not about its type. -/
theorem about_knownNodeFindings {profile : Profile} {t : NodeType} {f : NodeFindings}
    (h : knownNodeFindings profile n t = .ok f) : ∀ i ∈ f.issues, i.IsAbout n knownCodes := by
  rcases of_knownNodeFindings h with ⟨visible, -, hissues, -⟩
  have hrules : ∀ i ∈ (if profile.policy.runRules then settingIssues n else []),
      i.IsAbout n knownCodes := by
    split
    · exact about_settingIssues n
    · simp
  rw [hissues]
  simp only [List.forall_mem_append]
  exact ⟨⟨about_versionIssues n t, hrules⟩, about_configIssues profile n t visible⟩

/-- The beginnings that reports find fault with are those of the short names of all packages. -/
theorem beginsShort_eq (n : Node) : beginsShort n = TypeName.isShortForm n.type := by
  have hfronts : shortBeginnings = TypeName.packages.map (·.2) := rfl
  rw [beginsShort, hfronts, List.any_map, TypeName.isShortForm]
  rfl

/-- All findings on a node are attributed to it. -/
theorem about_nodeFindings {profile : Profile} {f : NodeFindings}
    (h : s.nodeFindings profile n = .ok f) : ∀ i ∈ f.issues, i.IsAbout n nodeCodes := by
  unfold nodeFindings at h
  split at h
  · rw [← Except.ok.inj h]
    simp
  · split at h
    · rw [← Except.ok.inj h]
      simp [shortTypeIssue, Issue.IsAbout, nodeCodes]
    · split at h
      · rw [← Except.ok.inj h]
        simp [unknownTypeIssue, Issue.IsAbout, nodeCodes]
      · intro i hi
        rcases about_knownNodeFindings h i hi with ⟨hname, hcode⟩
        exact ⟨hname, knownCodes_subset i.code hcode⟩

/-- The findings on all nodes have the codes of such findings. -/
theorem code_findingsOf {profile : Profile} {ns : List Node} {f : NodeFindings}
    (h : s.findingsOf profile ns = .ok f) : ∀ i ∈ f.issues, i.code ∈ nodeCodes := by
  induction ns generalizing f with
  | nil =>
    rw [← Except.ok.inj h]
    simp
  | cons n rest ih =>
    rcases of_findingsOf_cons h with ⟨found, more, hfound, hmore, rfl⟩
    refine List.forall_mem_append.2 ⟨?_, ih hmore⟩
    intro i hi
    exact (about_nodeFindings hfound i hi).2

/-! ## Names -/

def structureCodes : List String :=
  ["duplicate_name", "duplicate_id", "no_connections", "no_trigger"]

/-- The findings on names and ids that occur twice have codes of the check of structure. -/
theorem code_duplicateIssues (names ids : List String) (ns : List Node) :
    ∀ i ∈ duplicateIssues names ids ns, i.code ∈ structureCodes := by
  induction ns generalizing names ids with
  | nil => simp [duplicateIssues]
  | cons n rest ih =>
    unfold duplicateIssues
    simp only [List.forall_mem_append]
    refine ⟨⟨?_, ?_⟩, ih _ _⟩
    · split
      · simp [structureCodes]
      · simp
    · split
      · simp [structureCodes]
      · simp

/-- The check of structure uses no codes but its own. -/
theorem code_structureIssues (s : Scene) : ∀ i ∈ s.structureIssues, i.code ∈ structureCodes := by
  have hconnections : noConnections.code ∈ structureCodes := by decide
  have htrigger : noTrigger.code ∈ structureCodes := by decide
  unfold structureIssues
  simp only [List.forall_mem_append]
  refine ⟨⟨code_duplicateIssues [] [] s.nodes, ?_⟩, ?_⟩
  · split
    · simpa using hconnections
    · simp
  · split
    · simpa using htrigger
    · simp

/-! ## Links -/

def faultCodes : List String :=
  ["unknown_source", "unknown_target", "connection_uses_id", "invalid_connection_index",
    "invalid_output_index"]

/-- The codes of findings about links that are valid, or missing. -/
def remarkCodes : List String :=
  ["disabled_target", "self_reference", "error_output_unconnected"]

/-- The findings on targets that are not valid have codes of faults. -/
theorem code_targetFaultIssue (n : Node) (t : Target) (fault : TargetFault) :
    (targetFaultIssue n t fault).code ∈ faultCodes := by
  cases fault <;> simp [targetFaultIssue, faultCodes]

/-- The findings on a valid target have codes of remarks. -/
theorem code_targetIssues_of_valid {t : Target} (h : s.targetFault? t = none) (n : Node) :
    ∀ i ∈ s.targetIssues n t, i.code ∈ remarkCodes := by
  unfold targetIssues
  rw [h]
  simp only [List.forall_mem_append]
  refine ⟨?_, ?_⟩
  · split
    · simp [disabledTarget, remarkCodes]
    · simp
  · split
    · simp [selfReference, remarkCodes]
    · simp

/-- The findings on a target have codes of faults or of remarks. -/
theorem code_targetIssues (n : Node) (t : Target) :
    ∀ i ∈ s.targetIssues n t, i.code ∈ faultCodes ++ remarkCodes := by
  cases hfault : s.targetFault? t with
  | some fault =>
    simp only [targetIssues, hfault, List.mem_singleton, forall_eq]
    exact List.mem_append_left _ (code_targetFaultIssue n t fault)
  | none =>
    intro i hi
    exact List.mem_append_right _ (code_targetIssues_of_valid hfault n i hi)

/-- The findings on outputs for errors have codes of remarks. -/
theorem code_errorOutputIssues (n : Node) (os : Outputs) :
    ∀ i ∈ s.errorOutputIssues n os, i.code ∈ remarkCodes := by
  unfold errorOutputIssues
  split
  · simp
  · dsimp only
    split
    · simp [remarkCodes]
    · simp

/-- The findings on entries without a source have codes of faults. -/
theorem code_strayWiring (name : String) (os : Outputs) :
    ∀ i ∈ (s.strayWiring name os).issues, i.code ∈ faultCodes := by
  unfold strayWiring
  dsimp only
  split <;> simp [faultCodes]

/-- A finding about links is about an output that does not exist, about a target, about an output
for failures, or about an entry. -/
theorem forall_wiring {p : Issue → Prop}
    (houtput : ∀ n output slot, p (s.outputIssue n output slot))
    (htarget : ∀ n t path, ∀ i ∈ s.targetIssues n t, p ((i.onNode n).atPath path))
    (hfailures : ∀ n os, ∀ i ∈ s.errorOutputIssues n os, p i)
    (hstray : ∀ name os, ∀ i ∈ (s.strayWiring name os).issues, p i) :
    ∀ i ∈ s.wiring.issues, p i := by
  have hslot : ∀ n output slot targets, ∀ i ∈ (s.slotWiring n output slot targets).issues, p i := by
    intro n output slot targets
    unfold slotWiring
    simp only [List.forall_mem_append, List.forall_mem_map, List.forall_mem_flatMap]
    refine ⟨?_, fun t _ i hi => htarget n t _ i hi⟩
    split
    · simpa using houtput n output slot
    · simp
  have hsource : ∀ n os, ∀ i ∈ (s.sourceWiring n os).issues, p i := by
    intro n os
    unfold sourceWiring
    simp only [Wiring.issues_append, Wiring.issues_join, List.flatMap_map, List.forall_mem_append,
      List.forall_mem_flatMap]
    exact ⟨fun o _ slot _ => hslot n o.1 slot.2 slot.1.targets, hfailures n os⟩
  unfold wiring
  simp only [Wiring.issues_join, List.flatMap_map, List.forall_mem_flatMap]
  intro e _
  split
  · exact hsource _ e.2
  · exact hstray e.1 e.2

/-- The check of links uses no codes but its own. -/
theorem code_wiring (s : Scene) : ∀ i ∈ s.wiring.issues, i.code ∈ faultCodes ++ remarkCodes := by
  refine forall_wiring ?_ ?_ ?_ ?_
  · intro n output slot
    simp [outputIssue, faultCodes]
  · intro n t path i hi
    exact code_targetIssues n t i hi
  · intro n os i hi
    exact List.mem_append_right _ (code_errorOutputIssues n os i hi)
  · intro name os i hi
    exact List.mem_append_left _ (code_strayWiring name os i hi)

/-! ## Expressions -/

def textCodes : List String :=
  ["expression_error", "expression_warning", "missing-prefix", "needs-resource-locator",
    "invalid-rl-structure", "mixed-format"]

/-- The findings on expressions are about the node. -/
theorem about_expressionFindings (depth : Number) :
    ∀ i ∈ (s.expressionFindings depth w n).issues, i.IsAbout n textCodes := by
  unfold expressionFindings
  simp only [List.forall_mem_append, List.forall_mem_map]
  constructor
  · intro message _
    simp [expressionError, textCodes]
  · intro message _
    simp [expressionWarning, textCodes]

/-- The findings about the written form of expressions are put together in one way. -/
theorem exists_map_formatIssue {depth : Number} {issues : List Issue}
    (h : s.formatIssues depth n = .ok issues) :
    ∃ found : List FormatIssue, issues = found.map (formatIssue n) := by
  unfold formatIssues at h
  cases hdeclared : s.declaredLocators n with
  | error e => simp [hdeclared] at h
  | ok declared =>
    simp only [hdeclared] at h
    cases hchecked : Format.checkTree depth (Format.locatorFields n.type declared)
        (.obj n.parameters) with
    | error e => simp [hchecked, Except.map] at h
    | ok checked =>
      simp only [hchecked, Except.map, Except.ok.injEq] at h
      exact ⟨checked.issues, h.symm⟩

/-- The findings on the form of expressions are about the node. -/
theorem about_formatIssues {depth : Number} {issues : List Issue}
    (h : s.formatIssues depth n = .ok issues) : ∀ i ∈ issues, i.IsAbout n textCodes := by
  have hword : ∀ kind : FormatKind, kind.word ∈ textCodes := by
    intro kind
    cases kind <;> decide
  rcases exists_map_formatIssue h with ⟨found, rfl⟩
  exact List.forall_mem_map.2 fun f _ => ⟨rfl, hword f.kind⟩

/-- All findings about the expressions of a node are attributed to it. -/
theorem about_nodeTextFindings {depth : Number} {f : TextFindings}
    (h : s.nodeTextFindings depth w n = .ok f) : ∀ i ∈ f.issues, i.IsAbout n textCodes := by
  rcases nodeTextFindings_eq_ok.1 h with ⟨issues, hissues, rfl⟩
  exact List.forall_mem_append.2 ⟨about_expressionFindings depth, about_formatIssues hissues⟩

/-- The check of expressions uses no codes but its own. -/
theorem code_textFindingsOf {depth : Number} {ns : List Node} {f : TextFindings}
    (h : s.textFindingsOf depth w ns = .ok f) : ∀ i ∈ f.issues, i.code ∈ textCodes := by
  induction ns generalizing f with
  | nil =>
    rw [← Except.ok.inj h]
    simp
  | cons n rest ih =>
    rcases of_textFindingsOf_cons h with ⟨found, more, hfound, hmore, rfl⟩
    refine List.forall_mem_append.2 ⟨?_, ih hmore⟩
    intro i hi
    exact (about_nodeTextFindings hfound i hi).2

/-! ## The graph -/

def orphanCodes : List String := ["orphaned_node"]

def loopCodes : List String := ["loop_not_closed", "loop_outputs_reversed"]

def chainCodes : List String := ["long_chain"]

def shapeCodes : List String :=
  ["orphaned_node", "loop_not_closed", "loop_outputs_reversed", "long_chain"]

/-- The findings on nodes without links have a code of their own. -/
theorem code_orphanIssues (s : Scene) (w : Wiring) :
    ∀ i ∈ s.orphanIssues w, i.code ∈ orphanCodes := by
  unfold orphanIssues
  dsimp only
  split
  · simp
  · refine List.forall_mem_map.2 ?_
    intro n _
    simp [orphanIssue, orphanCodes]

/-- The findings on loop nodes have codes of their own. -/
theorem code_loopIssues (s : Scene) (settings : Settings) (g : Graph) :
    ∀ i ∈ s.loopIssues settings g, i.code ∈ loopCodes := by
  have hnode : ∀ n t, ∀ i ∈ s.loopNodeIssues settings g n t, i.code ∈ loopCodes := by
    intro n t
    unfold loopNodeIssues
    split
    · simp only [List.forall_mem_append, List.forall_mem_map]
      constructor
      · intro target _
        simp [loopNotClosed, loopCodes]
      · intro target _
        simp [outputsReversed, loopCodes]
    · simp
  intro i hi
  rcases List.mem_flatMap.1 hi with ⟨n, -, hi⟩
  split at hi
  · split at hi
    · exact hnode n _ i hi
    · simp at hi
  · simp at hi

/-- The findings on chains have a code of their own. -/
theorem code_chainIssues (settings : Settings) (g : Graph) :
    ∀ i ∈ chainIssues settings g, i.code ∈ chainCodes := by
  unfold chainIssues
  split
  · simp
  · split
    · simp [chainCodes]
    · simp

/-- What the check of cycles finds is about one cycle, about the first one of a large graph, or about
the number of cycles. -/
theorem mem_cycleIssues {s : Scene} {g : Graph} {i : Issue} (h : i ∈ s.cycleIssues g) :
    (∃ c, i = firstCycleIssue c) ∨ (∃ c, i = cycleIssue c) ∨ i = tooManyCycles := by
  unfold cycleIssues at h
  dsimp only at h
  split at h
  · rcases List.mem_map.1 h with ⟨c, -, rfl⟩
    exact .inl ⟨c, rfl⟩
  · rcases List.mem_append.1 h with hjudged | hmore
    · rcases List.mem_map.1 (List.mem_mergeSort.1 hjudged) with ⟨c, -, rfl⟩
      exact .inr (.inl ⟨c, rfl⟩)
    · split at hmore
      · exact .inr (.inr (List.mem_singleton.1 hmore))
      · exact absurd hmore List.not_mem_nil

/-- The findings on cycles have codes of their own. -/
theorem code_cycleIssues (s : Scene) (g : Graph) :
    ∀ i ∈ s.cycleIssues g, i.code ∈ Issue.cycleCodes := by
  intro i hi
  rcases mem_cycleIssues hi with ⟨c, rfl⟩ | ⟨c, rfl⟩ | rfl
  · simp [firstCycleIssue, Issue.cycleCodes]
  · simp [cycleIssue, Issue.cycleCodes]
  · simp [tooManyCycles, Issue.cycleCodes]

/-- The check of the graph uses no codes but its own. -/
theorem code_shapeIssues (s : Scene) (settings : Settings) (w : Wiring) :
    ∀ i ∈ s.shapeIssues settings w, i.code ∈ shapeCodes ++ Issue.cycleCodes := by
  have horphan : ∀ code ∈ orphanCodes, code ∈ shapeCodes ++ Issue.cycleCodes := by decide
  have hloop : ∀ code ∈ loopCodes, code ∈ shapeCodes ++ Issue.cycleCodes := by decide
  have hchain : ∀ code ∈ chainCodes, code ∈ shapeCodes ++ Issue.cycleCodes := by decide
  unfold shapeIssues
  simp only [List.forall_mem_append]
  refine ⟨⟨⟨?_, ?_⟩, ?_⟩, ?_⟩
  · intro i hi
    exact horphan _ (code_orphanIssues s w i hi)
  · intro i hi
    exact List.mem_append_right _ (code_cycleIssues s _ i hi)
  · intro i hi
    exact hloop _ (code_loopIssues s settings _ i hi)
  · intro i hi
    exact hchain _ (code_chainIssues settings _ i hi)

end Scene
end Workflows
