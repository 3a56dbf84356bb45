import Workflows.Proofs.Profile.Policy
import Workflows.Proofs.Validation.NodeByNode
import Workflows.Proofs.Validation.Wiring

/-!
# Monotone — what a more demanding profile adds

From the minimal profile to the strict one reports only grow: a finding that is an error under one
profile is the same error under the next. Policies act in three places. They choose the checks that
run, filter the findings on each node, and filter all findings once more; the last two of these
steps are followed here for two profiles side by side, from node to node and then for the document.

Main definitions:

* `Scene.findingsOf_rel` — from single nodes to all nodes;
* `Validator.reports_monotone` — the four reports on a document.
-/

namespace Workflows

/-! ## All nodes -/

namespace Scene

section Config

variable (profile : Profile) (n : Node) (c : NodeConfig) (visible : List Property)

def configIssues : List Issue :=
  (configFindings profile n (c.reportOf profile visible)).issues

/-- The issues of a node are filed once, so the policy leaves them as they are the second time. -/
theorem filterMap_configIssues :
    (configIssues profile n c visible).filterMap profile.policy.apply =
      configIssues profile n c visible := by
  refine Policy.filterMap_apply ?_
  intro i hi
  rcases List.mem_map.1 hi with ⟨j, hj, rfl⟩
  rw [Policy.apply_withId, c.apply_of_mem_reportOf profile visible hj]
  rfl

/-- The errors of the parameters become errors of the report, with the id of the node. -/
theorem errors_configIssues :
    profile.policy.errors (configIssues profile n c visible) =
      (c.reportOf profile visible).errors.map fun i => { i with nodeId := some n.id } := by
  have herrors : ((c.reportOf profile visible).errors.map fun i =>
      { i with nodeId := some n.id }).filter Issue.isError =
      (c.reportOf profile visible).errors.map fun i => { i with nodeId := some n.id } := by
    refine List.filter_eq_self.2 ?_
    intro i hi
    rcases List.mem_map.1 hi with ⟨j, hj, rfl⟩
    have herror := c.isError_of_mem_errors profile visible hj
    simpa [Issue.isError] using herror
  have hwarnings : ((c.reportOf profile visible).warnings.map fun i =>
      { i with nodeId := some n.id }).filter Issue.isError = [] := by
    refine List.filter_eq_nil_iff.2 ?_
    intro i hi
    rcases List.mem_map.1 hi with ⟨j, hj, rfl⟩
    have herror := c.isError_of_mem_warnings profile visible hj
    simpa [Issue.isError] using herror
  calc profile.policy.errors (configIssues profile n c visible)
      = (((c.reportOf profile visible).errors ++ (c.reportOf profile visible).warnings).map
          fun i => { i with nodeId := some n.id }).filter Issue.isError := by
        rw [Policy.errors, filterMap_configIssues]
        rfl
    _ = (c.reportOf profile visible).errors.map fun i => { i with nodeId := some n.id } := by
        rw [List.map_append, List.filter_append, herrors, hwarnings, List.append_nil]

/-- The warnings of the parameters become warnings of the report, with the id of the node. -/
theorem warnings_configIssues :
    profile.policy.warnings (configIssues profile n c visible) =
      ((c.reportOf profile visible).warnings.map fun i => { i with nodeId := some n.id }).filter
        fun i => i.severity == .warning := by
  have herrors : ((c.reportOf profile visible).errors.map fun i =>
      { i with nodeId := some n.id }).filter (fun i => i.severity == .warning) = [] := by
    refine List.filter_eq_nil_iff.2 ?_
    intro i hi
    rcases List.mem_map.1 hi with ⟨j, hj, rfl⟩
    have herror := c.isError_of_mem_errors profile visible hj
    simp only [Issue.isError, beq_iff_eq] at herror
    simp [herror]
  unfold Policy.warnings
  rw [filterMap_configIssues]
  unfold configIssues configFindings
  rw [List.map_append, List.filter_append, herrors, List.nil_append]

end Config

theorem issues_append (f g : NodeFindings) : (f ++ g).issues = f.issues ++ g.issues := rfl

theorem suggestions_append (f g : NodeFindings) :
    (f ++ g).suggestions = f.suggestions ++ g.suggestions := rfl

/-- What is found about a node of a known type. -/
theorem of_knownNodeFindings {profile : Profile} {n : Node} {t : NodeType} {f : NodeFindings}
    (h : knownNodeFindings profile n t = .ok f) :
    ∃ visible, ((config n t).resolver.visibleProperties.run {}).1 = .ok visible ∧
      f.issues = versionIssues n t ++ (if profile.policy.runRules then settingIssues n else []) ++
        configIssues profile n (config n t) visible ∧
      f.suggestions =
        (((config n t).reportOf profile visible).suggestions.map fun text =>
            n.name ++ ": " ++ text) ++
          if profile.policy.runRules && lacksErrorHandling n t then
            [n.name ++ ": add error handling (onError or retryOnFail) for external calls"]
          else [] := by
  unfold knownNodeFindings NodeConfig.check at h
  cases hvisible : ((config n t).resolver.visibleProperties.run {}).1 with
  | error e => simp [hvisible] at h
  | ok visible =>
    simp only [hvisible, Except.ok.injEq] at h
    refine ⟨visible, rfl, ?_, ?_⟩
    · rw [← h, issues_append, issues_append]
      exact List.append_nil _
    · rw [← h, suggestions_append, suggestions_append]
      rfl

section Relations

variable (rel : NodeFindings → NodeFindings → Prop) {s : Scene} {p q : Profile}
  (hnone : ∀ i, rel { issues := i } { issues := i })
  (hknown : ∀ n t f g, knownNodeFindings p n t = .ok f → knownNodeFindings q n t = .ok g → rel f g)

include hnone hknown

/-- Two profiles can tell the findings for a node apart only when its type is known. -/
theorem nodeFindings_rel {n : Node} {f g : NodeFindings} (hf : s.nodeFindings p n = .ok f)
    (hg : s.nodeFindings q n = .ok g) : rel f g := by
  unfold nodeFindings at hf hg
  by_cases hdisabled : n.disabled = true
  · rw [if_pos hdisabled] at hf hg
    rw [← Except.ok.inj hf, ← Except.ok.inj hg]
    exact hnone []
  · by_cases hshort : beginsShort n = true
    · rw [if_neg hdisabled, if_pos hshort] at hf hg
      rw [← Except.ok.inj hf, ← Except.ok.inj hg]
      exact hnone _
    · rw [if_neg hdisabled, if_neg hshort] at hf hg
      cases htype : s.typeOf n with
      | none =>
        simp only [htype] at hf hg
        rw [← Except.ok.inj hf, ← Except.ok.inj hg]
        exact hnone _
      | some t =>
        simp only [htype] at hf hg
        exact hknown n t f g hf hg

/-- What relates the findings for every single node under two profiles relates those for all. -/
theorem findingsOf_rel (happend : ∀ f f' g g', rel f g → rel f' g' → rel (f ++ f') (g ++ g'))
    {ns : List Node} {f g : NodeFindings} (hf : s.findingsOf p ns = .ok f)
    (hg : s.findingsOf q ns = .ok g) : rel f g := by
  refine rel_findingsOf rel (hnone []) happend (List.forall₂_same.2 ?_)
    hf hg
  intro n _ f' g' hf' hg'
  exact nodeFindings_rel rel hnone hknown hf' hg'

end Relations

section Pairs

variable {s : Scene} {f g : NodeFindings}

/-- The errors of the minimal profile are among those of the default one. -/
theorem errors_findings_minimal (hf : s.allNodeFindings .minimal = .ok f)
    (hg : s.allNodeFindings .runtime = .ok g) :
    (Profile.minimal.policy.errors f.issues).Sublist (Profile.runtime.policy.errors g.issues) := by
  let rel (f g : NodeFindings) : Prop :=
    (Profile.minimal.policy.errors f.issues).Sublist (Profile.runtime.policy.errors g.issues)
  refine findingsOf_rel rel ?_ ?_ ?_ hf hg
  · intro i
    simp only [rel, Profile.errors_minimal]
    exact List.Sublist.refl _
  · intro n t f g hf hg
    rcases of_knownNodeFindings hf with ⟨visible, hvisible, hfi, -⟩
    rcases of_knownNodeFindings hg with ⟨visible', hvisible', hgi, -⟩
    obtain rfl : visible = visible' := Except.ok.inj (hvisible.symm.trans hvisible')
    simp only [rel, hfi, hgi, Policy.errors_append, errors_configIssues]
    rw [Profile.errors_minimal]
    have hconfig := (config n t).errors_minimal_sublist visible
    refine List.Sublist.append (List.Sublist.append (List.Sublist.refl _) ?_) (hconfig.map _)
    exact List.nil_sublist _
  · intro f f' g g' h h'
    simp only [rel, issues_append, Policy.errors_append]
    exact h.append h'

/-- The strict profile turns what is a matter of style into errors, and reports everything else
alike. -/
theorem findings_strict (hf : s.allNodeFindings .runtime = .ok f)
    (hg : s.allNodeFindings .strict = .ok g) :
    Profile.runtime.policy.errors f.issues =
        (Profile.strict.policy.errors g.issues).filter Issue.matters ∧
      Profile.runtime.policy.warnings f.issues = Profile.strict.policy.warnings g.issues := by
  let rel (f g : NodeFindings) : Prop :=
    Profile.runtime.policy.errors f.issues =
        (Profile.strict.policy.errors g.issues).filter Issue.matters ∧
      Profile.runtime.policy.warnings f.issues = Profile.strict.policy.warnings g.issues
  refine findingsOf_rel rel ?_ ?_ ?_ hf hg
  · intro i
    exact ⟨Profile.errors_runtime i, Profile.warnings_runtime i⟩
  · intro n t f g hf hg
    rcases of_knownNodeFindings hf with ⟨visible, hvisible, hfi, -⟩
    rcases of_knownNodeFindings hg with ⟨visible', hvisible', hgi, -⟩
    obtain rfl : visible = visible' := Except.ok.inj (hvisible.symm.trans hvisible')
    have hmatters : (Issue.matters ∘ fun i : Issue => { i with nodeId := some n.id }) =
        Issue.matters := rfl
    refine ⟨?_, ?_⟩
    · simp only [hfi, hgi, Policy.errors_append, errors_configIssues, List.filter_append,
        Profile.errors_runtime, (config n t).errors_runtime_eq, List.filter_map, hmatters]
      rfl
    · simp only [hfi, hgi, Policy.warnings_append, warnings_configIssues,
        Profile.warnings_runtime, (config n t).warnings_runtime_eq]
      rfl
  · intro f f' g g' h h'
    simp only [rel, issues_append, Policy.errors_append, Policy.warnings_append,
      List.filter_append]
    exact ⟨by rw [h.1, h'.1], by rw [h.2, h'.2]⟩

/-- The most talkative profile says the same of nodes as the default one, and adds notes. -/
theorem findings_aiFriendly (hf : s.allNodeFindings .runtime = .ok f)
    (hg : s.allNodeFindings .aiFriendly = .ok g) :
    g.issues = f.issues ∧ g.suggestions = f.suggestions := by
  let rel (f g : NodeFindings) : Prop := g.issues = f.issues ∧ g.suggestions = f.suggestions
  refine findingsOf_rel rel (fun i => ⟨rfl, rfl⟩) ?_
    ?_ hf hg
  · intro n t f g hf hg
    rcases of_knownNodeFindings hf with ⟨visible, hvisible, hfi, hfs⟩
    rcases of_knownNodeFindings hg with ⟨visible', hvisible', hgi, hgs⟩
    obtain rfl : visible = visible' := Except.ok.inj (hvisible.symm.trans hvisible')
    exact ⟨by rw [hfi, hgi]; rfl, by rw [hfs, hgs]; rfl⟩
  · intro f f' g g' h h'
    simp only [rel, issues_append, suggestions_append]
    exact ⟨by rw [h.1, h'.1], by rw [h.2, h'.2]⟩

end Pairs

end Scene

/-! ## Reports -/

namespace Validator

/-- A report on findings on nodes, and on others before and behind them that do not depend on the
profile. -/
structure Reports (profile : Profile) (before : List Issue) (nodes : NodeFindings)
    (behind : List Issue) (statistics : Statistics) (r : Report) : Prop where
  errors : r.errors = profile.policy.errors (before ++ nodes.issues ++ behind)
  warnings : r.warnings = profile.policy.warnings (before ++ nodes.issues ++ behind)
  valid : r.valid = true ↔ r.errors = []
  suggestions : r.suggestions = nodes.suggestions
  statistics : r.statistics = statistics

/-- A report that is filled with issues reports these issues under its profile. -/
theorem reports_fileIssues {profile : Profile} {before behind issues : List Issue}
    {nodes : NodeFindings} {r : Report} (hissues : issues = before ++ nodes.issues ++ behind)
    (herrors : r.errors = []) (hwarnings : r.warnings = []) (hvalid : r.valid = true)
    (hsuggestions : r.suggestions = nodes.suggestions) :
    Reports profile before nodes behind r.statistics (fileIssues profile issues r) := by
  rw [hissues]
  constructor
  · rw [fileIssues, Report.errors_addAll, herrors]
    rfl
  · rw [fileIssues, Report.warnings_addAll, hwarnings]
    rfl
  · simp only [fileIssues, Report.valid_addAll, Report.errors_addAll, hvalid, herrors,
      Bool.true_and, List.nil_append, List.isEmpty_iff]
  · rw [fileIssues, Report.suggestions_addAll, hsuggestions]
  · rw [fileIssues, Report.statistics_addAll]

/-- Only the findings on nodes are not the same for all profiles. -/
theorem exists_reports (v : Validator) (d : Document) :
    ∃ before behind statistics, ∀ profile r, v.report profile d = .ok r →
      ∃ nodes, (v.scene d).allNodeFindings profile = .ok nodes ∧
        Reports profile before nodes behind statistics r := by
  -- Without nodes there is one fixed finding. Otherwise the profile has a say in the findings on
  -- nodes alone, as those on texts fail or succeed under all profiles alike.
  by_cases hempty : d.nodes.isEmpty
  · refine ⟨[emptyWorkflow], [], {}, fun profile r h => ⟨{}, ?_, ?_⟩⟩
    · have hnone : (v.scene d).nodes = [] := List.isEmpty_iff.1 hempty
      rw [Scene.allNodeFindings, hnone]
      rfl
    · simp only [report, hempty, if_true] at h
      have hr : fileIssues profile [emptyWorkflow] { profile := profile.word } = r :=
        Except.ok.inj h
      rw [← hr]
      exact reports_fileIssues (r := { profile := profile.word }) rfl rfl rfl rfl rfl
  · cases htexts : (v.scene d).textFindings v.settings (v.scene d).wiring with
    | error e =>
      refine ⟨[], [], {}, ?_⟩
      intro profile r h
      simp only [report, hempty, htexts] at h
      cases hnodes : (v.scene d).allNodeFindings profile <;> simp [hnodes] at h
    | ok texts =>
      let w := (v.scene d).wiring
      refine ⟨(v.scene d).structureIssues,
        w.issues ++ (v.scene d).shapeIssues v.settings w ++ texts.issues,
        statistics (v.scene d) w texts, ?_⟩
      intro profile r h
      simp only [report, hempty, htexts] at h
      cases hnodes : (v.scene d).allNodeFindings profile with
      | error e => simp [hnodes] at h
      | ok nodes =>
        simp only [hnodes] at h
        refine ⟨nodes, rfl, ?_⟩
        have hr : reportOf profile v.settings (v.scene d) nodes texts = r := Except.ok.inj h
        rw [← hr]
        let base : Report :=
          { profile := profile.word
            suggestions := nodes.suggestions
            notes := nodes.notes
            statistics := statistics (v.scene d) w texts }
        refine reports_fileIssues (r := base) ?_ rfl rfl rfl rfl
        simp [w]

section Reports

variable {before behind : List Issue} {statistics statistics' : Statistics} {f g : NodeFindings}
  {r r' : Report}

/-- A report that has no more errors than a valid one is valid. -/
theorem Reports.valid_of_sublist {p q : Profile} (h : Reports p before f behind statistics r)
    (h' : Reports q before g behind statistics r') (hsub : r.errors.Sublist r'.errors)
    (hvalid : r'.valid = true) : r.valid = true := by
  rw [h'.valid] at hvalid
  rw [hvalid] at hsub
  exact h.valid.2 (List.sublist_nil.1 hsub)

end Reports

/-- The errors of the minimal report are among those of the runtime report, and these among those of
the strict one; the other parts of the reports differ no more than the profiles are meant to. -/
theorem reports_monotone {v : Validator} {d : Document} {minimal runtime aiFriendly strict : Report}
    (hminimal : v.report .minimal d = .ok minimal) (hruntime : v.report .runtime d = .ok runtime)
    (haiFriendly : v.report .aiFriendly d = .ok aiFriendly)
    (hstrict : v.report .strict d = .ok strict) :
    (minimal.errors.Sublist runtime.errors ∧ runtime.errors.Sublist strict.errors) ∧
      ((strict.valid = true → runtime.valid = true) ∧
        (runtime.valid = true → minimal.valid = true)) ∧
      (aiFriendly.errors = runtime.errors ∧ aiFriendly.warnings = runtime.warnings ∧
        aiFriendly.suggestions = runtime.suggestions) ∧
      strict.warnings = runtime.warnings ∧
      (minimal.statistics = runtime.statistics ∧ aiFriendly.statistics = runtime.statistics ∧
        strict.statistics = runtime.statistics) ∧
      minimal.warnings = [] := by
  -- All four reports are made of the same findings before and behind those on nodes.
  rcases exists_reports v d with ⟨before, behind, statistics, hall⟩
  rcases hall _ _ hminimal with ⟨fm, hfm, hm⟩
  rcases hall _ _ hruntime with ⟨fr, hfr, hr⟩
  rcases hall _ _ haiFriendly with ⟨fa, hfa, ha⟩
  rcases hall _ _ hstrict with ⟨fs, hfs, hs⟩
  have hfirst : minimal.errors.Sublist runtime.errors := by
    rw [hm.errors, hr.errors]
    simp only [Policy.errors_append]
    rw [Profile.errors_minimal before, Profile.errors_minimal behind]
    have hnodes := Scene.errors_findings_minimal hfm hfr
    exact ((List.Sublist.refl _).append hnodes).append (List.Sublist.refl _)
  rcases Scene.findings_strict hfr hfs with ⟨herrors, hwarnings⟩
  have hsecond : runtime.errors.Sublist strict.errors := by
    have hmatters : runtime.errors = strict.errors.filter Issue.matters := by
      rw [hr.errors, hs.errors]
      simp only [Policy.errors_append, List.filter_append, herrors, Profile.errors_runtime before,
        Profile.errors_runtime behind]
    rw [hmatters]
    exact List.filter_sublist
  rcases Scene.findings_aiFriendly hfr hfa with ⟨hissues, hsuggestions⟩
  refine ⟨⟨hfirst, hsecond⟩, ⟨hr.valid_of_sublist hs hsecond, hm.valid_of_sublist hr hfirst⟩,
    ⟨?_, ?_, ?_⟩, ?_, ⟨?_, ?_, ?_⟩, ?_⟩
  · rw [ha.errors, hr.errors, hissues]
    rfl
  · rw [ha.warnings, hr.warnings, hissues]
    rfl
  · rw [ha.suggestions, hr.suggestions, hsuggestions]
  · rw [hs.warnings, hr.warnings]
    simp only [Policy.warnings_append, hwarnings, Profile.warnings_runtime]
  · rw [hm.statistics, hr.statistics]
  · rw [ha.statistics, hr.statistics]
  · rw [hs.statistics, hr.statistics]
  · rw [hm.warnings, Profile.warnings_minimal]

/-- A catalog of one type, whose nodes are to set fields. -/
def setTypes : Validator where
  catalog := .ofTypes "1" [{ name := "n8n-nodes-base.set" }]

/-- A node of an unknown type behind one that sets no fields and has an error policy that does not
exist. -/
def flawed : Document where
  nodes :=
    [{ id := "1", name := "A", type := "n8n-nodes-base.set", onError := some "never" },
      { id := "2", name := "B", type := "n8n-nodes-base.none" }]
  connections := [("A", [("main", [some [⟨"B", "main", 0⟩]])])]

/-- One error counts in any case, one as the rules run, and one as a matter of style. -/
theorem flawed_monotone :
    ∃ minimal runtime aiFriendly strict,
      setTypes.report .minimal flawed = .ok minimal ∧
      setTypes.report .runtime flawed = .ok runtime ∧
      setTypes.report .aiFriendly flawed = .ok aiFriendly ∧
      setTypes.report .strict flawed = .ok strict ∧
      minimal.errors.length = 1 ∧ runtime.errors.length = 2 ∧ strict.errors.length = 3 ∧
      minimal.errors.Sublist runtime.errors ∧ runtime.errors.Sublist strict.errors ∧
      strict.warnings = runtime.warnings := by
  have hcount : ∀ profile count, ((setTypes.report profile flawed).toOption.any
      fun r => r.errors.length == count) = true →
      ∃ r, setTypes.report profile flawed = .ok r ∧ r.errors.length = count := by
    intro profile count h
    rcases exists_report h with ⟨r, hr, hlength⟩
    exact ⟨r, hr, by simpa using hlength⟩
  rcases hcount .minimal 1 (by decide +kernel) with ⟨minimal, hminimal, hone⟩
  rcases hcount .runtime 2 (by decide +kernel) with ⟨runtime, hruntime, htwo⟩
  rcases hcount .aiFriendly 2 (by decide +kernel) with ⟨aiFriendly, haiFriendly, -⟩
  rcases hcount .strict 3 (by decide +kernel) with ⟨strict, hstrict, hthree⟩
  have h := reports_monotone hminimal hruntime haiFriendly hstrict
  exact ⟨minimal, runtime, aiFriendly, strict, hminimal, hruntime, haiFriendly, hstrict, hone, htwo,
    hthree, h.1.1, h.1.2, h.2.2.2.1⟩

end Validator

end Workflows
