import Workflows.Proofs.Validation.Codes

/-!
# Filed — what becomes of findings in a report

A report is made of the findings of all checks, one after the other, of which its policy drops some
and raises others. Since a policy changes neither the code of a finding nor the node it is
attributed to, the errors with certain codes, or about certain nodes, are what the policy makes of
the findings with these codes, or about these nodes.

Main definitions:

* `Scene.allIssues` — the findings of all checks in the order of the report;
* `Validator.report_eq_ok_iff` — from findings to the report, and back;
* `Validator.faulty_errors` — the errors about links come from the check of links.
-/

namespace Workflows

namespace Policy

variable {p : Policy} {issues : List Issue} {test : Issue → Bool}

/-- Where a test has the same outcome after the policy as before, it is the same to test before. -/
theorem filterMap_apply_filter (h : ∀ i j, p.apply i = some j → test j = test i) :
    (issues.filter test).filterMap p.apply = (issues.filterMap p.apply).filter test := by
  induction issues with
  | nil => rfl
  | cons i rest ih =>
    cases happly : p.apply i with
    | none =>
      rw [List.filterMap_cons_none happly, ← ih]
      cases htest : test i with
      | true => rw [List.filter_cons_of_pos htest, List.filterMap_cons_none happly]
      | false => rw [List.filter_cons_of_neg (by simp [htest])]
    | some j =>
      have hsame : test j = test i := h i j happly
      rw [List.filterMap_cons_some happly]
      cases htest : test i with
      | true =>
        have hkept : test j = true := hsame.trans htest
        rw [List.filter_cons_of_pos htest, List.filterMap_cons_some happly]
        rw [List.filter_cons_of_pos hkept, ih]
      | false =>
        have hdropped : ¬ test j = true := by simp [hsame, htest]
        rw [List.filter_cons_of_neg (by simp [htest]), List.filter_cons_of_neg hdropped, ih]

/-- A test that no matter of style passes has the same outcome after the policy as before. -/
theorem test_apply_of_not_style (h : ∀ i : Issue, i.category = .style → test i = false)
    {i j : Issue} (happly : p.apply i = some j) : test j = test i := by
  by_cases hstyle : i.category = .style
  · have hstyle' : j.category = .style := (category_apply happly).1.trans hstyle
    rw [h i hstyle, h j hstyle']
  · have hkeep : p.keep i = some j := by simpa [apply, hstyle] using happly
    rw [keep_eq_some hkeep]

/-- A test that a policy does not disturb picks the same errors before and after it. -/
theorem errors_filter (h : ∀ i j, p.apply i = some j → test j = test i) :
    p.errors (issues.filter test) = (p.errors issues).filter test := by
  calc
    p.errors (issues.filter test)
        = ((issues.filterMap p.apply).filter test).filter Issue.isError := by
          rw [errors, filterMap_apply_filter h]
    _ = (p.errors issues).filter test := List.filter_comm _ _ _

/-- A test that a policy does not disturb picks the same warnings before and after it. -/
theorem warnings_filter (h : ∀ i j, p.apply i = some j → test j = test i) :
    p.warnings (issues.filter test) = (p.warnings issues).filter test := by
  calc
    p.warnings (issues.filter test)
        = ((issues.filterMap p.apply).filter test).filter fun i => i.severity == .warning := by
          rw [warnings, filterMap_apply_filter h]
    _ = (p.warnings issues).filter test := List.filter_comm _ _ _

/-- The errors with some codes are the errors of the issues with these codes. -/
theorem errors_filter_hasCode (codes : List String) :
    p.errors (issues.filter (Issue.hasCode codes)) =
      (p.errors issues).filter (Issue.hasCode codes) := by
  refine errors_filter ?_
  intro i j happly
  have hcode : j.code = i.code := (category_apply happly).2
  simp only [Issue.hasCode, hcode]

/-- The warnings with some codes are the warnings of the issues with these codes. -/
theorem warnings_filter_hasCode (codes : List String) :
    p.warnings (issues.filter (Issue.hasCode codes)) =
      (p.warnings issues).filter (Issue.hasCode codes) := by
  refine warnings_filter ?_
  intro i j happly
  have hcode : j.code = i.code := (category_apply happly).2
  simp only [Issue.hasCode, hcode]

/-- Errors that are more than matters of style are reported as they are. -/
theorem errors_eq_self (h : ∀ i ∈ issues, i.isError = true ∧ i.category ≠ .style) :
    p.errors issues = issues := by
  have happly : ∀ i ∈ issues, p.apply i = some i := by
    intro i hi
    simp [apply, keep, h i hi]
  have herrors : ∀ i ∈ issues, Issue.isError i = true := by
    intro i hi
    exact (h i hi).1
  calc
    p.errors issues
        = issues.filter Issue.isError := by rw [errors, filterMap_apply happly]
    _ = issues := List.filter_eq_self.2 herrors

/-- So are warnings, where warnings are kept. -/
theorem warnings_eq_self (hkeep : p.keepWarnings = true)
    (h : ∀ i ∈ issues, i.severity = .warning ∧ i.category ≠ .style) :
    p.warnings issues = issues := by
  have happly : ∀ i ∈ issues, p.apply i = some i := by
    intro i hi
    simp [apply, keep, hkeep, h i hi]
  have hwarnings : ∀ i ∈ issues, (i.severity == .warning) = true := by
    intro i hi
    exact beq_iff_eq.2 (h i hi).1
  calc
    p.warnings issues
        = issues.filter fun i => i.severity == .warning := by
          rw [warnings, filterMap_apply happly]
    _ = issues := List.filter_eq_self.2 hwarnings

/-- What is an error already is not reported as a warning. -/
theorem warnings_eq_nil (h : ∀ i ∈ issues, i.isError = true) : p.warnings issues = [] := by
  refine List.filter_eq_nil_iff.2 ?_
  intro j hj hwarning
  rcases List.mem_filterMap.1 hj with ⟨i, hi, happly⟩
  have herror : i.severity = .error := beq_iff_eq.1 (h i hi)
  rcases apply_eq_some happly with rfl | rfl
  · simp [herror] at hwarning
  · simp at hwarning

end Policy

namespace Scene

def allIssues (s : Scene) (settings : Settings) (nodes : NodeFindings) (texts : TextFindings) :
    List Issue :=
  s.structureIssues ++ nodes.issues ++ s.wiring.issues ++ s.shapeIssues settings s.wiring
    ++ texts.issues

variable {s : Scene} {profile : Profile} {settings : Settings} {nodes : NodeFindings}
  {texts : TextFindings}

section Codes

variable (hnodes : s.allNodeFindings profile = .ok nodes)
  (htexts : s.textFindings settings s.wiring = .ok texts)

include hnodes htexts

/-- Only the check of links uses the codes of links that are not valid. -/
theorem allIssues_filter_faultCodes :
    (s.allIssues settings nodes texts).filter (Issue.hasCode faultCodes) =
      s.wiring.issues.filter (Issue.hasCode faultCodes) := by
  have hstructure : s.structureIssues.filter (Issue.hasCode faultCodes) = [] :=
    Issue.filter_hasCode_eq_nil (code_structureIssues s) (by decide)
  have hnode : nodes.issues.filter (Issue.hasCode faultCodes) = [] :=
    Issue.filter_hasCode_eq_nil (code_findingsOf hnodes) (by decide)
  have hshape : (s.shapeIssues settings s.wiring).filter (Issue.hasCode faultCodes) = [] :=
    Issue.filter_hasCode_eq_nil (code_shapeIssues s settings s.wiring) (by decide)
  have htext : texts.issues.filter (Issue.hasCode faultCodes) = [] :=
    Issue.filter_hasCode_eq_nil (code_textFindingsOf htexts) (by decide)
  simp only [allIssues, List.filter_append, hstructure, hnode, hshape, htext, List.nil_append,
    List.append_nil]

/-- Codes that no other checks use are left to the checks of the graph. -/
theorem allIssues_filter_of_shape {codes : List String}
    (hothers : ∀ code ∈ structureCodes ++ nodeCodes ++ (faultCodes ++ remarkCodes) ++ textCodes,
      code ∉ codes) :
    (s.allIssues settings nodes texts).filter (Issue.hasCode codes) =
      (s.shapeIssues settings s.wiring).filter (Issue.hasCode codes) := by
  rw [List.forall_mem_append, List.forall_mem_append, List.forall_mem_append] at hothers
  rcases hothers with ⟨⟨⟨hstructure, hnode⟩, hlink⟩, htext⟩
  have hnoStructure : s.structureIssues.filter (Issue.hasCode codes) = [] :=
    Issue.filter_hasCode_eq_nil (code_structureIssues s) hstructure
  have hnoNode : nodes.issues.filter (Issue.hasCode codes) = [] :=
    Issue.filter_hasCode_eq_nil (code_findingsOf hnodes) hnode
  have hnoLink : s.wiring.issues.filter (Issue.hasCode codes) = [] :=
    Issue.filter_hasCode_eq_nil (code_wiring s) hlink
  have hnoText : texts.issues.filter (Issue.hasCode codes) = [] :=
    Issue.filter_hasCode_eq_nil (code_textFindingsOf htexts) htext
  simp only [allIssues, List.filter_append, hnoStructure, hnoNode, hnoLink, hnoText,
    List.nil_append, List.append_nil]

/-- Only the check of cycles uses its codes. -/
theorem allIssues_filter_cycleCodes :
    (s.allIssues settings nodes texts).filter (Issue.hasCode Issue.cycleCodes) =
      s.cycleIssues (s.mainGraph s.wiring) := by
  let g := s.mainGraph s.wiring
  have horphans : (s.orphanIssues s.wiring).filter (Issue.hasCode Issue.cycleCodes) = [] :=
    Issue.filter_hasCode_eq_nil (code_orphanIssues s s.wiring) (by decide)
  have hcycles : (s.cycleIssues g).filter (Issue.hasCode Issue.cycleCodes) = s.cycleIssues g := by
    refine List.filter_eq_self.2 ?_
    intro i hi
    exact Issue.hasCode_iff.2 (code_cycleIssues s g i hi)
  have hloops : (s.loopIssues settings g).filter (Issue.hasCode Issue.cycleCodes) = [] :=
    Issue.filter_hasCode_eq_nil (code_loopIssues s settings g) (by decide)
  have hchains : (chainIssues settings g).filter (Issue.hasCode Issue.cycleCodes) = [] :=
    Issue.filter_hasCode_eq_nil (code_chainIssues settings g) (by decide)
  rw [allIssues_filter_of_shape hnodes htexts (by decide)]
  simp only [shapeIssues, List.filter_append, horphans, hcycles, hloops, hchains,
    List.nil_append, List.append_nil, g]

/-- Only the check of loop nodes uses its codes. -/
theorem allIssues_filter_loopCodes :
    (s.allIssues settings nodes texts).filter (Issue.hasCode loopCodes) =
      s.loopIssues settings (s.mainGraph s.wiring) := by
  let g := s.mainGraph s.wiring
  have horphans : (s.orphanIssues s.wiring).filter (Issue.hasCode loopCodes) = [] :=
    Issue.filter_hasCode_eq_nil (code_orphanIssues s s.wiring) (by decide)
  have hcycles : (s.cycleIssues g).filter (Issue.hasCode loopCodes) = [] :=
    Issue.filter_hasCode_eq_nil (code_cycleIssues s g) (by decide)
  have hloops : (s.loopIssues settings g).filter (Issue.hasCode loopCodes) =
      s.loopIssues settings g := by
    refine List.filter_eq_self.2 ?_
    intro i hi
    exact Issue.hasCode_iff.2 (code_loopIssues s settings g i hi)
  have hchains : (chainIssues settings g).filter (Issue.hasCode loopCodes) = [] :=
    Issue.filter_hasCode_eq_nil (code_chainIssues settings g) (by decide)
  rw [allIssues_filter_of_shape hnodes htexts (by decide)]
  simp only [shapeIssues, List.filter_append, horphans, hcycles, hloops, hchains,
    List.nil_append, List.append_nil, g]

/-- Only the check of chains uses its code. -/
theorem allIssues_filter_chainCodes :
    (s.allIssues settings nodes texts).filter (Issue.hasCode chainCodes) =
      chainIssues settings (s.mainGraph s.wiring) := by
  let g := s.mainGraph s.wiring
  have horphans : (s.orphanIssues s.wiring).filter (Issue.hasCode chainCodes) = [] :=
    Issue.filter_hasCode_eq_nil (code_orphanIssues s s.wiring) (by decide)
  have hcycles : (s.cycleIssues g).filter (Issue.hasCode chainCodes) = [] :=
    Issue.filter_hasCode_eq_nil (code_cycleIssues s g) (by decide)
  have hloops : (s.loopIssues settings g).filter (Issue.hasCode chainCodes) = [] :=
    Issue.filter_hasCode_eq_nil (code_loopIssues s settings g) (by decide)
  have hchains : (chainIssues settings g).filter (Issue.hasCode chainCodes) =
      chainIssues settings g := by
    refine List.filter_eq_self.2 ?_
    intro i hi
    exact Issue.hasCode_iff.2 (code_chainIssues settings g i hi)
  rw [allIssues_filter_of_shape hnodes htexts (by decide)]
  simp only [shapeIssues, List.filter_append, horphans, hcycles, hloops, hchains,
    List.nil_append, g]

end Codes

/-- Only the check of expressions uses its codes. -/
theorem allIssues_filter_textCodes {codes : List String}
    (hnodes : s.allNodeFindings profile = .ok nodes)
    (hcodes : ∀ code ∈ codes, code ∈ textCodes) :
    (s.allIssues settings nodes texts).filter (Issue.hasCode codes) =
      texts.issues.filter (Issue.hasCode codes) := by
  have hothers : ∀ code ∈ structureCodes ++ nodeCodes ++ (faultCodes ++ remarkCodes) ++
      (shapeCodes ++ Issue.cycleCodes), code ∉ codes := by
    have hapart : ∀ code ∈ structureCodes ++ nodeCodes ++ (faultCodes ++ remarkCodes) ++
        (shapeCodes ++ Issue.cycleCodes), code ∉ textCodes := by decide
    intro code hcode hmem
    exact hapart code hcode (hcodes code hmem)
  rw [List.forall_mem_append, List.forall_mem_append, List.forall_mem_append] at hothers
  rcases hothers with ⟨⟨⟨hstructure, hnode⟩, hlink⟩, hshape⟩
  have hnoStructure : s.structureIssues.filter (Issue.hasCode codes) = [] :=
    Issue.filter_hasCode_eq_nil (code_structureIssues s) hstructure
  have hnoNode : nodes.issues.filter (Issue.hasCode codes) = [] :=
    Issue.filter_hasCode_eq_nil (code_findingsOf hnodes) hnode
  have hnoLink : s.wiring.issues.filter (Issue.hasCode codes) = [] :=
    Issue.filter_hasCode_eq_nil (code_wiring s) hlink
  have hnoShape : (s.shapeIssues settings s.wiring).filter (Issue.hasCode codes) = [] :=
    Issue.filter_hasCode_eq_nil (code_shapeIssues s settings s.wiring) hshape
  simp only [allIssues, List.filter_append, hnoStructure, hnoNode, hnoLink, hnoShape,
    List.nil_append]

/-- Codes that no other checks use are left to the check of nodes. -/
theorem allIssues_filter_of_nodes {codes : List String}
    (htexts : s.textFindings settings s.wiring = .ok texts)
    (hothers : ∀ code ∈ structureCodes ++ (faultCodes ++ remarkCodes) ++
      (shapeCodes ++ Issue.cycleCodes) ++ textCodes, code ∉ codes) :
    (s.allIssues settings nodes texts).filter (Issue.hasCode codes) =
      nodes.issues.filter (Issue.hasCode codes) := by
  rw [List.forall_mem_append, List.forall_mem_append, List.forall_mem_append] at hothers
  rcases hothers with ⟨⟨⟨hstructure, hlink⟩, hshape⟩, htext⟩
  have hnoStructure : s.structureIssues.filter (Issue.hasCode codes) = [] :=
    Issue.filter_hasCode_eq_nil (code_structureIssues s) hstructure
  have hnoLink : s.wiring.issues.filter (Issue.hasCode codes) = [] :=
    Issue.filter_hasCode_eq_nil (code_wiring s) hlink
  have hnoShape : (s.shapeIssues settings s.wiring).filter (Issue.hasCode codes) = [] :=
    Issue.filter_hasCode_eq_nil (code_shapeIssues s settings s.wiring) hshape
  have hnoText : texts.issues.filter (Issue.hasCode codes) = [] :=
    Issue.filter_hasCode_eq_nil (code_textFindingsOf htexts) htext
  simp only [allIssues, List.filter_append, hnoStructure, hnoLink, hnoShape, hnoText,
    List.nil_append, List.append_nil]

end Scene

namespace Validator

variable {v : Validator} {d : Document} {profile : Profile} {r : Report}

/-! ## From findings to the report -/

section ReportOf

variable (profile : Profile) (settings : Settings) (s : Scene) (nodes : NodeFindings)
  (texts : TextFindings)

/-- The errors of a report are the errors that the policy makes of all issues. -/
theorem errors_reportOf :
    (reportOf profile settings s nodes texts).errors =
      profile.policy.errors (s.allIssues settings nodes texts) := by
  rw [reportOf, fileIssues, Report.errors_addAll]
  rfl

/-- The warnings of a report are the warnings that the policy makes of all issues. -/
theorem warnings_reportOf :
    (reportOf profile settings s nodes texts).warnings =
      profile.policy.warnings (s.allIssues settings nodes texts) := by
  rw [reportOf, fileIssues, Report.warnings_addAll]
  rfl

/-- The statistics of a report are those of the scene. -/
theorem statistics_reportOf :
    (reportOf profile settings s nodes texts).statistics = statistics s s.wiring texts := by
  rw [reportOf, fileIssues, Report.statistics_addAll]

/-- A report is valid if it has no errors. -/
theorem valid_reportOf :
    (reportOf profile settings s nodes texts).valid =
      (profile.policy.errors (s.allIssues settings nodes texts)).isEmpty := by
  rw [reportOf, fileIssues, Report.valid_addAll]
  rfl

/-- The notes of a report are those of the nodes, and the issues that are mere information. -/
theorem notes_reportOf :
    (reportOf profile settings s nodes texts).notes =
      nodes.notes ++
        (((s.allIssues settings nodes texts).filterMap profile.policy.apply).filter
          fun i => i.severity == .info).map fun i => i.location ++ ": " ++ i.message := by
  rw [reportOf, fileIssues, Report.notes_addAll]
  rfl

end ReportOf

/-- From the same findings on single nodes, scenes get the same report if the policy makes the same of
all findings, and if they have the same statistics. -/
theorem reportOf_eq_of_reported {s s' : Scene} {profile : Profile} {settings : Settings}
    {nodes : NodeFindings} {texts : TextFindings}
    (hissues : (s'.allIssues settings nodes texts).filterMap profile.policy.apply =
      (s.allIssues settings nodes texts).filterMap profile.policy.apply)
    (hstatistics : statistics s' s'.wiring texts = statistics s s.wiring texts) :
    reportOf profile settings s' nodes texts = reportOf profile settings s nodes texts := by
  have hopen : ∀ t : Scene, reportOf profile settings t nodes texts =
      Report.addAll
        { profile := profile.word
          suggestions := nodes.suggestions
          notes := nodes.notes
          statistics := statistics t t.wiring texts }
        ((t.allIssues settings nodes texts).filterMap profile.policy.apply) := fun _ => rfl
  rw [hopen, hopen, hissues, hstatistics]

/-- A document with nodes has a report exactly if there are findings about all its nodes and
expressions. -/
theorem report_eq_ok_iff (hnodes : d.nodes ≠ []) :
    v.report profile d = .ok r ↔
      ∃ nodes texts, (v.scene d).allNodeFindings profile = .ok nodes ∧
        (v.scene d).textFindings v.settings (v.scene d).wiring = .ok texts ∧
        reportOf profile v.settings (v.scene d) nodes texts = r := by
  have hfilled : d.nodes.isEmpty = false := List.isEmpty_eq_false_iff.2 hnodes
  simp only [report, hfilled]
  cases (v.scene d).allNodeFindings profile with
  | error e => simp
  | ok nodes =>
    cases (v.scene d).textFindings v.settings (v.scene d).wiring with
    | error e => simp
    | ok texts => simp

/-- A document without nodes is said to be empty, and nothing else. -/
theorem issues_of_empty (hnodes : d.nodes = []) (h : v.report profile d = .ok r) :
    r.errors = profile.policy.errors [emptyWorkflow] ∧
      r.warnings = profile.policy.warnings [emptyWorkflow] := by
  have hempty : r = fileIssues profile [emptyWorkflow] { profile := profile.word } := by
    simpa [report, hnodes] using h.symm
  rw [hempty]
  constructor
  · rw [fileIssues, Report.errors_addAll]
    rfl
  · rw [fileIssues, Report.warnings_addAll]
    rfl

/-! ## Counts -/

/-- The number of valid links is that of the wiring. -/
theorem validConnections_of_report (hnodes : d.nodes ≠ []) (h : v.report profile d = .ok r) :
    r.statistics.validConnections = (v.scene d).wiring.valid.length := by
  rcases (report_eq_ok_iff hnodes).1 h with ⟨nodes, texts, -, -, rfl⟩
  rw [statistics_reportOf]
  rfl

/-- The number of invalid links is that of the wiring. -/
theorem invalidConnections_of_nodes (hnodes : d.nodes ≠ []) (h : v.report profile d = .ok r) :
    r.statistics.invalidConnections = (v.scene d).wiring.invalid := by
  have hfilled : ¬ d.nodes.isEmpty = true := by simpa using hnodes
  rw [invalidConnections_of_report h, invalidConnections, if_neg hfilled]

/-! ## Errors with certain codes -/

/-- The errors about links that are not valid are what the check of links finds. -/
theorem faulty_errors (hnodes : d.nodes ≠ []) (h : v.report profile d = .ok r) :
    r.errors.filter (Issue.hasCode Scene.faultCodes) =
      profile.policy.errors
        ((v.scene d).wiring.issues.filter (Issue.hasCode Scene.faultCodes)) := by
  rcases (report_eq_ok_iff hnodes).1 h with ⟨nodes, texts, hfound, htexts, rfl⟩
  let s := v.scene d
  calc
    (reportOf profile v.settings s nodes texts).errors.filter (Issue.hasCode Scene.faultCodes)
        = (profile.policy.errors (s.allIssues v.settings nodes texts)).filter
            (Issue.hasCode Scene.faultCodes) := by rw [errors_reportOf]
    _ = profile.policy.errors
          ((s.allIssues v.settings nodes texts).filter (Issue.hasCode Scene.faultCodes)) :=
        (Policy.errors_filter_hasCode Scene.faultCodes).symm
    _ = profile.policy.errors (s.wiring.issues.filter (Issue.hasCode Scene.faultCodes)) := by
        rw [Scene.allIssues_filter_faultCodes hfound htexts]

end Validator
end Workflows
