import Workflows.Proofs.Edit.InOrder
import Workflows.Proofs.TypeName
import Workflows.Proofs.Validation.Filed

/-!
# TypeForms — the forms of type names, and what is said of them

Going over from one form of a name to the other does not lose anything: a name has one full form and
one short form, whichever it is given in. Documents may use no short names. This is checked when a
node is added or gets another type, and again in every report, where it is the beginning of a name
that counts; both refuse the same names.

Main definitions:

* `Report.misnamed` — what a report says of short names;
* `Validator.misnamed_of_report` — the nodes of which it is said;
* `TypeName.forms_consistent` — the forms of a name, and where they are accepted.
-/

namespace Workflows

/-- The findings on names in the form that only catalogs use. -/
def Report.misnamed (r : Report) : List Issue :=
  (r.errors ++ r.warnings).filter (Issue.hasCode ["invalid_type_prefix"])

namespace Scene

/-- The node is checked, and its type begins like a short name. -/
def misnames (n : Node) : Bool :=
  !n.disabled && beginsShort n

/-- Reports and editors go by the same names. -/
theorem misnames_eq (n : Node) : misnames n = (!n.disabled && TypeName.isShortForm n.type) := by
  rw [misnames, beginsShort_eq]

/-- The finding tells the name. -/
theorem type_eq_of_shortTypeIssue {n m : Node} (h : shortTypeIssue n = shortTypeIssue m) :
    n.type = m.type := by
  have hsuggested := congrArg Issue.suggested h
  have hmessage := congrArg Issue.message h
  have hfull : TypeName.denormalize n.type = TypeName.denormalize m.type := Value.str.inj hsuggested
  simp only [shortTypeIssue, Issue.onNode, Issue.error, hfull] at hmessage
  simpa [← String.toList_inj] using hmessage

variable {s : Scene} {profile : Profile}

/-- A finding on a short name is on each node that misnames its type, and on no other. -/
theorem filter_nodeFindings {n : Node} {f : NodeFindings} (h : s.nodeFindings profile n = .ok f) :
    f.issues.filter (Issue.hasCode ["invalid_type_prefix"]) =
      if misnames n then [shortTypeIssue n] else [] := by
  unfold nodeFindings at h
  by_cases hdisabled : n.disabled = true
  · rw [if_pos hdisabled] at h
    rw [← Except.ok.inj h, misnames, hdisabled]
    rfl
  · rw [if_neg hdisabled] at h
    by_cases hshort : beginsShort n = true
    · rw [if_pos hshort] at h
      rw [← Except.ok.inj h, misnames, hshort]
      simp [hdisabled, Issue.hasCode, shortTypeIssue]
    · rw [if_neg hshort] at h
      have hnone : ¬ misnames n = true := by simp [misnames, hshort]
      rw [if_neg hnone]
      cases htype : s.typeOf n with
      | none =>
        simp only [htype] at h
        rw [← Except.ok.inj h]
        simp [Issue.hasCode, unknownTypeIssue]
      | some t =>
        simp only [htype] at h
        exact Issue.filter_hasCode_eq_nil (fun i hi => (about_knownNodeFindings h i hi).2)
          (by decide)

/-- One finding is on each node that misnames its type. -/
theorem filter_findingsOf {ns : List Node} {f : NodeFindings}
    (h : s.findingsOf profile ns = .ok f) :
    f.issues.filter (Issue.hasCode ["invalid_type_prefix"]) =
      (ns.filter misnames).map shortTypeIssue := by
  induction ns generalizing f with
  | nil =>
    rw [← Except.ok.inj h]
    rfl
  | cons n rest ih =>
    rcases of_findingsOf_cons h with ⟨found, more, hfound, hmore, rfl⟩
    calc (found ++ more).issues.filter (Issue.hasCode ["invalid_type_prefix"])
        = found.issues.filter (Issue.hasCode ["invalid_type_prefix"]) ++
            more.issues.filter (Issue.hasCode ["invalid_type_prefix"]) := by
          rw [← List.filter_append]
          rfl
      _ = ((n :: rest).filter misnames).map shortTypeIssue := by
          rw [filter_nodeFindings hfound, ih hmore, List.filter_cons]
          split <;> rfl

end Scene

namespace Validator

variable {v : Validator} {profile : Profile} {d : Document} {r : Report}

/-- What the findings on short names are in a report: those of the checks, whatever the policy. -/
theorem misnamed_of_report (h : v.report profile d = .ok r) :
    r.misnamed = (d.nodes.filter Scene.misnames).map Scene.shortTypeIssue := by
  by_cases hnodes : d.nodes = []
  · rcases issues_of_empty hnodes h with ⟨herrors, hwarnings⟩
    rw [Report.misnamed, List.filter_append, herrors, hwarnings, ← Policy.errors_filter_hasCode,
      ← Policy.warnings_filter_hasCode, hnodes]
    rfl
  · rcases (report_eq_ok_iff hnodes).1 h with ⟨nodes, texts, hfound, htexts, rfl⟩
    have hissues : ((v.scene d).allIssues v.settings nodes texts).filter
        (Issue.hasCode ["invalid_type_prefix"]) =
          (d.nodes.filter Scene.misnames).map Scene.shortTypeIssue := by
      rw [Scene.allIssues_filter_of_nodes htexts (by decide)]
      exact Scene.filter_findingsOf hfound
    -- The findings are errors, which no policy drops.
    have herror : ∀ i ∈ (d.nodes.filter Scene.misnames).map Scene.shortTypeIssue,
        i.isError = true ∧ i.category ≠ .style := by
      intro i hi
      rcases List.mem_map.1 hi with ⟨n, -, rfl⟩
      exact ⟨rfl, by simp [Scene.shortTypeIssue, Issue.onNode, Issue.error]⟩
    rw [Report.misnamed, errors_reportOf, warnings_reportOf, List.filter_append,
      ← Policy.errors_filter_hasCode, ← Policy.warnings_filter_hasCode, hissues,
      Policy.errors_eq_self herror, Policy.warnings_eq_nil fun i hi => (herror i hi).1,
      List.append_nil]

/-- A node of which it is said that its name is short has a type that no document may use. -/
theorem formFault?_of_mem_misnamed (h : v.report profile d = .ok r) {n : Node}
    (hn : Scene.shortTypeIssue n ∈ r.misnamed) :
    TypeName.formFault? n.type = some (.shortForm n.type) := by
  rw [misnamed_of_report h] at hn
  rcases List.mem_map.1 hn with ⟨m, hm, hissue⟩
  have hmisnames := List.of_mem_filter hm
  rw [Scene.misnames_eq, Bool.and_eq_true, Scene.type_eq_of_shortTypeIssue hissue] at hmisnames
  exact TypeName.formFault?_of_isShortForm hmisnames.2

end Validator

namespace Draft

/-- A node is added only with a type that documents may use. -/
theorem formFault?_of_addNode {s s' : Draft} {n : NewNode} (h : s.addNode n = .ok s') :
    TypeName.formFault? n.type = none := by
  rcases exists_of_addNode h with ⟨-, hrefusal, -⟩
  unfold addNodeRefusal? at hrefusal
  split at hrefusal
  · exact absurd hrefusal (by simp)
  · split at hrefusal
    · exact absurd hrefusal (by simp)
    · exact Option.map_eq_none_iff.1 hrefusal

/-- A node gets no other type that documents may not use. -/
theorem formFault?_of_updateNode {d d' : Document} {reference : String}
    {changes : List (String × Value)} (h : updateNode d reference changes = .ok d') {n : Node}
    (hn : n ∈ d'.nodes) : (∃ m ∈ d.nodes, m.type = n.type) ∨ TypeName.formFault? n.type = none := by
  rcases updateNode_eq_ok.1 h with ⟨before, after, ⟨hbefore, trial, settled, rest, -, hafter⟩, rfl⟩
  rcases List.mem_map.1 hn with ⟨m, hm, rfl⟩
  split
  · rcases updated_eq_ok hafter with ⟨-, -, -, hfree, -⟩
    rcases (updateRefusal?_eq_none_iff.1 hfree).type with hsame | hform
    · exact Or.inl ⟨before, Document.mem_of_resolve hbefore, hsame.symm⟩
    · exact Or.inr hform
  · exact Or.inl ⟨m, hm, rfl⟩

end Draft

namespace TypeName

/-- Neither way of going over from one form to the other is different the second time, and each of
them undoes the other as far as the form is concerned. A name whose form is accepted is its own full
form, and no report finds fault with it. What reports find fault with are the types of the enabled
nodes that begin like short names, one after the other, and none of them is accepted: nodes that are
added, or get another type, have names of the accepted form. -/
theorem forms_consistent (type : String) :
    (normalize (normalize type) = normalize type ∧
      denormalize (denormalize type) = denormalize type ∧
      normalize (denormalize type) = normalize type ∧
      denormalize (normalize type) = denormalize type) ∧
    (formFault? type = none →
      denormalize (normalize type) = type ∧
        ∀ (v : Validator) (profile : Profile) (d : Document) (r : Report),
          v.report profile d = .ok r →
            ∀ n ∈ d.nodes, n.type = type → Scene.shortTypeIssue n ∉ r.misnamed) ∧
    (∀ (v : Validator) (profile : Profile) (d : Document) (r : Report),
      v.report profile d = .ok r →
        r.misnamed = (d.nodes.filter Scene.misnames).map Scene.shortTypeIssue ∧
          ∀ n, Scene.shortTypeIssue n ∈ r.misnamed →
            formFault? n.type = some (.shortForm n.type)) ∧
    (∀ (s s' : Draft) (n : NewNode), s.addNode n = .ok s' → formFault? n.type = none) ∧
    ∀ (d d' : Document) (reference : String) (changes : List (String × Value)),
      Draft.updateNode d reference changes = .ok d' →
        ∀ n ∈ d'.nodes, (∃ m ∈ d.nodes, m.type = n.type) ∨ formFault? n.type = none := by
  refine ⟨⟨normalize_normalize type, denormalize_denormalize type, normalize_denormalize_eq type,
    denormalize_normalize type⟩, fun hform => ⟨?_, ?_⟩, fun v profile d r hr => ⟨?_, ?_⟩,
    ?_, ?_⟩
  · rw [denormalize_normalize]
    exact denormalize_of_isShortForm_eq_false (isShortForm_of_formFault? hform)
  · rintro v profile d r hr n - rfl hn
    -- A finding on the node would be one on its name, which is not short.
    rw [Validator.formFault?_of_mem_misnamed hr hn] at hform
    exact absurd hform (by simp)
  · exact Validator.misnamed_of_report hr
  · intro n hn
    exact Validator.formFault?_of_mem_misnamed hr hn
  · intro s s' n hadded
    exact Draft.formFault?_of_addNode hadded
  · intro d d' reference changes hupdated n hn
    exact Draft.formFault?_of_updateNode hupdated hn

/-- Two nodes with one name and one id; the type of the second one is the full form of that of the
first. -/
def doublets : Document where
  nodes := [{ id := "1", name := "A", type := "nodes-base.set" },
    { id := "1", name := "A", type := "n8n-nodes-base.set" }]

/-- Only the first of the two nodes is found fault with. -/
theorem doublets_told_apart :
    formFault? "n8n-nodes-base.set" = none ∧
      denormalize (normalize "n8n-nodes-base.set") = "n8n-nodes-base.set" ∧
      ∃ r, Validator.report ⟨.ofTypes "" [], {}⟩ .runtime doublets = .ok r ∧
        r.misnamed.length = 1 ∧
        ∀ n ∈ doublets.nodes, n.type = "n8n-nodes-base.set" →
          Scene.shortTypeIssue n ∉ r.misnamed := by
  have hform : formFault? "n8n-nodes-base.set" = none := by decide +kernel
  have hanswer : (Validator.report ⟨.ofTypes "" [], {}⟩ .runtime doublets).toOption.isSome = true := by
    decide +kernel
  cases hr : Validator.report ⟨.ofTypes "" [], {}⟩ .runtime doublets with
  | error e => simp [hr, Except.toOption] at hanswer
  | ok r =>
    obtain ⟨-, hfull, hreports, -⟩ := forms_consistent "n8n-nodes-base.set"
    have hmisnamed := (hreports _ _ _ r hr).1
    refine ⟨hform, (hfull hform).1, r, rfl, ?_, (hfull hform).2 _ _ _ r hr⟩
    rw [hmisnamed]
    decide +kernel

end TypeName

end Workflows
