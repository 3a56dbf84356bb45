import Workflows.Proofs.Validation.Filed
import Workflows.Proofs.Validation.Outline

/-!
# Elsewhere — what one node holds is not reported of others

The checks of the whole document read no more of a node than its outline, and the checks of single
nodes attribute all that they find to the node that they look at. So when a node is replaced by one
with the same outline, what is reported of other nodes and of the document stays as it was, and so
do the numbers, except for the number of expressions. A disabled node is not looked into at all, and
there the whole report stays.

Main definitions:

* `Document.Replaces` — one node in the place of another;
* `Issue.isElsewhere` — findings that are not attributed to a node of a name;
* `Validator.report_replaced` — the two reports.
-/

namespace Workflows

/-- The second document has one node in the place of another, and the same links. -/
structure Document.Replaces (a a' : Node) (d d' : Document) : Prop where
  nodes : ∃ front back, d.nodes = front ++ a :: back ∧ d'.nodes = front ++ a' :: back
  connections : d'.connections = d.connections

/-- A node with its counterpart in the document in which one is replaced. -/
def Node.Becomes (a a' n n' : Node) : Prop :=
  n' = n ∨ (n = a ∧ n' = a')

/-! ## Findings elsewhere -/

namespace Issue

/-- Whether a finding is attributed to no node, or to one with another name. -/
def isElsewhere (name : String) (i : Issue) : Bool :=
  i.nodeName != some name

/-- Findings that are the same up to those that are attributed to the nodes with a name. -/
def AgreeElsewhere (name : String) (issues issues' : List Issue) : Prop :=
  issues.filter (isElsewhere name) = issues'.filter (isElsewhere name)

variable {issues issues' others others' : List Issue}

theorem AgreeElsewhere.refl (name : String) (issues : List Issue) :
    AgreeElsewhere name issues issues :=
  rfl

/-- Findings agree elsewhere if the parts of them do. -/
theorem AgreeElsewhere.append {name : String} (h : AgreeElsewhere name issues issues')
    (hothers : AgreeElsewhere name others others') :
    AgreeElsewhere name (issues ++ others) (issues' ++ others') := by
  simp only [AgreeElsewhere, List.filter_append]
  exact congrArg₂ (· ++ ·) h hothers

/-- Elsewhere, findings about a node agree with any others about a node of its name. -/
theorem agreeElsewhere_of_about {n n' : Node} {codes : List String} (hname : n'.name = n.name)
    (h : ∀ i ∈ issues, i.IsAbout n codes) (h' : ∀ i ∈ issues', i.IsAbout n' codes) :
    AgreeElsewhere n.name issues issues' := by
  have hnone : issues.filter (isElsewhere n.name) = [] := by
    refine List.filter_eq_nil_iff.2 ?_
    intro i hi
    simp [isElsewhere, (h i hi).1]
  have hnone' : issues'.filter (isElsewhere n.name) = [] := by
    refine List.filter_eq_nil_iff.2 ?_
    intro i hi
    simp [isElsewhere, (h' i hi).1, hname]
  exact hnone.trans hnone'.symm

/-- Policies do not attribute findings to other nodes. -/
theorem isElsewhere_apply {name : String} {p : Policy} (i j : Issue) (h : p.apply i = some j) :
    j.isElsewhere name = i.isElsewhere name := by
  rw [isElsewhere, isElsewhere, Policy.nodeName_apply h]

end Issue

namespace Document.Replaces

variable {a a' : Node} {d d' : Document}

/-- Each node becomes one of the other document, at the same place. -/
theorem becomes (h : d.Replaces a a' d') : List.Forall₂ (Node.Becomes a a') d.nodes d'.nodes := by
  have hkept : ∀ ns : List Node, List.Forall₂ (Node.Becomes a a') ns ns := by
    intro ns
    exact List.forall₂_same.2 fun n _ => Or.inl rfl
  rcases h.nodes with ⟨front, back, hnodes, hnodes'⟩
  rw [hnodes, hnodes']
  exact List.rel_append (hkept front) (.cons (Or.inr ⟨rfl, rfl⟩) (hkept back))

/-- The outline stays if the two nodes have the same one. -/
theorem outline (h : d.Replaces a a' d') (hsame : a'.outline = a.outline) :
    d'.outline = d.outline := by
  rcases h.nodes with ⟨front, back, hnodes, hnodes'⟩
  simp only [Document.outline, hnodes, hnodes', List.map_append, List.map_cons, hsame,
    h.connections]

end Document.Replaces

/-! ## Two scenes -/

namespace Scene

variable {s s' : Scene} {a a' n n' : Node}

/-- Nodes with the same outline execute in both scenes or in none. -/
theorem executes_of_outline (houtline : s'.outline = s.outline)
    (hnode : n'.outline = n.outline) : s'.executes n' = s.executes n := by
  calc s'.executes n' = s'.outline.executes n'.outline := (executes_outline s' n').symm
    _ = s.outline.executes n.outline := by rw [houtline, hnode]
    _ = s.executes n := executes_outline s n

/-- A node becomes one with its own outline. -/
theorem becomes_outline (hsame : a'.outline = a.outline) (h : Node.Becomes a a' n n') :
    n'.outline = n.outline := by
  rcases h with rfl | ⟨rfl, rfl⟩
  · rfl
  · exact hsame

theorem name_of_outline (hsame : a'.outline = a.outline) : a'.name = a.name := by
  have hname : a'.outline.name = a.outline.name := by rw [hsame]
  exact hname

section Replaced

variable (houtline : s'.outline = s.outline) (hsame : a'.outline = a.outline)

include houtline hsame

/-- The nodes that execute are the same, up to the one that is replaced. -/
theorem becomes_executing (h : List.Forall₂ (Node.Becomes a a') s.nodes s'.nodes) :
    List.Forall₂ (Node.Becomes a a') s.executing s'.executing := by
  refine List.rel_filter ?_ h
  intro n n' hn
  have hexecutes : s'.executes n' = s.executes n :=
    executes_of_outline houtline (becomes_outline hsame hn)
  exact iff_of_eq (congrArg (· = true) hexecutes.symm)

/-- The findings on a node and on what it becomes agree elsewhere. -/
theorem nodeFindings_elsewhere {profile : Profile} {f f' : NodeFindings}
    (h : Node.Becomes a a' n n') (hf : s.nodeFindings profile n = .ok f)
    (hf' : s'.nodeFindings profile n' = .ok f') :
    Issue.AgreeElsewhere a.name f.issues f'.issues := by
  rcases h with rfl | ⟨rfl, rfl⟩
  · rw [nodeFindings_of_catalog (catalog_of_outline houtline) n'] at hf'
    rw [Except.ok.inj (hf.symm.trans hf')]
    exact .refl _ _
  · exact Issue.agreeElsewhere_of_about (name_of_outline hsame) (about_nodeFindings hf)
      (about_nodeFindings hf')

/-- The findings on the expressions of a node and of what it becomes agree elsewhere. -/
theorem nodeTextFindings_elsewhere {depth : Number} {w : Wiring} {f f' : TextFindings}
    (h : Node.Becomes a a' n n') (hf : s.nodeTextFindings depth w n = .ok f)
    (hf' : s'.nodeTextFindings depth w n' = .ok f') :
    Issue.AgreeElsewhere a.name f.issues f'.issues := by
  rcases h with rfl | ⟨rfl, rfl⟩
  · rw [nodeTextFindings_of_catalog (catalog_of_outline houtline) (names_congr houtline) n'] at hf'
    rw [Except.ok.inj (hf.symm.trans hf')]
    exact .refl _ _
  · exact Issue.agreeElsewhere_of_about (name_of_outline hsame) (about_nodeTextFindings hf)
      (about_nodeTextFindings hf')

/-- The findings on all nodes agree elsewhere. -/
theorem findingsOf_elsewhere {profile : Profile} {ns ns' : List Node} {f f' : NodeFindings}
    (h : List.Forall₂ (Node.Becomes a a') ns ns') (hf : s.findingsOf profile ns = .ok f)
    (hf' : s'.findingsOf profile ns' = .ok f') :
    Issue.AgreeElsewhere a.name f.issues f'.issues := by
  refine rel_findingsOf (fun f f' => Issue.AgreeElsewhere a.name f.issues f'.issues)
    (.refl _ _) ?_ ?_ hf hf'
  · intro f g f' g' hfirst hothers
    simp only [issues_append]
    exact hfirst.append hothers
  · exact h.imp fun n n' hn f f' => nodeFindings_elsewhere houtline hsame hn

/-- The findings on all expressions agree elsewhere. -/
theorem textFindingsOf_elsewhere {depth : Number} {w : Wiring} {ns ns' : List Node}
    {f f' : TextFindings} (h : List.Forall₂ (Node.Becomes a a') ns ns')
    (hf : s.textFindingsOf depth w ns = .ok f) (hf' : s'.textFindingsOf depth w ns' = .ok f') :
    Issue.AgreeElsewhere a.name f.issues f'.issues := by
  refine rel_textFindingsOf (fun f f' => Issue.AgreeElsewhere a.name f.issues f'.issues)
    (.refl _ _) ?_ ?_ hf hf'
  · intro f g f' g' hfirst hothers
    simp only [TextFindings.issues_append]
    exact hfirst.append hothers
  · exact h.imp fun n n' hn f f' => nodeTextFindings_elsewhere houtline hsame hn

/-- All findings that are not attributed to the replaced node. -/
theorem allIssues_elsewhere {profile : Profile} {settings : Settings} {f f' : NodeFindings}
    {t t' : TextFindings} (h : List.Forall₂ (Node.Becomes a a') s.nodes s'.nodes)
    (hf : s.allNodeFindings profile = .ok f) (hf' : s'.allNodeFindings profile = .ok f')
    (ht : s.textFindings settings s.wiring = .ok t)
    (ht' : s'.textFindings settings s'.wiring = .ok t') :
    Issue.AgreeElsewhere a.name (s.allIssues settings f t) (s'.allIssues settings f' t') := by
  rw [wiring_congr houtline] at ht'
  have hnodes := findingsOf_elsewhere houtline hsame h hf hf'
  have htexts := textFindingsOf_elsewhere houtline hsame (becomes_executing houtline hsame h) ht ht'
  rw [allIssues, allIssues, structureIssues_congr houtline, wiring_congr houtline,
    shapeIssues_congr houtline]
  -- In front of the findings on texts, the two lists differ in those on nodes alone.
  have hfront := (Issue.AgreeElsewhere.refl a.name s.structureIssues).append hnodes
  have hwiring := hfront.append (.refl a.name s.wiring.issues)
  have hshape := hwiring.append (.refl a.name (s.shapeIssues settings s.wiring))
  exact hshape.append htexts

end Replaced

/-! ### A disabled node -/

/-- Nothing is found on a disabled node. -/
theorem nodeFindings_of_disabled {profile : Profile} (h : n.disabled = true) :
    s.nodeFindings profile n = .ok {} := by
  simp [nodeFindings, h]

section Disabled

variable (houtline : s'.outline = s.outline) (hsame : a'.outline = a.outline)
  (hdisabled : a.disabled = true)

include houtline hsame hdisabled

/-- The findings on nodes are the same if the node that is replaced is disabled. -/
theorem allNodeFindings_of_disabled {profile : Profile}
    (h : List.Forall₂ (Node.Becomes a a') s.nodes s'.nodes) :
    s'.allNodeFindings profile = s.allNodeFindings profile := by
  refine (findingsOf_congr (h.imp ?_)).symm
  intro n n' hn
  rcases hn with rfl | ⟨rfl, rfl⟩
  · exact nodeFindings_of_catalog (catalog_of_outline houtline).symm n'
  · have hdisabled' : n'.disabled = true := by
      have hsame' : n'.outline.disabled = n.outline.disabled := by rw [hsame]
      exact hsame'.trans hdisabled
    rw [nodeFindings_of_disabled hdisabled, nodeFindings_of_disabled hdisabled']

/-- A disabled node is not among those that execute, so these are the very same. -/
theorem executing_of_disabled (h : List.Forall₂ (Node.Becomes a a') s.nodes s'.nodes) :
    s'.executing = s.executing := by
  have hexecute : ∀ n ∈ s.executing, s.executes n = true := fun n hn => (List.mem_filter.1 hn).2
  have hkept : List.Forall₂ (· = ·) s.executing s'.executing := by
    refine ((List.forall₂_and_left _ _).2 ⟨hexecute, becomes_executing houtline hsame h⟩).imp ?_
    intro n n' hboth
    rcases hboth with ⟨hn, rfl | ⟨rfl, rfl⟩⟩
    · rfl
    · simp [executes, hdisabled] at hn
  rw [List.forall₂_eq_eq_eq] at hkept
  exact hkept.symm

/-- The findings on expressions are the same if the node that is replaced is disabled. -/
theorem textFindings_of_disabled {settings : Settings}
    (h : List.Forall₂ (Node.Becomes a a') s.nodes s'.nodes) :
    s'.textFindings settings s'.wiring = s.textFindings settings s.wiring := by
  rw [textFindings, textFindings, executing_of_disabled houtline hsame hdisabled h,
    wiring_congr houtline]
  refine textFindingsOf_congr (List.forall₂_same.2 ?_)
  intro n _
  exact nodeTextFindings_of_catalog (catalog_of_outline houtline) (names_congr houtline) n

end Disabled

end Scene

/-! ## Two reports -/

namespace Validator

variable {v : Validator} {profile : Profile} {d d' : Document} {a a' : Node}

/-- When a node is replaced by one with the same name, id, type and error policy, enabled or
disabled as before, the reports agree in what they say about other nodes or about none, and in all
numbers but that of the expressions. If the node is disabled, they agree altogether. -/
theorem report_replaced (h : d.Replaces a a' d') (hsame : a'.outline = a.outline) :
    (∀ r r', v.report profile d = .ok r → v.report profile d' = .ok r' →
      r'.errors.filter (Issue.isElsewhere a.name) = r.errors.filter (Issue.isElsewhere a.name) ∧
        r'.warnings.filter (Issue.isElsewhere a.name) =
          r.warnings.filter (Issue.isElsewhere a.name) ∧
        { r'.statistics with expressionsValidated := r.statistics.expressionsValidated } =
          r.statistics) ∧
      (a.disabled = true → v.report profile d' = v.report profile d) := by
  -- What the checks see of other nodes is in the outline, which stays the same.
  have houtline : (v.scene d').outline = (v.scene d).outline :=
    congrArg (Scene.mk · v.catalog) (h.outline hsame)
  have hbecomes : List.Forall₂ (Node.Becomes a a') (v.scene d).nodes (v.scene d').nodes :=
    h.becomes
  have hfilled : d.nodes ≠ [] ∧ d'.nodes ≠ [] := by
    rcases h.nodes with ⟨front, back, hnodes, hnodes'⟩
    simp [hnodes, hnodes']
  constructor
  · intro r r' hr hr'
    rcases (report_eq_ok_iff hfilled.1).1 hr with ⟨nodes, texts, hnodes, htexts, rfl⟩
    rcases (report_eq_ok_iff hfilled.2).1 hr' with ⟨nodes', texts', hnodes', htexts', rfl⟩
    have hissues := Scene.allIssues_elsewhere houtline hsame hbecomes hnodes hnodes' htexts htexts'
    refine ⟨?_, ?_, ?_⟩
    · rw [errors_reportOf, errors_reportOf, ← Policy.errors_filter Issue.isElsewhere_apply,
        ← Policy.errors_filter Issue.isElsewhere_apply, hissues]
    · rw [warnings_reportOf, warnings_reportOf, ← Policy.warnings_filter Issue.isElsewhere_apply,
        ← Policy.warnings_filter Issue.isElsewhere_apply, hissues]
    · rw [statistics_reportOf, statistics_reportOf, statistics_congr houtline,
        Scene.wiring_congr houtline]
      rfl
  · intro hdisabled
    have hempty : d'.nodes.isEmpty = d.nodes.isEmpty := by
      rw [List.isEmpty_eq_false_iff.2 hfilled.1, List.isEmpty_eq_false_iff.2 hfilled.2]
    simp only [report, hempty, reportOf_congr houtline,
      Scene.allNodeFindings_of_disabled houtline hsame hdisabled hbecomes,
      Scene.textFindings_of_disabled houtline hsame hdisabled hbecomes]

def nodeA (parameters : Entries Value) (disabled : Bool) : Node where
  id := "1"
  name := "A"
  type := "n8n-nodes-base.set"
  parameters := parameters
  disabled := disabled

def beforeUnknown (n : Node) : Document where
  nodes := [n, { id := "2", name := "B", type := "n8n-nodes-base.none" }]
  connections := [("A", [("main", [some [⟨"B", "main", 0⟩]])])]

theorem beforeUnknown_replaces (parameters parameters' : Entries Value) (disabled : Bool) :
    (beforeUnknown (nodeA parameters disabled)).Replaces (nodeA parameters disabled)
      (nodeA parameters' disabled) (beforeUnknown (nodeA parameters' disabled)) where
  nodes := ⟨[], (beforeUnknown (nodeA [] false)).nodes.tail, rfl, rfl⟩
  connections := rfl

/-- An attribute among the parameters is reported of the node that has it, if that is enabled. -/
theorem misplaced_beforeUnknown :
    (∃ r r', setTypes.report .runtime (beforeUnknown (nodeA [] false)) = .ok r ∧
        setTypes.report .runtime (beforeUnknown (nodeA [("maxTries", .int 3)] false)) = .ok r' ∧
        r.errors.length = 1 ∧ r'.errors.length = 2 ∧
        r'.errors.filter (Issue.isElsewhere "A") = r.errors.filter (Issue.isElsewhere "A")) ∧
      setTypes.report .runtime (beforeUnknown (nodeA [("maxTries", .int 3)] true)) =
        setTypes.report .runtime (beforeUnknown (nodeA [] true)) := by
  have hone : ∃ r, setTypes.report .runtime (beforeUnknown (nodeA [] false)) = .ok r ∧
      (r.errors.length == 1) = true := exists_report (by decide +kernel)
  have htwo : ∃ r, setTypes.report .runtime
      (beforeUnknown (nodeA [("maxTries", .int 3)] false)) = .ok r ∧
        (r.errors.length == 2) = true := exists_report (by decide +kernel)
  constructor
  · rcases hone with ⟨r, hr, hlength⟩
    rcases htwo with ⟨r', hr', hlength'⟩
    have h := beforeUnknown_replaces [] [("maxTries", .int 3)] false
    have hagree := (report_replaced h rfl).1 r r' hr hr'
    exact ⟨r, r', hr, hr', by simpa using hlength, by simpa using hlength', hagree.1⟩
  · have h := beforeUnknown_replaces [] [("maxTries", .int 3)] true
    exact (report_replaced h rfl).2 rfl

end Validator
end Workflows
