import Workflows.Proofs.Validation.Filed

/-!
# CycleCodes — the findings about cycles can be told by their codes

A report is one list of errors, in which the errors of all checks follow each other. Those of the
check of cycles are the ones with its two codes: no other check uses them, the policies change no
codes, and all of these findings are errors that every policy reports.

Main definitions:

* `Issue.isCyclic` — whether a finding has one of the two codes;
* `Validator.cyclic_errors` — the errors with these codes are the findings of the check of cycles.
-/

namespace Workflows

def Issue.isCyclic (i : Issue) : Bool :=
  cycleCodes.contains i.code

/-- The check of cycles finds errors that are more than matters of style. -/
theorem Scene.isError_cycleIssues (s : Scene) (g : Graph) :
    ∀ i ∈ s.cycleIssues g, i.isError = true ∧ i.category ≠ .style := by
  intro i hi
  rcases mem_cycleIssues hi with ⟨c, rfl⟩ | ⟨c, rfl⟩ | rfl
  · exact ⟨rfl, by simp [firstCycleIssue, Issue.error]⟩
  · exact ⟨rfl, by simp [cycleIssue, Issue.error]⟩
  · exact ⟨rfl, by simp [tooManyCycles, Issue.error]⟩

namespace Validator

variable {v : Validator} {d : Document} {profile : Profile} {r : Report}

/-- The errors with codes about cycles are what the check of cycles finds in the graph of the main
links. -/
theorem cyclic_errors (h : v.report profile d = .ok r) :
    r.errors.filter Issue.isCyclic =
      (v.scene d).cycleIssues ((v.scene d).mainGraph (v.scene d).wiring) := by
  have hcodes : Issue.isCyclic = Issue.hasCode Issue.cycleCodes := rfl
  by_cases hnodes : d.nodes = []
  · -- Without nodes there is nothing for a cycle to pass through.
    have herrors : r.errors.filter Issue.isCyclic = [] := by
      rw [(issues_of_empty hnodes h).1, hcodes, ← Policy.errors_filter_hasCode]
      rfl
    have hnames : (v.scene d).names = [] := by
      simp [Scene.names, scene, Document.nodeNames, hnodes]
    have hgraph : (v.scene d).mainGraph (v.scene d).wiring = ⟨[]⟩ := by
      simp [Scene.mainGraph, hnames]
    have hcycles : (⟨[]⟩ : Graph).cyclesUpTo (Scene.cycleLimit + 1) = [] := rfl
    rw [herrors, hgraph]
    simp [Scene.cycleIssues, Scene.harmfulCycleIssues, Graph.nodes, Entries.keys, hcycles]
  · rcases (report_eq_ok_iff hnodes).1 h with ⟨nodes, texts, hfound, htexts, rfl⟩
    rw [hcodes, errors_reportOf, ← Policy.errors_filter_hasCode,
      Scene.allIssues_filter_cycleCodes hfound htexts,
      Policy.errors_eq_self (Scene.isError_cycleIssues _ _)]

end Validator
end Workflows
