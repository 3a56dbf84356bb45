import Workflows.Proofs.Validation.NodeByNode
import Workflows.Proofs.Validation.Outline

/-!
# Unread — what a report does not depend on

A report reads the nodes and the connections of a document, and of a node everything but its
position and what it holds beside its fields. Two documents that have the same nodes up to these,
and the same connections, have the same report.

Main definitions:

* `Node.core`, `Document.core` — a node and a document without what is not read;
* `Validator.report_core`, `Validator.reportUnder_eq` — the report is that of the core.
-/

namespace Workflows

/-- A node without what no check looks at. -/
def Node.core (n : Node) : Node :=
  { n with position := ⟨.int 0, .int 0⟩, extra := [] }

def Document.core (d : Document) : Document :=
  { nodes := d.nodes.map Node.core, connections := d.connections }

namespace Scene

def core (s : Scene) : Scene :=
  ⟨s.document.core, s.catalog⟩

variable (s : Scene)

/-- What the checks of the whole document read is part of the core. -/
theorem outline_core : s.core.outline = s.outline := by
  simp only [outline, core, Document.outline, Document.core, List.map_map]
  rfl

/-! ## Single nodes -/

theorem nodeFindings_core (profile : Profile) (n : Node) :
    s.core.nodeFindings profile n.core = s.nodeFindings profile n := rfl

/-- The checks of nodes find the same on the core of the document. -/
theorem allNodeFindings_core (profile : Profile) :
    s.core.allNodeFindings profile = s.allNodeFindings profile := by
  refine findingsOf_congr (List.forall₂_map_left_iff.2 (List.forall₂_same.2 ?_))
  intro n _
  exact nodeFindings_core s profile n

/-! ## Expressions -/

/-- The nodes that execute are the same in the core of the document. -/
theorem executing_core : s.core.executing = s.executing.map Node.core := by
  have hnodes : s.core.nodes = s.nodes.map Node.core := rfl
  rw [executing, executing, hnodes, List.filter_map]
  rfl

/-- The check of the expressions of a node finds the same on its core. -/
theorem nodeTextFindings_core (depth : Number) (w : Wiring) (n : Node) :
    s.core.nodeTextFindings depth w n.core = s.nodeTextFindings depth w n := by
  have hcontext : s.core.expressionContext w n.core = s.expressionContext w n := by
    rw [expressionContext, expressionContext, names_congr (outline_core s)]
    rfl
  rw [nodeTextFindings, nodeTextFindings, expressionFindings, expressionFindings, hcontext]
  rfl

/-- The check of expressions finds the same on the core of the document. -/
theorem textFindings_core (settings : Settings) (w : Wiring) :
    s.core.textFindings settings w = s.textFindings settings w := by
  rw [textFindings, textFindings, executing_core]
  refine textFindingsOf_congr (List.forall₂_map_left_iff.2 (List.forall₂_same.2 ?_))
  intro n _
  exact nodeTextFindings_core s settings.maxExpressionDepth w n

end Scene

/-! ## Reports -/

namespace Validator

/-- A document and its core have the same report. -/
theorem report_core (v : Validator) (profile : Profile) (d : Document) :
    v.report profile d.core = v.report profile d := by
  have hscene : v.scene d.core = (v.scene d).core := rfl
  have hempty : d.core.nodes.isEmpty = d.nodes.isEmpty := List.isEmpty_map
  have houtline : (v.scene d).core.outline = (v.scene d).outline := Scene.outline_core _
  simp only [report, hscene, hempty, Scene.allNodeFindings_core, Scene.wiring_congr houtline,
    Scene.textFindings_core, reportOf_congr houtline]

/-- Documents that differ in nothing that is read have the same report under every profile. -/
theorem reportUnder_eq (v : Validator) (wanted : Value) {d d' : Document} (h : d'.core = d.core) :
    v.reportUnder wanted d' = v.reportUnder wanted d := by
  have hreport : ∀ profile, v.report profile d' = v.report profile d := by
    intro profile
    rw [← report_core, h, report_core]
  simp only [reportUnder, hreport]

end Validator
end Workflows
