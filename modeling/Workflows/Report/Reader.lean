import Workflows.Report

/-!
# Reader — reports from values

Main definitions:

* `Issue.decode`, `Statistics.decode`, `Report.decode`.
-/

namespace Workflows

namespace Issue

def decode : Value → Decoded Issue :=
  Shape.model "ValidationIssue" fun es =>
    Issue.mk
      <$> Shape.required (.single "severity") (Shape.choice Severity.table) es
      <*> Shape.required (.single "category") (Shape.choice Category.table) es
      <*> Shape.required (.single "message") Shape.string es
      <*> Shape.optional (.single "code") "" Shape.string es
      <*> Shape.optional (.single "node_name") none (Shape.nullable Shape.string) es
      <*> Shape.optional (.single "node_id") none (Shape.nullable Shape.string) es
      <*> Shape.optional (.single "path") none (Shape.nullable Shape.string) es
      <*> Shape.optional (.single "fix") none (Shape.nullable Shape.string) es
      <*> Shape.optional (.single "suggested_value") .null Shape.any es

end Issue

namespace Statistics

def decode : Value → Decoded Statistics :=
  Shape.model "WorkflowStatistics" fun es =>
    Statistics.mk
      <$> Shape.optional (.single "total_nodes") 0 Shape.looseInteger es
      <*> Shape.optional (.single "enabled_nodes") 0 Shape.looseInteger es
      <*> Shape.optional (.single "trigger_nodes") 0 Shape.looseInteger es
      <*> Shape.optional (.single "valid_connections") 0 Shape.looseInteger es
      <*> Shape.optional (.single "invalid_connections") 0 Shape.looseInteger es
      <*> Shape.optional (.single "expressions_validated") 0 Shape.looseInteger es

end Statistics

namespace Report

def decode : Value → Decoded Report :=
  Shape.model "ValidationReport" fun es =>
    Report.mk
      <$> Shape.optional (.single "valid") true Shape.looseBoolean es
      <*> Shape.optional (.single "profile") "runtime" Shape.string es
      <*> Shape.optional (.single "errors") [] (Shape.list Issue.decode) es
      <*> Shape.optional (.single "warnings") [] (Shape.list Issue.decode) es
      <*> Shape.optional (.single "notes") [] (Shape.list Shape.string) es
      <*> Shape.optional (.single "suggestions") [] (Shape.list Shape.string) es
      <*> Shape.optional (.single "statistics") {} Statistics.decode es

end Report
end Workflows
