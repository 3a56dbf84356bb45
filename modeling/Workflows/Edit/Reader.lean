import Workflows.Edit
import Workflows.Report.Reader

/-!
# Reader — results of batches from values

Main definitions:

* `EditError.decode`, `EditResult.decode`.
-/

namespace Workflows

namespace EditError

def shapeIssueOf (v : Value) : ShapeIssue :=
  let es := v.obj?.getD []
  let text := fun key => ((Entries.get? key es).bind Value.str?).getD ""
  ⟨text "path", text "message"⟩

def faultsOf (es : Entries Value) : List ShapeIssue :=
  (((es.get? "errors").bind Value.arr?).getD []).map shapeIssueOf

def decode : Value → Decoded EditError :=
  Shape.model "DiffError" fun es =>
    EditError.mk
      <$> Shape.required (.single "operation") Shape.looseInteger es
      <*> Shape.optional (.single "type") none (Shape.nullable Shape.string) es
      <*> Shape.required (.single "message") Shape.string es
      <*> (Option.map faultsOf <$>
        Shape.optional (.single "details") none (Shape.nullable Shape.object) es)

end EditError

namespace EditResult

def decode : Value → Decoded EditResult :=
  Shape.model "DiffResult" fun es =>
    EditResult.mk
      <$> Shape.required (.single "success") Shape.looseBoolean es
      <*> Shape.optional (.single "dry_run") false Shape.looseBoolean es
      <*> Shape.optional (.single "document") none
        (Shape.nullable (Shape.model "WorkflowDocument" Document.ofEntries)) es
      <*> Shape.optional (.single "errors") [] (Shape.list EditError.decode) es
      <*> (Int.toNat <$> Shape.optional (.single "operations_applied") 0 Shape.looseInteger es)
      <*> Shape.optional (.single "message") "" Shape.string es
      <*> Shape.optional (.single "report") none (Shape.nullable Report.decode) es

end EditResult
end Workflows
