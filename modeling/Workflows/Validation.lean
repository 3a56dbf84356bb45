import Workflows.Catalog.Bundled
import Workflows.Validation.NodeCheck
import Workflows.Validation.Shape
import Workflows.Validation.Texts

/-!
# Validation — the report on a document

The checks of a document run one after the other: names and structure, single nodes, links, the
shape of the graph, expressions. The profile decides what is reported, and how.

Main definitions:

* `Validator` — the catalog and the settings;
* `Validator.report` — the report on a document under a profile;
* `Validator.check` — the report on any value, which need not be a document.
-/

namespace Workflows

structure Validator where
  catalog : Catalog := Catalog.bundled
  settings : Settings := {}
  deriving Repr

inductive ValidationFailure
  | unknownProfile (u : Profile.Unknown)
  | unanswerable (e : EvalError)
  deriving Repr

namespace Validator

def scene (v : Validator) (d : Document) : Scene :=
  ⟨d, v.catalog⟩

def emptyWorkflow : Issue :=
  Issue.warning .structural "empty_workflow" "Workflow has no nodes"

/-- Adds the issues that a profile reports, in the form in which it reports them. -/
def fileIssues (profile : Profile) (issues : List Issue) (r : Report) : Report :=
  r.addAll (issues.filterMap profile.policy.apply)

def statistics (s : Scene) (w : Wiring) (texts : TextFindings) : Statistics :=
  { totalNodes := s.nodes.length
    enabledNodes := (s.nodes.filter fun n => !n.disabled).length
    triggerNodes := s.triggers.length
    validConnections := w.valid.length
    invalidConnections := w.invalid
    expressionsValidated := texts.count }

/-- The report that the findings amount to. -/
def reportOf (profile : Profile) (settings : Settings) (s : Scene) (nodes : NodeFindings)
    (texts : TextFindings) : Report :=
  let w := s.wiring
  fileIssues profile
    (s.structureIssues ++ nodes.issues ++ w.issues ++ s.shapeIssues settings w ++ texts.issues)
    { profile := profile.word
      suggestions := nodes.suggestions
      notes := nodes.notes
      statistics := statistics s w texts }

/-- The report on a document under a profile. There is none when a condition or a resource locator
asks a question that has no answer. -/
def report (v : Validator) (profile : Profile) (d : Document) : Except EvalError Report :=
  let s := v.scene d
  -- Without nodes there is nothing to count, and connections are not looked at.
  if d.nodes.isEmpty then
    .ok (fileIssues profile [emptyWorkflow] { profile := profile.word })
  else
    match s.allNodeFindings profile with
    | .error e => .error e
    | .ok nodes =>
      match s.textFindings v.settings s.wiring with
      | .error e => .error e
      | .ok texts => .ok (reportOf profile v.settings s nodes texts)

/-- The profile that a value asks for: the default one when it is null or empty. -/
def chosenProfile (v : Validator) (wanted : Value) : Except Profile.Unknown Profile :=
  Profile.ofValue (if wanted.isPresent then wanted else v.settings.defaultProfile)

/-- The report on a document under the profile that a value asks for. -/
def reportUnder (v : Validator) (wanted : Value) (d : Document) :
    Except ValidationFailure Report :=
  match v.chosenProfile wanted with
  | .error u => .error (.unknownProfile u)
  | .ok profile => (v.report profile d).mapError .unanswerable

/-- The report on a value: that of the document it describes, or its structural faults. -/
def check (v : Validator) (wanted : Value) (value : Value) : Except ValidationFailure Report :=
  -- The profile is chosen first, so an unknown one is an error for any value.
  match v.chosenProfile wanted with
  | .error u => .error (.unknownProfile u)
  | .ok profile =>
    match Document.decode value with
    | .ok d => (v.report profile d).mapError .unanswerable
    | .faulty e more =>
      .ok (Report.ofShapeIssues profile.word ((e :: more).map Fault.shapeIssue))

end Validator
end Workflows
