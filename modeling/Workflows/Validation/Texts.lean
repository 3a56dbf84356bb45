import Workflows.Expression
import Workflows.Expression.Format
import Workflows.Settings
import Workflows.Validation.Wiring

/-!
# Texts — the expressions in the parameters of nodes

Main definitions:

* `TextFindings` — what the checks of the expressions of nodes find;
* `Scene.declaredLocators` — the parameters that a type declares as resource locators;
* `Scene.textFindings` — the findings of all nodes that execute.
-/

namespace Workflows

/-- Findings, and the number of expressions that were looked at. -/
structure TextFindings where
  issues : List Issue := []
  count : Nat := 0
  deriving Repr

namespace TextFindings

def append (a b : TextFindings) : TextFindings :=
  ⟨a.issues ++ b.issues, a.count + b.count⟩

instance : Append TextFindings := ⟨append⟩

end TextFindings

namespace Scene

/-! ## Expressions -/

/-- What stands before the first colon and blank of a message. -/
def pathOf (message : String) : String :=
  String.ofList (Text.beforeMark [':', ' '] message.toList)

def expressionError (n : Node) (message : String) : Issue :=
  ((Issue.error .expression "expression_error" message).onNode n).atPath (pathOf message)

/-- The warning for a message of the expression check. What speaks of depth or of a circular
reference is an anomaly. -/
def expressionWarning (n : Node) (message : String) : Issue :=
  -- By then the messages are texts, so the words in them decide.
  let category : Category :=
    if Text.contains "depth" message || Text.contains "Circular reference" message then .anomaly
    else .expression
  ((Issue.warning category "expression_warning" message).onNode n).atPath (pathOf message)

def expressionContext (s : Scene) (w : Wiring) (n : Node) : ExpressionContext :=
  { availableNodes := some s.names
    currentNode := some n.name
    hasInput := w.isFed n.name }

def expressionFindings (s : Scene) (depth : Number) (w : Wiring) (n : Node) : TextFindings :=
  let found :=
    Expression.checkTree depth (s.expressionContext w n) (.obj n.parameters)
  { issues := found.errorTexts.map (expressionError n)
      ++ found.warningTexts.map (expressionWarning n)
    count := found.count }

/-! ## Written form -/

/-- The name that an entry of a type's properties declares as a resource locator. A list or an
object cannot be a name. -/
def declaredLocator (entry : Value) : Except EvalError (Option String) :=
  match entry with
  | .obj fields =>
    let name := (Entries.get? "name" fields).getD .null
    match Entries.get? "type" fields with
    | some (.str "resourceLocator") =>
      -- A locator without a name is passed over before the kind of its name is asked for.
      if !name.isPresent then .ok none
      else
        match name with
        | .arr _ | .obj _ | .up _ => .error .locatorName
        | _ => .ok name.str?
    | _ => .ok none
  | _ => .ok none

def declaredLocatorsIn : List Value → Except EvalError (List String)
  | [] => .ok []
  | v :: rest =>
    match declaredLocator v with
    | .error e => .error e
    | .ok name => (declaredLocatorsIn rest).map (name.toList ++ ·)

/-- The parameters that the type of a node declares as resource locators. -/
def declaredLocators (s : Scene) (n : Node) : Except EvalError (List String) :=
  match s.typeOf n with
  | none => .ok []
  | some t => declaredLocatorsIn t.properties

def formatIssue (n : Node) (f : FormatIssue) : Issue :=
  { severity := f.severity
    category := .expressionFormat
    code := f.kind.word
    message := f.path ++ ": " ++ f.explanation
    nodeName := some n.name
    nodeId := some n.id
    path := some f.path
    fix := some f.explanation
    suggested := f.corrected }

def formatIssues (s : Scene) (depth : Number) (n : Node) : Except EvalError (List Issue) :=
  match s.declaredLocators n with
  | .error e => .error e
  | .ok declared =>
    let fields := Format.locatorFields n.type declared
    (Format.checkTree depth fields (.obj n.parameters)).map fun f =>
      f.issues.map (formatIssue n)

/-! ## All nodes -/

def nodeTextFindings (s : Scene) (depth : Number) (w : Wiring) (n : Node) :
    Except EvalError TextFindings :=
  (s.formatIssues depth n).map fun issues =>
    s.expressionFindings depth w n ++ { issues := issues }

def textFindingsOf (s : Scene) (depth : Number) (w : Wiring) :
    List Node → Except EvalError TextFindings
  | [] => .ok {}
  | n :: rest =>
    match s.nodeTextFindings depth w n with
    | .error e => .error e
    | .ok found => (textFindingsOf s depth w rest).map (found ++ ·)

def textFindings (s : Scene) (settings : Settings) (w : Wiring) :
    Except EvalError TextFindings :=
  s.textFindingsOf settings.maxExpressionDepth w s.executing

end Scene
end Workflows
