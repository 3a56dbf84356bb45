import Workflows.NodeConfig
import Workflows.Validation.Scene
import Workflows.Value.Printer

/-!
# NodeCheck — the checks of single nodes

Every enabled node is checked: its type has to be one the catalog knows under its full name, its
type version has to exist, the attributes that control its execution have to make sense, and its
parameters have to fit its type.

Main definitions:

* `NodeFindings` — what the checks of nodes find;
* `Scene.versionIssues`, `Scene.settingIssues`, `Scene.nodeFindings`;
* `Scene.allNodeFindings` — the findings of all nodes.
-/

namespace Workflows

structure NodeFindings where
  issues : List Issue := []
  suggestions : List String := []
  notes : List String := []
  deriving Repr

namespace NodeFindings

def append (a b : NodeFindings) : NodeFindings :=
  ⟨a.issues ++ b.issues, a.suggestions ++ b.suggestions, a.notes ++ b.notes⟩

instance : Append NodeFindings := ⟨append⟩

end NodeFindings

namespace Scene

/-! ## Types -/

/-- How the names begin that only catalogs use. -/
def shortBeginnings : List String := ["nodes-base.", "nodes-langchain."]

def beginsShort (n : Node) : Bool :=
  shortBeginnings.any fun front => Text.startsWith front n.type

def shortTypeIssue (n : Node) : Issue :=
  let full := TypeName.denormalize n.type
  { (Issue.error .nodeType "invalid_type_prefix"
      ("Invalid node type \"" ++ n.type ++ "\"; use the full package name \"" ++ full
        ++ "\"")).onNode n with
    suggested := .str full }

def unknownTypeIssue (s : Scene) (n : Node) : Issue :=
  let candidates := s.catalog.suggest 3 n.type
  { (Issue.error .nodeType "unknown_node_type"
      ("Unknown node type: \"" ++ n.type ++ "\"")).onNode n with
    fix := if candidates.isEmpty then none
      else some ("Did you mean: " ++ Text.join ", " candidates ++ "?")
    suggested := (candidates.head?.map Value.str).getD .null }

/-! ## Type versions -/

def versionIssue (n : Node) (latest : Number) (i : Issue) : Issue :=
  { (i.onNode n).atPath "typeVersion" with suggested := .num latest }

def versionIssues (n : Node) (t : NodeType) : List Issue :=
  let latest := t.latest
  if !t.isVersioned then []
  else
    match n.typeVersion with
    | none =>
      [versionIssue n latest (.error .nodeType "missing_type_version"
        ("Missing required property 'typeVersion'; " ++ n.type ++ " is versioned (latest "
          ++ latest.text ++ ")"))]
    | some v =>
      if v.lt (.int 1) then
        [versionIssue n latest (.error .nodeType "invalid_type_version"
          ("Invalid typeVersion " ++ v.text ++ "; must be 1 or higher"))]
      else if latest.lt v then
        [versionIssue n latest (.error .nodeType "invalid_type_version"
          ("typeVersion " ++ v.text ++ " exceeds the latest supported version "
            ++ latest.text))]
      else if v.lt latest then
        [versionIssue n latest (.warning .style "outdated_type_version"
          ("Outdated typeVersion " ++ v.text ++ "; latest is " ++ latest.text))]
      else []

/-! ## Execution attributes -/

/-- Attributes that belong on a node and not among its parameters. -/
def nodeAttributes : List String :=
  ["onError", "continueOnFail", "retryOnFail", "maxTries", "waitBetweenTries",
    "alwaysOutputData", "executeOnce", "disabled", "notesInFlow", "typeVersion"]

def misplacedIssues (n : Node) : List Issue :=
  (n.parameters.keys.filter nodeAttributes.contains).map fun key =>
    ((Issue.error .rule "misplaced_property"
      ("Node-level property '" ++ key ++ "' is inside parameters; move it to the node itself")
      ).onNode n).atPath ("parameters." ++ key)

/-- What a node may do when it fails. -/
def errorPolicies : List String :=
  ["continueRegularOutput", "continueErrorOutput", "stopWorkflow"]

def onErrorIssues (n : Node) : List Issue :=
  match n.onError with
  | none => []
  | some policy =>
    if errorPolicies.contains policy then []
    else
      [{ ((Issue.error .rule "invalid_value"
            ("Invalid onError value '" ++ policy ++ "'")).onNode n).atPath "onError" with
          fix := some ("Must be one of: " ++ Text.join ", " errorPolicies) }]

def continueIssues (n : Node) : List Issue :=
  match n.continueOnFail with
  | none => []
  | some continues =>
    -- Beside the newer attribute the older one is in the way; alone it is merely out of date.
    if n.onError.isSome then
      [((Issue.error .rule "incompatible"
        "continueOnFail and onError are both set; use onError only").onNode n).atPath
          "continueOnFail"]
    else
      [{ ((Issue.warning .style "deprecated"
            "continueOnFail is deprecated; use onError instead").onNode n).atPath
              "continueOnFail" with
          suggested := .str (if continues then "continueRegularOutput" else "stopWorkflow") }]

def triesIssues (n : Node) : List Issue :=
  match n.maxTries with
  | none => []
  | some tries =>
    if tries < 1 then
      [((Issue.error .rule "invalid_value"
        ("maxTries must be at least 1, got " ++ toString tries)).onNode n).atPath "maxTries"]
    else if 10 < tries then
      [((Issue.warning .style "inefficient"
        ("maxTries of " ++ toString tries
          ++ " is high; retries may delay failure detection")).onNode n).atPath "maxTries"]
    else []

def waitIssues (n : Node) : List Issue :=
  match n.waitBetweenTries with
  | none => []
  | some wait =>
    if wait < 0 then
      [((Issue.error .rule "invalid_value"
        "waitBetweenTries must not be negative").onNode n).atPath "waitBetweenTries"]
    else if 300000 < wait then
      [((Issue.warning .style "inefficient"
        ("waitBetweenTries of " ++ toString wait ++ "ms exceeds 5 minutes")).onNode n).atPath
          "waitBetweenTries"]
    else []

def retryIssues (n : Node) : List Issue :=
  if n.retryOnFail = some true then triesIssues n ++ waitIssues n
  -- Numbers that have no effect are not judged.
  else if n.maxTries.isSome ∨ n.waitBetweenTries.isSome then
    [((Issue.warning .style "best_practice"
      "maxTries/waitBetweenTries have no effect unless retryOnFail is enabled").onNode n).atPath
        "retryOnFail"]
  else []

def credentialIssue? (n : Node) (name : String) : Value → Option Issue
  | .obj fields =>
    if (Entries.get? "id" fields).any Value.isPresent then none
    else
      some (((Issue.warning .rule "missing_credential_id"
        ("Credential '" ++ name ++ "' has no id")).onNode n).atPath ("credentials." ++ name))
  | _ =>
    some (((Issue.error .rule "invalid_type"
      ("Credential '" ++ name ++ "' must be an object with id and name")).onNode n).atPath
        ("credentials." ++ name))

def credentialIssues (n : Node) : List Issue :=
  (n.credentials.getD []).filterMap fun c => credentialIssue? n c.1 c.2

def settingIssues (n : Node) : List Issue :=
  misplacedIssues n ++ onErrorIssues n ++ continueIssues n ++ retryIssues n ++ credentialIssues n

/-! ## Parameters -/

/-- Types of nodes that talk to other systems. -/
def errorProneTypes : List String :=
  ["httpRequest", "postgres", "mySql", "microsoftSql", "slack", "emailSend", "github"]

/-- Whether a node leaves it open what happens when another system fails. -/
def lacksErrorHandling (n : Node) (t : NodeType) : Bool :=
  errorProneTypes.contains t.shortName && n.onError.isNone && n.continueOnFail != some true
    && n.retryOnFail != some true

def config (n : Node) (t : NodeType) : NodeConfig :=
  { type := t.name
    parameters := n.parameters
    schema := t.properties
    typeVersion := n.typeVersion
    nodeName := some n.name }

def example? (r : ConfigReport) : List String :=
  (r.examples.take 1).map fun e => "example configuration " ++ e.sortKeys.compact

/-- What the checks of the parameters contribute to the findings. -/
def configFindings (profile : Profile) (n : Node) (r : ConfigReport) : NodeFindings :=
  let named := fun (text : String) => n.name ++ ": " ++ text
  { issues := (r.errors ++ r.warnings).map fun i => { i with nodeId := some n.id }
    suggestions := r.suggestions.map named
    notes := if profile.policy.includeGuidance then (r.nextSteps ++ example? r).map named else [] }

def knownNodeFindings (profile : Profile) (n : Node) (t : NodeType) :
    Except EvalError NodeFindings :=
  let rules := profile.policy.runRules
  match (config n t).check profile with
  | .error e => .error e
  | .ok r =>
    .ok
      ({ issues := versionIssues n t ++ (if rules then settingIssues n else []) }
        ++ configFindings profile n r
        ++ { suggestions :=
              if rules && lacksErrorHandling n t then
                [n.name ++ ": add error handling (onError or retryOnFail) for external calls"]
              else [] })

def nodeFindings (s : Scene) (profile : Profile) (n : Node) : Except EvalError NodeFindings :=
  -- Nothing is said about nodes that are not executed, whatever their types are.
  if n.disabled then .ok {}
  else if beginsShort n then .ok { issues := [shortTypeIssue n] }
  else
    match s.typeOf n with
    | none => .ok { issues := [s.unknownTypeIssue n] }
    | some t => knownNodeFindings profile n t

def findingsOf (s : Scene) (profile : Profile) : List Node → Except EvalError NodeFindings
  | [] => .ok {}
  | n :: rest =>
    match s.nodeFindings profile n with
    | .error e => .error e
    | .ok found => (findingsOf s profile rest).map (found ++ ·)

def allNodeFindings (s : Scene) (profile : Profile) : Except EvalError NodeFindings :=
  s.findingsOf profile s.nodes

end Scene
end Workflows
