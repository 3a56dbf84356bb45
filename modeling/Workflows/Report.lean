import Workflows.Document

/-!
# Report — findings and their collection

An issue is one finding with its severity, the family of rules it comes from, and the place it
concerns. A report collects the issues of a document: errors and warnings as they are, everything
milder as notes.

Main definitions:

* `Severity`, `Category`, `Issue`, `Issue.location`;
* `Statistics`, `Report`, `Report.add`, `Report.ofShapeIssues`.
-/

namespace Workflows

inductive Severity
  | error
  | warning
  | info
  deriving DecidableEq, Repr

namespace Severity

def table : List (String × Severity) :=
  [("error", error), ("warning", warning), ("info", info)]

def word : Severity → String
  | error => "error"
  | warning => "warning"
  | info => "info"

end Severity

/-- The families of rules; profiles filter by them. -/
inductive Category
  | structural
  | connection
  | nodeType
  | required
  | type
  | rule
  | expression
  | expressionFormat
  | style
  | security
  | anomaly
  deriving DecidableEq, Repr

namespace Category

def word : Category → String
  | structural => "structure"
  | connection => "connection"
  | nodeType => "node_type"
  | required => "required"
  | type => "type"
  | rule => "rule"
  | expression => "expression"
  | expressionFormat => "expression_format"
  | style => "style"
  | security => "security"
  | anomaly => "anomaly"

def all : List Category :=
  [.structural, .connection, .nodeType, .required, .type, .rule, .expression, .expressionFormat,
    .style, .security, .anomaly]

def table : List (String × Category) :=
  all.map fun c => (c.word, c)

end Category

structure Issue where
  severity : Severity
  category : Category
  message : String
  code : String := ""
  nodeName : Option String := none
  nodeId : Option String := none
  path : Option String := none
  fix : Option String := none
  /-- A value that would mend the finding; null when there is none. -/
  suggested : Value := .null
  deriving Repr

namespace Issue

def error (category : Category) (code message : String) : Issue :=
  { severity := .error, category := category, code := code, message := message }

def warning (category : Category) (code message : String) : Issue :=
  { severity := .warning, category := category, code := code, message := message }

def onNode (n : Node) (i : Issue) : Issue :=
  { i with nodeName := some n.name, nodeId := some n.id }

def atPath (path : String) (i : Issue) : Issue :=
  { i with path := some path }

def isError (i : Issue) : Bool :=
  i.severity == .error

/-- The names of a place that are not empty. -/
def locationParts (i : Issue) : List String :=
  ([i.nodeName, i.path].filterMap id).filter (· != "")

/-- Node and path of an issue in one text. -/
def location (i : Issue) : String :=
  if i.locationParts.isEmpty then "workflow" else Text.join ": " i.locationParts

end Issue

structure Statistics where
  totalNodes : Int := 0
  enabledNodes : Int := 0
  triggerNodes : Int := 0
  validConnections : Int := 0
  invalidConnections : Int := 0
  expressionsValidated : Int := 0
  deriving DecidableEq, Repr

structure Report where
  valid : Bool := true
  profile : String := "runtime"
  errors : List Issue := []
  warnings : List Issue := []
  notes : List String := []
  suggestions : List String := []
  statistics : Statistics := {}
  deriving Repr

namespace Report

/-- Files an issue by its severity. An error makes the report invalid. -/
def add (r : Report) (i : Issue) : Report :=
  match i.severity with
  | .error => { r with errors := r.errors ++ [i], valid := false }
  | .warning => { r with warnings := r.warnings ++ [i] }
  | .info => { r with notes := r.notes ++ [i.location ++ ": " ++ i.message] }

def addAll (r : Report) (issues : List Issue) : Report :=
  issues.foldl add r

def shapeError (i : ShapeIssue) : Issue :=
  { severity := .error
    category := .structural
    code := "invalid_document"
    message := i.text
    path := some i.path }

def ofShapeIssues (profile : String) (issues : List ShapeIssue) : Report :=
  addAll { profile := profile } (issues.map shapeError)

end Report

/-! ## Wire form -/

namespace Issue

def optionalText (o : Option String) : Value :=
  (o.map Value.str).getD .null

def toEntries (i : Issue) : Entries Value :=
  [("severity", .str i.severity.word), ("category", .str i.category.word),
    ("message", .str i.message), ("code", .str i.code),
    ("node_name", optionalText i.nodeName), ("node_id", optionalText i.nodeId),
    ("path", optionalText i.path), ("fix", optionalText i.fix),
    ("suggested_value", i.suggested)]

def toValue (i : Issue) : Value :=
  .obj i.toEntries

end Issue

def Statistics.toValue (s : Statistics) : Value :=
  .obj
    [("total_nodes", .int s.totalNodes), ("enabled_nodes", .int s.enabledNodes),
      ("trigger_nodes", .int s.triggerNodes), ("valid_connections", .int s.validConnections),
      ("invalid_connections", .int s.invalidConnections),
      ("expressions_validated", .int s.expressionsValidated)]

namespace Report

/-- The wire form of a report whose issues are written in a given way. -/
def toValueWith (issueValue : Issue → Value) (r : Report) : Value :=
  .obj
    [("valid", .bool r.valid), ("profile", .str r.profile),
      ("errors", .arr (r.errors.map issueValue)),
      ("warnings", .arr (r.warnings.map issueValue)),
      ("notes", .strings r.notes), ("suggestions", .strings r.suggestions),
      ("statistics", r.statistics.toValue)]

def toValue : Report → Value :=
  toValueWith Issue.toValue

end Report

end Workflows
