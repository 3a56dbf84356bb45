import Workflows.Expression.Reference
import Workflows.Expression.Scan
import Workflows.NameSet
import Workflows.Walk

/-!
# Expression — checks of template expressions

Every complete expression of a text is checked for the variables and nodes it uses and for common
mistakes. The strings of a parameter tree are checked one by one, their findings located by field
path.

Main definitions:

* `ExpressionContext` — what an expression may refer to;
* `ExpressionError`, `ExpressionWarning` — the findings and their wording;
* `Expression.check` — the findings of one text;
* `Expression.checkTree` — the findings of a parameter tree.
-/

namespace Workflows

/-- What an expression may refer to. Without a list of nodes, references to nodes are not
checked. -/
structure ExpressionContext where
  availableNodes : Option (List String) := none
  currentNode : Option String := none
  hasInput : Bool := true
  deriving Repr

inductive ExpressionError
  | scan (fault : ScanFault)
  | empty
  | unknownNode (name : String)
  | noInput
  | templateLiteral
  deriving DecidableEq, Repr

namespace ExpressionError

def message : ExpressionError → String
  | scan fault => fault.message
  | empty => "Empty expression found"
  | unknownNode name => "Referenced node \"" ++ name ++ "\" not found in workflow"
  | noInput => "$input is used but this node receives no input data"
  | templateLiteral =>
    "Template literal syntax $\x7b...\x7d is not valid here; use \x7b\x7b \x7d\x7d instead"

end ExpressionError

inductive ExpressionWarning
  | unknownVariable (name : String)
  | missingDollar (word : String)
  | bracketKey
  | optionalChaining
  deriving DecidableEq, Repr

namespace ExpressionWarning

def message : ExpressionWarning → String
  | unknownVariable name => "Unknown variable " ++ name
  | missingDollar word =>
    "Possible missing $ prefix: use $" ++ word ++ " instead of " ++ word
  | bracketKey =>
    "Bracket notation on $json for a simple key; prefer dot notation ($json.field)"
  | optionalChaining =>
    "Optional chaining (?.) may not be supported; use a conditional check instead"

end ExpressionWarning

/-- The findings of one text. The sets of names are kept in order. -/
structure ExpressionFindings where
  errors : List ExpressionError := []
  warnings : List ExpressionWarning := []
  usedVariables : List String := []
  nodes : List String := []
  count : Nat := 0
  deriving Repr

namespace Expression

open Text

def opening : List Char := ['\x7b', '\x7b']

def closing : List Char := ['\x7d', '\x7d']

def knownVariables : List String :=
  ["$json", "$binary", "$node", "$input", "$items", "$parameter", "$env", "$vars", "$secrets",
    "$workflow", "$execution", "$prevNode", "$itemIndex", "$runIndex", "$now", "$today",
    "$jmespath", "$if", "$ifEmpty", "$min", "$max", "$position", "$mode", "$resumeWebhookUrl",
    "$webhookId", "$nodeVersion", "$fromAI"]

/-! ## One body -/

def knowsNode (ctx : ExpressionContext) (available : List String) (name : String) : Bool :=
  available.contains name || ctx.currentNode == some name

/-- The errors so far, extended by those for unknown nodes that are not yet among them. -/
def nodeErrors (ctx : ExpressionContext) (used : List String) (errors : List ExpressionError) :
    List ExpressionError :=
  match ctx.availableNodes with
  | none => errors
  | some available =>
    used.foldl
      (fun acc name =>
        if knowsNode ctx available name || acc.contains (.unknownNode name) then acc
        else acc ++ [.unknownNode name])
      errors

def hasBackquote (body : List Char) : Bool :=
  body.any fun c => c.toNat == 96

def bodyErrors (ctx : ExpressionContext) (body : List Char) : List ExpressionError :=
  (if occursIn "$input".toList body && !ctx.hasInput then [.noInput] else [])
    ++ (if occursIn ['$', '\x7b'] body && !hasBackquote body then [.templateLiteral] else [])

def bodyWarnings (body : List Char) : List ExpressionWarning :=
  ((Reference.dollarWords body).filter fun v => !knownVariables.contains v).map .unknownVariable
    ++ (Reference.bareWords body).map .missingDollar
    ++ (if Reference.hasBracketKey body then [.bracketKey] else [])
    ++ (if occursIn ['?', '.'] body then [.optionalChaining] else [])

/-- Adds the findings of a body that is not blank. -/
def checkBody (ctx : ExpressionContext) (f : ExpressionFindings) (body : List Char) :
    ExpressionFindings :=
  let called := if occursIn ['$', '('] body then ["$()"] else []
  let nodes := NameSet.insertAll (Reference.nodeNames body) f.nodes
  -- The nodes of earlier bodies are asked for again, but none is reported twice.
  { f with
    errors := nodeErrors ctx nodes f.errors ++ bodyErrors ctx body
    warnings := f.warnings ++ bodyWarnings body
    usedVariables := NameSet.insertAll (Reference.dollarWords body ++ called) f.usedVariables
    nodes := nodes }

def addBody (ctx : ExpressionContext) (f : ExpressionFindings) (body : List Char) :
    ExpressionFindings :=
  if allBlank body then { f with errors := f.errors ++ [.empty] } else checkBody ctx f body

/-! ## Texts and trees -/

def check (ctx : ExpressionContext) (text : String) : ExpressionFindings :=
  let scan := Scan.run text.toList
  scan.bodies.foldl (addBody ctx)
    { errors := scan.faults.map .scan, count := scan.bodies.length }

/-- Whether a string of a parameter tree is checked: it opens an expression, or it is marked as one
and closes one. -/
def isCandidate (s : String) : Bool :=
  let cs := s.toList
  occursIn opening cs || (['='].isPrefixOf cs && occursIn closing cs)

structure Located (α : Type) where
  path : String
  finding : α
  deriving Repr

/-- A message behind its field path; the empty path is not shown. -/
def locatedText (path message : String) : String :=
  if path = "" then message else path ++ ": " ++ message

structure TreeFindings where
  errors : List (Located ExpressionError) := []
  warnings : List (Located ExpressionWarning) := []
  anomalies : List Anomaly := []
  usedVariables : List String := []
  nodes : List String := []
  count : Nat := 0
  deriving Repr

namespace TreeFindings

def errorTexts (f : TreeFindings) : List String :=
  f.errors.map fun e => locatedText e.path e.finding.message

/-- The warnings of the strings, then the anomalies of the walk. -/
def warningTexts (f : TreeFindings) : List String :=
  (f.warnings.map fun w => locatedText w.path w.finding.message)
    ++ f.anomalies.map Anomaly.text

def add (path : String) (g : ExpressionFindings) (f : TreeFindings) : TreeFindings :=
  { f with
    errors := f.errors ++ g.errors.map fun e => ⟨path, e⟩
    warnings := f.warnings ++ g.warnings.map fun w => ⟨path, w⟩
    usedVariables := NameSet.insertAll g.usedVariables f.usedVariables
    nodes := NameSet.insertAll g.nodes f.nodes
    count := f.count + g.count }

end TreeFindings

def addVisit (ctx : ExpressionContext) (f : TreeFindings) (v : Visit) : TreeFindings :=
  match v.value with
  | .str s => if isCandidate s then f.add v.path (check ctx s) else f
  | _ => f

/-- The findings of all strings of a parameter tree down to a depth. -/
def checkTree (maxDepth : Number) (ctx : ExpressionContext) (tree : Value) : TreeFindings :=
  let limits : WalkLimits := { depth := maxDepth }
  (Walk.visits limits "" tree).foldl (addVisit ctx)
    { anomalies := Walk.anomalies limits "" tree }

end Expression
end Workflows
