import Workflows.EvalError
import Workflows.NameSet
import Workflows.Report
import Workflows.TypeName
import Workflows.Value.Literal
import Workflows.Walk

/-!
# Format — the written form of expressions in parameters

A string is only evaluated when it begins with an equals sign; without it the braces are sent as
they are. Some parameters are resource locators: objects that say whether the resource is given by
id, by name, by address, from a list or by an expression. An expression in such a parameter has to
be wrapped in a locator of mode "expression".

Main definitions:

* `FormatIssue` — a badly written value with the value that would mend it;
* `Format.locatorFields` — which parameters of a node are resource locators;
* `Format.checkValue`, `Format.checkLocator`, `Format.checkTree`.
-/

namespace Workflows

inductive FormatKind
  | missingPrefix
  | needsLocator
  | badLocator
  | mixedFormat
  deriving DecidableEq, Repr

namespace FormatKind

def word : FormatKind → String
  | missingPrefix => "missing-prefix"
  | needsLocator => "needs-resource-locator"
  | badLocator => "invalid-rl-structure"
  | mixedFormat => "mixed-format"

end FormatKind

structure FormatIssue where
  path : String
  current : Value
  corrected : Value
  kind : FormatKind
  explanation : String
  severity : Severity := .error
  deriving Repr

namespace Format

open Text

def marksExpression (s : String) : Bool :=
  occursIn ['\x7b', '\x7b'] s.toList

def hasExpression : Value → Bool
  | .str s => marksExpression s
  | _ => false

def isPrefixed (s : String) : Bool :=
  ['='].isPrefixOf s.toList

def withMark (s : String) : String :=
  if isPrefixed s then s else "=" ++ s

/-- Whether nothing stands around a single expression. -/
def isPure (s : String) : Bool :=
  let cs := strip s.toList
  ['\x7b', '\x7b'].isPrefixOf cs && ['\x7d', '\x7d'].isSuffixOf cs
    && occurrences ['\x7b', '\x7b'] cs == 1

/-- A resource locator that holds an expression. -/
def locator (s : String) : Value :=
  .obj [("__rl", .bool true), ("value", .str (withMark s)), ("mode", .str "expression")]

/-! ## Resource locators -/

def locatorModes : List String := ["expression", "id", "list", "name", "url"]

/-- The parameters that are resource locators, by short node type. -/
def knownLocators : List (String × List String) :=
  [("github", ["organization", "owner", "repository", "user"]),
    ("slack", ["channel", "channelId", "teamId", "user", "userId"]),
    ("googleSheets", ["documentId", "sheetId", "sheetName"]),
    ("googleDrive", ["driveId", "fileId", "folderId"]),
    ("notion", ["databaseId", "pageId"]),
    ("airtable", ["base", "table"]),
    ("telegram", ["chatId"]),
    ("discord", ["channelId", "guildId"]),
    ("jira", ["issueKey", "project"]),
    ("executeWorkflow", ["workflowId"]),
    ("postgres", ["schema", "table"]),
    ("mySql", ["table"])]

/-- The resource locators of a node: those its schema declares and those known for its type, in
order. The empty type is no type. -/
def locatorFields (type : String) (declared : List String) : List String :=
  let known :=
    if type = "" then []
    else (Entries.get? (TypeName.short (TypeName.normalize type)) knownLocators).getD []
  NameSet.insertAll known (NameSet.insertAll declared [])

def isLocator (fields : Entries Value) : Bool :=
  match fields.get? "__rl" with
  | some (.bool true) => true
  | _ => false

/-- Whether the mode of a locator is a known one. A list or an object cannot be looked up. -/
def knownMode (mode : Value) : Except EvalError Bool :=
  match mode with
  | .str s => .ok (locatorModes.contains s)
  | .arr _ | .obj _ | .up _ => .error .locatorMode
  | _ => .ok false

def badLocator (path : String) (fields : Entries Value) : FormatIssue :=
  let inner := (fields.get? "value").getD .null
  let detail :=
    match fields.get? "value", fields.get? "mode" with
    | none, _ => "missing 'value'"
    | some _, none => "missing 'mode'"
    | some _, some mode =>
      "unknown mode '" ++ mode.shown ++ "' (expected one of " ++ join ", " locatorModes ++ ")"
  { path := path
    current := .obj fields
    corrected := .obj
      [("__rl", .bool true), ("value", if inner.isNull then .str "" else inner),
        ("mode", .str (if hasExpression inner then "expression" else "id"))]
    kind := .badLocator
    explanation := "Resource locator is malformed: " ++ detail }

def mixedLocator (path inner mode : String) (fields : Entries Value) : FormatIssue :=
  { path := path
    current := .obj fields
    corrected := .obj ((fields.put "value" (.str (withMark inner))).put "mode" (.str "expression"))
    kind := .mixedFormat
    explanation :=
      "Resource locator holds an expression but uses mode '" ++ mode ++ "'; use mode 'expression'"
    severity := .warning }

/-- The issue of an object that is marked as a resource locator, if there is one. -/
def checkLocator (path : String) (fields : Entries Value) :
    Except EvalError (Option FormatIssue) :=
  match fields.get? "value" with
  | none => .ok (some (badLocator path fields))
  | some inner =>
    let mode := (fields.get? "mode").getD .null
    match knownMode mode with
    | .error e => .error e
    | .ok false => .ok (some (badLocator path fields))
    | .ok true =>
      match inner, mode with
      | .str s, .str m =>
        if marksExpression s && m != "expression" then .ok (some (mixedLocator path s m fields))
        else .ok none
      | _, _ => .ok none

/-! ## Strings -/

def missingPrefix (path s : String) : FormatIssue :=
  { path := path
    current := .str s
    corrected := .str (withMark s)
    kind := .missingPrefix
    explanation :=
      if isPure s then "Expression requires = prefix to be evaluated"
      else
        "Mixed literal text and expression requires = prefix for the expression to be evaluated" }

def needsLocator (path key s : String) : FormatIssue :=
  { path := path
    current := .str s
    corrected := locator s
    kind := .needsLocator
    explanation :=
      "'" ++ key ++ "' is a resource locator; an expression must be wrapped as "
        ++ "\x7b__rl: true, value: '=...', mode: 'expression'\x7d" }

/-- The issue of a single value: a string with an expression but no equals sign in front. -/
def checkValue (path : String) : Value → Option FormatIssue
  | .str s => if marksExpression s && !isPrefixed s then some (missingPrefix path s) else none
  | _ => none

/-! ## Trees -/

/-- The key of a value that stands at the top of the tree, where path and key are the same text. -/
def topKey? (v : Visit) : Option String :=
  v.key?.filter (· == v.path)

def checkVisit (locators : List String) (v : Visit) : Except EvalError (Option FormatIssue) :=
  match v.value with
  | .obj fields => if isLocator fields then checkLocator v.path fields else .ok none
  | .str s =>
    -- Locators are parameters of the node itself, so only strings at the top are asked for one.
    match (topKey? v).filter locators.contains with
    | some key =>
      .ok (if marksExpression s then some (needsLocator v.path key s) else none)
    | none => .ok (checkValue v.path v.value)
  | _ => .ok none

/-- The issues of the values met on a walk, in order. -/
def checkVisits (locators : List String) : List Visit → Except EvalError (List FormatIssue)
  | [] => .ok []
  | v :: rest =>
    match checkVisit locators v with
    | .error e => .error e
    | .ok found =>
      match checkVisits locators rest with
      | .error e => .error e
      | .ok more => .ok (found.toList ++ more)

structure Findings where
  issues : List FormatIssue
  anomalies : List Anomaly
  deriving Repr

namespace Findings

def valid (f : Findings) : Bool :=
  f.issues.all fun i => i.severity != .error

end Findings

/-- Checks every value of a parameter tree. Private entries are left out. -/
def checkTree (maxDepth : Number) (locators : List String) (tree : Value) :
    Except EvalError Findings :=
  let limits : WalkLimits := { depth := maxDepth, skipPrivate := true }
  match checkVisits locators (Walk.visits limits "" tree) with
  | .error e => .error e
  | .ok issues => .ok ⟨issues, Walk.anomalies limits "" tree⟩

end Format
end Workflows
