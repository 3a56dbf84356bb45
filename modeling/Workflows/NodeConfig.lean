import Workflows.Profile
import Workflows.Rules
import Workflows.Text.Fold
import Workflows.Visibility.Resolver
import Workflows.Walk

/-!
# NodeConfig — checks of the parameters of one node

The parameters of a node are checked against the properties of its type: those that apply and are
required have to be set, values have to be of the declared type, parameters that do not apply are
pointed out, and texts that look like secrets are, too. The rules of the node type add their
findings. A profile decides which checks run and what is reported.

Main definitions:

* `NodeConfig` — a node's type, parameters and properties;
* `NodeConfig.findings` — everything the checks find, before the profile is applied;
* `NodeConfig.check` — the outcome under a profile.
-/

namespace Workflows

structure NodeConfig where
  type : String
  parameters : Entries Value
  /-- The properties as the catalog gives them. -/
  schema : List Value
  typeVersion : Option Number := none
  nodeName : Option String := none
  deriving Repr

structure ConfigReport where
  errors : List Issue := []
  warnings : List Issue := []
  suggestions : List String := []
  visible : List String := []
  hidden : List String := []
  autofix : Entries Value := []
  nextSteps : List String := []
  examples : List Value := []
  profile : Profile := .runtime
  deriving Repr

/-! ## Duplicates -/

namespace Issue

/-- The issues whose key occurs neither before in the list nor among those seen. -/
def firstBy {κ : Type} [BEq κ] (key : Issue → κ) (seen : List κ) : List Issue → List Issue
  | [] => []
  | i :: rest =>
    if seen.contains (key i) then firstBy key seen rest
    else i :: firstBy key (key i :: seen) rest

def distinct (issues : List Issue) : List Issue :=
  firstBy (fun i => (i.path, i.code)) [] issues

def distinctByMessage (issues : List Issue) : List Issue :=
  firstBy (fun i => (i.path, i.code, i.message)) [] issues

end Issue

namespace NodeConfig

/-! ## Properties -/

/-- The properties that can be read, in order. -/
def properties (c : NodeConfig) : List Property :=
  c.schema.filterMap fun v => (Property.decode v).value?

def malformed (type : String) (index : Nat) : Issue :=
  { severity := .warning
    category := .anomaly
    code := "malformed_schema"
    path := some ("properties[" ++ toString index ++ "]")
    message :=
      "Schema entry #" ++ toString index ++ " of " ++ type ++ " is malformed and was skipped" }

def malformedIssues (c : NodeConfig) : List Issue :=
  c.schema.zipIdx.filterMap fun (v, i) =>
    match Property.decode v with
    | .ok _ => none
    | .faulty _ _ => some (malformed c.type i)

/-- The parameters, those that are not set having the default of the first property of the name
that has one. -/
def withDefaults (ps : Entries Value) : List Property → Entries Value
  | [] => ps
  -- A default that is null leaves the name to later properties.
  | p :: rest => withDefaults (if p.default.isNull then ps else ps.putNew p.name p.default) rest

def resolver (c : NodeConfig) : Resolver :=
  { properties := c.properties
    config := withDefaults c.parameters c.properties
    typeVersion := c.typeVersion }

/-! ## Required properties -/

/-- Whether a parameter is missing, null or the empty text. -/
def isUnset (ps : Entries Value) (name : String) : Bool :=
  match ps.get? name with
  | none | some .null => true
  | some (.str s) => s == ""
  | _ => false

def missingRequired (p : Property) : Issue :=
  let label := if (p.displayName.getD "") = "" then p.name else p.displayName.getD ""
  { severity := .error
    category := .required
    code := "missing_required"
    path := some p.name
    message := "Required property '" ++ label ++ "' is missing"
    fix := some ("Add a value for '" ++ p.name ++ "'") }

def requiredIssues (ps : Entries Value) (visible : List Property) : List Issue :=
  (visible.filter fun p => p.required && !p.hasDefault && isUnset ps p.name).map missingRequired

/-! ## Types -/

def typeIssue (p : Property) (expected : String) (v : Value) : Issue :=
  { severity := .error
    category := .type
    code := "invalid_type"
    path := some p.name
    message := "Property '" ++ p.name ++ "' must be " ++ expected ++ ", got " ++ v.kind }

def valueIssue (p : Property) (message : String) : Issue :=
  { severity := .error
    category := .type
    code := "invalid_value"
    path := some p.name
    message := message }

/-- What the values of a type of properties are called, and which they are. Types that are not
listed take any value. -/
def expectation? (type : String) : Option (String × (Value → Bool)) :=
  match type with
  | "string" => some ("a string", fun v => v.str?.isSome)
  | "number" => some ("a number", fun
    | .num _ => true
    | _ => false)
  | "boolean" => some ("a boolean", fun
    | .bool _ => true
    | _ => false)
  | "collection" | "fixedCollection" => some ("an object", fun v => v.obj?.isSome)
  | "multiOptions" => some ("a list", fun v => v.arr?.isSome)
  | "resourceLocator" =>
    some ("a string or resource locator", fun v => v.str?.isSome || v.obj?.isSome)
  | _ => none

def optionIssue (p : Property) (item : Value) : Issue :=
  { valueIssue p ("Invalid value for '" ++ p.name ++ "': " ++ item.literal) with
    fix := some ("Must be one of: " ++ Text.join ", " ((p.optionValues.take 10).map Value.shown)) }

/-- The findings for a value of a choice; without options every value is allowed. -/
def optionIssues (p : Property) (v : Value) : List Issue :=
  let unknown := fun (selected : List Value) =>
    if p.optionValues.isEmpty then []
    else
      (selected.filter fun item => !p.optionValues.any (Allowed.equal item)).map (optionIssue p)
  if p.type = "multiOptions" then
    match v with
    | .arr items => unknown items
    | _ => [typeIssue p "a list" v]
  else unknown [v]

/-- The findings for a value that is data or the text of data. -/
def jsonIssues (p : Property) (v : Value) : List Issue :=
  match v with
  | .str s =>
    match Value.read s with
    | .ok _ => []
    | .error e =>
      [valueIssue p ("Property '" ++ p.name ++ "' contains invalid JSON: " ++ e.message)]
  | .arr _ | .obj _ | .up _ => []
  | _ => [typeIssue p "JSON text or an object" v]

def valueIssues (p : Property) (v : Value) : List Issue :=
  -- What an expression evaluates to is not known.
  if v.isNull || Parameters.isExpression v then []
  else if p.type = "options" ∨ p.type = "multiOptions" then optionIssues p v
  else if p.type = "json" then jsonIssues p v
  else
    match expectation? p.type with
    | some (expected, test) => if test v then [] else [typeIssue p expected v]
    | none => []

/-- The findings for the values of the properties; of several properties of one name only the
first counts. -/
def typeIssues (ps : Entries Value) (checked : List String) : List Property → List Issue
  | [] => []
  | p :: rest =>
    match ps.get? p.name with
    | none => typeIssues ps checked rest
    | some v =>
      if checked.contains p.name then typeIssues ps checked rest
      else valueIssues p v ++ typeIssues ps (p.name :: checked) rest

/-! ## Parameters without effect -/

/-- The condition shown for a parameter that does not apply: that of the first property of its name
that has one. -/
def shownWhen (properties : List Property) (name : String) : String :=
  let conditions :=
    (properties.filter (·.name == name)).filterMap fun p => p.condition.map (·.showWhen)
  match conditions with
  | (e :: more) :: _ => " (shown when " ++ (Value.obj (e :: more)).literal ++ ")"
  | _ => ""

def unusedIssue (properties : List Property) (name : String) : Issue :=
  { Outcome.style name
      ("Property '" ++ name ++ "' is configured but won't be used" ++ shownWhen properties name)
    with
    code := "hidden_property" }

/-- The parameters that belong to properties none of which applies. -/
def unusedIssues (properties visible : List Property) (ps : Entries Value) : List Issue :=
  (ps.keys.filter fun name =>
    properties.any (·.name == name) && !visible.any (·.name == name)).map
    (unusedIssue properties)

/-! ## Secrets -/

/-- The words in the names of parameters that hold secrets. -/
def secretWords : List String :=
  ["api_key", "api-key", "apikey", "password", "passwd", "secret", "token", "credential"]

def namesSecret (key : String) : Bool :=
  secretWords.any fun w => Text.occursIn w.toList (Text.fold key.toList)

/-- The finding for a value that stands under the name of a secret. -/
def secretIssue? (v : Visit) : Option Issue :=
  match v.key?, v.value with
  | some key, .str s =>
    if namesSecret key && !Text.allBlank s.toList && !Parameters.isExpressionText s then
      some
        { Outcome.security v.path ("'" ++ key ++ "' appears to contain a hardcoded secret") with
          fix := some "Store it in credentials or reference it through an expression" }
    else none
  | _, _ => none

def secretIssues (ps : Entries Value) : List Issue :=
  (Walk.visits { skipPrivate := true } "" (.obj ps)).filterMap secretIssue?

/-! ## All findings -/

/-- The findings in the order in which the checks run, given the properties that apply. -/
def findings (policy : Policy) (c : NodeConfig) (visible : List Property) : Outcome :=
  -- Entries that cannot be read and missing values are reported whatever the policy is.
  { issues := c.malformedIssues ++ requiredIssues c.parameters visible
      ++ (if policy.checkTypes then typeIssues c.parameters [] visible else []) }
    ++ .whenever policy.runRules
        (Rules.run c.type c.parameters
          ++ { issues :=
                unusedIssues c.properties visible c.parameters ++ secretIssues c.parameters })

def reported (policy : Policy) (c : NodeConfig) (issues : List Issue) : List Issue :=
  issues.filterMap fun i => policy.apply { i with nodeName := c.nodeName }

/-- What to do next, from the outcome. -/
def nextSteps (r : ConfigReport) : List String :=
  let paths := fun (codes : List String) =>
    (r.errors.filter fun e => codes.contains e.code).map fun e => e.path.getD ""
  let listed := fun (head : String) (ps : List String) =>
    if ps.isEmpty then [] else [head ++ Text.join ", " (ps.filter (· != ""))]
  let steps :=
    listed "Add required properties: " (paths ["missing_required"])
      ++ listed "Correct the values of: " (paths ["invalid_type", "invalid_value"])
      ++ (if r.errors.any (·.code == "incompatible") then
            ["Resolve incompatible settings before running the node"]
          else [])
      ++ (if r.autofix.isEmpty then []
          else ["Apply the suggested autofix for: " ++ Text.join ", " r.autofix.keys])
      ++ (if r.warnings.isEmpty then []
          else ["Review " ++ toString r.warnings.length ++ " warning(s)"])
  if steps.isEmpty then ["Configuration looks valid; validate the whole workflow next"] else steps

/-- The outcome, given the properties that apply. -/
def reportOf (profile : Profile) (c : NodeConfig) (visible : List Property) : ConfigReport :=
  let policy := profile.policy
  let outcome := findings policy c visible
  let all := reported policy c outcome.issues
  let shown := (visible.map (·.name)).eraseDups
  let base : ConfigReport :=
    -- Warnings of one path and code that say different things are all kept.
    { errors := Issue.distinct (all.filter Issue.isError)
      warnings := Issue.distinctByMessage (all.filter fun i => !i.isError)
      suggestions := outcome.suggestions
      visible := shown
      hidden := ((c.properties.map (·.name)).eraseDups).filter fun n => !shown.contains n
      autofix := outcome.autofix
      profile := profile }
  if policy.includeGuidance then
    { base with nextSteps := nextSteps base, examples := Rules.examples c.type }
  else base

/-- The outcome of checking a node under a profile. There is none when a condition of a property
asks a question that has no answer. -/
def check (profile : Profile) (c : NodeConfig) : Except EvalError ConfigReport :=
  match (c.resolver.visibleProperties.run {}).1 with
  | .error e => .error e
  | .ok visible => .ok (reportOf profile c visible)

end NodeConfig
end Workflows
