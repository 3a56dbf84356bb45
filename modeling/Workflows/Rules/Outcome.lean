import Workflows.Report
import Workflows.Value.Literal

/-!
# Outcome — what the rules of a node find

A rule looks at the parameters of a node and gives its findings, the parameters it would set, and
suggestions. The outcomes of several rules are joined in order; a later proposal for a parameter
replaces an earlier one.

Main definitions:

* `Outcome`, `Outcome.join`;
* `Outcome.error`, `Outcome.style`, `Outcome.security` — outcomes of one finding.
-/

namespace Workflows

structure Outcome where
  issues : List Issue := []
  autofix : Entries Value := []
  suggestions : List String := []
  deriving Repr

namespace Outcome

def none : Outcome := {}

def append (a b : Outcome) : Outcome :=
  { issues := a.issues ++ b.issues
    autofix := a.autofix.merge b.autofix
    suggestions := a.suggestions ++ b.suggestions }

instance : Append Outcome := ⟨append⟩

def join (os : List Outcome) : Outcome :=
  os.foldl append none

def ofIssue (i : Issue) : Outcome :=
  { issues := [i] }

def error (path message : String) : Issue :=
  { severity := .error
    category := .rule
    code := "invalid_value"
    path := some path
    message := message }

/-- A departure from good practice. -/
def style (path message : String) : Issue :=
  { severity := .warning
    category := .style
    code := "best_practice"
    path := some path
    message := message }

/-- A danger to data or secrets. -/
def security (path message : String) : Issue :=
  { severity := .warning
    category := .security
    code := "security"
    path := some path
    message := message }

/-- An outcome that is only there when a condition holds. -/
def whenever (condition : Bool) (o : Outcome) : Outcome :=
  if condition then o else none

end Outcome

/-! ## Parameters -/

namespace Parameters

def text? (key : String) (ps : Entries Value) : Option String :=
  (ps.get? key).bind Value.str?

/-- Whether a parameter is set to something that counts as present. -/
def isSet (key : String) (ps : Entries Value) : Bool :=
  (ps.get? key).any Value.isPresent

def isText (key text : String) (ps : Entries Value) : Bool :=
  text? key ps == some text

def isExpressionText (s : String) : Bool :=
  ['='].isPrefixOf s.toList

def isExpression : Value → Bool
  | .str s => isExpressionText s
  | _ => false

end Parameters
end Workflows
