import Workflows.Report
import Workflows.Value.Literal

/-!
# Profile — named validation policies

A profile says which families of rules run and how their findings are reported. Matters of style
are dropped, or reported as errors where the profile asks for the best practice.

Main definitions:

* `Profile`, `Profile.ofWord?`, `Profile.ofValue`;
* `Policy`, `Profile.policy`, `Policy.apply`.
-/

namespace Workflows

/-- From the most lenient to the most demanding, except that two differ only in guidance. -/
inductive Profile
  | minimal
  | runtime
  | aiFriendly
  | strict
  deriving DecidableEq, Repr

namespace Profile

def word : Profile → String
  | minimal => "minimal"
  | runtime => "runtime"
  | aiFriendly => "ai-friendly"
  | strict => "strict"

def all : List Profile := [minimal, runtime, aiFriendly, strict]

def ofWord? (w : String) : Option Profile :=
  all.find? fun p => p.word == w

structure Unknown where
  given : Value
  deriving Repr

def Unknown.message (u : Unknown) : String :=
  u.given.literal ++ " is not a valid ValidationProfile"

def ofValue (v : Value) : Except Unknown Profile :=
  match v.str?.bind ofWord? with
  | some p => .ok p
  | none => .error ⟨v⟩

end Profile

structure Policy where
  checkTypes : Bool
  runRules : Bool
  keepWarnings : Bool
  keepStyle : Bool
  promoteStyle : Bool
  includeGuidance : Bool
  deriving DecidableEq, Repr

namespace Profile

def policy : Profile → Policy
  | minimal => ⟨false, false, false, false, false, false⟩
  | runtime => ⟨true, true, true, false, false, false⟩
  | aiFriendly => ⟨true, true, true, false, false, true⟩
  | strict => ⟨true, true, true, true, true, false⟩

end Profile

namespace Policy

/-- Drops what is milder than an error unless warnings are kept. -/
def keep (p : Policy) (i : Issue) : Option Issue :=
  if !i.isError && !p.keepWarnings then none else some i

/-- The issue as it is reported, or none when it is dropped. -/
def apply (p : Policy) (i : Issue) : Option Issue :=
  if i.category = .style then
    if p.promoteStyle then some { i with severity := .error }
    else if p.keepStyle then p.keep i
    else none
  else p.keep i

end Policy
end Workflows
