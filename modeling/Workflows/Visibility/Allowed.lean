import Workflows.EvalError
import Workflows.Text.Pieces
import Workflows.Value

/-!
# Allowed — allow-lists of parameter values

An allow-list is a list of values, or a single value that stands for the list of itself. A value
matches when one entry allows it; a list of values matches when one of its items is allowed. An
entry may be a condition, an object with the key `_cnd` that gives operators and operands, all of
which have to hold.

A parameter that is absent matches nothing but the condition that asks for its existence.

Main definitions:

* `Allowed.equal` — equality that keeps truth values and numbers apart;
* `Allowed.compare` — one operator of a condition;
* `Allowed.allows` — whether an allow-list allows a value, or none.
-/

namespace Workflows
namespace Allowed

/-- Equality in which a truth value equals truth values only. Inside lists and objects the equality
of contents decides, which takes the truth values for 0 and 1. -/
def equal : Value → Value → Bool
  | .bool a, .bool b => a == b
  -- The truth values are numbers for `sameAs`, so they are taken out first.
  | .bool _, _ => false
  | _, .bool _ => false
  | a, b => a.sameAs b

def ordering? (operator : String) : Option (Number → Number → Bool) :=
  match operator with
  | "gt" => some fun value operand => operand.lt value
  | "gte" => some fun value operand => operand.le value
  | "lt" => some fun value operand => value.lt operand
  | "lte" => some fun value operand => value.le operand
  | _ => none

def textTest? (operator : String) : Option (String → String → Bool) :=
  match operator with
  | "startsWith" => some fun value operand => Text.startsWith operand value
  | "endsWith" => some fun value operand => Text.endsWith operand value
  | "includes" => some fun value operand => Text.contains operand value
  | _ => none

/-- One operator on a value that is present. Order is a question about numbers, and the operand has
to be one; the tests of texts need a text as operand. -/
def compareValue (value : Value) (operator : String) (operand : Value) : Except EvalError Bool :=
  if operator = "eq" then .ok (equal value operand)
  else if operator = "not" then .ok (!equal value operand)
  else
    match ordering? operator with
    | some test =>
      match value with
      | .num n =>
        -- The value has to be a number proper, while the operand may be a truth value.
        match operand.asNumber? with
        | some m => .ok (test n m)
        | none => .error .unorderedOperand
      | _ => .ok false
    | none =>
      match value with
      | .str s =>
        match textTest? operator with
        | some test =>
          match operand with
          | .str t => .ok (test s t)
          | _ => .error .textOperand
        | none => .ok false
      | _ => .ok false

def compare (value : Option Value) (operator : String) (operand : Value) :
    Except EvalError Bool :=
  if operator = "exists" then .ok value.isSome
  else
    match value with
    | none => .ok false
    | some v => compareValue v operator operand

/-- Whether all operators hold; the first that does not ends the search. -/
def allHold (value : Option Value) : Entries Value → Except EvalError Bool
  | [] => .ok true
  | (operator, operand) :: rest =>
    match compare value operator operand with
    | .error e => .error e
    | .ok false => .ok false
    | .ok true => allHold value rest

/-- Whether a condition holds for one of the candidates. A condition that counts as absent always
holds, any other has to be an object. -/
def holdsForSome (condition : Value) : List (Option Value) → Except EvalError Bool
  | [] => .ok false
  | candidate :: rest =>
    let answer : Except EvalError Bool :=
      match condition with
      | .obj operators => allHold candidate operators
      -- Null, zero and the like hold no operators, so none of them fails.
      | c => if c.isPresent then .error .conditionsNotObject else .ok true
    match answer with
    | .error e => .error e
    | .ok true => .ok true
    | .ok false => holdsForSome condition rest

/-- The values one of which has to be allowed: the items of a list, or the value itself. -/
def candidates : Option Value → List (Option Value)
  | some (.arr items) => items.map some
  | value => [value]

def condition? : Value → Option Value
  | .obj fields => Entries.get? "_cnd" fields
  | _ => none

/-- Whether one entry allows the value. -/
def entryAllows (value : Option Value) (entry : Value) : Except EvalError Bool :=
  match condition? entry with
  | some condition => holdsForSome condition (candidates value)
  | none =>
    .ok ((candidates value).any fun
      | some v => equal v entry
      | none => false)

/-- Whether one of the entries allows the value; the first that does ends the search. -/
def someAllows (value : Option Value) : List Value → Except EvalError Bool
  | [] => .ok false
  | entry :: rest =>
    match entryAllows value entry with
    | .error e => .error e
    | .ok true => .ok true
    | .ok false => someAllows value rest

def entries : Value → List Value
  | .arr items => items
  | v => [v]

/-- Whether an allow-list allows a value, which may be absent. -/
def allows (value : Option Value) (allowed : Value) : Except EvalError Bool :=
  someAllows value (entries allowed)

end Allowed
end Workflows
