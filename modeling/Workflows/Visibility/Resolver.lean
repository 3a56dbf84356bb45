import Workflows.NodeType.Property
import Workflows.Visibility.Allowed

/-!
# Resolver — which properties apply

A property applies while its condition holds for the parameters of the node. A parameter that a
condition mentions counts as absent when it is not set, or when it is itself a property none of
whose entries applies; so conditions can build on each other. A property whose condition leads back
to itself does not apply.

Answers are remembered. The entries whose conditions are being evaluated form a stack; meeting one
of them again marks all from there to the top as cyclic. Every entry is on the stack at most once,
so the nesting is bounded by the number of entries, which is the fuel of `visible`.

Main definitions:

* `Resolver` — properties, parameters and version;
* `Resolver.Query` — a question that may be answered from memory, or have no answer;
* `Resolver.isVisible`, `Resolver.isNameVisible`, `Resolver.visibleProperties`.
-/

namespace Workflows

structure Resolver where
  properties : List Property
  config : Entries Value
  typeVersion : Option Number := none
  deriving Repr

namespace Resolver

/-- The key under which conditions ask for the version of the node. -/
def versionKey : String := "@version"

/-- The answers given so far, by position of the property, and the positions on cycles. -/
structure Memory where
  answers : List (Nat × Bool) := []
  cyclic : List Nat := []
  deriving Repr

/-- A question to a resolver. What was remembered stays, also when there is no answer. -/
abbrev Query := ExceptT EvalError (StateM Memory)

/-! ## Conditions -/

/-- Whether every allow-list of the first kind matches. -/
def allMatch (lookup : String → Query (Option Value)) : Entries Value → Query Bool
  | [] => pure true
  | (key, allowed) :: rest => do
    let value ← lookup key
    let matched ← ExceptT.mk (pure (Allowed.allows value allowed))
    if matched then allMatch lookup rest else pure false

/-- Whether no allow-list of the second kind matches. -/
def noneMatches (lookup : String → Query (Option Value)) : Entries Value → Query Bool
  | [] => pure true
  | (key, allowed) :: rest => do
    let value ← lookup key
    let matched ← ExceptT.mk (pure (Allowed.allows value allowed))
    if matched then pure false else noneMatches lookup rest

/-- Whether a condition holds, given the values of the parameters it mentions. -/
def holds (lookup : String → Query (Option Value)) : Option Condition → Query Bool
  | none => pure true
  | some c => do
    let shown ← allMatch lookup c.showWhen
    if shown then noneMatches lookup c.hideWhen else pure false

/-! ## Properties and names -/

def positions (r : Resolver) (name : String) : List Nat :=
  (r.properties.zipIdx.filter fun p => p.1.name == name).map Prod.snd

/-- Whether some property is visible; the first that is ends the search. -/
def anyVisible (visible : Nat → Query Bool) : List Nat → Query Bool
  | [] => pure false
  | i :: rest => do
    let v ← visible i
    if v then pure true else anyVisible visible rest

/-- The value a condition sees for a parameter. -/
def siblingValue (r : Resolver) (visible : Nat → Query Bool) (name : String) :
    Query (Option Value) :=
  if name = versionKey then pure (r.typeVersion.map .num)
  else
    match r.config.get? name with
    | none | some .null => pure none
    | some value =>
      -- A parameter that is none of the type's counts as it is set.
      match r.positions name with
      | [] => pure (some value)
      | i :: more => do
        let v ← anyVisible visible (i :: more)
        pure (if v then some value else none)

/-- The stack, innermost first, down to and with an entry. -/
def downTo (i : Nat) (stack : List Nat) : List Nat :=
  stack.takeWhile (· != i) ++ [i]

/-- Remembers an answer; an entry on a cycle is hidden whatever its condition says. -/
def settle (i : Nat) (answer : Bool) : Query Bool := do
  let memory ← get
  -- The marks are those made by now, also by conditions that were evaluated on the way.
  let visible := answer && !memory.cyclic.contains i
  set { memory with answers := (i, visible) :: memory.answers }
  pure visible

/-- Whether the property at a position applies, while the conditions of those on the stack are
being evaluated. -/
def visible (r : Resolver) : Nat → List Nat → Nat → Query Bool
  -- With fuel for every entry that is not on the stack, this case is not reached.
  | 0, _, _ => pure false
  | fuel + 1, stack, i => do
    let memory ← get
    match memory.answers.lookup i with
    | some answer => pure answer
    | none =>
      if stack.contains i then
        -- The entry leads back to itself, and so do all that are being evaluated above it.
        set { memory with cyclic := downTo i stack ++ memory.cyclic }
        pure false
      else
        match r.properties[i]? with
        | none => pure false
        | some p =>
          let answer ← holds (r.siblingValue (visible r fuel (i :: stack))) p.condition
          settle i answer

def isVisible (r : Resolver) (i : Nat) : Query Bool :=
  r.visible (r.properties.length + 1) [] i

/-- Whether a parameter applies: one of its properties does, or it is none of the type's. -/
def isNameVisible (r : Resolver) (name : String) : Query Bool :=
  match r.positions name with
  | [] => pure true
  | i :: more => anyVisible r.isVisible (i :: more)

/-- The positions of the given ones at which the property applies. -/
def visibleAmong (r : Resolver) : List Nat → Query (List Nat)
  | [] => pure []
  | i :: rest => do
    let v ← r.isVisible i
    let more ← r.visibleAmong rest
    pure (if v then i :: more else more)

def visiblePositions (r : Resolver) : Query (List Nat) :=
  r.visibleAmong (List.range r.properties.length)

def visibleProperties (r : Resolver) : Query (List Property) := do
  let is ← r.visiblePositions
  pure (is.filterMap fun i => r.properties[i]?)

def hiddenProperties (r : Resolver) : Query (List Property) := do
  let is ← r.visiblePositions
  pure (r.properties.zipIdx.filterMap fun (p, i) => if is.contains i then none else some p)

def names (r : Resolver) : List String :=
  (r.properties.map (·.name)).eraseDups

end Resolver
end Workflows
