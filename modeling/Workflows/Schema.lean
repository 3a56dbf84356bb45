import Workflows.Shape.Fault
import Workflows.Text.Pieces
import Workflows.Value.Literal

/-!
# Schema — rules for files, and the fault that is told

A schema is a list of rules that a value has to keep. Checking it finds every breach; of these one
is told to the user: a breach close to the root before a deep one. When no alternative of a choice
fits, the breach of an alternative is told if one of them stands out, and else that of the choice.

Main definitions:

* `Rule`, `Schema` — the rules;
* `Breach`, `Breach.message` — the ways to break them;
* `Schema.faults` — all breaches of a value, in the order of the rules;
* `Schema.check` — the breach that is told, if there is any.
-/

namespace Workflows

/-! ## Rules -/

/-- Kinds of values. A whole floating-point number is an integer, a truth value no number. -/
inductive Kind
  | string
  | number
  | integer
  | boolean
  | array
  | object
  | null
  deriving DecidableEq, Repr

namespace Kind

def word : Kind → String
  | string => "string"
  | number => "number"
  | integer => "integer"
  | boolean => "boolean"
  | array => "array"
  | object => "object"
  | null => "null"

def holds : Kind → Value → Bool
  | string, .str _ => true
  | number, .num _ => true
  | integer, .num n => n.isWhole
  | boolean, .bool _ => true
  | array, .arr _ => true
  | object, .obj _ => true
  | null, .null => true
  | _, _ => false

end Kind

/-- A rule for a value. A rule for values of one kind is kept by values of all others. -/
inductive Rule
  | ofKind (kinds : List Kind)
  | required (keys : List String)
  /-- Objects have no other keys. -/
  | closed (keys : List String)
  /-- What an object has at a key keeps further rules. -/
  | field (key : String) (rules : List Rule)
  | items (rules : List Rule)
  | filled
  | oneOf (alternatives : List (List Rule))
  | among (words : List String)
  | atLeast (bound : Int)
  | atMost (bound : Int)
  /-- Strings are names with a package in front. -/
  | qualifiedName

abbrev Schema := List Rule

/-! ## Breaches -/

inductive Breach
  | wrongKind (v : Value) (kinds : List Kind)
  | missing (key : String)
  | unexpected (keys : List String)
  | empty
  | noAlternative (v : Value)
  | notAmong (v : Value) (words : List String)
  | tooSmall (v : Value) (bound : Int)
  | tooGreat (v : Value) (bound : Int)
  | notQualified (s : String)
  deriving Repr

namespace Breach

def qualifiedForm : String := "^[A-Za-z0-9@/_-]+\\.[A-Za-z0-9_]+$"

def quotedList (words : List String) : String :=
  Text.join ", " (words.map Text.quoted)

def message : Breach → String
  | wrongKind v kinds => v.literal ++ " is not of type " ++ quotedList (kinds.map Kind.word)
  | missing key => Text.quoted key ++ " is a required property"
  | unexpected keys =>
    "Additional properties are not allowed (" ++ quotedList keys
      ++ (if keys.length = 1 then " was" else " were") ++ " unexpected)"
  | empty => "[] should be non-empty"
  | noAlternative v => v.literal ++ " is not valid under any of the given schemas"
  | notAmong v words => v.literal ++ " is not one of [" ++ quotedList words ++ "]"
  | tooSmall v bound => v.literal ++ " is less than the minimum of " ++ toString bound
  | tooGreat v bound => v.literal ++ " is greater than the maximum of " ++ toString bound
  | notQualified s => Text.quoted s ++ " does not match " ++ Text.quoted qualifiedForm

end Breach

/-- What is told about a value: where a rule is broken, and how. -/
structure Complaint where
  place : Place
  breach : Breach
  deriving Repr

namespace Complaint

def stepText : PlaceStep → String
  | .key name => name
  | .index i => toString i

def text (c : Complaint) : String :=
  c.breach.message ++ "\nPath: " ++ Text.join " -> " (c.place.map stepText)

def under (step : PlaceStep) (c : Complaint) : Complaint :=
  { c with place := step :: c.place }

end Complaint

/-- A breach with what decides whether it is told. -/
structure SchemaFault where
  place : Place
  /-- Whether the breach is that no alternative fits. -/
  ofChoice : Bool
  /-- Whether the value is of a kind that the rules ask for. -/
  kindFits : Bool
  /-- What is told when this breach is chosen. -/
  told : Complaint
  deriving Repr

namespace SchemaFault

def direct (kindFits : Bool) (b : Breach) : SchemaFault :=
  ⟨[], false, kindFits, ⟨[], b⟩⟩

def under (step : PlaceStep) (f : SchemaFault) : SchemaFault :=
  { f with place := step :: f.place, told := f.told.under step }

def stepOrder : PlaceStep → PlaceStep → Ordering
  | .key a, .key b => compare a b
  | .index i, .index j => compare i j
  | .key _, .index _ => .gt
  | .index _, .key _ => .lt

def placeOrder : Place → Place → Ordering
  | [], [] => .eq
  | [], _ :: _ => .lt
  | _ :: _, [] => .gt
  | a :: as, b :: bs => (stepOrder a b).then (placeOrder as bs)

/-- The order in which breaches matter: shallow ones more than deep ones, those of later places
more, and least that no alternative fits or that the kind is right. -/
def order (a b : SchemaFault) : Ordering :=
  (((compare b.place.length a.place.length).then (placeOrder a.place b.place)).then
    (compare (!a.ofChoice) (!b.ofChoice))).then (compare (!a.kindFits) (!b.kindFits))

/-- The first of the breaches that matter most. -/
def foremost? : List SchemaFault → Option SchemaFault
  | [] => none
  | f :: rest => some (rest.foldl (fun best g => if order g best == .gt then g else best) f)

/-- The breach that matters least, when there is only one such breach. -/
def least? : List SchemaFault → Option SchemaFault
  | [] => none
  | f :: rest =>
    -- The first of several that matter equally little, which then are not told at all.
    let least := rest.foldl (fun best g => if order g best == .lt then g else best) f
    if ((f :: rest).filter fun g => order g least == .eq).length = 1 then some least else none

/-- The breach of a choice none of whose alternatives fits; `inner` holds their breaches. -/
def choice (kindFits : Bool) (v : Value) (inner : List SchemaFault) : SchemaFault :=
  ⟨[], true, kindFits, ((least? inner).map SchemaFault.told).getD ⟨[], .noAlternative v⟩⟩

end SchemaFault

/-! ## Checking -/

/-- Whether a string is a package, a point, and a name. A line break may end it. -/
def isQualifiedName (s : String) : Bool :=
  let package := fun c : Char =>
    c.isAlphanum || c == '@' || c == '/' || c == '_' || c == '-'
  let front := s.toList.takeWhile package
  match s.toList.dropWhile package with
  | '.' :: rest =>
    let word := fun c : Char => c.isAlphanum || c == '_'
    let behind := rest.dropWhile word
    !front.isEmpty && !(rest.takeWhile word).isEmpty && (behind.isEmpty || behind == ['\n'])
  | _ => false

namespace Schema

/-- Whether some rules ask for kinds, one of which the value is of. -/
def kindFits (v : Value) (rules : Schema) : Bool :=
  rules.any fun
    | .ofKind kinds => kinds.any fun k => k.holds v
    | _ => false

mutual

/-- The breaches of one of the rules for a value. -/
def ruleFaults (fits : Bool) (v : Value) : Rule → List SchemaFault
  | .ofKind kinds =>
    if kinds.any fun k => k.holds v then [] else [.direct fits (.wrongKind v kinds)]
  | .required keys =>
    match v with
    | .obj es =>
      (keys.filter fun k => !Entries.has k es).map fun k => .direct fits (.missing k)
    | _ => []
  | .closed keys =>
    match v with
    | .obj es =>
      -- All keys that are too many make one breach.
      let extra := (Entries.keys es).filter fun k => !keys.contains k
      if extra.isEmpty then []
      else [.direct fits (.unexpected (extra.mergeSort fun a b => !(b < a)))]
    | _ => []
  | .field key rules =>
    match v with
    | .obj es =>
      match Entries.get? key es with
      | some w => (allFaults (kindFits w rules) w rules).map (SchemaFault.under (.key key))
      | none => []
    | _ => []
  | .items rules =>
    match v with
    | .arr items =>
      items.zipIdx.flatMap fun (w, i) =>
        (allFaults (kindFits w rules) w rules).map (SchemaFault.under (.index i))
    | _ => []
  | .filled =>
    match v with
    | .arr [] => [.direct fits .empty]
    | _ => []
  | .oneOf alternatives =>
    match alternativeFaults v alternatives with
    | none => []
    | some inner => [.choice fits v inner]
  | .among words =>
    match v with
    | .str s => if words.contains s then [] else [.direct fits (.notAmong v words)]
    -- Unlike the rules above, this one is broken by values of every other kind.
    | _ => [.direct fits (.notAmong v words)]
  | .atLeast bound =>
    match v with
    | .num n => if n.lt (.int bound) then [.direct fits (.tooSmall v bound)] else []
    | _ => []
  | .atMost bound =>
    match v with
    | .num n => if (Number.int bound).lt n then [.direct fits (.tooGreat v bound)] else []
    | _ => []
  | .qualifiedName =>
    match v with
    | .str s => if isQualifiedName s then [] else [.direct fits (.notQualified s)]
    | _ => []

def allFaults (fits : Bool) (v : Value) : List Rule → List SchemaFault
  | [] => []
  | r :: rest => ruleFaults fits v r ++ allFaults fits v rest

def alternativeFaults (v : Value) : List (List Rule) → Option (List SchemaFault)
  | [] => some []
  | rules :: rest =>
    match allFaults (kindFits v rules) v rules with
    -- The first alternative that fits makes the others irrelevant.
    | [] => none
    | f :: more => (alternativeFaults v rest).map (f :: more ++ ·)

end

def faults (s : Schema) (v : Value) : List SchemaFault :=
  allFaults (kindFits v s) v s

/-- The breach that is told about a value, if there is any. -/
def check (s : Schema) (v : Value) : Option Complaint :=
  (SchemaFault.foremost? (s.faults v)).map SchemaFault.told

end Schema
end Workflows
