import Workflows.Number.Numeral
import Workflows.Shape.Fault
import Workflows.Value

/-!
# Decoded — values checked against a shape, with all faults

A check of a value gives the typed form of the value or every fault in it, in order. Checks of the
parts of a value are put together with the applicative operations, which keep the faults of both
sides.

Fields of objects may have two spellings, one for texts and one for programs; the first is looked
up before the second, and a fault lies at the key that was read.

Main definitions:

* `Decoded` — a result or a non-empty list of faults;
* `FieldName`, `FieldName.find?` — the two spellings of a field and its value in an object;
* `required`, `optional`, `leftovers` — reading the fields of an object;
* `string`, `integer`, `number`, `boolean`, `list`, `object` and their relatives — kinds of values.
-/

namespace Workflows

inductive Decoded (α : Type)
  | ok (value : α)
  | faulty (first : Fault) (more : List Fault)
  deriving Repr

namespace Decoded

variable {α β : Type}

def map (f : α → β) : Decoded α → Decoded β
  | ok a => ok (f a)
  | faulty e more => faulty e more

/-- Applies a checked function to a checked argument; the faults of the function come first. -/
def apply : Decoded (α → β) → Decoded α → Decoded β
  | ok f, ok a => ok (f a)
  | ok _, faulty e more => faulty e more
  | faulty e more, ok _ => faulty e more
  | faulty e more, faulty e' more' => faulty e (more ++ e' :: more')

instance : Applicative Decoded where
  pure := ok
  map := map
  seq f a := apply f (a ())

/-- Continues with a check that needs the result; it is not made when there are faults. -/
def bind (d : Decoded α) (f : α → Decoded β) : Decoded β :=
  match d with
  | ok a => f a
  | faulty e more => faulty e more

def fail (cause : Cause) : Decoded α :=
  faulty ⟨[], cause⟩ []

def faults : Decoded α → List Fault
  | ok _ => []
  | faulty e more => e :: more

def value? : Decoded α → Option α
  | ok a => some a
  | faulty _ _ => none

/-- Moves the faults of a part into the whole. -/
def under (step : PlaceStep) : Decoded α → Decoded α
  | ok a => ok a
  | faulty e more => faulty (e.under step) (more.map (Fault.under step))

/-- The shape that has the given faults, unless there are none. -/
def ofFaults (a : α) : List Fault → Decoded α
  | [] => ok a
  | e :: more => faulty e more

end Decoded

/-- A field of an object: its spelling in texts and its spelling in programs. -/
structure FieldName where
  wire : String
  plain : String
  deriving DecidableEq, Repr

namespace FieldName

def single (name : String) : FieldName := ⟨name, name⟩

/-- The key under which an object gives the field, with the value. -/
def find? (f : FieldName) (es : Entries Value) : Option (String × Value) :=
  match es.get? f.wire with
  -- The spelling in texts goes first; the other one is then an entry that is left over.
  | some v => some (f.wire, v)
  | none => (es.get? f.plain).map fun v => (f.plain, v)

end FieldName

namespace Shape

variable {α : Type}

/-! ## Kinds of values -/

def any (v : Value) : Decoded Value := .ok v

def string : Value → Decoded String
  | .str s => .ok s
  | _ => .fail .notString

def filledString : Value → Decoded String
  | .str s => if s = "" then .fail .emptyText else .ok s
  | _ => .fail .notString

def integer : Value → Decoded Int
  | .num (.int i) => .ok i
  | _ => .fail .notInteger

/-- A number of either kind. The faults name both kinds. -/
def number : Value → Decoded Number
  | .num n => .ok n
  | _ => .faulty ⟨[.key "int"], .notInteger⟩ [⟨[.key "float"], .notNumber⟩]

/-- Whether a whole number lies strictly between the bounds of a signed word of 64 bits. -/
def isInner (i : Int) : Bool :=
  decide (-0x8000000000000000 < i) && decide (i < 0x8000000000000000)

/-- The whole number that a floating-point number is. Only those within the bounds of a word are
taken, since the others need not be meant exactly. -/
def wholeFloat (x : Binary64) : Decoded Int :=
  let i := (Number.float x).floor
  if !x.isWhole then .fail .fractional
  else if isInner i then .ok i
  else .fail .outOfRange

def numeral (s : String) : Decoded Int :=
  match Numeral.read s with
  | .ok i => .ok i
  | .error .malformed => .fail .notNumeral
  | .error .tooLong => .fail .outOfRange

/-- A whole number of either kind or in writing; truth values count as 0 and 1. -/
def looseInteger : Value → Decoded Int
  | .bool b => .ok (if b then 1 else 0)
  | .num (.int i) => .ok i
  | .num (.float x) => wholeFloat x
  | .str s => numeral s
  | _ => .fail .notInteger

def boolean : Value → Decoded Bool
  | .bool b => .ok b
  | _ => .fail .notBoolean

def falseWords : List String := ["0", "off", "f", "false", "n", "no"]

def trueWords : List String := ["1", "on", "t", "true", "y", "yes"]

/-- The truth value that a whole number stands for. -/
def binary (i : Int) : Decoded Bool :=
  if i = 0 then .ok false
  else if i = 1 then .ok true
  else .fail .unclearBoolean

/-- A truth value, or a number or word that stands for one. Numbers beyond the bounds of a word are
not even taken for attempts at one. -/
def looseBoolean : Value → Decoded Bool
  | .bool b => .ok b
  | .num (.int i) =>
    if isInner i || i == -0x8000000000000000 then binary i else .fail .notBoolean
  | .num (.float x) =>
    -- A fraction is no unclear truth value but none at all.
    match wholeFloat x with
    | .ok i => binary i
    | .faulty _ _ => .fail .notBoolean
  | .str s =>
    let word := String.ofList (s.toList.map Char.toLower)
    if falseWords.contains word then .ok false
    else if trueWords.contains word then .ok true
    else .fail .unclearBoolean
  | _ => .fail .notBoolean

def nullable (kind : Value → Decoded α) : Value → Decoded (Option α)
  | .null => .ok none
  | v => some <$> kind v

/-- The items from a position on. -/
def itemsFrom (kind : Value → Decoded α) : Nat → List Value → Decoded (List α)
  | _, [] => .ok []
  | i, v :: rest => List.cons <$> (kind v).under (.index i) <*> itemsFrom kind (i + 1) rest

def list (kind : Value → Decoded α) : Value → Decoded (List α)
  | .arr items => itemsFrom kind 0 items
  | _ => .fail .notList

def object : Value → Decoded (Entries Value)
  | .obj fields => .ok fields
  | _ => .fail .notObject

def entriesOf (kind : Value → Decoded α) : Entries Value → Decoded (Entries α)
  | [] => .ok []
  | (k, v) :: rest =>
    (fun a more => (k, a) :: more) <$> (kind v).under (.key k) <*> entriesOf kind rest

/-- An object all of whose values are of one kind. -/
def mapping (kind : Value → Decoded α) : Value → Decoded (Entries α)
  | .obj fields => entriesOf kind fields
  | _ => .fail .notObject

/-- An object that is to become a record of the given name. -/
def model (name : String) (fields : Entries Value → Decoded α) : Value → Decoded α
  | .obj es => fields es
  | _ => .fail (.notModel name)

def choice (table : List (String × α)) : Value → Decoded α
  | .str s =>
    match Entries.get? s table with
    | some a => .ok a
    | none => .fail (.notOneOf (table.map Prod.fst))
  | _ => .fail (.notOneOf (table.map Prod.fst))

/-! ## Fields of objects -/

def required (f : FieldName) (kind : Value → Decoded α) (es : Entries Value) : Decoded α :=
  match f.find? es with
  | some (k, v) => (kind v).under (.key k)
  -- A missing field is named by its spelling in texts.
  | none => .faulty ⟨[.key f.wire], .missing⟩ []

/-- A field that has a value of its own when the object lacks it. -/
def optional (f : FieldName) (absent : α) (kind : Value → Decoded α) (es : Entries Value) :
    Decoded α :=
  match f.find? es with
  | some (k, v) => (kind v).under (.key k)
  | none => .ok absent

/-- The entries of an object that are none of the fields read from it. When both spellings of a
field occur, only the first is read. -/
def leftovers (fields : List FieldName) (es : Entries Value) : Entries Value :=
  let used := fields.filterMap fun f => (f.find? es).map Prod.fst
  es.filter fun e => !used.contains e.1

/-- Refuses entries that are none of the fields. -/
def noLeftovers (fields : List FieldName) (es : Entries Value) : Decoded Unit :=
  .ofFaults () ((leftovers fields es).map fun e => ⟨[.key e.1], .unexpectedKey⟩)

end Shape
end Workflows
