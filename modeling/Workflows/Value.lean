import Workflows.Entries
import Workflows.Number

/-!
# Value — the data documents are made of

Values are the scalars, lists and objects of the data format. A tree built in memory may also refer
back to a container it lies in: `Value.up n` stands for the `n`-th container around it, counted
from the innermost one. Nothing that is read from a text holds such a reference.

Main definitions:

* `Value`, `Value.sameAs` — values, and when two of them are equal: numbers by their values,
  objects without regard to order, the truth values being the numbers 0 and 1;
* `Value.isTrue`, `Value.isEmptyish` — presence tests used by the rules.
-/

namespace Workflows

inductive Value
  | null
  | bool (b : Bool)
  | num (n : Number)
  | str (s : String)
  | arr (items : List Value)
  | obj (fields : List (String × Value))
  | up (levels : Nat)
  deriving Repr

namespace Value

/-! ## Building and taking apart -/

def int (i : Int) : Value := .num (.int i)

def strings (ss : List String) : Value := .arr (ss.map .str)

instance : Inhabited Value := ⟨.null⟩

def isNull : Value → Bool
  | .null => true
  | _ => false

def str? : Value → Option String
  | .str s => some s
  | _ => none

def arr? : Value → Option (List Value)
  | .arr items => some items
  | _ => none

def obj? : Value → Option (Entries Value)
  | .obj fields => some fields
  | _ => none

/-- The number a value is in a comparison: truth values count as 0 and 1. -/
def asNumber? : Value → Option Number
  | .bool b => some (.int (if b then 1 else 0))
  | .num n => some n
  | _ => none

/-- Whether a value counts as present: null, false, zero and everything empty do not. -/
def isPresent : Value → Bool
  | .null => false
  | .bool b => b
  | .num n => !n.sameValue (.int 0)
  | .str s => s != ""
  | .arr items => !items.isEmpty
  | .obj fields => !fields.isEmpty
  -- The container it stands for holds at least the reference.
  | .up _ => true

def kind : Value → String
  | .null => "NoneType"
  | .bool _ => "bool"
  | .num (.int _) => "int"
  | .num (.float _) => "float"
  | .str _ => "str"
  | .arr _ => "list"
  | .obj _ => "dict"
  | .up _ => "dict"

/-! ## Equality -/

mutual

/-- Structural identity: numbers of different kinds differ, and so do objects whose keys come in
different orders. -/
def identical : Value → Value → Bool
  | .null, .null => true
  | .bool a, .bool b => a == b
  | .num a, .num b => a == b
  | .str a, .str b => a == b
  | .arr as, .arr bs => identicalItems as bs
  | .obj as, .obj bs => identicalFields as bs
  | .up m, .up n => m == n
  | _, _ => false

def identicalItems : List Value → List Value → Bool
  | [], [] => true
  | a :: as, b :: bs => identical a b && identicalItems as bs
  | _, _ => false

def identicalFields : List (String × Value) → List (String × Value) → Bool
  | [], [] => true
  | (k, a) :: as, (l, b) :: bs => k == l && identical a b && identicalFields as bs
  | _, _ => false

end

/-- Whether a value has the value of a number in a comparison. -/
def sameNumber (a : Number) : Value → Bool
  | .bool b => a.sameValue (.int (if b then 1 else 0))
  | .num b => a.sameValue b
  | _ => false

mutual

/-- Equality of content: numbers by value, truth values being the numbers 0 and 1, lists item by
item, objects key by key in any order. -/
def sameAs : Value → Value → Bool
  | .null, .null => true
  | .str a, .str b => a == b
  | .bool a, b => sameNumber (.int (if a then 1 else 0)) b
  | .num a, b => sameNumber a b
  | .arr as, .arr bs => sameItems as bs
  -- With distinct keys on both sides, equal lengths make one inclusion enough.
  | .obj as, .obj bs => as.length == bs.length && sameFields as bs
  | .up m, .up n => m == n
  | _, _ => false

def sameItems : List Value → List Value → Bool
  | [], [] => true
  | a :: as, b :: bs => sameAs a b && sameItems as bs
  | _, _ => false

/-- Whether every entry of the first list has an equal one in the second. -/
def sameFields : List (String × Value) → Entries Value → Bool
  | [], _ => true
  | (k, a) :: as, bs =>
    (match Entries.get? k bs with
      | some b => sameAs a b
      | none => false) && sameFields as bs

end

end Value
end Workflows
