import Workflows.Value.Literal

/-!
# Printer — the text of values

Writes a value in the data format, in ASCII: every other character stands as an escape, those
beyond the first plane as a pair of surrogates.

Main definitions:

* `Value.compact` — on one line, with a blank behind each comma and colon;
* `Value.indented` — one item or entry a line, two blanks for each level;
* `Value.sortKeys` — the value with the keys of every object in order.
-/

namespace Workflows

namespace Printer

def unitEscape (n : Nat) : List Char :=
  '\\' :: 'u' :: Text.hexDigits 4 n

def escapedChar (c : Char) : List Char :=
  let n := c.toNat
  if c = '"' then ['\\', '"']
  else if c = '\\' then ['\\', '\\']
  else if c = '\n' then ['\\', 'n']
  else if c = '\r' then ['\\', 'r']
  else if c = '\t' then ['\\', 't']
  else if n = 8 then ['\\', 'b']
  else if n = 12 then ['\\', 'f']
  else if 32 ≤ n ∧ n < 127 then [c]
  else if n < 0x10000 then unitEscape n
  -- Beyond that, a character is written as two halves.
  else
    unitEscape (0xD800 + (n - 0x10000) / 0x400) ++ unitEscape (0xDC00 + (n - 0x10000) % 0x400)

def string (s : String) : String :=
  String.ofList ('"' :: s.toList.flatMap escapedChar ++ ['"'])

/-- A line break and two blanks for each level. -/
def newline (level : Nat) : String :=
  String.ofList ('\n' :: List.replicate (2 * level) ' ')

end Printer

namespace Value

mutual

/-- The text of a value on one line. A reference to an enclosing container has no text of its own
and is written as null. -/
def compact : Value → String
  | .null | .up _ => "null"
  | .bool b => if b then "true" else "false"
  | .num n => n.text
  | .str s => Printer.string s
  | .arr items => "[" ++ Text.join ", " (compactItems items) ++ "]"
  | .obj fields => "\x7b" ++ Text.join ", " (compactFields fields) ++ "\x7d"

def compactItems : List Value → List String
  | [] => []
  | v :: rest => v.compact :: compactItems rest

def compactFields : List (String × Value) → List String
  | [] => []
  | (k, v) :: rest => (Printer.string k ++ ": " ++ v.compact) :: compactFields rest

end

mutual

/-- The text of a value whose first line stands at the given level. -/
def indented (level : Nat) : Value → String
  | .null | .up _ => "null"
  | .bool b => if b then "true" else "false"
  | .num n => n.text
  | .str s => Printer.string s
  | .arr [] => "[]"
  | .obj [] => "\x7b\x7d"
  | .arr items =>
    let inner := Printer.newline (level + 1)
    "[" ++ inner ++ Text.join ("," ++ inner) (indentedItems (level + 1) items)
      ++ Printer.newline level ++ "]"
  | .obj fields =>
    let inner := Printer.newline (level + 1)
    "\x7b" ++ inner ++ Text.join ("," ++ inner) (indentedFields (level + 1) fields)
      ++ Printer.newline level ++ "\x7d"

def indentedItems (level : Nat) : List Value → List String
  | [] => []
  | v :: rest => v.indented level :: indentedItems level rest

def indentedFields (level : Nat) : List (String × Value) → List String
  | [] => []
  | (k, v) :: rest => (Printer.string k ++ ": " ++ v.indented level) :: indentedFields level rest

end

/-- Whether the first of two entries goes before the second in the order of their keys. -/
def keyLe (a b : String × Value) : Bool :=
  !(b.1 < a.1)

mutual

def sortKeys : Value → Value
  | .arr items => .arr (sortKeysItems items)
  | .obj fields => .obj ((sortKeysFields fields).mergeSort keyLe)
  | v => v

def sortKeysItems : List Value → List Value
  | [] => []
  | v :: rest => v.sortKeys :: sortKeysItems rest

def sortKeysFields : List (String × Value) → List (String × Value)
  | [] => []
  | (k, v) :: rest => (k, v.sortKeys) :: sortKeysFields rest

end

end Value
end Workflows
