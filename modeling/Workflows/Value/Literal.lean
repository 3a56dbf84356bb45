import Workflows.Text.Printable
import Workflows.Text.Pieces
import Workflows.Value

/-!
# Literal — values in messages

Messages show a value as a literal: words for null and the truth values, strings in quotes, lists
and objects in brackets. A string stands in single quotes, or in double quotes when it has single
but no double ones; the quote in use, backslashes and characters that are not printable are
escaped.

Main definitions:

* `Value.literal` — the literal of a value;
* `Value.shown` — the literal, except that a string stands for itself.
-/

namespace Workflows

namespace Text

/-- The lower-case hexadecimal digits of a number, at least `width` of them. -/
def hexDigits (width n : Nat) : List Char :=
  let digits := Nat.toDigits 16 n
  List.replicate (width - digits.length) '0' ++ digits

/-- One character inside quotes. -/
def quotedChar (quote c : Char) : List Char :=
  if c = quote ∨ c = '\\' then ['\\', c]
  else if c = '\n' then ['\\', 'n']
  else if c = '\r' then ['\\', 'r']
  else if c = '\t' then ['\\', 't']
  else if isPrintable c then [c]
  else
    let n := c.toNat
    if n < 0x100 then '\\' :: 'x' :: hexDigits 2 n
    else if n < 0x10000 then '\\' :: 'u' :: hexDigits 4 n
    else '\\' :: 'U' :: hexDigits 8 n

def quoted (s : String) : String :=
  let cs := s.toList
  let quote := if cs.contains '\'' && !cs.contains '"' then '"' else '\''
  String.ofList (quote :: cs.flatMap (quotedChar quote) ++ [quote])

end Text

namespace Value

mutual

def literal : Value → String
  | .null => "None"
  | .bool b => if b then "True" else "False"
  | .num n => n.text
  | .str s => Text.quoted s
  | .arr items => "[" ++ Text.join ", " (literalItems items) ++ "]"
  | .obj fields => "\x7b" ++ Text.join ", " (literalFields fields) ++ "\x7d"
  | .up _ => "\x7b...\x7d"

def literalItems : List Value → List String
  | [] => []
  | v :: rest => v.literal :: literalItems rest

def literalFields : List (String × Value) → List String
  | [] => []
  | (k, v) :: rest => (Text.quoted k ++ ": " ++ v.literal) :: literalFields rest

end

/-- The literal of a value, a string standing for itself. -/
def shown : Value → String
  | .str s => s
  | v => v.literal

end Value
end Workflows
