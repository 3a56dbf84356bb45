import Workflows.Value.Printer

/-!
# Block — values over several lines

The block form of a value gives each entry and each item its own line and shows depth by
indentation. Strings and keys stand in double quotes, so that none is taken for anything else.

Main definitions:

* `Value.block` — the text of a value in block form.
-/

namespace Workflows

namespace Block

/-- A character in quotes. One beyond the first plane is a single escape. -/
def escapedChar (c : Char) : List Char :=
  if c.toNat < 0x10000 then Printer.escapedChar c
  else '\\' :: 'U' :: Text.hexDigits 8 c.toNat

def string (s : String) : String :=
  String.ofList ('"' :: s.toList.flatMap escapedChar ++ ['"'])

def number (n : Number) : String :=
  let cs := n.text.toList
  let digits := cs.takeWhile (· != 'e')
  let power := cs.dropWhile (· != 'e')
  if power.isEmpty || digits.contains '.' then n.text
  else String.ofList (digits ++ '.' :: '0' :: power)

/-- The text of a value that fits on the line of its key, if it does. -/
def inline? : Value → Option String
  | .null | .up _ => some "null"
  | .bool b => some (if b then "true" else "false")
  | .num n => some (number n)
  | .str s => some (string s)
  | .arr [] => some "[]"
  | .obj [] => some "\x7b\x7d"
  | .arr _ | .obj _ => none

/-- The lines of a list item, which begin behind its dash. -/
def itemLines : List String → List String
  | [] => []
  | first :: rest => ("- " ++ first) :: rest.map fun l => "  " ++ l

/-- The lines of an entry, given those of its value. -/
def entryLines (key : String) (v : Value) (lines : List String) : List String :=
  match inline? v with
  | some text => [string key ++ ": " ++ text]
  | none => (string key ++ ":") :: lines.map fun l => "  " ++ l

end Block

namespace Value

mutual

def blockLines : Value → List String
  | .arr (v :: rest) => Block.itemLines v.blockLines ++ blockItems rest
  | .obj ((k, v) :: rest) => Block.entryLines k v v.blockLines ++ blockFields rest
  | v => (Block.inline? v).toList

def blockItems : List Value → List String
  | [] => []
  | v :: rest => Block.itemLines v.blockLines ++ blockItems rest

def blockFields : List (String × Value) → List String
  | [] => []
  | (k, v) :: rest => Block.entryLines k v v.blockLines ++ blockFields rest

end

def block (v : Value) : String :=
  Text.join "" (v.blockLines.map (· ++ "\n"))

end Value
end Workflows
