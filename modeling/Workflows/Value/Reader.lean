import Workflows.Number.Numeral
import Workflows.Value

/-!
# Reader — values from their text

Reads one value from a text, white space around it allowed, and says what is wrong with a text that
is none. The reader is a recursive descent over the list of characters; every step hands back what
is left. A key that occurs twice keeps its first place and its last value.

Values hold finite numbers only. A literal that is too great for the format of floating-point
numbers is read as the greatest finite number of its sign, and the words `NaN`, `Infinity` and
`-Infinity` are read as null.

Main definitions:

* `SyntaxFault` and its `message`;
* `Value.read` — the value of a text, or the first fault met.
-/

namespace Workflows

inductive SyntaxFault
  | byteOrderMark
  | expectedValue
  | extraData
  | expectedKey
  | expectedColon
  | expectedComma
  | controlCharacter
  | unterminatedString
  | badEscape
  | badUnicodeEscape
  deriving DecidableEq, Repr

namespace SyntaxFault

def message : SyntaxFault → String
  | byteOrderMark => "Unexpected UTF-8 BOM (decode using utf-8-sig)"
  | expectedValue => "Expecting value"
  | extraData => "Extra data"
  | expectedKey => "Expecting property name enclosed in double quotes"
  | expectedColon => "Expecting ':' delimiter"
  | expectedComma => "Expecting ',' delimiter"
  | controlCharacter => "Invalid control character at"
  | unterminatedString => "Unterminated string starting at"
  | badEscape => "Invalid \\escape"
  | badUnicodeEscape => "Invalid \\uXXXX escape"

end SyntaxFault

namespace Reader

/-- What a step of the reader gives: a result and the rest of the text, or the fault met. -/
abbrev Step (α : Type) := Except SyntaxFault (α × List Char)

def isSpace (c : Char) : Bool :=
  c == ' ' || c == '\t' || c == '\n' || c == '\r'

def skipSpace (cs : List Char) : List Char :=
  cs.dropWhile isSpace

/-! ## Strings -/

def hexValue? (c : Char) : Option Nat :=
  if '0' ≤ c ∧ c ≤ '9' then some (c.toNat - '0'.toNat)
  else if 'a' ≤ c ∧ c ≤ 'f' then some (c.toNat - 'a'.toNat + 10)
  else if 'A' ≤ c ∧ c ≤ 'F' then some (c.toNat - 'A'.toNat + 10)
  else none

/-- The code unit of the four hexadecimal digits at the front, with the rest. One more character
has to follow the digits, since the string is still open. -/
def codeUnit? : List Char → Option (Nat × List Char)
  | a :: b :: c :: d :: e :: rest => do
    let a ← hexValue? a
    let b ← hexValue? b
    let c ← hexValue? c
    let d ← hexValue? d
    some (((a * 16 + b) * 16 + c) * 16 + d, e :: rest)
  | _ => none

def joinSurrogates (high low : Nat) : Char :=
  Char.ofNat (0x10000 + (high - 0xD800) * 0x400 + (low - 0xDC00))

/-- The character of a `\u` escape, read behind the letter. A high surrogate takes the low one of
the next escape along; a lone surrogate is replaced. -/
def unicodeEscape (cs : List Char) : Step Char :=
  match codeUnit? cs with
  | none => .error .badUnicodeEscape
  | some (unit, rest) =>
    if 0xD800 ≤ unit ∧ unit < 0xDC00 then
      match rest with
      | '\\' :: 'u' :: more =>
        -- Too near to the end there is no second escape, and the first half stands alone.
        if more.length < 5 then .ok (Char.ofNat 0xFFFD, rest)
        else
          match codeUnit? more with
          | none => .error .badUnicodeEscape
          | some (low, behind) =>
            if 0xDC00 ≤ low ∧ low < 0xE000 then .ok (joinSurrogates unit low, behind)
            -- What is no second half is left to be read as an escape of its own.
            else .ok (Char.ofNat 0xFFFD, rest)
      | _ => .ok (Char.ofNat 0xFFFD, rest)
    else if 0xDC00 ≤ unit ∧ unit < 0xE000 then .ok (Char.ofNat 0xFFFD, rest)
    else .ok (Char.ofNat unit, rest)

def simpleEscape? (c : Char) : Option Char :=
  match c with
  | '"' => some '"'
  | '\\' => some '\\'
  | '/' => some '/'
  | 'b' => some '\x08'
  | 'f' => some '\x0c'
  | 'n' => some '\n'
  | 'r' => some '\r'
  | 't' => some '\t'
  | _ => none

/-- A string behind its opening quote; `done` holds the characters so far in reverse. The fuel
bounds the number of characters and escapes. -/
def stringBody : Nat → List Char → List Char → Step String
  | 0, _, _ => .error .unterminatedString
  | fuel + 1, done, cs =>
    match cs with
    | [] => .error .unterminatedString
    | '"' :: rest => .ok (String.ofList done.reverse, rest)
    | '\\' :: rest =>
      match rest with
      | [] => .error .unterminatedString
      | 'u' :: more =>
        match unicodeEscape more with
        | .error e => .error e
        | .ok (c, behind) => stringBody fuel (c :: done) behind
      | e :: behind =>
        match simpleEscape? e with
        | some c => stringBody fuel (c :: done) behind
        | none => .error .badEscape
    | c :: rest =>
      if c.toNat < 0x20 then .error .controlCharacter else stringBody fuel (c :: done) rest

/-! ## Numbers -/

/-- The digits behind a point, and the rest; none when no digit follows the point. -/
def fraction (cs : List Char) : List Char × List Char :=
  match cs with
  | '.' :: rest =>
    let digits := rest.takeWhile Char.isDigit
    if digits.isEmpty then ([], cs) else (digits, rest.dropWhile Char.isDigit)
  | _ => ([], cs)

/-- The exponent behind the letter `e`, and the rest; none when no digit follows. -/
def exponent? (cs : List Char) : Option Int × List Char :=
  match cs with
  | e :: rest =>
    if e == 'e' || e == 'E' then
      let (negative, tail) :=
        match rest with
        | '-' :: tail => (true, tail)
        | '+' :: tail => (false, tail)
        | _ => (false, rest)
      let digits := tail.takeWhile Char.isDigit
      if digits.isEmpty then (none, cs)
      else
        let n : Int := Numeral.digitsValue digits
        (some (if negative then -n else n), tail.dropWhile Char.isDigit)
    else (none, cs)
  | [] => (none, cs)

/-- The digits before the point: a zero alone, or digits that do not begin with zero. -/
def wholeDigits (cs : List Char) : List Char × List Char :=
  match cs with
  | '0' :: rest => (['0'], rest)
  | _ => (cs.takeWhile Char.isDigit, cs.dropWhile Char.isDigit)

/-- A number. Without a point and a power of ten it is a whole number. -/
def number (cs : List Char) : Step Value :=
  let (negative, unsigned) :=
    match cs with
    | '-' :: rest => (true, rest)
    | _ => (false, cs)
  let (whole, rest) := wholeDigits unsigned
  if whole.isEmpty then .error .expectedValue
  else
    let (fractionDigits, rest) := fraction rest
    let (power, rest) := exponent? rest
    if fractionDigits.isEmpty && power.isNone then
      let n : Int := Numeral.digitsValue whole
      .ok (.num (.int (if negative then -n else n)), rest)
    else
      let digits := Numeral.digitsValue (whole ++ fractionDigits)
      .ok (.num (.float (.ofDecimal negative digits (power.getD 0 - fractionDigits.length))), rest)

/-! ## Values -/

def words : List (List Char × Value) :=
  [("null".toList, .null), ("true".toList, .bool true), ("false".toList, .bool false),
    ("NaN".toList, .null), ("Infinity".toList, .null), ("-Infinity".toList, .null)]

def word? (cs : List Char) : Option (Value × List Char) :=
  words.findSome? fun (w, v) => (w.isPrefixOf? cs).map fun rest => (v, rest)

mutual

/-- A value at the front of the text. The fuel bounds the number of steps: each takes at least one
character, or looks at the value behind a bracket, comma or colon that was taken. -/
def value : Nat → List Char → Step Value
  | 0, _ => .error .expectedValue
  | fuel + 1, cs =>
    match cs with
    | '"' :: rest =>
      match stringBody fuel [] rest with
      | .error e => .error e
      | .ok (s, behind) => .ok (.str s, behind)
    | '[' :: rest =>
      match skipSpace rest with
      | ']' :: behind => .ok (.arr [], behind)
      | inside => items fuel [] inside
    | '\x7b' :: rest =>
      match skipSpace rest with
      | '\x7d' :: behind => .ok (.obj [], behind)
      | inside => members fuel [] inside
    | _ =>
      -- One of the words begins with a minus sign, so words are tried before numbers.
      match word? cs with
      | some found => .ok found
      | none => number cs

/-- The items of a list from the next one on; `done` holds the earlier ones in reverse. -/
def items : Nat → List Value → List Char → Step Value
  | 0, _, _ => .error .expectedValue
  | fuel + 1, done, cs =>
    match value fuel cs with
    | .error e => .error e
    | .ok (v, rest) =>
      match skipSpace rest with
      | ']' :: behind => .ok (.arr (v :: done).reverse, behind)
      | ',' :: behind => items fuel (v :: done) (skipSpace behind)
      | _ => .error .expectedComma

/-- The entries of an object from the next key on; `done` holds the earlier ones. -/
def members : Nat → Entries Value → List Char → Step Value
  | 0, _, _ => .error .expectedKey
  | fuel + 1, done, cs =>
    match cs with
    | '"' :: rest =>
      match stringBody fuel [] rest with
      | .error e => .error e
      | .ok (key, behind) =>
        match skipSpace behind with
        | ':' :: behind =>
          match value fuel (skipSpace behind) with
          | .error e => .error e
          | .ok (v, rest) =>
            match skipSpace rest with
            -- Of several values of a key the last one counts, at the place of the first.
            | '\x7d' :: behind => .ok (.obj (done.put key v), behind)
            | ',' :: behind => members fuel (done.put key v) (skipSpace behind)
            | _ => .error .expectedComma
        | _ => .error .expectedColon
    | _ => .error .expectedKey

end

end Reader

namespace Value

/-- The value that a text is, or what is wrong with it. A bracket and the item behind it take two
steps, so twice as many steps as characters are enough. -/
def read (s : String) : Except SyntaxFault Value :=
  let cs := s.toList
  match cs with
  | '\ufeff' :: _ => .error .byteOrderMark
  | _ =>
    match Reader.value (2 * cs.length + 2) (Reader.skipSpace cs) with
    | .error e => .error e
    | .ok (v, rest) =>
      if (Reader.skipSpace rest).isEmpty then .ok v else .error .extraData

end Value
end Workflows
