import Workflows.Value.Reader

/-!
# Flow — values from configuration files

Configuration files are read in the flow forms of their format: lists in brackets, objects in
braces, strings in either kind of quotes, and plain words. Numbers, truth values and null are plain
words of certain forms; every other plain word is a string. The texts of the stricter data format
are among those that are read here, with a few differences: a number with a power of ten needs a
point and a sign for the power, or it is a string; tabs do not separate anything; a key has to stand
on one line with its colon, and not far from it; line breaks inside strings are folded. The forms
that go by indentation are not read.

Whether a scalar is a key shows only at the colon behind it, so the reader keeps a `Cursor`, which
counts characters and lines, and compares where the scalar began.

Main definitions:

* `FlowFault` — what is wrong with a text;
* `Cursor` — a place in a text;
* `Flow.plainValue` — what a plain word stands for;
* `Flow.read` — the value of a text.
-/

namespace Workflows

inductive FlowFault
  | unprintable
  | badToken
  | badEscape
  | badKey
  | openString
  | separatorInString
  | expectedComma
  | extraData
  deriving DecidableEq, Repr

namespace FlowFault

def message : FlowFault → String
  | unprintable => "special characters are not allowed"
  | badToken => "found a character that cannot start any token"
  | badEscape => "found unknown escape character"
  | badKey => "found a key that is no string in front of its colon"
  | openString => "found unexpected end of string"
  | separatorInString => "found unexpected document separator"
  | expectedComma => "expected ',' or the end of the collection"
  | extraData => "expected the end of the document"

end FlowFault

/-! ## Places in a text -/

/-- What is left of a text, and how many characters and line breaks lie before. -/
structure Cursor where
  rest : List Char
  index : Nat := 0
  line : Nat := 0
  deriving Repr

namespace Flow

def isBreak (c : Char) : Bool :=
  c == '\n' || c == '\r' || c == '\x85' || c == '\u2028' || c == '\u2029'

def isTab (c : Char) : Bool :=
  c == ' ' || c == '\t'

/-- Whether what comes next ends a word: white space, or the end of the text. -/
def endsWord : Option Char → Bool
  | none => true
  | some c => isTab c || isBreak c

/-- How many lines end in a text. The two characters of a double break count once. -/
def countBreaks : List Char → Nat
  | [] => 0
  | '\r' :: '\n' :: rest => countBreaks rest + 1
  | c :: rest => (if isBreak c then 1 else 0) + countBreaks rest

def isSeparator (mark cs : List Char) : Bool :=
  match mark.isPrefixOf? cs with
  | some rest => endsWord rest.head?
  | none => false

def startMark : List Char := ['-', '-', '-']

def endMark : List Char := ['.', '.', '.']

def atSeparator (cs : List Char) : Bool :=
  isSeparator startMark cs || isSeparator endMark cs

/-- The length of what lies between tokens: blanks, line breaks and remarks. -/
def gapLength (inRemark : Bool) : List Char → Nat
  | [] => 0
  | c :: rest =>
    if isBreak c then gapLength false rest + 1
    else if inRemark then gapLength true rest + 1
    else if c == ' ' then gapLength false rest + 1
    else if c == '#' then gapLength true rest + 1
    else 0

end Flow

namespace Cursor

open Workflows.Flow

def peek (c : Cursor) : Option Char :=
  c.rest.head?

def advance (count : Nat) (c : Cursor) : Cursor :=
  { rest := c.rest.drop count
    index := c.index + count
    line := c.line + countBreaks (c.rest.take count) }

/-- The characters for which a test holds, and the place behind them. -/
def span (test : Char → Bool) (c : Cursor) : List Char × Cursor :=
  let front := c.rest.takeWhile test
  (front, c.advance front.length)

def skipGap (c : Cursor) : Cursor :=
  c.advance (gapLength false c.rest)

def atBreak (c : Cursor) : Bool :=
  c.peek.any isBreak

/-- The character that a line break stands for, and the place behind it. -/
def takeBreak (c : Cursor) : Char × Cursor :=
  match c.rest with
  | '\r' :: '\n' :: _ => ('\n', c.advance 2)
  | '\u2028' :: _ => ('\u2028', c.advance 1)
  | '\u2029' :: _ => ('\u2029', c.advance 1)
  | _ => ('\n', c.advance 1)

end Cursor

namespace Flow

/-- What a step of the reader gives: a result and the place behind it, or the fault met. -/
abbrev Step (α : Type) := Except FlowFault (α × Cursor)

/-! ## Quoted strings -/

/-- What a line break and the empty lines behind it become inside a string. -/
def folded (first : Char) (more : List Char) : List Char :=
  if first != '\n' then first :: more
  else if more.isEmpty then [' ']
  else more

/-- The breaks of the empty lines behind a line break, without the blanks that lines begin with. -/
def emptyLines : Nat → Cursor → Step (List Char)
  | 0, _ => .error .openString
  | fuel + 1, c =>
    if atSeparator c.rest then .error .separatorInString
    else
      let (_, c) := c.span isTab
      if c.atBreak then
        let (b, c) := c.takeBreak
        match emptyLines fuel c with
        | .error f => .error f
        | .ok (more, c) => .ok (b :: more, c)
      else .ok ([], c)

/-- White space inside a string. Blanks before a line break are dropped. -/
def innerSpace (fuel : Nat) (c : Cursor) : Step (List Char) :=
  let (blanks, c) := c.span isTab
  if c.atBreak then
    let (b, c) := c.takeBreak
    match emptyLines fuel c with
    | .error f => .error f
    | .ok (more, c) => .ok (folded b more, c)
  else .ok (blanks, c)

def escaped? (c : Char) : Option Char :=
  match c with
  | '0' => some '\x00'
  | 'a' => some '\x07'
  | 'b' => some '\x08'
  | 't' | '\t' => some '\t'
  | 'n' => some '\n'
  | 'v' => some '\x0b'
  | 'f' => some '\x0c'
  | 'r' => some '\r'
  | 'e' => some '\x1b'
  | ' ' | '"' | '\\' | '/' => some c
  | 'N' => some '\x85'
  | '_' => some '\xa0'
  | 'L' => some '\u2028'
  | 'P' => some '\u2029'
  | _ => none

/-- How many hexadecimal digits follow the letter of an escape. -/
def digitCount? (c : Char) : Option Nat :=
  match c with
  | 'x' => some 2
  | 'u' => some 4
  | 'U' => some 8
  | _ => none

/-- The number of hexadecimal digits at the front. -/
def hexNumber? (count : Nat) (cs : List Char) : Option Nat :=
  let digits := (cs.take count).filterMap Reader.hexValue?
  if digits.length = count then some (digits.foldl (fun n d => n * 16 + d) 0) else none

/-- The low surrogate that an escape at the front stands for. -/
def lowSurrogate? (cs : List Char) : Option Nat :=
  match cs with
  | '\\' :: 'u' :: rest => (hexNumber? 4 rest).filter fun n => 0xDC00 ≤ n && n < 0xE000
  | _ => none

/-- The character of a number in an escape. Two surrogates make one character, and a lone one is
replaced. -/
def numbered (n : Nat) (c : Cursor) : Step (List Char) :=
  if 0x10FFFF < n then .error .badEscape
  else if 0xD800 ≤ n ∧ n < 0xDC00 then
    match lowSurrogate? c.rest with
    | some low => .ok ([Reader.joinSurrogates n low], c.advance 6)
    | none => .ok (['\ufffd'], c)
  else if 0xDC00 ≤ n ∧ n < 0xE000 then .ok (['\ufffd'], c)
  else .ok ([Char.ofNat n], c)

/-- What an escape stands for, read behind the backslash. An escaped line break joins two lines. -/
def escape (fuel : Nat) (c : Cursor) : Step (List Char) :=
  match c.rest with
  | [] => .error .badEscape
  | letter :: behind =>
    match escaped? letter, digitCount? letter with
    | some e, _ => .ok ([e], c.advance 1)
    | none, some count =>
      match hexNumber? count behind with
      | some n => numbered n (c.advance (count + 1))
      | none => .error .badEscape
    | none, none => if isBreak letter then emptyLines fuel c.takeBreak.2 else .error .badEscape

/-- A string behind its opening quote; `done` holds the characters so far in reverse. Between double
quotes there are escapes, between single ones two quotes stand for one. The fuel bounds the number of
characters. -/
def quoted (mark : Char) : Nat → List Char → Cursor → Step String
  | 0, _, _ => .error .openString
  | fuel + 1, done, c =>
    match c.rest with
    | [] => .error .openString
    | ch :: behind =>
      if ch == mark then
        -- Between single quotes the mark ends the string only if no second one follows.
        if mark == '\'' && behind.head? == some mark then
          quoted mark fuel (mark :: done) (c.advance 2)
        else .ok (String.ofList done.reverse, c.advance 1)
      else if ch == '\\' && mark == '"' then
        match escape fuel (c.advance 1) with
        | .error f => .error f
        | .ok (cs, c) => quoted mark fuel (cs.reverse ++ done) c
      else if isTab ch || isBreak ch then
        match innerSpace fuel c with
        | .error f => .error f
        | .ok (cs, c) => quoted mark fuel (cs.reverse ++ done) c
      else quoted mark fuel (ch :: done) (c.advance 1)

/-! ## Plain words -/

def flowMarks : List Char := [',', '[', ']', '\x7b', '\x7d']

/-- Whether a word ends before a character, given the next one. -/
def endsPlain (inside : Bool) (c : Char) (next : Option Char) : Bool :=
  isTab c || isBreak c
    || (c == ':' && (endsWord next || (inside && next.any flowMarks.contains)))
    || (inside && (c == '?' || flowMarks.contains c))

def wordLength (inside : Bool) : List Char → Nat
  | [] => 0
  | c :: rest => if endsPlain inside c rest.head? then 0 else wordLength inside rest + 1

/-- The characters that no word begins with. -/
def indicators : List Char :=
  ['-', '?', ':', ',', '[', ']', '\x7b', '\x7d', '#', '&', '*', '!', '|', '>', '\'', '"', '%', '@',
    '\x60']

/-- Whether a word begins here. A dash begins one that goes on behind it. -/
def startsPlain (inside : Bool) : List Char → Bool
  | [] => false
  | c :: rest =>
    if indicators.contains c then
      (c == '-' || (!inside && (c == '?' || c == ':'))) && !endsWord rest.head?
    else !endsWord (some c)

/-- The breaks of the empty lines between two words, and whether a separator follows them. -/
def wordBreaks : Nat → Cursor → (List Char × Bool) × Cursor
  | 0, c => (([], false), c)
  | fuel + 1, c =>
    let (_, c) := c.span (· == ' ')
    if c.atBreak then
      let (b, c) := c.takeBreak
      if atSeparator c.rest then (([], true), c)
      else
        let ((more, separated), c) := wordBreaks fuel c
        ((b :: more, separated), c)
    else (([], false), c)

/-- The white space behind a word that belongs to the text if another word follows; none when no
word can follow. -/
def wordSpace (fuel : Nat) (c : Cursor) : List Char × Cursor :=
  let (blanks, c) := c.span (· == ' ')
  if c.atBreak then
    let (b, c) := c.takeBreak
    if atSeparator c.rest then ([], c)
    else
      let ((more, separated), c) := wordBreaks fuel c
      (if separated then [] else folded b more, c)
  else (blanks, c)

/-- Words up to the end of a plain text; `done` holds the text so far and `space` the white space
behind it. -/
def words (inside : Bool) : Nat → List Char → List Char → Cursor → List Char × Cursor
  | 0, done, _, c => (done, c)
  | fuel + 1, done, space, c =>
    -- Behind white space a remark may begin, which ends the text.
    let count := if c.peek == some '#' then 0 else wordLength inside c.rest
    if count = 0 then (done, c)
    else
      let done := done ++ space ++ c.rest.take count
      let (next, c) := wordSpace fuel (c.advance count)
      if next.isEmpty then (done, c) else words inside fuel done next c

/-! ## What plain words stand for -/

def nullWords : List String := ["", "~", "null", "Null", "NULL"]

def trueWords : List String :=
  ["yes", "Yes", "YES", "true", "True", "TRUE", "on", "On", "ON"]

def falseWords : List String :=
  ["no", "No", "NO", "false", "False", "FALSE", "off", "Off", "OFF"]

/-- Whether there is a minus sign, and what follows the sign. -/
def signed (cs : List Char) : Bool × List Char :=
  match cs with
  | '-' :: rest => (true, rest)
  | '+' :: rest => (false, rest)
  | _ => (false, cs)

def isDigitOrBar (c : Char) : Bool :=
  c.isDigit || c == '_'

/-- The value of digits between which there may be underscores. -/
def digitsValue (cs : List Char) : Nat :=
  Numeral.digitsValue (cs.filter Char.isDigit)

/-- A whole number: digits that do not begin with a zero, unless there is only one. -/
def whole? (cs : List Char) : Option Int :=
  let (negative, digits) := signed cs
  let fits :=
    match digits with
    | [] => false
    | c :: rest => if c == '0' then rest.isEmpty else c.isDigit && rest.all isDigitOrBar
  if fits then
    let n : Int := digitsValue digits
    some (if negative then -n else n)
  else none

/-- The power of ten behind a fraction. It needs a sign. -/
def power? (cs : List Char) : Option Int :=
  match cs with
  | [] => some 0
  | e :: sign :: digits =>
    if (e == 'e' || e == 'E') && (sign == '+' || sign == '-') && !digits.isEmpty
        && digits.all Char.isDigit then
      let n : Int := digitsValue digits
      some (if sign == '-' then -n else n)
    else none
  | _ => none

/-- A floating-point number. It needs a point, and a digit before the point, or behind it if there is
no sign. -/
def float? (cs : List Char) : Option Binary64 :=
  let (negative, digits) := signed cs
  let front := digits.takeWhile isDigitOrBar
  match digits.dropWhile isDigitOrBar with
  | '.' :: rest =>
    let back := rest.takeWhile isDigitOrBar
    let fits :=
      if cs.head? == some '.' then back.head?.any Char.isDigit else front.head?.any Char.isDigit
    if fits then
      (power? (rest.dropWhile isDigitOrBar)).map fun power =>
        .ofDecimal negative (digitsValue (front ++ back))
          (power - (back.filter Char.isDigit).length)
    else none
  | _ => none

def plainValue (cs : List Char) : Value :=
  let s := String.ofList cs
  if nullWords.contains s then .null
  else if trueWords.contains s then .bool true
  else if falseWords.contains s then .bool false
  else
    -- The two forms of numbers exclude each other, as only one has a point.
    match whole? cs, float? cs with
    | some n, _ => .int n
    | none, some x => .num (.float x)
    | none, none => .str s

/-! ## Values -/

def keyReach : Nat := 1024

/-- Whether what began at the first place and ends before the second is a key: a colon follows on the
same line and within reach. -/
def isKey (start behind : Cursor) : Bool :=
  behind.peek == some ':' && start.line == behind.line
    && decide (behind.index - start.index ≤ keyReach)

mutual

/-- A value at the front of the text. The fuel bounds the number of steps: each takes at least one
character, or looks at the value behind a bracket, comma or colon that was taken. -/
def value (inside : Bool) : Nat → Cursor → Step Value
  | 0, _ => .error .badToken
  | fuel + 1, c =>
    match c.peek with
    | some '[' => items fuel [] (c.advance 1).skipGap
    | some '\x7b' => members fuel [] (c.advance 1).skipGap
    | some '"' =>
      match quoted '"' fuel [] (c.advance 1) with
      | .error f => .error f
      | .ok (s, c) => .ok (.str s, c)
    | some '\'' =>
      match quoted '\'' fuel [] (c.advance 1) with
      | .error f => .error f
      | .ok (s, c) => .ok (.str s, c)
    | _ =>
      if startsPlain inside c.rest then
        let (cs, c) := words inside fuel [] [] c
        .ok (plainValue cs, c)
      else .error .badToken

/-- The value behind a colon: null when there is none. -/
def valueBehind : Nat → Cursor → Step Value
  | 0, _ => .error .badToken
  | fuel + 1, c =>
    if c.peek.any fun ch => ch == ',' || ch == ']' || ch == '\x7d' then .ok (.null, c)
    else value true fuel c

/-- The items of a list from the next one on; `done` holds the earlier ones in reverse. A key with
its value is an object of one entry. -/
def items : Nat → List Value → Cursor → Step Value
  | 0, _, _ => .error .badToken
  | fuel + 1, done, start =>
    if start.peek == some ']' then .ok (.arr done.reverse, start.advance 1)
    else
      match value true fuel start with
      | .error f => .error f
      | .ok (v, c) =>
        let c := c.skipGap
        -- Only the colon behind a value tells that it is a key.
        let item : Step Value :=
          match v, isKey start c with
          | .str key, true =>
            match valueBehind fuel (c.advance 1).skipGap with
            | .error f => .error f
            | .ok (w, c) => .ok (.obj [(key, w)], c.skipGap)
          | _, true => .error .badKey
          | v, false => .ok (v, c)
        match item with
        | .error f => .error f
        | .ok (v, c) =>
          match c.peek with
          | some ']' => .ok (.arr (v :: done).reverse, c.advance 1)
          | some ',' => items fuel (v :: done) (c.advance 1).skipGap
          | _ => .error .expectedComma

/-- The entries of an object from the next key on; `done` holds the earlier ones. A key without a
colon has the value null. -/
def members : Nat → Entries Value → Cursor → Step Value
  | 0, _, _ => .error .badToken
  | fuel + 1, done, start =>
    if start.peek == some '\x7d' then .ok (.obj done, start.advance 1)
    else
      match value true fuel start with
      | .error f => .error f
      | .ok (.str key, c) =>
        let c := c.skipGap
        let found : Step Value :=
          if isKey start c then valueBehind fuel (c.advance 1).skipGap else .ok (.null, c)
        match found with
        | .error f => .error f
        | .ok (v, c) =>
          let c := c.skipGap
          match c.peek with
          | some '\x7d' => .ok (.obj (done.put key v), c.advance 1)
          | some ',' => members fuel (done.put key v) (c.advance 1).skipGap
          | _ => .error .expectedComma
      | .ok _ => .error .badKey

end

/-! ## Texts -/

/-- Whether a character may stand in a text at all. -/
def isPrintable (c : Char) : Bool :=
  let n := c.toNat
  n == 9 || n == 10 || n == 13 || (32 ≤ n && n ≤ 126) || n == 0x85 || (0xA0 ≤ n && n ≤ 0xFFFD)
    || 0x10000 ≤ n

/-- The place behind a separator and what follows it, if there is one. -/
def behindMark (mark : List Char) (c : Cursor) : Cursor :=
  if isSeparator mark c.rest then (c.advance mark.length).skipGap else c

/-- The place of the first token. A byte order mark at the front is passed over. -/
def start (cs : List Char) : Cursor :=
  let text : Cursor :=
    match cs with
    | '\ufeff' :: rest => { rest := rest }
    | _ => { rest := cs }
  behindMark startMark text.skipGap

/-- The value of a text, or what is wrong with it. A text without tokens is null. A bracket and the
item behind it take two steps and a key with its value three, so three times as many steps as
characters are enough. -/
def read (s : String) : Except FlowFault Value :=
  let cs := s.toList
  if !cs.all isPrintable then .error .unprintable
  else
    let c := start cs
    if c.rest.isEmpty then .ok .null
    else
      match value false (3 * cs.length + 3) c with
      | .error f => .error f
      | .ok (v, c) =>
        if (behindMark endMark c.skipGap).rest.isEmpty then .ok v else .error .extraData

end Flow
end Workflows
