import Workflows.Rules.Outcome
import Workflows.Text.Pieces
import Workflows.Text.Search

/-!
# Code — rules for nodes that run code

A code node needs code in the language it names, and the code has to return items. Comments are
taken out before the code is searched: blocks first, then what follows a double slash, then lines
that begin with a number sign.

Main definitions:

* `Code.withoutComments`;
* `Code.returnsPrimitive` — whether a return hands out a plain value;
* `Code.check`.
-/

namespace Workflows
namespace Code

open Text

/-! ## Comments -/

/-- Takes out what stands between `/*` and the next `*/`; an unclosed block stays. The flag says
whether the text begins inside a block, which then is closed. -/
def dropBlocks : Bool → List Char → List Char
  | _, [] => []
  | true, '*' :: '/' :: rest => dropBlocks false rest
  | true, _ :: rest => dropBlocks true rest
  | false, '/' :: '*' :: rest =>
    if occursIn ['*', '/'] rest then dropBlocks true rest
    else '/' :: '*' :: dropBlocks false rest
  | false, c :: rest => c :: dropBlocks false rest

/-- Takes out what stands between a double slash and the end of its line. The flag says whether
the text begins inside such a comment. -/
def dropLineComments : Bool → List Char → List Char
  | _, [] => []
  | true, '\n' :: rest => '\n' :: dropLineComments false rest
  | true, _ :: rest => dropLineComments true rest
  | false, '/' :: '/' :: rest => dropLineComments true rest
  | false, c :: rest => c :: dropLineComments false rest

/-- Where the removal of number-sign comments stands: at the beginning of a line, inside a line, in
the white space before a number sign, or behind one. -/
inductive LineState
  | start
  | inside
  | indent
  | comment
  deriving DecidableEq, Repr

/-- Whether the first character that is not white space is a number sign. -/
def commentFollows (cs : List Char) : Bool :=
  (cs.dropWhile isBlank).head? == some '#'

/-- Takes out what stands between the beginning of a line, where only white space and then a number
sign follow, and the end of the line of that sign. -/
def dropHashComments : LineState → List Char → List Char
  | _, [] => []
  | .start, c :: rest =>
    if commentFollows (c :: rest) then
      dropHashComments (if c = '#' then .comment else .indent) rest
    else c :: dropHashComments (if c = '\n' then .start else .inside) rest
  | .inside, c :: rest => c :: dropHashComments (if c = '\n' then .start else .inside) rest
  | .indent, c :: rest => dropHashComments (if c = '#' then .comment else .indent) rest
  | .comment, c :: rest =>
    if c = '\n' then c :: dropHashComments .start rest else dropHashComments .comment rest

def withoutComments (code : List Char) : List Char :=
  dropHashComments .start (dropLineComments false (dropBlocks false code))

/-! ## Return statements -/

def hasReturn (body : List Char) : Bool :=
  hasWord "return" body

def primitiveWords : List String :=
  ["true", "false", "null", "undefined", "None", "True", "False"]

/-- Whether the line ends here but for white space. -/
def lineEnds (cs : List Char) : Bool :=
  (cs.takeWhile isBlank).contains '\n' || (cs.dropWhile isBlank).isEmpty

/-- Whether the statement ends here, a semicolon being allowed before the end of the line. -/
def statementEnds (cs : List Char) : Bool :=
  lineEnds cs ||
    match cs.dropWhile isBlank with
    | ';' :: rest => lineEnds rest
    | _ => false

/-- The text behind a decimal number, with and without its fraction. -/
def behindNumber (cs : List Char) : List (List Char) :=
  let unsigned :=
    match cs with
    | '-' :: rest => rest
    | _ => cs
  let digits := unsigned.takeWhile isDecimalDigit
  let rest := unsigned.dropWhile isDecimalDigit
  if digits.isEmpty then []
  else
    match rest with
    | '.' :: more =>
      if (more.takeWhile isDecimalDigit).isEmpty then [rest]
      else [more.dropWhile isDecimalDigit, rest]
    | _ => [rest]

/-- Whether a plain value begins here: a word or number up to the end of the statement, or a
quote. -/
def isPrimitiveHere (cs : List Char) : Bool :=
  (primitiveWords.any fun w => (behind? w cs).any statementEnds)
    || (behindNumber cs).any statementEnds
    || cs.head?.any fun c => c == '"' || c == '\'' || c.toNat == 96

def returnsPrimitive (body : List Char) : Bool :=
  search
    (fun before here =>
      wordMayBegin before
        && ((behind? "return" here).bind behindBlanks?).any isPrimitiveHere)
    body

/-! ## The rule -/

/-- The languages whose code stands in its own parameter. -/
def isIndentedLanguage (language : Value) : Bool :=
  match language with
  | .str s => s == "python" || s == "pythonNative"
  | _ => false

def missingReturn (field : String) (indented : Bool) : Issue :=
  let item := if indented then "\x7b'json': \x7b...\x7d\x7d" else "\x7bjson: \x7b...\x7d\x7d"
  { Outcome.error field "Code must return data for the next node" with
    fix := some ("Add a return statement, e.g. return [" ++ item ++ "]") }

def primitiveReturn (field : String) : Issue :=
  { Outcome.error field
      "Code returns a primitive value; it must return an array of items" with
    fix := some "Wrap results as items: return [\x7bjson: \x7bresult: value\x7d\x7d]" }

def itemsUnavailable (field : String) : Issue :=
  { Outcome.style field "'items' is not available in 'Run Once for Each Item' mode" with
    fix := some "Use $json or $input.item for the current item" }

def checkText (ps : Entries Value) (field : String) (indented : Bool) (code : String) :
    List Issue :=
  let body := withoutComments code.toList
  (if !hasReturn body then [missingReturn field indented]
    else if returnsPrimitive body then [primitiveReturn field]
    else [])
    ++ (if Parameters.isText "mode" "runOnceForEachItem" ps && hasWord "items" body then
          [itemsUnavailable field]
        else [])

def check (ps : Entries Value) : Outcome :=
  let language := (ps.get? "language").getD (.str "javaScript")
  let indented := isIndentedLanguage language
  let field := if indented then "pythonCode" else "jsCode"
  let other := if indented then "jsCode" else "pythonCode"
  if Parameters.isSet other ps && !Parameters.isSet field ps then
    .ofIssue
      { Outcome.error other
          ("Code is in '" ++ other ++ "' but language is '" ++ language.shown ++ "'") with
        code := "incompatible"
        fix := some ("Move the code to '" ++ field ++ "' or change the language") }
  else
    match Parameters.text? field ps with
    | some code =>
      if allBlank code.toList then
        .ofIssue { Outcome.error field "Code cannot be empty" with code := "missing_required" }
      else { issues := checkText ps field indented code }
    | none =>
      .ofIssue { Outcome.error field "Code cannot be empty" with code := "missing_required" }

end Code
end Workflows
