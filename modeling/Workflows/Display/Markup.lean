import Workflows.Text.Pieces

/-!
# Markup — styled text and its escapes

Styled text holds tags in brackets. A bracket that would begin a tag, but belongs to the text,
stands behind a backslash.

Main definitions:

* `Markup.escape` — a text as styled text that shows it;
* `Markup.plain` — styled text without its tags.
-/

namespace Workflows
namespace Markup

def isTagStart (c : Char) : Bool :=
  ('a' ≤ c && c ≤ 'z') || c == '#' || c == '/' || c == '@'

/-- Whether the text behind an opening bracket makes it a tag: it is closed before another bracket
opens. -/
def closesTag : List Char → Bool
  | [] => false
  | c :: rest => isTagStart c && (rest.find? fun d => d == '[' || d == ']') == some ']'

/-- Escapes the brackets that would begin tags; `backslashes` stand right before the text. Those
before a tag are written twice. -/
def escapeBehind (backslashes : Nat) : List Char → List Char
  | [] => []
  | '\\' :: rest => '\\' :: escapeBehind (backslashes + 1) rest
  | '[' :: rest =>
    if closesTag rest then
      List.replicate (backslashes + 1) '\\' ++ '[' :: escapeBehind 0 rest
    else '[' :: escapeBehind 0 rest
  | c :: rest => c :: escapeBehind 0 rest

def endsWithOneBackslash (cs : List Char) : Bool :=
  (cs.reverse.takeWhile (· == '\\')).length == 1

/-- A text as styled text that shows it. A backslash alone at the end is written twice, so that it
does not escape what comes next. -/
def escape (s : String) : String :=
  let escaped := escapeBehind 0 s.toList
  String.ofList (if endsWithOneBackslash escaped then escaped ++ ['\\'] else escaped)

/-- Drops the tags of a styled text; half of the backslashes before a bracket stay. -/
def plainBehind (backslashes : Nat) (inTag : Bool) : List Char → List Char
  | [] => List.replicate backslashes '\\'
  | '\\' :: rest =>
    if inTag then plainBehind 0 true rest else plainBehind (backslashes + 1) false rest
  | c :: rest =>
    if inTag then plainBehind 0 (c != ']') rest
    else if c == '[' && closesTag rest then
      List.replicate (backslashes / 2) '\\'
        ++ (if backslashes % 2 = 1 then c :: plainBehind 0 false rest
          else plainBehind 0 true rest)
    else List.replicate backslashes '\\' ++ c :: plainBehind 0 false rest

def plain (s : String) : String :=
  String.ofList (plainBehind 0 false s.toList)

end Markup
end Workflows
