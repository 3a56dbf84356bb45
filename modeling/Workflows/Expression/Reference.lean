import Workflows.Text.Blank
import Workflows.Text.Pieces
import Workflows.Text.Word

/-!
# Reference — what an expression body mentions

Recognisers for the marks of a body: variables, accessors that name another node, words that look
like variables without their dollar sign, and bracket access to a simple key. A recogniser is tried
at every position from the left; where a match can hold the beginning of another one, the search
goes on behind it.

Main definitions:

* `dollarWords` — the words behind dollar signs;
* `nodeNames` — the names in `$node["…"]`, `$node.…`, `$("…")` and `$items("…")`;
* `bareWords` — variables written without their dollar sign;
* `hasBracketKey` — whether `$json["key"]` occurs.
-/

namespace Workflows
namespace Reference

open Text

/-- The text behind a mark that it begins with. -/
def after? (mark : String) (cs : List Char) : Option (List Char) :=
  mark.toList.isPrefixOf? cs

/-! ## Words -/

def identifier? (cs : List Char) : Option String :=
  match cs with
  | [] => none
  | c :: rest =>
    if isIdentStart c then some (String.ofList (c :: rest.takeWhile isIdentRest)) else none

/-- The identifiers behind each occurrence of a mark that holds a dollar sign, so that no
identifier can hold the beginning of another occurrence. -/
def identifiersAfter (mark : String) : List Char → List String
  | [] => []
  | c :: rest =>
    match (after? mark (c :: rest)).bind identifier? with
    | some name => name :: identifiersAfter mark rest
    | none => identifiersAfter mark rest

/-- The variables of a body with their dollar signs, in order. -/
def dollarWords (body : List Char) : List String :=
  (identifiersAfter "$" body).map fun name => "$" ++ name

/-! ## Quoted names -/

/-- A name up to the first quote after which the accessor closes: at least one character, no line
break, the quote itself being allowed where the accessor does not close. Gives the name and what
follows the accessor. -/
def quotedUntil? (quote : Char) (close : List Char → Option (List Char)) :
    List Char → List Char → Option (List Char × List Char)
  | _, [] => none
  | done, c :: rest =>
    match if !done.isEmpty && c == quote then close rest else none with
    | some behind => some (done.reverse, behind)
    -- A quote behind which nothing closes is one more character of the name.
    | none => if c = '\n' then none else quotedUntil? quote close (c :: done) rest

/-- An accessor with a quoted name at the front of the text: its opening, blanks, and the name. -/
def accessor? (opening : String) (close : List Char → Option (List Char)) (cs : List Char) :
    Option (String × List Char) :=
  match (after? opening cs).map (·.dropWhile isBlank) with
  | some (quote :: rest) =>
    if quote = '"' ∨ quote = '\'' then
      (quotedUntil? quote close [] rest).map fun (name, behind) => (String.ofList name, behind)
    else none
  | _ => none

def closing? (mark : String) (cs : List Char) : Option (List Char) :=
  after? mark (cs.dropWhile isBlank)

/-- The names of all matches of a recogniser, the search going on behind each match. The fuel
bounds the number of positions. -/
def allMatches (find : List Char → Option (String × List Char)) : Nat → List Char → List String
  | 0, _ => []
  | fuel + 1, cs =>
    match cs with
    | [] => []
    | _ :: rest =>
      match find cs with
      | some (name, behind) => name :: allMatches find fuel behind
      | none => allMatches find fuel rest

/-- The names of the nodes that a body refers to, by form of accessor. -/
def nodeNames (body : List Char) : List String :=
  let all := fun find => allMatches find body.length body
  all (accessor? "$node[" (closing? "]"))
    ++ identifiersAfter "$node." body
    ++ all (accessor? "$(" (closing? ")"))
    -- The list of items may be asked for with more arguments, so nothing has to close it.
    ++ all (accessor? "$items(" some)

/-! ## Likely mistakes -/

def bareVariableWords : List String :=
  ["json", "node", "input", "items", "workflow", "execution", "env", "parameter"]

/-- Whether a bare word may follow a character: not as the end of a longer word, of a variable, of
a member access or inside quotes. -/
def allowsBareWord (before : Option Char) : Bool :=
  match before with
  | none => true
  | some c => !(c == '$' || c == '.' || c == '\'' || c == '"' || isWord c)

/-- The bare words of a body, each followed by a point. -/
def bareWordsAfter (before : Option Char) : List Char → List String
  | [] => []
  | c :: rest =>
    let found :=
      if allowsBareWord before then
        bareVariableWords.find? fun w => (after? (w ++ ".") (c :: rest)).isSome
      else none
    match found with
    | some w => w :: bareWordsAfter (some c) rest
    | none => bareWordsAfter (some c) rest

def bareWords (body : List Char) : List String :=
  bareWordsAfter none body

/-- Whether the text begins with `$json[`, a quoted identifier and `]`, blanks being allowed inside
the brackets. -/
def bracketKeyHere (cs : List Char) : Bool :=
  match (after? "$json[" cs).map (·.dropWhile isBlank) with
  | some (quote :: c :: rest) =>
    (quote == '"' || quote == '\'') && isIdentStart c &&
      match rest.dropWhile isIdentRest with
      | q :: behind => q == quote && (closing? "]" behind).isSome
      | [] => false
  | _ => false

def hasBracketKey : List Char → Bool
  | [] => false
  | c :: rest => bracketKeyHere (c :: rest) || hasBracketKey rest

end Reference
end Workflows
