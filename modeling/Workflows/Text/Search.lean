import Workflows.Text.Blank
import Workflows.Text.Word

/-!
# Search — patterns found anywhere in a text

A pattern is a test of the text from a position on. A search tries it at every position, where it
may ask for the character before; words begin and end where word characters meet others.
-/

namespace Workflows
namespace Text

/-- Whether the test succeeds at some position of the text. The test sees the character before the
position and the text from there on; the end of the text is a position, too. -/
def searchFrom (test : Option Char → List Char → Bool) (before : Option Char) :
    List Char → Bool
  | [] => test before []
  | c :: rest => test before (c :: rest) || searchFrom test (some c) rest

def search (test : Option Char → List Char → Bool) (cs : List Char) : Bool :=
  searchFrom test none cs

/-- Whether a word can begin behind the character. -/
def wordMayBegin (before : Option Char) : Bool :=
  !before.any isWord

/-- Whether a word can end before the text. -/
def wordMayEnd (rest : List Char) : Bool :=
  !rest.head?.any isWord

def behind? (word : String) (cs : List Char) : Option (List Char) :=
  word.toList.isPrefixOf? cs

/-- The text behind white space, of which there is at least one character. -/
def behindBlanks? (cs : List Char) : Option (List Char) :=
  match cs with
  | [] => none
  | c :: rest => if isBlank c then some (rest.dropWhile isBlank) else none

/-- Whether a word occurs that is no part of a longer word. -/
def hasWord (word : String) (cs : List Char) : Bool :=
  search
    (fun before here =>
      wordMayBegin before &&
        match behind? word here with
        | some rest => wordMayEnd rest
        | none => false)
    cs

end Text
end Workflows
