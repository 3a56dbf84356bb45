import Workflows.Text.Span

/-!
# Blank — white space

White space is every character whose bidirectional class is a separator or white space, or whose
category is space separator. Leading and trailing white space is removed by `strip`. The four
information separators of ASCII are white space by their bidirectional class alone, and `isSpace`
leaves them out.
-/

namespace Workflows
namespace Text

def blankSpans : Spans :=
  #[(133, 133), (160, 160), (5760, 5760), (8192, 8202), (8232, 8233), (8239, 8239), (8287, 8287),
    (12288, 12288)]

/-- White space: the ASCII blanks with the four information separators, and `blankSpans`. -/
def isBlank (c : Char) : Bool :=
  let n := c.toNat
  if n < 128 then (9 ≤ n && n ≤ 13) || (28 ≤ n && n ≤ 32) else blankSpans.covers c

/-- White space in the narrow sense: the information separators do not belong to it. -/
def isSpace (c : Char) : Bool :=
  isBlank c && !(28 ≤ c.toNat && c.toNat ≤ 31)

/-- The text without the white space before its first and after its last other character. -/
def strip (cs : List Char) : List Char :=
  ((cs.dropWhile isBlank).reverse.dropWhile isBlank).reverse

def allBlank (cs : List Char) : Bool :=
  cs.all isBlank

end Text
end Workflows
