/-!
# Fold — comparison without regard to case

For searches that ignore case every character is folded first. Beside the English letters four
characters fold to letters: the long s, the Kelvin sign, and the dotted capital and dotless small i.
-/

namespace Workflows
namespace Text

def foldChar (c : Char) : Char :=
  if c.toNat < 128 then c.toLower
  else if c = 'ſ' then 's'
  else if c.toNat = 0x212A then 'k'
  else if c = 'İ' ∨ c = 'ı' then 'i'
  else c

def fold (cs : List Char) : List Char :=
  cs.map foldChar

end Text
end Workflows
