/-!
# Span — sets of characters given by closed ranges of code points

The character classes of this library are tables of ranges. A table is a list of pairs of first
and last code point; membership is `Span.covers`.
-/

namespace Workflows
namespace Text

/-- Closed ranges of code points. -/
abbrev Spans := Array (Nat × Nat)

def Spans.covers (t : Spans) (c : Char) : Bool :=
  t.any fun r => r.1 ≤ c.toNat && c.toNat ≤ r.2

end Text
end Workflows
