/-!
# Scan — the expressions inside a text

An expression stands between two opening and two closing braces. A scan reads the text from left to
right, two characters at a time where they form such a mark, and counts how many expressions are
open. The text between the outermost marks is a body; marks inside a body are part of it and are
reported once.

Main definitions:

* `ScanFault` — what can be wrong with the marks;
* `Scan.run` — bodies and faults of a text.
-/

namespace Workflows

inductive ScanFault
  | nested
  | unmatchedClose (position : Nat)
  | unclosed
  deriving DecidableEq, Repr

namespace ScanFault

def message : ScanFault → String
  | nested =>
    "Nested expressions are not supported ('\x7b\x7b' inside another expression)"
  | unmatchedClose position =>
    "Unmatched closing bracket '\x7d\x7d' at position " ++ toString position
  | unclosed => "Unmatched expression brackets: '\x7b\x7b' without closing '\x7d\x7d'"

end ScanFault

/-- The bodies of the outermost complete expressions, and the faults, both in order. -/
structure Scan where
  bodies : List (List Char)
  faults : List ScanFault
  deriving DecidableEq, Repr

namespace Scan

/-- Where a scan stands: the number of characters read, the number of open expressions, the body of
the outermost one so far in reverse, and whether nesting has been reported. -/
structure State where
  position : Nat
  depth : Nat
  body : List Char
  nested : Bool
  deriving DecidableEq, Repr

def State.start : State := ⟨0, 0, [], false⟩

def withBody (body : List Char) (s : Scan) : Scan :=
  { s with bodies := body :: s.bodies }

def withFault (fault : ScanFault) (s : Scan) : Scan :=
  { s with faults := fault :: s.faults }

/-- The scan of the rest of a text. -/
def scanRest (st : State) : List Char → Scan
  | '\x7b' :: '\x7b' :: rest =>
    if st.depth = 0 then
      scanRest ⟨st.position + 2, 1, [], st.nested⟩ rest
    else
      let next : State :=
        ⟨st.position + 2, st.depth + 1, '\x7b' :: '\x7b' :: st.body, true⟩
      if st.nested then scanRest next rest else withFault .nested (scanRest next rest)
  | '\x7d' :: '\x7d' :: rest =>
    match st.depth with
    | 0 =>
      withFault (.unmatchedClose st.position)
        (scanRest { st with position := st.position + 2 } rest)
    | 1 => withBody st.body.reverse (scanRest ⟨st.position + 2, 0, [], st.nested⟩ rest)
    | outer + 2 =>
      scanRest ⟨st.position + 2, outer + 1, '\x7d' :: '\x7d' :: st.body, st.nested⟩ rest
  | c :: rest => scanRest ⟨st.position + 1, st.depth, c :: st.body, st.nested⟩ rest
  | [] => ⟨[], if st.depth = 0 then [] else [.unclosed]⟩

def run (text : List Char) : Scan :=
  scanRest .start text

end Scan
end Workflows
