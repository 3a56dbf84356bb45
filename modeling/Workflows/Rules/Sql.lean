import Workflows.Rules.Outcome
import Workflows.Text.Fold
import Workflows.Text.Pieces
import Workflows.Text.Search

/-!
# Sql — rules for queries

Keywords are found without regard to case, as whole words.

Main definitions:

* `Sql.deletesAll`, `Sql.dropsTable` — statements that destroy data;
* `Sql.check`.
-/

namespace Workflows
namespace Sql

open Text

/-- Whether a statement ends somewhere behind a first character of a name, or behind the name. -/
def endsAfterName (cs : List Char) : Bool :=
  let name := cs.takeWhile (!isBlank ·)
  let rest := (cs.dropWhile (!isBlank ·)).dropWhile isBlank
  !name.isEmpty
    && ((name.drop 1).contains ';' || rest.isEmpty || rest.head? == some ';')

/-- Whether all rows of a table are deleted: the statement ends behind the name of the table. -/
def deletesAll (query : List Char) : Bool :=
  search
    (fun before here =>
      wordMayBegin before
        && ((((behind? "delete" here).bind behindBlanks?).bind (behind? "from")).bind
            behindBlanks?).any endsAfterName)
    (fold query)

def dropsTable (query : List Char) : Bool :=
  search
    (fun before here =>
      wordMayBegin before
        && ["drop", "truncate"].any fun verb =>
            (((behind? verb here).bind behindBlanks?).bind (behind? "table")).any wordMayEnd)
    (fold query)

def check (ps : Entries Value) : Outcome :=
  match Parameters.text? "query" ps with
  | none => .none
  | some query =>
    let cs := query.toList
    if allBlank cs then .none
    else
      .whenever (deletesAll (strip cs))
          (.ofIssue
            (Outcome.security "query" "DELETE without WHERE removes every row of the table"))
        ++ .whenever (dropsTable cs)
          (.ofIssue (Outcome.security "query" "Query drops or truncates a table"))
        ++ .whenever (occursIn ['\x7b', '\x7b'] cs)
          (.ofIssue
            { Outcome.security "query"
                "Expression inside SQL text can lead to SQL injection" with
              fix := some "Use query parameters instead of interpolating values" })

end Sql
end Workflows
