import Workflows.Catalog
import Workflows.Display.Markup
import Workflows.Edit

/-!
# Display — reports and results for a reader

What is shown is a list of panels, tables and lines of styled text. Names, messages and paths come
from documents, so they are escaped wherever they become a part of styled text.

Main definitions:

* `Display` — the things that are shown;
* `Report.displays`, `EditResult.displays`, `Catalog.display`;
* `Display.lines` — plain lines for a terminal without styles.
-/

namespace Workflows

inductive Display
  | panel (title body : String)
  | table (title : String) (columns : List String) (rows : List (List String))
  | text (line : String)
  deriving DecidableEq, Repr

/-! ## Reports -/

namespace Issue

def severityCell (i : Issue) : String :=
  match i.severity with
  | .error => "[red]✗ error[/]"
  | .warning => "[yellow]! warning[/]"
  | .info => "[dim]i info[/]"

/-- The message with the advice below it, if there is some. -/
def messageCell (i : Issue) : String :=
  let fix := i.fix.getD ""
  Markup.escape i.message
    ++ (if fix == "" then "" else "\n[dim]fix: " ++ Markup.escape fix ++ "[/]")
    ++ (if i.suggested.isNull then ""
      else "\n[dim]suggested: " ++ Markup.escape i.suggested.literal ++ "[/]")

def cells (i : Issue) : List String :=
  [i.severityCell, Markup.escape i.location, i.category.word, i.messageCell]

def columns : List String := ["Severity", "Location", "Category", "Message"]

/-- The table of some issues, which is left out when there are none. -/
def tables (name : String) (issues : List Issue) : List Display :=
  if issues.isEmpty then []
  else
    [.table (name ++ " (" ++ toString issues.length ++ ")") columns (issues.map cells)]

end Issue

namespace Report

def verdict (r : Report) : String :=
  if r.valid then "[green]✓ valid[/]" else "[red bold]✗ invalid[/]"

/-- The verdict and the statistics. -/
def summary (r : Report) : String :=
  let s := r.statistics
  r.verdict ++ "  profile: " ++ Markup.escape r.profile ++ "\nNodes: " ++ toString s.totalNodes
    ++ " (" ++ toString s.enabledNodes ++ " enabled, " ++ toString s.triggerNodes
    ++ " trigger)  Connections: " ++ toString s.validConnections ++ " valid, "
    ++ toString s.invalidConnections ++ " invalid  Expressions: "
    ++ toString s.expressionsValidated

def panelTitle (source : String) : String :=
  let title := Markup.escape source
  if title == "" then "Validation" else title

def displays (source : String) (r : Report) : List Display :=
  .panel (panelTitle source) r.summary
    :: (Issue.tables "Errors" r.errors
      ++ Issue.tables "Warnings" r.warnings
      ++ r.suggestions.map (fun s => .text ("  [blue]→ " ++ Markup.escape s ++ "[/]"))
      ++ r.notes.map (fun n => .text ("  [dim]• " ++ Markup.escape n ++ "[/]")))

end Report

/-! ## Results of batches -/

def EditError.label (e : EditError) : String :=
  let kind := e.kind.getD ""
  (if e.operation < 0 then "document" else "#" ++ toString e.operation)
    ++ (if kind == "" then "" else " (" ++ Markup.escape kind ++ ")")

def EditError.display (e : EditError) : Display :=
  .text ("  [red]• " ++ e.label ++ ": " ++ Markup.escape e.message ++ "[/]")

namespace EditResult

def headline (r : EditResult) : Display :=
  .text
    ((if r.success then "[green]✓ " else "[red]✗ ") ++ Markup.escape r.message ++ "[/]")

def displays (r : EditResult) : List Display :=
  r.headline
    :: ((if r.success then [] else r.errors.map EditError.display)
      ++ (r.report.map (Report.displays "Resulting workflow")).getD [])

end EditResult

/-! ## Catalogs -/

namespace NodeType

def flags (t : NodeType) : List String :=
  (if t.isTrigger then ["trigger"] else [])
    ++ (if t.isLoopCapable then ["loop"] else [])
    ++ (if t.dynamicOutputs then ["dynamic"] else [])

def outputsCell (t : NodeType) : String :=
  let outputs := Markup.escape (Text.join ", " t.outputs)
  if outputs == "" then "-" else outputs

def cells (t : NodeType) : List String :=
  [Markup.escape t.name, Markup.escape t.displayName, t.latest.text, t.outputsCell,
    Text.join ", " t.flags]

def table (title : String) (types : List NodeType) : Display :=
  .table (Markup.escape title) ["Type", "Name", "Latest", "Outputs", "Flags"] (types.map cells)

end NodeType

def Catalog.display (c : Catalog) : Display :=
  NodeType.table ("Catalog " ++ c.version) (c.names.filterMap fun n => c.types.get? n)

/-! ## Plain lines -/

namespace Display

def plainRow (cells : List String) : String :=
  Text.join " | " (cells.map Markup.plain)

/-- The lines of a display without its styles. -/
def lines : Display → List String
  | panel title body => ["== " ++ Markup.plain title ++ " ==", Markup.plain body]
  | table title columns rows => Markup.plain title :: plainRow columns :: rows.map plainRow
  | text line => [Markup.plain line]

end Display
end Workflows
