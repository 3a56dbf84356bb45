import Workflows.Catalog.File
import Workflows.Command.Request
import Workflows.Display
import Workflows.Settings.File
import Workflows.Value.Block

/-!
# Command — the commands and what they do

A command reads files, shows something and may write a file. What it does is given by a `Response`,
so that the outer layer of the program only carries it out.

Main definitions:

* `Response`, `OutputFile`;
* `Command.run` — the response to a request;
* `Command.runArguments` — the response to a command line.
-/

namespace Workflows

inductive FileFormat
  | json
  | block
  deriving DecidableEq, Repr

/-- The format that a path stands for by its ending. -/
def FileFormat.ofPath (path : String) : FileFormat :=
  if Path.suffix path == ".yaml" || Path.suffix path == ".yml" then .block else .json

structure OutputFile where
  path : String
  document : Document
  deriving Repr

namespace OutputFile

def format (f : OutputFile) : FileFormat :=
  .ofPath f.path

def content (f : OutputFile) : String :=
  match f.format with
  | .block => f.document.toValue.block
  | .json => f.document.toValue.indented 0 ++ "\n"

end OutputFile

structure Response where
  /-- 0 for success, 1 for failure, 2 for a malformed command line. -/
  exitCode : Nat
  displays : List Display := []
  /-- What is put out in the data format instead of being shown. -/
  json : Option Value := none
  file : Option OutputFile := none
  /-- Lines on the program itself, which have no styles. -/
  usage : List String := []
  deriving Repr

namespace Response

def usageLines : List String :=
  ["Usage:", "  flowguard validate FILE [-p PROFILE] [--catalog FILE] [--json]",
    "  flowguard diff FILE OPERATIONS [--validate-only] [-o FILE] [--catalog FILE] [--json]",
    "  flowguard types [--catalog FILE]", "  flowguard version"]

def usageError : Response := { exitCode := 2, usage := usageLines }

def crash : Response := { exitCode := 1 }

def failure (lines : List String) : Response :=
  { exitCode := 1, displays := lines.map .text }

def success (lines : List String) : Response :=
  { exitCode := 0, displays := lines.map .text }

def unreadable (what path : String) (f : ReadFault) : Response :=
  failure
    ["[red]Error parsing " ++ what ++ " file '" ++ Markup.escape path ++ "':[/red]",
      "  " ++ Markup.escape f.message]

def badSettings (f : SettingsFault) : Response :=
  failure ["[red]Invalid settings:[/red] " ++ Markup.escape f.message]

def badCatalog (f : CatalogFault) : Response :=
  failure ["[red]Invalid node catalog:[/red] " ++ Markup.escape f.message]

def noOperations (path : String) : Response :=
  failure
    ["[red]Error: '" ++ Markup.escape path ++ "' must contain a list of operations.[/red]"]

def ofReport (workflow : String) (json : Bool) (r : Report) : Response :=
  { exitCode := if r.valid then 0 else 1
    displays := if json then [] else r.displays workflow
    json := if json then some r.toValue else none }

def ofResult (json : Bool) (r : EditResult) : Response :=
  { exitCode := if r.success then 0 else 1
    displays := if json then [] else r.displays
    json := if json then some r.toBriefValue else none }

/-- Adds a file, and says so unless the output is in the data format. -/
def writing (path : String) (d : Document) (o : Response) : Response :=
  { o with
    displays :=
      o.displays
        ++ (if o.json.isSome then []
          else [.text ("[green]Wrote " ++ Markup.escape path ++ "[/green]")])
    file := some ⟨path, d⟩ }

end Response

namespace Command

variable {m : Type → Type} [Monad m]

/-- Whether there is a file at each of some paths. -/
def allFiles (s : Surroundings m) : List String → m Bool
  | [] => pure true
  | path :: rest => do
    match ← s.view path with
    | .text _ => allFiles s rest
    | _ => pure false

/-- Whether a file can be written at a path, as far as the command line is concerned. -/
def outputFits (s : Surroundings m) : Option String → m Bool
  | none => pure true
  | some path => do
    match ← s.view path with
    | .directory => pure false
    | _ => pure true

/-- The settings, with a catalog that is named on the command line. -/
def settings (s : Surroundings m) (catalog : Option String) : m (Except Response Settings) := do
  match ← Settings.load s none with
  | .error f => pure (.error (.badSettings f))
  | .ok found =>
    match catalog with
    | none => pure (.ok found)
    | some path => pure (.ok { found with catalogPath := some (Path.tidy path) })

def validator (s : Surroundings m) (catalog : Option String) : m (Except Response Validator) := do
  match ← settings s catalog with
  | .error o => pure (.error o)
  | .ok found =>
    match ← Catalog.load s found.catalogPath with
    | .error f => pure (.error (.badCatalog f))
    | .ok c => pure (.ok ⟨c, found⟩)

/-- The word of the profile that is asked for; null when none is. -/
def profileValue (profile : Option Profile) : Value :=
  (profile.map fun p => Value.str p.word).getD .null

def validate (s : Surroundings m) (workflow : String) (profile : Option Profile)
    (catalog : Option String) (json : Bool) : m Response := do
  match (← s.view workflow).value with
  | .error f => pure (.unreadable "workflow" workflow f)
  | .ok value =>
    match ← validator s catalog with
    | .error o => pure o
    | .ok v =>
      match v.check (profileValue profile) value with
      | .error _ => pure .crash
      | .ok r => pure (.ofReport workflow json r)

/-- The operations of a value: a list, or an object with one. -/
def operationsOf? : Value → Option (List Value)
  | .obj es => (Entries.get? "operations" es).bind Value.arr?
  | v => v.arr?

/-- The response of a batch, with the new document written to a file if one is asked for. There is no
new document when the batch was only checked. -/
def finish (s : Surroundings m) (output : Option String) (json : Bool) (r : EditResult) :
    m Response := do
  let o := Response.ofResult json r
  match r.success, output, r.document with
  | true, some path, some d =>
    match ← s.view (Path.parent path) with
    | .directory => pure (o.writing path d)
    -- The result has been put out by then, so only the exit code tells of the failure.
    | _ => pure { o with exitCode := 1 }
  | _, _, _ => pure o

def diff (s : Surroundings m) (workflow operations : String) (dryRun : Bool)
    (output catalog : Option String) (json : Bool) : m Response := do
  match (← s.view workflow).value with
  | .error f => pure (.unreadable "workflow" workflow f)
  | .ok value =>
    match (← s.view operations).value with
    | .error f => pure (.unreadable "operations" operations f)
    | .ok listed =>
      match operationsOf? listed with
      | none => pure (.noOperations operations)
      | some batch =>
        -- A batch that is only checked gets no report, as there is no new document.
        match ← validator s catalog with
        | .error o => pure o
        | .ok v =>
          match v.edit dryRun (!dryRun) s.firstId value batch with
          | .error _ => pure .crash
          | .ok r => finish s output json r

def types (s : Surroundings m) (catalog : Option String) : m Response := do
  match ← validator s catalog with
  | .error o => pure o
  | .ok v => pure { exitCode := 0, displays := [v.catalog.display] }

def programName : String := "flowguard"

def programVersion : String := "0.1.0"

def versionLines : List String :=
  [programName ++ " v" ++ programVersion, "Workflow validator and diff engine"]

/-- The response to a request whose files are there. -/
def perform (s : Surroundings m) : Request → m Response
  | .help => pure { exitCode := 0, usage := Response.usageLines }
  | .programVersion => pure { exitCode := 0, usage := [programName ++ ", version " ++ programVersion] }
  | .validate workflow profile catalog json => validate s workflow profile catalog json
  | .diff workflow operations dryRun output catalog json =>
    diff s workflow operations dryRun output catalog json
  | .types catalog => types s catalog
  | .version => pure (.success versionLines)

def run (s : Surroundings m) (r : Request) : m Response := do
  if (← allFiles s r.inputs) && (← outputFits s r.output?) then perform s r
  else pure .usageError

def runArguments (s : Surroundings m) (arguments : List String) : m Response :=
  match Request.read arguments with
  | none => pure .usageError
  | some r => run s r

end Command
end Workflows
