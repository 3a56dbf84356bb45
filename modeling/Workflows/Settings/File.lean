import Workflows.Files
import Workflows.Profile
import Workflows.Schema
import Workflows.Settings

/-!
# File — settings from a file and the environment

Settings come from a file: one that is named, else that of the project, else that of the user.
Environment variables override what the file says, and the outcome has to keep a schema.

Main definitions:

* `SettingsFault` — why there are no settings;
* `Settings.ofEntries` — settings from an object;
* `Settings.find`, `Settings.load`.
-/

namespace Workflows

inductive SettingsFault
  | unreadable (path : String) (f : ReadFault)
  | notObject (path kind : String)
  /-- The settings break a rule; without a path they come from the environment alone. -/
  | invalid (path : Option String) (c : Complaint)
  deriving Repr

namespace SettingsFault

def message : SettingsFault → String
  | unreadable path f => "Cannot read settings file " ++ path ++ ": " ++ f.message
  | notObject path kind => "Settings file " ++ path ++ " must contain a mapping, got " ++ kind
  | invalid path c =>
    "Settings validation failed in " ++ path.getD "environment" ++ ": " ++ c.text

end SettingsFault

namespace Settings

def keys : List String :=
  ["default_profile", "max_expression_depth", "long_chain_threshold", "loop_back_max_depth",
    "max_operations_per_batch", "catalog_path"]

def schema : Schema :=
  [.ofKind [.object],
    .closed keys,
    .field "default_profile" [.ofKind [.string], .among (Profile.all.map Profile.word)],
    .field "max_expression_depth" [.ofKind [.integer], .atLeast 1, .atMost 1000],
    .field "long_chain_threshold" [.ofKind [.integer], .atLeast 2],
    .field "loop_back_max_depth" [.ofKind [.integer], .atLeast 1],
    .field "max_operations_per_batch" [.ofKind [.integer, .null], .atLeast 1],
    .field "catalog_path" [.ofKind [.string, .null]]]

def number? (key : String) (es : Entries Value) : Option Number :=
  match es.get? key with
  | some (.num n) => some n
  | _ => none

def text? (key : String) (es : Entries Value) : Option String :=
  (es.get? key).bind Value.str?

/-- Settings from an object that keeps the schema. What it lacks has its standard value. -/
def ofEntries (home : String) (es : Entries Value) : Settings :=
  let standard : Settings := {}
  { defaultProfile := (es.get? "default_profile").getD standard.defaultProfile
    maxExpressionDepth := (number? "max_expression_depth" es).getD standard.maxExpressionDepth
    longChainThreshold := (number? "long_chain_threshold" es).getD standard.longChainThreshold
    loopBackMaxDepth := (number? "loop_back_max_depth" es).getD standard.loopBackMaxDepth
    maxOperations := number? "max_operations_per_batch" es
    catalogPath := (text? "catalog_path" es).map (Path.expandHome home) }

/-! ## Where settings are looked for -/

variable {m : Type → Type}

def fileName : String := ".flowguard/config.yaml"

def searchPaths (s : Surroundings m) : List String :=
  [Path.join s.workingDirectory fileName, Path.join s.home fileName]

/-- The settings file that is used when none is named. -/
def find [Monad m] (s : Surroundings m) : m (Option String) :=
  s.firstPresent (searchPaths s)

/-- Assigns the value of an environment variable to a key, if it has one. -/
def override (s : Surroundings m) (name key : String) (es : Entries Value) : Entries Value :=
  match s.lookup? name with
  | some text => es.put key (.str text)
  | none => es

/-- Settings from the entries of a file, and from the environment. -/
def resolve (s : Surroundings m) (path : Option String) (es : Entries Value) :
    Except SettingsFault Settings :=
  -- The environment overrides the file, and the schema judges what comes of it.
  let es := override s "FLOWGUARD_CATALOG" "catalog_path"
    (override s "FLOWGUARD_PROFILE" "default_profile" es)
  match schema.check (.obj es) with
  | some c => .error (.invalid path c)
  | none => .ok (ofEntries s.home es)

def ofView (s : Surroundings m) (path : String) (v : FileView) : Except SettingsFault Settings :=
  match v.value with
  | .error f => .error (.unreadable path f)
  -- An empty file is one without entries.
  | .ok .null => resolve s (some path) []
  | .ok (.obj es) => resolve s (some path) es
  | .ok v => .error (.notObject path v.kind)

/-- The settings of a named file, or of the one that is found. -/
def load [Monad m] (s : Surroundings m) (named : Option String) :
    m (Except SettingsFault Settings) := do
  let source ← if named.isSome then pure named else find s
  match source with
  | none => pure (resolve s none [])
  | some path => return ofView s path (← s.view path)

end Settings
end Workflows
