import Workflows.Path
import Workflows.Value.Flow

/-!
# Files — what is read from the surroundings

The programs that read files see the file system through `Surroundings`, which says what lies at a
path. What they do with it does not depend on how the answer is found, so the same definitions run
on a real file system and on a list of files.

Main definitions:

* `FileView`, `FileView.value` — what lies at a path, and the value written there;
* `ReadFault` — why there is no value;
* `Surroundings` — files, environment variables and directories.
-/

namespace Workflows

inductive FileView
  | absent
  | directory
  | text (content : String)
  deriving DecidableEq, Repr

inductive ReadFault
  | absent
  | directory
  | malformed (f : FlowFault)
  deriving DecidableEq, Repr

namespace ReadFault

def message : ReadFault → String
  | absent => "No such file"
  | directory => "Is a directory"
  | malformed f => f.message

end ReadFault

namespace FileView

def exists? : FileView → Bool
  | absent => false
  | _ => true

def value : FileView → Except ReadFault Value
  | absent => .error .absent
  | directory => .error .directory
  | text content => (Flow.read content).mapError .malformed

end FileView

structure Surroundings (m : Type → Type) where
  view : String → m FileView
  /-- The environment variables. -/
  environment : Entries String
  home : String
  workingDirectory : String
  /-- A short mark of the content of a file at a path. Other content has another mark. -/
  mark : String → String → String
  /-- The number of the first id that is drawn. -/
  firstId : Nat

namespace Surroundings

variable {m : Type → Type}

/-- An environment variable that has a value. -/
def lookup? (s : Surroundings m) (name : String) : Option String :=
  (s.environment.get? name).filter (· != "")

def firstPresent [Monad m] (s : Surroundings m) : List String → m (Option String)
  | [] => pure none
  | path :: rest => do
    if (← s.view path).exists? then pure (some path) else s.firstPresent rest

end Surroundings
end Workflows
