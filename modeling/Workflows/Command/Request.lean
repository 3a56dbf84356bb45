import Workflows.Command.Arguments
import Workflows.Profile

/-!
# Request — what a command line asks for

Main definitions:

* `Request` — the commands with their options;
* `Request.read` — the request of a command line, unless it is malformed.
-/

namespace Workflows

inductive Request
  | help
  | programVersion
  | validate (workflow : String) (profile : Option Profile) (catalog : Option String)
    (json : Bool)
  | diff (workflow operations : String) (dryRun : Bool) (output catalog : Option String)
    (json : Bool)
  | types (catalog : Option String)
  | version
  deriving DecidableEq, Repr

namespace Request

def flag (key : String) (spellings : List String) : OptionForm :=
  { key := key, spellings := spellings }

def valued (key : String) (spellings : List String) : OptionForm :=
  { key := key, spellings := spellings, takesValue := true }

def helpForm : OptionForm := flag "help" ["--help"]

/-- The options that stand before the name of a command. -/
def generalForms : List OptionForm :=
  [helpForm, flag "version" ["--version"], flag "verbose" ["--verbose", "-v"]]

def catalogForm : OptionForm := valued "catalog" ["--catalog"]

def jsonForm : OptionForm := flag "json" ["--json"]

def forms? : String → Option (List OptionForm)
  | "validate" => some [helpForm, valued "profile" ["--profile", "-p"], catalogForm, jsonForm]
  | "diff" =>
    some
      [helpForm, flag "validate-only" ["--validate-only"], valued "output" ["--output", "-o"],
        catalogForm, jsonForm]
  | "types" => some [helpForm, catalogForm]
  | "version" => some [helpForm]
  | _ => none

/-- The profile that is asked for, if there is one; none when the word names no profile. -/
def profile? (a : Arguments) : Option (Option Profile) :=
  match a.value? "profile" with
  | none => some none
  | some w => (Profile.ofWord? w).map some

def ofArguments (command : String) (a : Arguments) : Option Request :=
  if a.has "help" then some help
  else
    match command, a.words with
    | "validate", [workflow] =>
      (profile? a).map fun p => validate workflow p (a.value? "catalog") (a.has "json")
    | "diff", [workflow, operations] =>
      some
        (diff workflow operations (a.has "validate-only") ((a.value? "output").filter (· != ""))
          (a.value? "catalog") (a.has "json"))
    | "types", [] => some (types (a.value? "catalog"))
    | "version", [] => some version
    | _, _ => none

def ofCommand (command : String) (arguments : List String) : Option Request :=
  (forms? command).bind fun forms =>
    (Arguments.read forms true arguments).bind (ofArguments command)

/-- The request of a command line; none when it is malformed or names no command. -/
def read (arguments : List String) : Option Request :=
  (Arguments.read generalForms false arguments).bind fun a =>
    if a.has "help" then some help
    else if a.has "version" then some programVersion
    else
      match a.words with
      | [] => none
      | command :: rest => ofCommand command rest

def inputs : Request → List String
  | validate workflow _ catalog _ => workflow :: catalog.toList
  | diff workflow operations _ _ catalog _ => workflow :: operations :: catalog.toList
  | types catalog => catalog.toList
  | _ => []

def output? : Request → Option String
  | diff _ _ _ output _ _ => output
  | _ => none

end Request
end Workflows
