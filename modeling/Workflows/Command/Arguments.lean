import Workflows.Entries
import Workflows.Text.Pieces

/-!
# Arguments — options and words of a command line

A command line is read against the options that a command knows. Long options are set off by two
dashes and may have their value behind an equals sign; the letters of short options can stand
together behind one dash, the last of them with its value. Two dashes alone end the options.

Main definitions:

* `OptionForm` — an option with its spellings;
* `Arguments`, `Arguments.read` — what a command line says, unless it is malformed.
-/

namespace Workflows

structure OptionForm where
  key : String
  /-- The spellings, with their dashes. -/
  spellings : List String
  takesValue : Bool := false
  deriving DecidableEq, Repr

structure Arguments where
  /-- The options that are given, each with its last value; flags have an empty value. -/
  options : Entries String := []
  words : List String := []
  deriving Repr

namespace Arguments

def find? (forms : List OptionForm) (spelling : String) : Option OptionForm :=
  forms.find? fun f => f.spellings.contains spelling

/-- What one argument says: options with their values, and the option that takes its value from the
next argument, if there is one. -/
structure Given where
  options : List (String × String) := []
  open? : Option String := none

/-- The letters behind one dash. -/
def readLetters (forms : List OptionForm) : List Char → Option Given
  | [] => some {}
  | c :: rest =>
    match find? forms (String.ofList ['-', c]) with
    | none => none
    | some f =>
      if f.takesValue then
        if rest.isEmpty then some { open? := some f.key }
        else some { options := [(f.key, String.ofList rest)] }
      else
        (readLetters forms rest).map fun g => { g with options := (f.key, "") :: g.options }

/-- An option in its long form, with the value behind the equals sign if there is one. -/
def readLong (forms : List OptionForm) (argument : String) : Option Given :=
  let name := String.ofList (argument.toList.takeWhile (· != '='))
  match find? forms name, argument.toList.dropWhile (· != '=') with
  | none, _ => none
  | some f, [] => some (if f.takesValue then { open? := some f.key } else { options := [(f.key, "")] })
  | some f, _ :: value =>
    if f.takesValue then some { options := [(f.key, String.ofList value)] } else none

/-- What an argument says that begins with a dash. -/
def readOption (forms : List OptionForm) (argument : String) : Option Given :=
  match argument.toList with
  | '-' :: '-' :: _ => readLong forms argument
  | '-' :: letters => readLetters forms letters
  | _ => none

def isOption (argument : String) : Bool :=
  match argument.toList with
  | '-' :: _ :: _ => true
  | _ => false

def addOptions (given : List (String × String)) (a : Arguments) : Arguments :=
  { a with options := Entries.merge a.options given }

def addWords (words : List String) (a : Arguments) : Arguments :=
  { a with words := a.words ++ words }

/-- Reads arguments behind others. Unless options and words may be mixed, the first word ends the
options. -/
def readBehind (forms : List OptionForm) (mixed : Bool) (a : Arguments) :
    List String → Option Arguments
  | [] => some a
  | argument :: rest =>
    if argument == "--" then some (a.addWords rest)
    else if isOption argument then
      match readOption forms argument, rest with
      | none, _ => none
      | some ⟨given, none⟩, rest => readBehind forms mixed (a.addOptions given) rest
      | some ⟨_, some _⟩, [] => none
      | some ⟨given, some key⟩, value :: rest =>
        readBehind forms mixed (a.addOptions (given ++ [(key, value)])) rest
    else if mixed then readBehind forms mixed (a.addWords [argument]) rest
    else some (a.addWords (argument :: rest))

/-- What a command line says; none when it has an unknown option, or an option without its
value. -/
def read (forms : List OptionForm) (mixed : Bool) (arguments : List String) : Option Arguments :=
  readBehind forms mixed {} arguments

def has (key : String) (a : Arguments) : Bool :=
  a.options.has key

def value? (key : String) (a : Arguments) : Option String :=
  a.options.get? key

end Arguments
end Workflows
