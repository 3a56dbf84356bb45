import Workflows.Command

/-!
# Main — the program

Carries out the response to a command line: shows what is to be shown, writes the file that is to
be written, and ends with the exit code. Everything else is decided by `Command.runArguments`.
-/

namespace Workflows
namespace Program

/-- What lies at a path. A path that cannot be read counts as one where nothing lies. -/
def viewFile (path : String) : IO FileView := do
  try
    return .text (← IO.FS.readFile path)
  catch
    | .inappropriateType .. => return .directory
    | _ => return .absent

def environment : IO (Entries String) := do
  let mut found : Entries String := []
  for name in ["FLOWGUARD_PROFILE", "FLOWGUARD_CATALOG"] do
    if let some value ← IO.getEnv name then
      found := found.put name value
  return found

/-- A mark of the content of a file at a path. -/
def contentMark (path content : String) : String :=
  String.ofList (Nat.toDigits 16 (hash (path, content)).toNat)

/-- A number so large that ids drawn from it on are taken to be new. -/
def randomNumber : IO Nat := do
  let bytes ← IO.getRandomBytes 15
  return bytes.foldl (fun n b => n * 256 + b.toNat) 0

def surroundings : IO (Surroundings IO) := do
  return {
    view := viewFile
    environment := ← environment
    home := (← IO.getEnv "HOME").getD "/"
    workingDirectory := (← IO.getEnv "PWD").getD "."
    mark := contentMark
    firstId := ← randomNumber }

def carryOut (r : Response) : IO UInt32 := do
  for display in r.displays do
    for line in display.lines do
      IO.println line
  if let some value := r.json then
    IO.println (value.indented 0)
  for line in r.usage do
    IO.eprintln line
  if let some file := r.file then
    IO.FS.writeFile file.path file.content
  return r.exitCode.toUInt32

end Program
end Workflows

open Workflows in
def main (arguments : List String) : IO UInt32 := do
  Program.carryOut (← Command.runArguments (← Program.surroundings) arguments)
