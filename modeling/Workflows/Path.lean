import Workflows.Text.Pieces

/-!
# Path — places in the file system

Paths are texts with slashes between the names. The tidy form has no empty names and no names that
stand for the directory they are in; names that lead to the parent directory stay.

Main definitions:

* `Path.tidy`, `Path.join`, `Path.expandHome`;
* `Path.name`, `Path.suffix`, `Path.parent`.
-/

namespace Workflows
namespace Path

/-- What a path begins with when it starts at the root: one slash, or two if there are just two. -/
def root (path : String) : String :=
  match path.toList.takeWhile (· == '/') with
  | [] => ""
  | ['/', '/'] => "//"
  | _ => "/"

/-- The names of a path from the outermost one inwards. -/
def names (path : String) : List String :=
  (Text.pieces '/' path).filter fun n => n != "" && n != "."

def isAbsolute (path : String) : Bool :=
  root path != ""

def ofNames (root : String) (names : List String) : String :=
  if root == "" && names.isEmpty then "." else root ++ Text.join "/" names

def tidy (path : String) : String :=
  ofNames (root path) (names path)

def join (directory path : String) : String :=
  if isAbsolute path then tidy path else ofNames (root directory) (names directory ++ names path)

/-- Puts the home directory in the place of a tilde at the front. -/
def expandHome (home path : String) : String :=
  if isAbsolute path then tidy path
  else
    match names path with
    | "~" :: rest => ofNames (root home) (names home ++ rest)
    | _ => tidy path

def name (path : String) : String :=
  (names path).getLast?.getD ""

/-- What the last name has from its last point on, when there is something before and behind. -/
def suffix (path : String) : String :=
  let n := name path
  let ending := Text.afterLast '.' n
  if ending == "" || ending.length + 1 ≥ n.length then "" else "." ++ ending

def parent (path : String) : String :=
  ofNames (root path) (names path).dropLast

end Path
end Workflows
