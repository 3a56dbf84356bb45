import Workflows.Text.Pieces

/-!
# Fault — what keeps a value from having an expected shape

A fault says where in a value something is wrong and why. Places are paths of keys and indices;
the alternatives of a choice between shapes count as keys.

Main definitions:

* `Place`, `Place.text` — a path and its text, such as `nodes[0].parameters.url`;
* `Cause`, `Cause.message` — the kinds of faults and their wording.
-/

namespace Workflows

inductive PlaceStep
  | key (name : String)
  | index (i : Int)
  deriving DecidableEq, Repr

/-- The steps from the outermost value inwards. -/
abbrev Place := List PlaceStep

namespace Place

/-- Appends a step to the text of a path. A key is set off by a point unless it comes first. -/
def extend (text : String) : PlaceStep → String
  | .index i => text ++ "[" ++ toString i ++ "]"
  | .key name => if text = "" then name else text ++ "." ++ name

/-- The text of a path; the whole value has a name of its own. -/
def text (place : Place) : String :=
  let joined := place.foldl extend ""
  if joined = "" then "<root>" else joined

end Place

inductive Cause
  | missing
  | notString
  | notInteger
  | fractional
  | notNumeral
  | outOfRange
  | notNumber
  | notBoolean
  | unclearBoolean
  | notList
  | notObject
  | notModel (model : String)
  | unexpectedKey
  | emptyText
  | emptyObject
  | notOneOf (words : List String)
  | noTag (field : String)
  | unknownTag (field tag : String) (known : List String)
  | emptyNodeName
  | positionSize (count : Nat)
  | noNodeReference
  | notDocument (kind : String)
  deriving DecidableEq, Repr

namespace Cause

/-- Words in quotes, with commas between them and "or" before the last one. -/
def alternatives : List String → String
  | [] => ""
  | [w] => "'" ++ w ++ "'"
  | [v, w] => "'" ++ v ++ "' or '" ++ w ++ "'"
  | w :: rest => "'" ++ w ++ "', " ++ alternatives rest

def message : Cause → String
  | missing => "Field required"
  | notString => "Input should be a valid string"
  | notInteger => "Input should be a valid integer"
  | fractional => "Input should be a valid integer, got a number with a fractional part"
  | notNumeral => "Input should be a valid integer, unable to parse string as an integer"
  | outOfRange => "Unable to parse input string as an integer, exceeded maximum size"
  | notNumber => "Input should be a valid number"
  | notBoolean => "Input should be a valid boolean"
  | unclearBoolean => "Input should be a valid boolean, unable to interpret input"
  | notList => "Input should be a valid list"
  | notObject => "Input should be a valid dictionary"
  | notModel model => "Input should be a valid dictionary or instance of " ++ model
  | unexpectedKey => "Extra inputs are not permitted"
  | emptyText => "String should have at least 1 character"
  | emptyObject => "Dictionary should have at least 1 item after validation, not 0"
  | notOneOf words => "Input should be " ++ alternatives words
  | noTag field => "Unable to extract tag using discriminator '" ++ field ++ "'"
  | unknownTag field tag known =>
    "Input tag '" ++ tag ++ "' found using '" ++ field ++
      "' does not match any of the expected tags: " ++
      Text.join ", " (known.map fun w => "'" ++ w ++ "'")
  | emptyNodeName => "Value error, Node name must not be empty"
  | positionSize count =>
    "Value error, Position must be [x, y], got " ++ toString count ++ " values"
  | noNodeReference => "Value error, Either nodeId or nodeName is required"
  | notDocument kind => "Expected an object, got " ++ kind

end Cause

structure Fault where
  place : Place
  cause : Cause
  deriving DecidableEq, Repr

namespace Fault

def message (f : Fault) : String :=
  f.cause.message

/-- The fault seen from outside the value it was found in. -/
def under (step : PlaceStep) (f : Fault) : Fault :=
  { f with place := step :: f.place }

def text (f : Fault) : String :=
  f.place.text ++ ": " ++ f.message

end Fault
end Workflows
