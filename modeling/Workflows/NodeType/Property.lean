import Workflows.Shape.Decoded

/-!
# Property — one parameter of a node type

A property says which values a parameter takes and under which condition it applies. Several
properties of a type may share a name, one for each situation.

Main definitions:

* `Condition` — values of other parameters that show or hide a property;
* `Property`, `Property.decode`;
* `Property.optionValues` — the values a choice allows.
-/

namespace Workflows

/-- What other parameters have to be like: every one of `show` has to match its allow-list, and
none of `hide`. -/
structure Condition where
  showWhen : Entries Value := []
  hideWhen : Entries Value := []
  deriving Repr

structure Property where
  name : String
  type : String
  displayName : Option String := none
  description : Option String := none
  required : Bool := false
  /-- The value used when the parameter is not set; null when there is none. -/
  default : Value := .null
  condition : Option Condition := none
  options : List Value := []
  deriving Repr

namespace Condition

def decode : Value → Decoded Condition :=
  Shape.model "DisplayOptions" fun es =>
    Condition.mk
      <$> Shape.optional (.single "show") [] Shape.object es
      <*> Shape.optional (.single "hide") [] Shape.object es

end Condition

namespace Property

def decode : Value → Decoded Property :=
  Shape.model "PropertySchema" fun es =>
    Property.mk
      <$> Shape.required (.single "name") Shape.filledString es
      <*> Shape.required (.single "type") Shape.filledString es
      <*> Shape.optional ⟨"displayName", "display_name"⟩ none (Shape.nullable Shape.string) es
      <*> Shape.optional (.single "description") none (Shape.nullable Shape.string) es
      <*> Shape.optional (.single "required") false Shape.looseBoolean es
      <*> Shape.optional (.single "default") .null Shape.any es
      <*> Shape.optional ⟨"displayOptions", "display_options"⟩ none
            (Shape.nullable Condition.decode) es
      <*> Shape.optional (.single "options") [] (Shape.list Shape.any) es

/-- The value an option stands for: an object gives it under a key, or stands for none. -/
def optionValue? : Value → Option Value
  | .obj fields => Entries.get? "value" fields
  | v => some v

def optionValues (p : Property) : List Value :=
  p.options.filterMap optionValue?

/-- Whether the property has a value of its own that is not the empty string. -/
def hasDefault (p : Property) : Bool :=
  match p.default with
  | .null => false
  | .str s => s != ""
  | _ => true

end Property
end Workflows
