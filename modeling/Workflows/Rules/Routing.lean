import Workflows.Rules.Web

/-!
# Routing — rules for conditions, branches and assignments

Branches and conditions are kept in objects of a fixed layout. Where the layout of an older version
is met, the corrected object is proposed.

Main definitions:

* `Routing.checkSwitch`, `Routing.checkConditions`, `Routing.checkSet`.
-/

namespace Workflows
namespace Routing

/-- The items of a list, or the value as the only item. -/
def listed : Value → List Value
  | .arr items => items
  | v => [v]

/-- An entry of an object that a parameter holds. -/
def inner? (key entry : String) (ps : Entries Value) : Option Value :=
  ((ps.get? key).bind Value.obj?).bind (Entries.get? entry)

def switchRules (conditions : Value) : Value :=
  .obj [("values", .arr ((listed conditions).map fun c => .obj [("conditions", c)]))]

def checkSwitch (ps : Entries Value) : Outcome :=
  match inner? "rules" "conditions" ps with
  | none => .none
  | some conditions =>
    let corrected := switchRules conditions
    { issues :=
        [{ Outcome.error "rules.conditions"
              "Switch rules must be listed under rules.values, not rules.conditions" with
            suggested := corrected }]
      autofix := [("rules", corrected)] }

/-- A list of conditions all of which have to hold. -/
def conditionList (values : Value) : Value :=
  .obj
    [("options", .obj [("caseSensitive", .bool true), ("typeValidation", .str "strict")]),
      ("conditions", .arr (listed values)), ("combinator", .str "and")]

def checkConditions (ps : Entries Value) : Outcome :=
  match inner? "conditions" "values" ps with
  | none => .none
  | some values =>
    let corrected := conditionList values
    { issues :=
        [{ Outcome.error "conditions.values"
              ("conditions.values is not a valid structure; conditions must be a list with a "
                ++ "combinator") with
            suggested := corrected }]
      autofix := [("conditions", corrected)] }

/-- A node that sets fields needs some, or the text of an object. -/
def checkSet (ps : Entries Value) : Outcome :=
  if ((ps.get? "mode").getD (.str "manual")).str? == some "raw" then
    match Parameters.text? "jsonOutput" ps with
    | none => .none
    | some raw =>
      .whenever (!Text.allBlank raw.toList && !Parameters.isExpressionText raw)
        (Web.unreadable "jsonOutput" raw)
  else
    .whenever (!Parameters.isSet "assignments" ps && !Parameters.isSet "values" ps)
      (.ofIssue (Outcome.style "assignments" "Set node has no fields configured"))

end Routing
end Workflows
