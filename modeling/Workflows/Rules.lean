import Workflows.Rules.Code
import Workflows.Rules.Routing
import Workflows.Rules.Sql
import Workflows.TypeName

/-!
# Rules — the rules of each node type

Main definitions:

* `Rules.forType` — the rules of a short type name, in order;
* `Rules.run` — their joined outcome;
* `Rules.examples` — example parameters shown as guidance.
-/

namespace Workflows
namespace Rules

/-- A rule looks at the parameters of a node. -/
abbrev Rule := Entries Value → Outcome

def forType (short : String) : List Rule :=
  match short with
  | "code" => [Code.check]
  | "webhook" => [Web.checkTriggerPath, Web.checkResponse]
  | "formTrigger" => [Web.checkTriggerPath]
  | "httpRequest" => [Web.checkRequest]
  | "postgres" | "mySql" | "microsoftSql" => [Sql.check]
  | "switch" => [Routing.checkSwitch]
  | "if" | "filter" => [Routing.checkConditions]
  | "set" => [Routing.checkSet]
  | _ => []

def run (type : String) (ps : Entries Value) : Outcome :=
  .join ((forType (TypeName.short type)).map fun rule => rule ps)

/-! ## Guidance -/

def codeExample : Value :=
  .obj
    [("jsCode",
      .str ("return $input.all().map(item => (\x7bjson: \x7b...item.json, processed: true\x7d"
        ++ "\x7d));"))]

def webhookExample : Value :=
  .obj
    [("httpMethod", .str "POST"), ("path", .str "incoming-order"),
      ("responseMode", .str "onReceived")]

def requestExamples : List Value :=
  [.obj [("method", .str "GET"), ("url", .str "https://api.example.com/items")],
    .obj
      [("method", .str "POST"), ("url", .str "https://api.example.com/items"),
        ("sendBody", .bool true), ("contentType", .str "json"), ("specifyBody", .str "json"),
        ("jsonBody",
          .str "=\x7b\x7b JSON.stringify(\x7bname: $json.name\x7d) \x7d\x7d")]]

def conditionExample : Value :=
  .obj
    [("conditions",
      Routing.conditionList
        (.obj
          [("leftValue", .str "=\x7b\x7b $json.status \x7d\x7d"), ("rightValue", .str "active"),
            ("operator",
              .obj [("type", .str "string"), ("operation", .str "equals")])]))]

def messageExample : Value :=
  .obj
    [("resource", .str "message"), ("operation", .str "post"),
      ("channelId",
        .obj [("__rl", .bool true), ("value", .str "C0123456"), ("mode", .str "id")]),
      ("text", .str "=\x7b\x7b $json.message \x7d\x7d")]

def examples (type : String) : List Value :=
  match TypeName.short type with
  | "code" => [codeExample]
  | "webhook" => [webhookExample]
  | "httpRequest" => requestExamples
  | "if" => [conditionExample]
  | "slack" => [messageExample]
  | _ => []

end Rules
end Workflows
