import Workflows.Catalog

/-!
# Bundled — the catalog that comes with the library

The node types that are known when no other catalog is given, each with its versions, outputs and
properties.

Main definitions:

* `Catalog.bundled` — the catalog;
* `Catalog.Bundled.types` — its types.
-/

namespace Workflows
namespace Catalog
namespace Bundled

/-! ## Properties -/

abbrev Entry := Entries Value

/-- A property of any type but a choice. -/
def property (name type : String) : Entry :=
  [("name", .str name), ("type", .str type)]

/-- A choice among words, with the one that counts when the parameter is not set. -/
def choice (name standard : String) (options : List String) : Entry :=
  [("name", .str name), ("type", .str "options"), ("default", .str standard),
    ("options", .strings options)]

def withDefault (v : Value) (p : Entry) : Entry :=
  p ++ [("default", v)]

def needed (p : Entry) : Entry :=
  p ++ [("required", .bool true)]

def conditions (cs : List (String × List Value)) : Value :=
  .obj (cs.map fun c => (c.1, .arr c.2))

/-- A property that applies when all the given parameters have one of their values. -/
def shownFor (cs : List (String × List Value)) (p : Entry) : Entry :=
  p ++ [("displayOptions", .obj [("show", conditions cs)])]

/-- A property that applies unless one of the given parameters has one of its values. -/
def hiddenFor (cs : List (String × List Value)) (p : Entry) : Entry :=
  p ++ [("displayOptions", .obj [("hide", conditions cs)])]

def entries (ps : List Entry) : List Value := ps.map .obj

/-- A version number with one decimal. -/
def tenths (n : Nat) : Number :=
  .float (Binary64.ofDecimal false n (-1))

/-! ## Types -/

def manualTrigger : NodeType :=
  { name := "nodes-base.manualTrigger"
    displayName := "Manual Trigger"
    isTrigger := true }

def scheduleTrigger : NodeType :=
  { name := "nodes-base.scheduleTrigger"
    displayName := "Schedule Trigger"
    version := .many [.int 1, tenths 11, tenths 12]
    isTrigger := true
    properties := entries
      [property "rule" "fixedCollection" |> withDefault (.obj [("interval", .arr [.obj []])])] }

def webhook : NodeType :=
  { name := "nodes-base.webhook"
    displayName := "Webhook"
    version := .many [.int 1, tenths 11, .int 2]
    isTrigger := true
    properties := entries
      [choice "httpMethod" "GET" ["DELETE", "GET", "HEAD", "PATCH", "POST", "PUT"],
        property "path" "string" |> needed,
        choice "authentication" "none" ["basicAuth", "headerAuth", "jwtAuth", "none"],
        choice "responseMode" "onReceived" ["onReceived", "lastNode", "responseNode"],
        choice "responseData" "firstEntryJson" ["allEntries", "firstEntryJson",
          "firstEntryBinary", "noData"]
          |> shownFor [("responseMode", [.str "lastNode"])],
        property "options" "collection" |> withDefault (.obj [])] }

def formTrigger : NodeType :=
  { name := "nodes-base.formTrigger"
    displayName := "n8n Form Trigger"
    version := .many [.int 1, .int 2, tenths 21]
    isTrigger := true
    properties := entries
      [property "path" "string" |> needed,
        property "formTitle" "string" |> needed,
        property "formFields" "fixedCollection" |> withDefault (.obj [])] }

def respondToWebhook : NodeType :=
  { name := "nodes-base.respondToWebhook"
    displayName := "Respond to Webhook"
    version := .many [.int 1, tenths 11]
    properties := entries
      [choice "respondWith" "firstIncomingItem" ["allIncomingItems", "firstIncomingItem",
          "json", "noData", "text"],
        property "responseBody" "json" |> shownFor [("respondWith", [.str "json"])]] }

def httpRequest : NodeType :=
  { name := "nodes-base.httpRequest"
    displayName := "HTTP Request"
    version := .many [.int 1, .int 2, .int 3, .int 4, tenths 41, tenths 42]
    properties := entries
      [choice "method" "GET" ["DELETE", "GET", "HEAD", "OPTIONS", "PATCH", "POST", "PUT"],
        property "url" "string" |> needed,
        choice "authentication" "none" ["none", "genericCredentialType",
          "predefinedCredentialType"],
        property "sendQuery" "boolean" |> withDefault (.bool false),
        property "queryParameters" "fixedCollection" |> shownFor [("sendQuery", [.bool true])],
        property "sendHeaders" "boolean" |> withDefault (.bool false),
        property "headerParameters" "fixedCollection"
          |> shownFor [("sendHeaders", [.bool true])],
        property "sendBody" "boolean" |> withDefault (.bool false),
        choice "contentType" "json" ["form-urlencoded", "json", "multipart-form-data", "raw"]
          |> shownFor [("sendBody", [.bool true])],
        choice "specifyBody" "keypair" ["json", "keypair"]
          |> shownFor [("sendBody", [.bool true]), ("contentType", [.str "json"])],
        property "jsonBody" "json"
          |> shownFor [("sendBody", [.bool true]), ("specifyBody", [.str "json"])],
        property "bodyParameters" "fixedCollection"
          |> shownFor [("sendBody", [.bool true]), ("specifyBody", [.str "keypair"])],
        property "options" "collection" |> withDefault (.obj [])] }

def setFields : NodeType :=
  { name := "nodes-base.set"
    displayName := "Edit Fields (Set)"
    version := .many [.int 1, .int 2, .int 3, tenths 31, tenths 32, tenths 33, tenths 34]
    properties := entries
      [choice "mode" "manual" ["manual", "raw"],
        property "assignments" "assignmentCollection" |> shownFor [("mode", [.str "manual"])],
        property "jsonOutput" "json" |> shownFor [("mode", [.str "raw"])],
        property "includeOtherFields" "boolean" |> withDefault (.bool false),
        property "options" "collection" |> withDefault (.obj [])] }

def codeNode : NodeType :=
  { name := "nodes-base.code"
    displayName := "Code"
    version := .many [.int 1, .int 2]
    properties := entries
      [choice "mode" "runOnceForAllItems" ["runOnceForAllItems", "runOnceForEachItem"],
        choice "language" "javaScript" ["javaScript", "python"],
        property "jsCode" "string" |> shownFor [("language", [.str "javaScript"])],
        property "pythonCode" "string" |> shownFor [("language", [.str "python"])]] }

def branch : NodeType :=
  { name := "nodes-base.if"
    displayName := "If"
    version := .many [.int 1, .int 2, tenths 21, tenths 22]
    outputs := ["true", "false"]
    properties := entries
      [property "conditions" "filter" |> withDefault (.obj []),
        property "looseTypeValidation" "boolean" |> withDefault (.bool false)] }

def filterItems : NodeType :=
  { name := "nodes-base.filter"
    displayName := "Filter"
    version := .many [.int 1, .int 2, tenths 21]
    properties := entries
      [property "conditions" "filter" |> withDefault (.obj [])] }

def route : NodeType :=
  { name := "nodes-base.switch"
    displayName := "Switch"
    version := .many [.int 1, .int 2, .int 3, tenths 31, tenths 32]
    dynamicOutputs := true
    properties := entries
      [choice "mode" "rules" ["expression", "rules"],
        property "rules" "fixedCollection"
          |> withDefault (.obj [])
          |> shownFor [("mode", [.str "rules"])],
        property "output" "string" |> shownFor [("mode", [.str "expression"])]] }

def mergeItems : NodeType :=
  { name := "nodes-base.merge"
    displayName := "Merge"
    version := .many [.int 1, .int 2, tenths 21, .int 3]
    properties := entries
      [choice "mode" "append" ["append", "combine", "combineBySql", "chooseBranch"]] }

def splitInBatches : NodeType :=
  { name := "nodes-base.splitInBatches"
    displayName := "Loop Over Items (Split in Batches)"
    version := .many [.int 1, .int 2, .int 3]
    isLoopCapable := true
    outputs := ["done", "loop"]
    properties := entries
      [property "batchSize" "number" |> withDefault (.int 1),
        property "options" "collection" |> withDefault (.obj [])] }

def pause : NodeType :=
  { name := "nodes-base.wait"
    displayName := "Wait"
    version := .many [.int 1, tenths 11]
    properties := entries
      [choice "resume" "timeInterval" ["timeInterval", "specificTime", "webhook", "form"],
        property "amount" "number"
          |> withDefault (.int 1)
          |> shownFor [("resume", [.str "timeInterval"])],
        choice "unit" "hours" ["seconds", "minutes", "hours", "days"]
          |> shownFor [("resume", [.str "timeInterval"])]] }

def noOp : NodeType :=
  { name := "nodes-base.noOp"
    displayName := "No Operation, do nothing" }

def stickyNote : NodeType :=
  { name := "nodes-base.stickyNote"
    displayName := "Sticky Note"
    outputs := []
    properties := entries
      [property "content" "string" |> withDefault (.str "")] }

def postgres : NodeType :=
  { name := "nodes-base.postgres"
    displayName := "Postgres"
    version := .many [.int 1, .int 2, tenths 21, tenths 22, tenths 23, tenths 24, tenths 25]
    credentials := [⟨"postgres", true⟩]
    properties := entries
      [choice "operation" "insert" ["deleteTable", "executeQuery", "insert", "select",
          "update", "upsert"],
        property "query" "string" |> needed |> shownFor [("operation", [.str "executeQuery"])],
        property "table" "resourceLocator" |> hiddenFor [("operation", [.str "executeQuery"])]] }

def mySql : NodeType :=
  { name := "nodes-base.mySql"
    displayName := "MySQL"
    version := .many [.int 1, .int 2, tenths 21, tenths 22, tenths 23, tenths 24]
    credentials := [⟨"mySql", true⟩]
    properties := entries
      [choice "operation" "insert" ["deleteTable", "executeQuery", "insert", "select",
          "update", "upsert"],
        property "query" "string" |> needed |> shownFor [("operation", [.str "executeQuery"])],
        property "table" "resourceLocator" |> hiddenFor [("operation", [.str "executeQuery"])]] }

def slack : NodeType :=
  { name := "nodes-base.slack"
    displayName := "Slack"
    version := .many [.int 1, .int 2, tenths 21, tenths 22, tenths 23]
    credentials := [⟨"slackApi", false⟩]
    properties := entries
      [choice "resource" "message" ["channel", "message", "user"],
        choice "operation" "post" ["post", "update", "delete"]
          |> shownFor [("resource", [.str "message"])],
        choice "operation" "create" ["archive", "create", "get", "getAll"]
          |> shownFor [("resource", [.str "channel"])],
        property "channelId" "resourceLocator"
          |> needed
          |> shownFor [("resource", [.str "message"]), ("operation", [.str "post"])],
        property "text" "string"
          |> needed
          |> shownFor [("resource", [.str "message"]), ("operation", [.str "post", .str "update"])]] }

def github : NodeType :=
  { name := "nodes-base.github"
    displayName := "GitHub"
    credentials := [⟨"githubApi", false⟩]
    properties := entries
      [choice "resource" "issue" ["file", "issue", "repository", "release"],
        choice "operation" "create" ["create", "createComment", "edit", "get", "lock"],
        property "owner" "resourceLocator" |> needed,
        property "repository" "resourceLocator" |> needed,
        property "title" "string"
          |> shownFor [("resource", [.str "issue"]), ("operation", [.str "create"])]] }

def emailSend : NodeType :=
  { name := "nodes-base.emailSend"
    displayName := "Send Email"
    version := .many [.int 1, .int 2, tenths 21]
    credentials := [⟨"smtp", true⟩]
    properties := entries
      [property "fromEmail" "string" |> needed,
        property "toEmail" "string" |> needed,
        property "subject" "string",
        choice "emailFormat" "text" ["text", "html", "both"]] }

def executeWorkflow : NodeType :=
  { name := "nodes-base.executeWorkflow"
    displayName := "Execute Workflow"
    version := .many [.int 1, tenths 11]
    properties := entries
      [choice "source" "database" ["database", "localFile", "parameter", "url"],
        property "workflowId" "resourceLocator" |> shownFor [("source", [.str "database"])]] }

def agent : NodeType :=
  { name := "nodes-langchain.agent"
    displayName := "AI Agent"
    version := .many [.int 1, tenths 11, tenths 12, tenths 13, tenths 14, tenths 15, tenths 16, tenths 17]
    properties := entries
      [choice "promptType" "auto" ["auto", "define"],
        property "text" "string" |> needed |> shownFor [("promptType", [.str "define"])]] }

def types : List NodeType :=
  [manualTrigger, scheduleTrigger, webhook, formTrigger, respondToWebhook, httpRequest,
    setFields, codeNode, branch, filterItems, route, mergeItems, splitInBatches, pause, noOp,
    stickyNote, postgres, mySql, slack, github, emailSend, executeWorkflow, agent]

end Bundled

def bundledVersion : String := "2024.1"

/-- The catalog that is used when no other is given. -/
def bundled : Catalog :=
  .ofTypes bundledVersion Bundled.types

end Catalog
end Workflows
