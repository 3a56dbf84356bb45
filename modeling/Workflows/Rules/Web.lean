import Workflows.Rules.Outcome
import Workflows.Text.Fold
import Workflows.Text.Pieces
import Workflows.Text.Search
import Workflows.Value.Reader

/-!
# Web — rules for webhooks and requests

Main definitions:

* `Web.checkTriggerPath`, `Web.checkResponse` — nodes that are called over the web;
* `Web.checkRequest` — nodes that call a server.
-/

namespace Workflows
namespace Web

open Text

/-! ## Triggers -/

def withoutLeadingSlashes (path : String) : String :=
  String.ofList (path.toList.dropWhile (· == '/'))

def leadingSlash (path : String) : Outcome :=
  let fixed := Value.str (withoutLeadingSlashes path)
  { issues :=
      [{ Outcome.style "path" "Webhook path should not start with '/'" with suggested := fixed }]
    autofix := [("path", fixed)] }

def checkTriggerPath (ps : Entries Value) : Outcome :=
  if !Parameters.isSet "path" ps then
    .ofIssue { Outcome.error "path" "Webhook path is required" with code := "missing_required" }
  else
    match Parameters.text? "path" ps with
    | none => .none
    | some path =>
      if Parameters.isExpressionText path then .none
      else
        .whenever (startsWith "/" path) (leadingSlash path)
          ++ .whenever (path.toList.contains ' ')
              (.ofIssue (Outcome.error "path" "Webhook path must not contain spaces"))

def checkResponse (ps : Entries Value) : Outcome :=
  .whenever (Parameters.isText "responseMode" "responseNode" ps)
    { suggestions :=
        ["responseMode 'responseNode' needs a Respond to Webhook node downstream"] }

/-! ## Requests -/

def hasScheme (url : List Char) : Bool :=
  let folded := fold url
  "http://".toList.isPrefixOf folded || "https://".toList.isPrefixOf folded

/-- The names of query parameters that carry secrets. -/
def secretNames : List String :=
  ["api_key", "apikey", "access_token", "token", "password", "secret"]

/-- Whether a query parameter with the name of a secret occurs in a folded address. -/
def hasSecret (url : List Char) : Bool :=
  search
    (fun _ here =>
      match here with
      | c :: rest =>
        (c == '?' || c == '&')
          && secretNames.any fun name => (name ++ "=").toList.isPrefixOf rest
      | [] => false)
    (fold url)

def checkAddress (url : String) : Outcome :=
  let cs := url.toList
  .whenever (!hasScheme cs)
      (.ofIssue
        { Outcome.error "url" "URL must start with http:// or https://" with
          suggested := .str ("https://" ++ url) })
    ++ .whenever (hasSecret cs)
      (.ofIssue
        { Outcome.security "url" "URL query string appears to contain a secret" with
          fix := some "Use credentials or an expression referencing $env" })

def bodyMethods : List String := ["POST", "PUT", "PATCH"]

def checkBody (ps : Entries Value) : Outcome :=
  match (ps.get? "method").getD (.str "GET") with
  | .str method =>
    .whenever (bodyMethods.contains method && !Parameters.isSet "sendBody" ps)
      { issues :=
          [{ Outcome.style "sendBody" (method ++ " request does not send a body") with
              fix := some "Enable sendBody and configure the request body" }]
        autofix := [("sendBody", .bool true)] }
  | _ => .none

/-- The finding for a parameter whose text is not in the data format. -/
def unreadable (key text : String) : Outcome :=
  match Value.read text with
  | .ok _ => .none
  | .error e =>
    .ofIssue (Outcome.error key (key ++ " contains invalid JSON: " ++ e.message))

def checkJsonBody (ps : Entries Value) : Outcome :=
  match Parameters.text? "jsonBody" ps with
  | none => .none
  | some body =>
    .whenever
      (Parameters.isSet "sendBody" ps && Parameters.isText "specifyBody" "json" ps
        && !Parameters.isExpressionText body)
      (unreadable "jsonBody" body)

def checkRequest (ps : Entries Value) : Outcome :=
  (match Parameters.text? "url" ps with
    | none => .none
    | some url =>
      .whenever (url != "" && !Parameters.isExpressionText url) (checkAddress url))
    ++ checkBody ps ++ checkJsonBody ps

end Web
end Workflows
