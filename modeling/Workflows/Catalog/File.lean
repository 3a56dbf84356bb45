import Workflows.Catalog.Bundled
import Workflows.Files
import Workflows.Schema

/-!
# File — catalogs from files

A catalog file is an object with a list of node types. It has to keep a schema, and then every
entry is read as a node type. The version of a catalog names the file, the version written in it,
and a mark of its content, so that catalogs with different content have different versions.

Main definitions:

* `CatalogFault` — why there is no catalog;
* `Catalog.ofValue`, `Catalog.load`.
-/

namespace Workflows

inductive CatalogFault
  | unreadable (path : String) (f : ReadFault)
  | invalid (path : String) (c : Complaint)
  /-- An entry keeps the schema and is no node type all the same. -/
  | badType (path : String) (index : Nat) (first : Fault)
  deriving Repr

namespace CatalogFault

def message : CatalogFault → String
  | unreadable path f => "Cannot read catalog " ++ path ++ ": " ++ f.message
  | invalid path c => "Catalog validation failed in " ++ path ++ ": " ++ c.text
  | badType path index first =>
    "Invalid node type #" ++ toString index ++ " in " ++ path ++ ": " ++ first.text

end CatalogFault

namespace Catalog

def credentialSchema : Schema :=
  [.ofKind [.object],
    .required ["name"],
    .field "name" [.ofKind [.string]],
    .field "required" [.ofKind [.boolean]]]

def typeSchema : Schema :=
  [.ofKind [.object],
    .required ["nodeType"],
    .field "nodeType" [.ofKind [.string], .qualifiedName],
    .field "displayName" [.ofKind [.string]],
    .field "version"
      [.oneOf [[.ofKind [.number]], [.ofKind [.array], .items [.ofKind [.number]], .filled]]],
    .field "isTrigger" [.ofKind [.boolean]],
    .field "isLoopCapable" [.ofKind [.boolean]],
    .field "outputs" [.ofKind [.array], .items [.ofKind [.string]]],
    .field "dynamicOutputs" [.ofKind [.boolean]],
    .field "properties" [.ofKind [.array]],
    .field "credentials" [.ofKind [.array], .items credentialSchema]]

def schema : Schema :=
  [.ofKind [.object],
    .required ["node_types"],
    .field "version" [.ofKind [.string, .number]],
    .field "node_types" [.ofKind [.array], .items typeSchema]]

/-- The node types of some values, the first of which has an index. -/
def readTypes (path : String) : Nat → List Value → Except CatalogFault (List NodeType)
  | _, [] => .ok []
  | index, v :: rest =>
    match NodeType.decode v with
    -- The first type that cannot be read is reported, with its first fault only.
    | .faulty first _ => .error (.badType path index first)
    | .ok t => (readTypes path (index + 1) rest).map (t :: ·)

/-- The version of the catalog in a file. -/
def versionText (name written mark : String) : String :=
  name ++ "@" ++ written ++ "+" ++ mark

/-- The catalog that a value describes. -/
def ofValue (path mark : String) (v : Value) : Except CatalogFault Catalog :=
  match schema.check v with
  | some c => .error (.invalid path c)
  | none =>
    -- The schema has seen to it that the value is an object with a list of types.
    let es : Entries Value := v.obj?.getD []
    let written := ((es.get? "version").getD (.str "unversioned")).shown
    (readTypes path 0 (((es.get? "node_types").bind Value.arr?).getD [])).map
      (ofTypes (versionText (Path.name path) written mark))

def ofView (path mark : String) (v : FileView) : Except CatalogFault Catalog :=
  match v.value with
  | .error f => .error (.unreadable path f)
  | .ok v => ofValue path mark v

/-- The bundled catalog under the version that its file would give it. -/
def bundledAs (mark : String) : Catalog :=
  { bundled with baseVersion := versionText "node_types.yaml" bundledVersion mark }

def load {m : Type → Type} [Monad m] (s : Surroundings m) (named : Option String) :
    m (Except CatalogFault Catalog) := do
  match named with
  | none => pure (.ok (bundledAs (s.mark "node_types.yaml" bundledVersion)))
  | some path =>
    let view ← s.view path
    let content :=
      match view with
      | .text content => content
      | _ => ""
    return ofView path (s.mark path content) view

end Catalog
end Workflows
