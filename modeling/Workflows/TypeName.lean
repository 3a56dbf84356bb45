import Workflows.Text.Lower
import Workflows.Text.Pieces

/-!
# TypeName — the names of node types

A workflow document names a type by the full name of its package, a catalog by a short one. The
functions `normalize` and `denormalize` go from one form to the other; names of unknown packages
are the same in both.

Main definitions:

* `TypeName.normalize`, `TypeName.denormalize`, `TypeName.short`;
* `TypeName.formFault?` — why a document may not use a name;
* `TypeName.looksLikeTrigger` — a guess for types no catalog knows.
-/

namespace Workflows
namespace TypeName

open Text

/-- The packages: the beginning of a full name, and that of the short name. -/
def packages : List (String × String) :=
  [("n8n-nodes-base.", "nodes-base."), ("@n8n/n8n-nodes-langchain.", "nodes-langchain.")]

def normalize (type : String) : String :=
  (packages.findSome? fun (full, short) => (dropFront? full type).map (short ++ ·)).getD type

def denormalize (type : String) : String :=
  (packages.findSome? fun (full, short) => (dropFront? short type).map (full ++ ·)).getD type

/-- The name within its package: what follows the last point. -/
def short (type : String) : String :=
  afterLast '.' type

/-- Whether a name has the form that only catalogs use. -/
def isShortForm (type : String) : Bool :=
  packages.any fun p => startsWith p.2 type

inductive FormFault
  | noPackage (type : String)
  | shortForm (type : String)
  deriving DecidableEq, Repr

def FormFault.message : FormFault → String
  | noPackage type =>
    "Invalid node type \"" ++ type ++ "\": must include a package prefix (e.g. \"n8n-nodes-base."
      ++ type ++ "\")"
  | shortForm type =>
    "Invalid node type \"" ++ type ++ "\": use \"" ++ denormalize type ++ "\" instead"

/-- What is wrong with the form of a name in a document, if anything. -/
def formFault? (type : String) : Option FormFault :=
  if !type.toList.contains '.' then some (.noPackage type)
  else if isShortForm type then some (.shortForm type)
  else none

def looksLikeTrigger (type : String) : Bool :=
  let lowered := lower type
  contains "trigger" lowered || contains "webhook" lowered || endsWith ".start" lowered

end TypeName
end Workflows
