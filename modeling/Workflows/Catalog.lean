import Workflows.NodeType
import Workflows.NameSet
import Workflows.Text.Similarity

/-!
# Catalog — the node types that documents may use

A catalog holds node types under their short names. It has a version, which changes whenever a type
is registered, so that what was looked up in an earlier state is not taken for the current one.

Main definitions:

* `Catalog`, `Catalog.ofTypes`, `Catalog.register`, `Catalog.version`;
* `Catalog.find?`, `Catalog.names`;
* `Catalog.suggest` — types with names similar to one that is not there.
-/

namespace Workflows

structure Catalog where
  /-- The version the catalog was made with. -/
  baseVersion : String
  /-- How many types were registered since. -/
  revision : Nat := 0
  /-- The types by their short names. -/
  types : Entries NodeType := []
  deriving Repr

namespace Catalog

def store (t : NodeType) (c : Catalog) : Catalog :=
  { c with types := c.types.put (TypeName.normalize t.name) t }

/-- The catalog of some types; of several types of one name the last one counts. -/
def ofTypes (version : String) (types : List NodeType) : Catalog :=
  types.foldl (fun c t => c.store t) { baseVersion := version }

/-- Adds or replaces a type, which makes a new version. -/
def register (t : NodeType) (c : Catalog) : Catalog :=
  { c.store t with revision := c.revision + 1 }

def version (c : Catalog) : String :=
  if c.revision = 0 then c.baseVersion
  else c.baseVersion ++ "+" ++ toString c.revision

def find? (type : String) (c : Catalog) : Option NodeType :=
  c.types.get? (TypeName.normalize type)

def names (c : Catalog) : List String :=
  NameSet.insertAll c.types.keys []

/-! ## Suggestions -/

/-- What a name is compared by: the part behind the last point, in lower case. -/
def searchKey (type : String) : String :=
  Text.lower (TypeName.short type)

/-- The types by their search keys; of several types with one key the last one counts. -/
def bySearchKey (c : Catalog) : Entries String :=
  c.names.foldl (fun es name => es.put (searchKey name) name) []

/-- The full names of at most `limit` types whose names are similar to the given one, the most
similar first. -/
def suggest (limit : Nat) (type : String) (c : Catalog) : List String :=
  let keyed := c.bySearchKey
  (Text.Similarity.closest limit (searchKey (TypeName.normalize type)) keyed.keys).filterMap
    fun key => (keyed.get? key).map TypeName.denormalize

/-- A number of suggestions that cannot be asked for. -/
structure LimitFault where
  limit : Int
  deriving DecidableEq, Repr

def LimitFault.message (f : LimitFault) : String :=
  "n must be > 0: " ++ toString f.limit

/-- Suggestions for a caller who chooses their number, which has to be positive. -/
def suggestUpTo (limit : Int) (type : String) (c : Catalog) : Except LimitFault (List String) :=
  if limit ≤ 0 then .error ⟨limit⟩ else .ok (c.suggest limit.toNat type)

end Catalog
end Workflows
