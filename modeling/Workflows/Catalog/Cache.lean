import Workflows.Catalog

/-!
# Cache — look-ups in catalogs, remembered

A cache keeps the outcomes of look-ups, also of those that found nothing, by the version of the
catalog and the name of the type. It holds the versions used last and forgets the others.

Reports and edits are defined by the catalog alone. That a cache in between makes no difference to
them, as long as equal versions mean equal types, is shown in `Workflows.Proofs.Catalog.Transparency`.

Main definitions:

* `SchemaCache`, `SchemaCache.lookup` — the cache and a look-up through it;
* `SchemaCache.versions` — the versions it holds, the one used last at the end.
-/

namespace Workflows

/-- What is known of each version, the version used longest ago first: the outcomes of look-ups by
the short names of the types. -/
structure SchemaCache where
  known : Entries (Entries (Option NodeType)) := []
  deriving Repr

namespace SchemaCache

def capacity : Nat := 4

/-- The outcome of a look-up: what was found, whether the catalog had to be asked, and the cache
afterwards. -/
structure Lookup where
  found : Option NodeType
  asked : Bool
  cache : SchemaCache
  deriving Repr

def versions (s : SchemaCache) : List String :=
  s.known.keys

/-- The outcome known for a type in a version. -/
def remembered? (version type : String) (s : SchemaCache) : Option (Option NodeType) :=
  (s.known.get? version).bind fun outcomes => outcomes.get? type

/-- Makes a version the one used last, with the given outcomes. -/
def touch (version : String) (outcomes : Entries (Option NodeType)) (s : SchemaCache) :
    SchemaCache :=
  ⟨s.known.erase version ++ [(version, outcomes)]⟩

/-- Forgets the versions used longest ago, as far as there are too many. -/
def trim (s : SchemaCache) : SchemaCache :=
  ⟨s.known.drop (s.known.length - capacity)⟩

/-- Looks up a type in a catalog unless the outcome is known. -/
def lookup (s : SchemaCache) (c : Catalog) (type : String) : Lookup :=
  let name := TypeName.normalize type
  let outcomes := (s.known.get? c.version).getD []
  match s.remembered? c.version name with
  | some found => ⟨found, false, s.touch c.version outcomes⟩
  | none =>
    let found := c.find? name
    ⟨found, true, (s.touch c.version (outcomes.put name found)).trim⟩

def empty : SchemaCache := {}

end SchemaCache
end Workflows
