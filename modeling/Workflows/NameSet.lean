/-!
# NameSet — sets of names in order

A set of names is the list of its members in increasing order, each once.
-/

namespace Workflows
namespace NameSet

def insert (name : String) : List String → List String
  | [] => [name]
  | head :: rest =>
    if name = head then head :: rest
    else if name < head then name :: head :: rest
    else head :: insert name rest

def insertAll (names set : List String) : List String :=
  names.foldl (fun acc name => insert name acc) set

end NameSet

end Workflows
