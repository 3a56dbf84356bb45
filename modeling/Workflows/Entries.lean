/-!
# Entries — objects that keep the order of their keys

An object is the list of its entries in the order of insertion. Assigning to a key that is present
replaces the value in place; a new key comes last. Keys are distinct in everything the readers of
this library build; `Entries.Distinct` says so, and the operations keep it.
-/

namespace Workflows

/-- Keys with values, in order of insertion. -/
abbrev Entries (α : Type) := List (String × α)

namespace Entries

variable {α : Type}

def get? (key : String) : Entries α → Option α
  | [] => none
  | (k, v) :: rest => if k = key then some v else get? key rest

def has (key : String) (es : Entries α) : Bool :=
  (es.get? key).isSome

def keys (es : Entries α) : List String :=
  es.map Prod.fst

/-- Assigns to a key: in place when it is present, else as the last entry. -/
def put (key : String) (value : α) : Entries α → Entries α
  | [] => [(key, value)]
  | (k, v) :: rest => if k = key then (k, value) :: rest else (k, v) :: put key value rest

/-- Assigns to a key unless it is present. -/
def putNew (key : String) (value : α) (es : Entries α) : Entries α :=
  if es.has key then es else es ++ [(key, value)]

def erase (key : String) : Entries α → Entries α
  | [] => []
  | (k, v) :: rest => if k = key then rest else (k, v) :: erase key rest

/-- The entries of the first list, overridden and then extended by those of the second. -/
def merge (es : Entries α) : Entries α → Entries α
  | [] => es
  | (k, v) :: rest => merge (es.put k v) rest

/-- No key occurs twice. -/
def Distinct (es : Entries α) : Prop :=
  es.keys.Nodup

/-! ## What the operations do to look-ups -/

@[simp] theorem get?_nil (key : String) : get? key ([] : Entries α) = none := rfl

@[simp] theorem get?_put_self (key : String) (value : α) (es : Entries α) :
    (es.put key value).get? key = some value := by
  induction es with
  | nil => simp [put, get?]
  | cons e rest ih =>
    obtain ⟨k, v⟩ := e
    by_cases h : k = key
    · simp [put, get?, h]
    · simp [put, get?, h, ih]

theorem get?_put_of_ne {key other : String} (value : α) (es : Entries α) (h : other ≠ key) :
    (es.put key value).get? other = es.get? other := by
  induction es with
  | nil => simp [put, get?, Ne.symm h]
  | cons e rest ih =>
    obtain ⟨k, v⟩ := e
    by_cases hk : k = key
    · subst hk
      simp [put, get?, Ne.symm h]
    · simp only [put, hk, if_false, get?, ih]

end Entries
end Workflows
