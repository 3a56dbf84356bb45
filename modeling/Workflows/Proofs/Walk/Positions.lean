import Mathlib.Data.List.Nodup
import Workflows.Proofs.Replacement

/-!
# Positions — all places of a tree in document order

The document order is that of the text: a container comes before what it holds, and what stands in
one of its entries before what stands in a later one. All places of a tree can be listed in this
order, each with the value that stands there. In a tree without repeated keys no place is listed
twice.

Main definitions:

* `Value.positions` — the list of all places with what stands there;
* `Value.Precedes` — the document order of places;
* `Value.enumerates_positions` — the list is complete, in order, and without repetitions.
-/

namespace Workflows

/-- A place within a part of a container, seen from the container. -/
def Place.behind (s : PlaceStep) (e : Place × Value) : Place × Value :=
  (s :: e.1, e.2)

namespace Value

mutual

/-- The places of a tree, each with what stands there. -/
def positions : Value → List (Place × Value)
  | .arr items => ([], .arr items) :: itemPositions 0 items
  | .obj fields => ([], .obj fields) :: fieldPositions fields
  | v => [([], v)]

def itemPositions : Nat → List Value → List (Place × Value)
  | _, [] => []
  | i, v :: rest => (positions v).map (Place.behind (.index i)) ++ itemPositions (i + 1) rest

def fieldPositions : List (String × Value) → List (Place × Value)
  | [] => []
  | (k, v) :: rest => (positions v).map (Place.behind (.key k)) ++ fieldPositions rest

end

/-- In document order, the first place comes before the second one. -/
inductive Precedes : Value → Place → Place → Prop
  | above {tree : Value} {s : PlaceStep} {place : Place} : Precedes tree [] (s :: place)
  | within {tree inner : Value} {s : PlaceStep} {p q : Place} (h : inner.Holds s tree)
      (rest : Precedes inner p q) : Precedes tree (s :: p) (s :: q)
  | beside {tree : Value} {s t : PlaceStep} {p q : Place}
      (h : [s, t].Sublist (tree.parts.map Prod.fst)) : Precedes tree (s :: p) (t :: q)

/-- Each place of a tree is listed once, with what stands there, in document order. -/
structure Enumerates (tree : Value) (es : List (Place × Value)) : Prop where
  complete : ∀ place v, (place, v) ∈ es ↔ v.At place tree
  ordered : (es.map Prod.fst).Pairwise tree.Precedes
  once : (es.map Prod.fst).Nodup

variable {tree v : Value} {place : Place}

/-- The positions within a list are those within its items, behind their indices. -/
theorem itemPositions_eq (start : Nat) (items : List Value) :
    itemPositions start items =
      (items.zipIdx start).flatMap fun item =>
        item.1.positions.map (Place.behind (.index item.2)) := by
  induction items generalizing start with
  | nil => rfl
  | cons v rest ih => rw [itemPositions, ih, List.zipIdx_cons, List.flatMap_cons]

/-- The positions within an object are those within its fields, behind their keys. -/
theorem fieldPositions_eq (fields : List (String × Value)) :
    fieldPositions fields =
      fields.flatMap fun field => field.2.positions.map (Place.behind (.key field.1)) := by
  induction fields with
  | nil => rfl
  | cons field rest ih => rw [fieldPositions, ih, List.flatMap_cons]

/-- The tree itself comes first, and then what its parts hold, one after the other. -/
theorem positions_eq (tree : Value) :
    tree.positions =
      ([], tree) :: tree.parts.flatMap fun part => part.2.positions.map (Place.behind part.1) := by
  cases tree with
  | arr items => rw [positions, parts, itemPositions_eq, List.flatMap_map]
  | obj fields => rw [positions, parts, fieldPositions_eq, List.flatMap_map]
  | _ => rfl

/-- The enumeration has a place exactly if there is a value there, and has it with this value. -/
theorem mem_positions_iff : (place, v) ∈ tree.positions ↔ v.At place tree := by
  induction tree using holds_induction generalizing place with
  | within tree ih =>
    rw [positions_eq, List.mem_cons, List.mem_flatMap]
    constructor
    · intro h
      rcases h with heq | ⟨part, hpart, hmem⟩
      · obtain ⟨rfl, rfl⟩ := Prod.mk.inj heq
        exact .here
      · rcases List.mem_map.1 hmem with ⟨e, he, heq⟩
        obtain ⟨rfl, rfl⟩ := Prod.mk.inj heq
        have hholds := holds_iff_mem_parts.2 hpart
        exact .within hholds ((ih _ _ hholds).1 he)
    · intro hat
      cases hat with
      | here => exact .inl rfl
      | @within s place inner _ hholds rest =>
        refine .inr ⟨(s, inner), holds_iff_mem_parts.1 hholds, List.mem_map.2 ?_⟩
        exact ⟨(place, v), (ih s inner hholds).2 rest, rfl⟩

/-- The positions come in the order in which the text of the value would be read. -/
theorem pairwise_precedes_positions (tree : Value) :
    (tree.positions.map Prod.fst).Pairwise tree.Precedes := by
  induction tree using holds_induction with
  | within tree ih =>
    rw [positions_eq, List.map_cons, List.pairwise_cons]
    constructor
    · -- All other places lie behind a step.
      intro place hplace
      rcases List.mem_map.1 hplace with ⟨e, he, rfl⟩
      rcases List.mem_flatMap.1 he with ⟨part, -, hmem⟩
      rcases List.mem_map.1 hmem with ⟨e', -, rfl⟩
      exact .above
    · rw [List.map_flatMap, List.pairwise_flatMap]
      constructor
      · -- Within a part the order is that of the part.
        intro part hpart
        have hholds := holds_iff_mem_parts.2 hpart
        rw [List.map_map, List.pairwise_map]
        exact (List.pairwise_map.1 (ih _ _ hholds)).imp fun hprecedes => .within hholds hprecedes
      · -- What lies in an earlier part comes before what lies in a later one.
        refine List.pairwise_iff_forall_sublist.2 fun {part part'} hsub p hp q hq => ?_
        simp only [List.map_map, List.mem_map] at hp hq
        rcases hp with ⟨e, -, rfl⟩
        rcases hq with ⟨e', -, rfl⟩
        exact .beside (hsub.map Prod.fst)

/-- The steps into a container are different if no key is repeated. -/
theorem Keyed.nodup_parts (h : tree.Keyed) : (tree.parts.map Prod.fst).Nodup := by
  cases tree with
  | arr items =>
    have hsteps : (parts (.arr items)).map Prod.fst =
        (items.zipIdx.map Prod.snd).map fun i : Nat => PlaceStep.index i := by
      rw [parts, List.map_map, List.map_map]
      rfl
    rw [hsteps, List.zipIdx_map_snd]
    refine List.Nodup.map ?_ List.nodup_range'
    intro i j hij
    exact Int.natCast_inj.1 (PlaceStep.index.inj hij)
  | obj fields =>
    have hsteps : (parts (.obj fields)).map Prod.fst = (Entries.keys fields).map .key := by
      rw [parts, Entries.keys, List.map_map, List.map_map]
      rfl
    rw [hsteps]
    exact List.Nodup.map (fun k l hkl => PlaceStep.key.inj hkl) (h [] fields .here)
  | _ => exact List.nodup_nil

/-- No place comes before itself. -/
theorem Keyed.not_precedes (h : tree.Keyed) : ¬ tree.Precedes place place := by
  intro hprecedes
  induction place generalizing tree with
  | nil => cases hprecedes
  | cons s place ih =>
    cases hprecedes with
    | within hholds rest => exact ih (h.of_at (.within hholds .here)) rest
    | beside hsub =>
      -- One step would stand at two places among the steps into the container.
      have htwice : [s, s].Nodup := hsub.nodup h.nodup_parts
      simp at htwice

/-- The enumeration has every place, each of them once, and in order. -/
theorem enumerates_positions (h : tree.Keyed) : tree.Enumerates tree.positions where
  complete _ _ := mem_positions_iff
  ordered := tree.pairwise_precedes_positions
  once := by
    refine tree.pairwise_precedes_positions.imp fun {p q} hprecedes heq => ?_
    subst heq
    exact h.not_precedes hprecedes

end Value
end Workflows
