import Workflows.Proofs.Validation.MainGraph

/-!
# Counts — how many links count as invalid

The links are counted by going through the sources one by one. The count of invalid ones is made up
of the links that a node has but that are not valid, and of the entries whose names no node bears;
such an entry counts for each of its links, and once if it has none.

Main definitions:

* `Scene.invalid_sourceWiring`, `Scene.issues_sourceWiring` — the wiring of one node;
* `Scene.isBroken` — whether a link of a node is not valid;
* `Scene.strayCount` — what the entries whose names no node bears count for;
* `Scene.invalid_wiring` — the count is the sum of both.
-/

namespace Workflows

/-- The invalid links of several parts are added up. -/
theorem Wiring.invalid_join (ws : List Wiring) :
    (join ws).invalid = (ws.map (·.invalid)).sum := by
  have hgeneral : ∀ acc : Wiring,
      (ws.foldl append acc).invalid = acc.invalid + (ws.map (·.invalid)).sum := by
    induction ws with
    | nil => intro acc; rfl
    | cons w rest ih =>
      intro acc
      calc (rest.foldl append (append acc w)).invalid
          = (append acc w).invalid + (rest.map (·.invalid)).sum := ih (append acc w)
        _ = acc.invalid + (w.invalid + (rest.map (·.invalid)).sum) := Nat.add_assoc _ _ _
  calc (ws.foldl append {}).invalid
      = 0 + (ws.map (·.invalid)).sum := hgeneral {}
    _ = (ws.map (·.invalid)).sum := Nat.zero_add _

namespace Scene

variable {s : Scene}

/-! ## Single entries -/

def entryWiring (s : Scene) (e : String × Outputs) : Wiring :=
  match s.node? e.1 with
  | some n => s.sourceWiring n e.2
  | none => s.strayWiring e.1 e.2

/-- The wiring of a document is that of its entries. -/
theorem wiring_eq_join : s.wiring = Wiring.join (s.document.connections.map s.entryWiring) :=
  rfl

/-- The entry of a node has the wiring of the node. -/
theorem entryWiring_of_node? {n : Node} {name : String} (h : s.node? name = some n)
    (os : Outputs) : s.entryWiring (name, os) = s.sourceWiring n os := by
  simp [entryWiring, h]

/-- The links of a node that are not valid are counted one by one. -/
theorem invalid_sourceWiring (n : Node) (os : Outputs) :
    (s.sourceWiring n os).invalid =
      ((Connections.outputLinks n.name os).filter fun l => !s.isValidLink n l).length := by
  have houtput : ∀ output slots,
      (Wiring.join (slots.zipIdx.map fun p =>
        s.slotWiring n output p.2 p.1.targets)).invalid =
        ((Connections.linksFrom n.name output 0 slots).filter fun l =>
          !s.isValidLink n l).length := by
    intro output slots
    rw [Wiring.invalid_join, List.map_map, ← Connections.flatMap_zipIdx_eq_linksFrom,
      List.filter_flatMap, List.length_flatMap]
    rfl
  have hall : ((Connections.outputLinks n.name os).filter fun l => !s.isValidLink n l).length =
      (os.map fun o => ((Connections.linksFrom n.name o.1 0 o.2).filter fun l =>
        !s.isValidLink n l).length).sum := by
    rw [Connections.outputLinks, List.filter_flatMap, List.length_flatMap]
  rw [hall, sourceWiring, Wiring.invalid_append, Nat.add_zero, Wiring.invalid_join, List.map_map]
  exact congrArg List.sum (List.map_congr_left fun o _ => houtput o.1 o.2)

def slotFindings (s : Scene) (n : Node) (o : String × List Slot) : List Issue :=
  o.2.zipIdx.flatMap fun p => (s.slotWiring n o.1 p.2 (Slot.targets p.1)).issues

/-- The findings on the outputs of a node are those on its slots and on its output for errors. -/
theorem issues_sourceWiring (n : Node) (os : Outputs) :
    (s.sourceWiring n os).issues = os.flatMap (s.slotFindings n) ++ s.errorOutputIssues n os := by
  have houtput : ∀ output slots,
      (Wiring.join (slots.zipIdx.map fun p =>
        s.slotWiring n output p.2 p.1.targets)).issues = s.slotFindings n (output, slots) := by
    intro output slots
    rw [Wiring.issues_join, List.flatMap_map]
    rfl
  rw [sourceWiring, Wiring.issues_append, Wiring.issues_join, List.flatMap_map]
  exact congrArg (· ++ s.errorOutputIssues n os) (List.flatMap_congr fun o _ => houtput o.1 o.2)

/-! ## The whole count -/

def isBroken (s : Scene) (l : Link) : Bool :=
  (s.node? l.source).any fun n => !s.isValidLink n l

/-- What an entry counts for if no node bears its name. -/
def strayCounts (s : Scene) (e : String × Outputs) : List Nat :=
  if (s.node? e.1).isNone then [max 1 e.2.size] else []

def strayCount (s : Scene) : Nat :=
  (s.document.connections.flatMap s.strayCounts).sum

/-- A link from a node is broken if it is not valid. -/
theorem isBroken_of_node? {n : Node} {l : Link} (h : s.node? l.source = some n) :
    s.isBroken l = !s.isValidLink n l := by
  rw [isBroken, h, Option.any_some]

/-- Of one entry, either the links count that are not valid, or the entry itself does. -/
theorem invalid_entryWiring (e : String × Outputs) :
    (s.entryWiring e).invalid =
      ((Connections.outputLinks e.1 e.2).filter s.isBroken).length + (s.strayCounts e).sum := by
  rcases e with ⟨name, os⟩
  have hsource : ∀ l ∈ Connections.outputLinks name os, l.source = name :=
    fun l hl => Connections.source_of_mem_outputLinks hl
  cases hnode : s.node? name with
  | none =>
    have hlinks : (Connections.outputLinks name os).filter s.isBroken = [] := by
      refine List.filter_eq_nil_iff.2 ?_
      intro l hl
      simp [isBroken, hsource l hl, hnode]
    simp [entryWiring, strayCounts, hnode, hlinks, strayWiring]
  | some n =>
    have hname : n.name = name := name_of_node? hnode
    have hlinks : (Connections.outputLinks name os).filter s.isBroken =
        (Connections.outputLinks name os).filter fun l => !s.isValidLink n l := by
      refine List.filter_congr ?_
      intro l hl
      exact isBroken_of_node? ((hsource l hl).symm ▸ hnode)
    rw [entryWiring_of_node? hnode, invalid_sourceWiring, hname, hlinks]
    simp [strayCounts, hnode]

/-- What counts as invalid are the broken links and the entries without a source. -/
theorem invalid_wiring :
    s.wiring.invalid = (s.document.connections.links.filter s.isBroken).length + s.strayCount := by
  rw [wiring_eq_join, Wiring.invalid_join, List.map_map, Connections.links_eq, strayCount]
  induction s.document.connections with
  | nil => rfl
  | cons e rest ih =>
    have he : ((·.invalid) ∘ s.entryWiring) e =
        ((Connections.outputLinks e.1 e.2).filter s.isBroken).length + (s.strayCounts e).sum :=
      invalid_entryWiring e
    simp only [List.map_cons, List.sum_cons, List.flatMap_cons, List.filter_append,
      List.length_append, List.sum_append]
    omega

end Scene
end Workflows
