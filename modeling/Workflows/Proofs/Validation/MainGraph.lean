import Workflows.Proofs.Graph.Elementary
import Workflows.Proofs.Validation.Wiring

/-!
# MainGraph — the graph in which cycles are looked for

The graph is put together from the links that were found valid on the way. Which edges it has can be
said without that way: there is one from a node to another exactly if a link of the document carries
the main data from the one to the other, the link leaves an output that its source has, and it
enters an input that can exist.

Main definitions:

* `Scene.ValidLink`, `Scene.valid_wiring` — which links count as valid;
* `Scene.MainLink`, `Scene.edge_mainGraph_iff` — the edges of the graph;
* `Scene.simple_mainGraph` — the graph has no self-loops and nothing in it is listed twice.
-/

namespace Workflows

/-- No name is listed twice once those that occur twice are dropped. -/
theorem nodup_eraseDups : ∀ names : List String, names.eraseDups.Nodup
  | [] => List.nodup_nil
  | name :: rest => by
    have hrest : (rest.filter fun v => !v == name).eraseDups.Nodup := nodup_eraseDups _
    rw [List.eraseDups_cons]
    refine List.nodup_cons.2 ⟨?_, hrest⟩
    intro hmem
    simp [List.mem_eraseDups] at hmem
termination_by names => names.length
decreasing_by exact Nat.lt_succ_of_le (List.length_filter_le _ _)

namespace Scene

variable {s : Scene} {w : Wiring} {u v : String} {l : Link} {n : Node}

/-! ## Valid links -/

/-- A link from an output that its source has, to an input of a node that can exist. -/
structure ValidLink (s : Scene) (l : Link) : Prop where
  source : ∃ n, s.node? l.source = some n ∧ s.hasOutput n l.output l.slot = true
  target : l.target.node ∈ s.document.nodeNames
  index : 0 ≤ l.target.index

/-- Whether a link is valid is a matter of its source and its target. -/
theorem validLink_iff_of_node? (h : s.node? l.source = some n) :
    s.ValidLink l ↔ s.isValidLink n l = true := by
  rw [isValidLink_iff]
  constructor
  · intro hexists
    rcases hexists with ⟨⟨m, hm, houtput⟩, htarget, hindex⟩
    have hsame : m = n := Option.some.inj (hm.symm.trans h)
    exact ⟨hsame ▸ houtput, htarget, hindex⟩
  · intro hboth
    rcases hboth with ⟨houtput, htarget, hindex⟩
    exact ⟨⟨n, h, houtput⟩, htarget, hindex⟩

end Scene

namespace Wiring

/-- The valid links of two parts are those of the first one and those of the second one. -/
theorem valid_append (a b : Wiring) : (a ++ b).valid = a.valid ++ b.valid :=
  rfl

theorem issues_append (a b : Wiring) : (a ++ b).issues = a.issues ++ b.issues :=
  rfl

/-- What is appended when wirings are, is joined when they are. -/
theorem flatMap_join {α : Type} {part : Wiring → List α} (hnil : part {} = [])
    (happend : ∀ a b : Wiring, part (append a b) = part a ++ part b) (ws : List Wiring) :
    part (join ws) = ws.flatMap part := by
  have hgeneral : ∀ acc : Wiring, part (ws.foldl append acc) = part acc ++ ws.flatMap part := by
    induction ws with
    | nil => intro acc; simp
    | cons w rest ih =>
      intro acc
      calc part (rest.foldl append (append acc w))
          = part (append acc w) ++ rest.flatMap part := ih (append acc w)
        _ = part acc ++ (w :: rest).flatMap part := by
            rw [happend, List.flatMap_cons, List.append_assoc]
  calc part (ws.foldl append {})
      = part {} ++ ws.flatMap part := hgeneral {}
    _ = ws.flatMap part := by rw [hnil, List.nil_append]

/-- The valid links of several parts are those of each of them. -/
theorem valid_join (ws : List Wiring) : (join ws).valid = ws.flatMap (·.valid) :=
  flatMap_join rfl (fun _ _ => rfl) ws

theorem issues_join (ws : List Wiring) : (join ws).issues = ws.flatMap (·.issues) :=
  flatMap_join rfl (fun _ _ => rfl) ws

end Wiring

namespace Scene

variable {s : Scene} {w : Wiring} {u v : String} {l : Link}

/-- The valid links of a source are those of its links that are. -/
theorem valid_sourceWiring (n : Node) (os : Outputs) :
    (s.sourceWiring n os).valid = (Connections.outputLinks n.name os).filter (s.isValidLink n) := by
  have houtput : ∀ output slots,
      (Wiring.join (slots.zipIdx.map fun p =>
        s.slotWiring n output p.2 p.1.targets)).valid
        = (Connections.linksFrom n.name output 0 slots).filter (s.isValidLink n) := by
    intro output slots
    rw [Wiring.valid_join, List.flatMap_map, ← Connections.flatMap_zipIdx_eq_linksFrom,
      List.filter_flatMap]
    rfl
  have hall : (Connections.outputLinks n.name os).filter (s.isValidLink n) =
      os.flatMap fun o => (Connections.linksFrom n.name o.1 0 o.2).filter (s.isValidLink n) := by
    rw [Connections.outputLinks, List.filter_flatMap]
  rw [hall, sourceWiring, Wiring.valid_append, List.append_nil, Wiring.valid_join,
    List.flatMap_map]
  exact List.flatMap_congr fun o _ => houtput o.1 o.2

/-- Whether a link counts as valid, going by the first node of the name of its source. -/
def isUsable (s : Scene) (l : Link) : Bool :=
  (s.node? l.source).any fun n => s.isValidLink n l

/-- A link is usable if it is valid for its source. -/
theorem isUsable_of_node? {n : Node} (h : s.node? l.source = some n) :
    s.isUsable l = s.isValidLink n l := by
  rw [isUsable, h, Option.any_some]

/-- The usable links are the valid ones. -/
theorem isUsable_iff : s.isUsable l = true ↔ s.ValidLink l := by
  cases hnode : s.node? l.source with
  | none =>
    have hnot : ¬ s.ValidLink l := by
      intro h
      rcases h with ⟨⟨n, hn, -⟩, -, -⟩
      simp [hnode] at hn
    simp [isUsable, hnode, hnot]
  | some n =>
    rw [isUsable_of_node? hnode]
    exact (validLink_iff_of_node? hnode).symm

/-- The links that are found valid on the way are the valid ones of the document, in order. -/
theorem valid_wiring : s.wiring.valid = s.document.connections.links.filter s.isUsable := by
  rw [wiring, Wiring.valid_join, List.flatMap_map, Connections.links_eq, List.filter_flatMap]
  refine List.flatMap_congr ?_
  intro e _
  rcases e with ⟨name, os⟩
  have hsource : ∀ l ∈ Connections.outputLinks name os, l.source = name :=
    fun l hl => Connections.source_of_mem_outputLinks hl
  dsimp only
  cases hnode : s.node? name with
  | none =>
    refine (List.filter_eq_nil_iff.2 ?_).symm
    intro l hl
    simp [isUsable, hsource l hl, hnode]
  | some n =>
    have hname : n.name = name := name_of_node? hnode
    dsimp only
    rw [valid_sourceWiring, hname]
    refine List.filter_congr ?_
    intro l hl
    exact (isUsable_of_node? ((hsource l hl).symm ▸ hnode)).symm

/-- The valid links of the wiring are the links of the document that are valid. -/
theorem mem_valid_wiring_iff :
    l ∈ s.wiring.valid ↔ l ∈ s.document.connections.links ∧ s.ValidLink l := by
  rw [valid_wiring, List.mem_filter, isUsable_iff]

/-! ## Edges -/

/-- A valid link of the main data leads from the one node to the other, which is a different one. -/
def MainLink (s : Scene) (u v : String) : Prop :=
  u ≠ v ∧ ∃ l ∈ s.document.connections.links, s.ValidLink l ∧
    l.source = u ∧ l.output = mainOutput ∧ l.target.node = v

/-- A node is a main target of another one if a valid main link leads to it. -/
theorem mem_mainTargets_iff :
    v ∈ mainTargets w u ↔
      u ≠ v ∧ ∃ l ∈ w.valid, l.source = u ∧ l.output = mainOutput ∧ l.target.node = v := by
  simp only [mainTargets, List.mem_filter, List.mem_eraseDups, List.mem_map, Bool.and_eq_true,
    bne_iff_ne, List.contains_iff_mem, beq_iff_eq]
  constructor
  · intro h
    rcases h with ⟨-, hother, l, ⟨⟨hl, hsource⟩, houtput⟩, htarget⟩
    exact ⟨hother.symm, l, hl, hsource, houtput, htarget⟩
  · intro h
    rcases h with ⟨hother, l, hl, hsource, houtput, htarget⟩
    exact ⟨⟨l, ⟨hl, hsource⟩, htarget⟩, hother.symm, l, ⟨⟨hl, hsource⟩, houtput⟩, htarget⟩

/-- The names of a scene are those of its nodes. -/
theorem mem_names_iff : u ∈ s.names ↔ u ∈ s.document.nodeNames :=
  List.mem_eraseDups

theorem nodes_mainGraph : (s.mainGraph w).nodes = s.names := by
  simp [mainGraph, Graph.nodes, Entries.keys, Function.comp_def]

/-- What a name leads to is found if it is one of the names. -/
theorem get?_map_names {names : List String} {targets : String → List String} :
    Entries.get? u (names.map fun name => (name, targets name)) =
      if u ∈ names then some (targets u) else none := by
  induction names with
  | nil => simp
  | cons name rest ih =>
    by_cases hname : name = u
    · simp [Entries.get?, hname]
    · have hother : ¬ u = name := fun heq => hname heq.symm
      simp [Entries.get?, ih, hname, hother]

/-- A name that is no node has no valid links, so it has no targets either. -/
theorem successors_mainGraph :
    (s.mainGraph s.wiring).successors u = mainTargets s.wiring u := by
  rw [mainGraph, Graph.successors, get?_map_names]
  split
  · rfl
  · rename_i hu
    refine (List.eq_nil_iff_forall_not_mem.2 fun v hv => hu ?_).symm
    rcases mem_mainTargets_iff.1 hv with ⟨-, l, hl, hsource, -⟩
    rcases (mem_valid_wiring_iff.1 hl).2.source with ⟨n, hnode, -⟩
    exact mem_names_iff.2 (exists_node?_iff.1 ⟨n, hsource ▸ hnode⟩)

/-- The edges are the valid links of the main data between different nodes. -/
theorem edge_mainGraph_iff : (s.mainGraph s.wiring).Edge u v ↔ s.MainLink u v := by
  rw [Graph.Edge, successors_mainGraph, mem_mainTargets_iff]
  constructor
  · intro h
    rcases h with ⟨hother, l, hl, hends⟩
    rcases mem_valid_wiring_iff.1 hl with ⟨hmem, hvalid⟩
    exact ⟨hother, l, hmem, hvalid, hends⟩
  · intro h
    rcases h with ⟨hother, l, hmem, hvalid, hends⟩
    exact ⟨hother, l, mem_valid_wiring_iff.2 ⟨hmem, hvalid⟩, hends⟩

/-- The edges of the graph are the main links. -/
theorem edge_eq_mainLink : (s.mainGraph s.wiring).Edge = s.MainLink := by
  funext u v
  exact propext edge_mainGraph_iff

/-- Main links lead from nodes to nodes. -/
theorem MainLink.names (h : s.MainLink u v) : u ∈ s.names ∧ v ∈ s.names := by
  rcases h with ⟨-, l, -, hvalid, hsource, -, htarget⟩
  rcases hvalid.source with ⟨n, hnode, -⟩
  exact ⟨mem_names_iff.2 (exists_node?_iff.1 ⟨n, hsource ▸ hnode⟩),
    mem_names_iff.2 (htarget ▸ hvalid.target)⟩

theorem simple_mainGraph : (s.mainGraph s.wiring).Simple where
  nodes := by
    rw [nodes_mainGraph]
    exact nodup_eraseDups _
  successors := by
    intro u
    rw [successors_mainGraph]
    exact (nodup_eraseDups _).filter _
  inside := by
    intro u v hedge
    rw [nodes_mainGraph]
    exact (edge_mainGraph_iff.1 hedge).names
  loopless := by
    intro u hedge
    exact (edge_mainGraph_iff.1 hedge).1 rfl

end Scene
end Workflows
