import Workflows.Proofs.Edit.WellFormed
import Workflows.Proofs.Unwiring

/-!
# PassingNode — a node that is added, linked and removed

A batch adds a node, links it to other nodes or to itself in any number of ways, and removes it
again. Nothing is left of that: the document is the one from which the batch started, with its nodes
and all its objects in the same order.

The links come one by one, and after each of them the removal of the node would lead back to the
first document. That is what the links of the batch keep.

Main definitions:

* `Document.Pruned` — nothing empty and no null is left in the connections;
* `NewNode.Means` — the texts by which the rest of the batch can refer to a new node;
* `Editor.eq_of_passing_node` — the document is the old one.
-/

namespace Workflows

/-! ## Documents with a node more -/

namespace Document

variable {catalog : Option Catalog} {d d₁ d₂ : Document} {x : Node}

/-- Links lead from nodes to nodes, every source has an output, no list of slots ends in an empty
slot, and no slot is null. -/
structure Pruned (d : Document) : Prop where
  sources : ∀ name ∈ d.connections.keys, name ∈ d.nodeNames
  targets : ∀ l ∈ d.connections.links, l.target.node ∈ d.nodeNames
  solid : d.connections.Solid
  trimmed : ∀ e ∈ d.connections, ∀ o ∈ e.2, (o.2.getLast?.any fun s => !s.isEmpty) = true

theorem WellFormed.pruned (h : d.WellFormed)
    (hnull : ∀ e ∈ d.connections, ∀ o ∈ e.2, none ∉ o.2) : d.Pruned where
  sources := h.sources
  targets := h.targets
  solid := ⟨fun e he => (h.tidy.outputs e he).filled, hnull⟩
  trimmed e he o ho := ((h.tidy.outputs e he).slots o ho).trimmed

/-- The second document is the first one with one node more and links at that node: without them
its connections are the same. -/
structure Beside (d : Document) (x : Node) (d₁ : Document) : Prop where
  others : d₁ = { d with nodes := d.nodes ++ [x], connections := d₁.connections }
  solid : d₁.connections.Solid
  unwired : d₁.connections.removeNode x.name = d.connections

theorem Beside.mem (h : d.Beside x d₁) : x ∈ d₁.nodes := by
  rw [h.others]
  simp

theorem beside_of_added (hd : d.Pruned) (hfree : x.name ∉ d.nodeNames) :
    d.Beside x { d with nodes := d.nodes ++ [x] } where
  others := rfl
  solid := hd.solid
  unwired :=
    Connections.removeNode_eq_self hd.solid hd.trimmed (fun hkey => hfree (hd.sources _ hkey))
      fun l hl heq => hfree (heq ▸ hd.targets l hl)

theorem Beside.addConnection {l : AddedLink} (h : d.Beside x d₁)
    (hat : x.answersTo l.source = true ∨ x.answersTo l.target = true)
    (hadd : Draft.addConnection catalog d₁ l = .ok d₂) : d.Beside x d₂ := by
  rcases Draft.addable_of_addConnection hadd with ⟨source, target, hsource, htarget, -, rfl⟩
  have hends : source.name = x.name ∨ target.name = x.name := by
    rcases hat with hfrom | hto
    · exact Or.inl (congrArg (·.name) (eq_of_resolve h.mem hfrom hsource))
    · exact Or.inr (congrArg (·.name) (eq_of_resolve h.mem hto htarget))
  let d₂ := Draft.linked d₁ l source target
  exact
    { others := congrArg (fun e : Document => { e with connections := d₂.connections }) h.others
      solid := h.solid.addTarget
      unwired := (Connections.removeNode_addTarget h.solid hends).trans h.unwired }

/-- The removal of the node leads back to the first document. -/
theorem Beside.removeNode {reference : String} (h : d.Beside x d₁) (hfree : x.name ∉ d.nodeNames)
    (hx : x.answersTo reference = true) (hremove : Draft.removeNode d₁ reference = .ok d₂) :
    d₂ = d := by
  unfold Draft.removeNode at hremove
  cases hresolve : Draft.resolve d₁ reference with
  | error f => simp [hresolve, Except.map] at hremove
  | ok m =>
    have hmeant : d₁.resolve reference = .ok m := Draft.resolve_eq_ok.1 hresolve
    have hm : m = x := eq_of_resolve h.mem hx hmeant
    have hnodes : d₁.nodes = d.nodes ++ [x] := congrArg Document.nodes h.others
    -- No other node answers to the reference, as it would be the one that is found.
    have hkept : ∀ m ∈ d.nodes, (!m.answersTo reference) = true := by
      intro m hmem
      by_contra hanswers
      have hsame := eq_of_resolve (hnodes ▸ List.mem_append_left [x] hmem) (by simpa using hanswers)
        hmeant
      exact hfree (hm ▸ hsame ▸ name_mem_nodeNames hmem)
    have hothers : (d₁.nodes.filter fun m => !m.answersTo reference) = d.nodes := by
      rw [hnodes, List.filter_append, List.filter_eq_self.2 hkept]
      simp [hx]
    simp only [hresolve, Except.map, Except.ok.injEq] at hremove
    calc d₂ = { d₁ with nodes := d.nodes, connections := d.connections } := by
          rw [← hremove, hothers, hm, h.unwired]
      _ = { d with nodes := d.nodes, connections := d.connections } :=
          congrArg (fun e : Document =>
            { e with nodes := d.nodes, connections := d.connections }) h.others
      _ = d := rfl

end Document

/-! ## Batches -/

namespace NewNode

/-- The text is the name of a new node, or its id: the one that is given, or else one that is
drawn. -/
def Means (n : NewNode) (drawn reference : String) : Prop :=
  reference = n.name ∨ reference = n.id.getD drawn

instance (n : NewNode) (drawn reference : String) : Decidable (n.Means drawn reference) :=
  inferInstanceAs (Decidable (reference = n.name ∨ reference = n.id.getD drawn))

end NewNode

namespace Draft

variable {catalog : Option Catalog} {d : Document} {s s' : Draft} {x : Node}

theorem Added.answersTo {n : NewNode} {reference : String} (h : Added s n x)
    (hn : (Action.addNode n).Readable) (hmeans : n.Means (s.ids s.nextId) reference) :
    x.answersTo reference = true := by
  rcases hn with ⟨v, hv⟩
  have hid : x.id = n.id.getD (s.ids s.nextId) := h.id (NewNode.extra_of_decode hv)
  rcases hmeans with hname | hgiven
  · simp [Node.answersTo, hname, h.name]
  · simp [Node.answersTo, hgiven, hid]

/-- A run of additions of links at the node. -/
theorem Run.beside {links : List AddedLink} (h : Run catalog s (links.map .addConnection) s')
    (hlinks : ∀ l ∈ links, x.answersTo l.source = true ∨ x.answersTo l.target = true)
    (hs : d.Beside x s.document) : d.Beside x s'.document := by
  induction links generalizing s with
  | nil =>
    cases h
    exact hs
  | cons l links ih =>
    cases h with
    | cons hfirst hothers =>
      have hne : ∀ n, Action.addConnection l ≠ .addNode n := by simp
      rcases (carryOut_eq_ok_iff hne).1 hfirst with ⟨d₁, hadd, rfl⟩
      have hbeside := hs.addConnection (hlinks l List.mem_cons_self) hadd
      exact ih hothers (fun l' hl' => hlinks l' (List.mem_cons_of_mem l hl')) hbeside

end Draft

namespace Editor

variable {e : Editor} {ids : IdSupply} {nextId : Nat} {d d' : Document} {batch : List Value}

/-- A node that a batch adds, links to other nodes or to itself, and removes again leaves the
document as it was. -/
theorem eq_of_passing_node {n : NewNode} {links : List AddedLink} {r : NodeRef} (hd : d.Pruned)
    (hbatch : actions batch = .addNode n :: (links.map .addConnection ++ [.removeNode r]))
    (hlinks : ∀ l ∈ links, n.Means (ids nextId) l.source ∨ n.Means (ids nextId) l.target)
    (hr : n.Means (ids nextId) r.text) (h : e.Accepts ids nextId d batch d') :
    d' = d ∧ d'.toValue = d.toValue := by
  rcases run_of_accepts h with ⟨s, hrun, rfl⟩
  have hmem : .addNode n ∈ actions batch := by
    rw [hbatch]
    exact List.mem_cons_self
  have hreadable : (Action.addNode n).Readable := readable_of_mem_actions hmem
  rw [hbatch] at hrun
  cases hrun with
  | cons hfirst hothers =>
    rcases Draft.addNode_eq_ok hfirst with ⟨x, hadded, rfl⟩
    have hanswers : ∀ reference, n.Means (ids nextId) reference → x.answersTo reference = true :=
      fun reference hmeans => hadded.answersTo hreadable hmeans
    have hfree : x.name ∉ d.nodeNames := hadded.name_new
    rcases hothers.split with ⟨t, hwired, hlast⟩
    -- After the links the document is the old one with the new node beside it.
    have hbeside : d.Beside x t.document := by
      refine hwired.beside ?_ (Document.beside_of_added hd hfree)
      intro l hl
      exact (hlinks l hl).imp (hanswers _) (hanswers _)
    cases hlast with
    | cons hremoved hnil =>
      cases hnil
      have hne : ∀ n, Action.removeNode r ≠ .addNode n := by simp
      rcases (Draft.carryOut_eq_ok_iff hne).1 hremoved with ⟨d₂, hremove, rfl⟩
      have hsame : d₂ = d := hbeside.removeNode hfree (hanswers _ hr) hremove
      exact ⟨hsame, congrArg Document.toValue hsame⟩

/-- A node comes with a link to itself from its third slot, one from a second slot that is made for
it, and one from another kind of output, and goes. -/
def passingBatch : List Value :=
  [.obj [("type", .str "addNode"),
      ("node", .obj [("name", .str "D"), ("type", .str "n8n-nodes-base.set"),
        ("position", .arr [.int 0, .int 0])])],
    .obj [("type", .str "addConnection"), ("source", .str "D"), ("target", .str "D"),
      ("sourceIndex", .int 2)],
    .obj [("type", .str "addConnection"), ("source", .str "A"), ("target", .str "3"),
      ("sourceIndex", .int 1)],
    .obj [("type", .str "addConnection"), ("source", .str "3"), ("target", .str "B"),
      ("sourceOutput", .str "ai_tool"), ("targetInput", .str "ai_tool")],
    .obj [("type", .str "removeNode"), ("nodeId", .str "3")]]

theorem pair_after_passing_node :
    ∃ d', Accepts {} (fun _ => "3") 1 pair passingBatch d' ∧ d' = pair ∧
      d'.toValue = pair.toValue := by
  let n : NewNode := { name := "D", type := "n8n-nodes-base.set", id := none }
  let links : List AddedLink :=
    [⟨"D", "D", "main", "main", 2, 0⟩, ⟨"A", "3", "main", "main", 1, 0⟩,
      ⟨"3", "B", "ai_tool", "ai_tool", 0, 0⟩]
  have hpruned : pair.Pruned := Document.WellFormed.pruned (by decide) (by decide)
  have hbatch : actions passingBatch =
      .addNode n :: (links.map .addConnection ++ [.removeNode ⟨some "3", none, Or.inl rfl⟩]) := rfl
  have haccepts : ∃ d', Accepts {} (fun _ => "3") 1 pair passingBatch d' ∧
      (d'.nodeNames == ["A", "B"]) = true := exists_accepts (by decide +kernel)
  rcases haccepts with ⟨d', h, -⟩
  exact ⟨d', h, eq_of_passing_node hpruned hbatch (by decide) (by decide) h⟩

end Editor
end Workflows
