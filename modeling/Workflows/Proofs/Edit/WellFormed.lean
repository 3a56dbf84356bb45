import Workflows.Proofs.Edit.Run

/-!
# WellFormed — the structure that batches keep

In a well-formed document no two nodes share a name or an id, every link leads from a node to a node
on an input with an index that is not negative, no slot lists a target twice, and nothing empty is
left in the connections. One operation keeps each of these properties as long as the others hold,
so a batch keeps all of them together. That two targets of one slot do not come to be equal when a
node is renamed, for example, rests on the fact that no link leads to the new name before.

An id that is drawn for a new node has to be new; the ids that operations give are checked.

Main definitions:

* `Document.Linked`, `Document.WellFormed`;
* `Editor.DrawsFresh` — no id that is drawn in the course of a batch is taken;
* `Editor.wellFormed_of_applyWith` — what a batch returns is well-formed.
-/

namespace Workflows
namespace Document

/-- All ends of links are nodes, and no link leads to an input with a negative index. -/
@[mk_iff]
structure Linked (d : Document) : Prop where
  sources : ∀ name ∈ d.connections.keys, name ∈ d.nodeNames
  targets : ∀ l ∈ d.connections.links, l.target.node ∈ d.nodeNames
  indices : ∀ l ∈ d.connections.links, 0 ≤ l.target.index

instance (d : Document) : Decidable d.Linked :=
  decidable_of_iff _ (linked_iff d).symm

@[mk_iff]
structure WellFormed (d : Document) : Prop extends Linked d where
  names : d.nodeNames.Nodup
  ids : d.nodeIds.Nodup
  tidy : d.connections.Tidy

instance (d : Document) : Decidable d.WellFormed :=
  decidable_of_iff _ (wellFormed_iff d).symm

variable {catalog : Option Catalog} {d d' : Document} {a : Action}

/-! ## One node in the place of another -/

section Replaced

variable {front back : List Node} {before after : Node}

/-- A text that the nodes have in common in no two of them stays so when the text of one node
becomes one that no node has. -/
theorem nodup_map_replaced {f : Node → String}
    (h : ((front ++ before :: back).map f).Nodup)
    (hnew : f after = f before ∨ f after ∉ (front ++ before :: back).map f) :
    ((front ++ after :: back).map f).Nodup := by
  rcases hnew with heq | hnew
  · simpa [heq] using h
  · simp only [List.map_append, List.map_cons, List.mem_append, List.mem_cons, not_or] at h hnew
    rcases List.nodup_append.1 h with ⟨hfront, hback, hdisjoint⟩
    simp only [List.map_append, List.map_cons]
    -- The new text is none of the front; the texts behind it are as they were.
    refine List.nodup_append.2 ⟨hfront, List.nodup_cons.2 ⟨hnew.2.2, hback.of_cons⟩, ?_⟩
    intro x hx y hy heq
    rcases List.mem_cons.1 hy with rfl | hy
    · exact hnew.1 (heq ▸ hx)
    · exact hdisjoint x hx y (List.mem_cons_of_mem _ hy) heq

theorem mem_of_mem_replaced {n : Node} (h : n ∈ front ++ after :: back) :
    n = after ∨ n ∈ front ++ before :: back := by
  rcases List.mem_append.1 h with hfront | hback
  · exact Or.inr (List.mem_append_left _ hfront)
  · rcases List.mem_cons.1 hback with heq | hback
    · exact Or.inl heq
    · exact Or.inr (List.mem_append_right _ (List.mem_cons_of_mem _ hback))

theorem mem_map_replaced {f : Node → String} {x : String}
    (h : x ∈ (front ++ before :: back).map f) :
    (if x = f before then f after else x) ∈ (front ++ after :: back).map f := by
  by_cases hx : x = f before
  · simp [hx]
  · simp only [hx, if_false]
    simp only [List.map_append, List.map_cons, List.mem_append, List.mem_cons, hx, false_or] at h ⊢
    exact h.imp_right Or.inr

end Replaced

theorem mem_map_others {front back : List Node} {n : Node} {f : Node → String} {x : String}
    (h : x ∈ (front ++ n :: back).map f) (hx : x ≠ f n) : x ∈ (front ++ back).map f := by
  simp only [List.map_append, List.map_cons, List.mem_append, List.mem_cons, hx, false_or] at h ⊢
  exact h

/-! ## Names and ids -/

/-- What no two nodes share, whether names or ids, no two nodes share after an operation. -/
theorem Step.nodup_map (h : d.Step catalog a d') (f : Node → String)
    (htouch : ∀ n m : Node, n.name = m.name → n.id = m.id → f n = f m)
    (hupdate : ∀ reference changes before after,
      Draft.Updates d reference changes before after →
        f after = f before ∨ f after ∉ d.nodes.map f)
    (hd : (d.nodes.map f).Nodup) : (d'.nodes.map f).Nodup := by
  cases h with
  | @removeNode r front back n hpicks =>
    rw [hpicks.nodes] at hd
    have hsub : (front ++ back).Sublist (front ++ n :: back) :=
      (List.sublist_cons_self n back).append_left front
    exact (hsub.map f).nodup hd
  | updateNode hpicks hupdates =>
    have hfree := hupdate _ _ _ _ hupdates
    rw [hpicks.nodes] at hd hfree
    exact nodup_map_replaced hd hfree
  | touchNode hpicks hname hid =>
    rw [hpicks.nodes] at hd
    exact nodup_map_replaced hd (Or.inl (htouch _ _ hname hid))
  | addConnection => exact hd
  | removeConnection => exact hd
  | updateConnection hd₁ => exact hd₁ ▸ hd
  | touchRest hnodes => exact hnodes ▸ hd

theorem Step.names (h : d.Step catalog a d') (hnames : d.nodeNames.Nodup) :
    d'.nodeNames.Nodup :=
  h.nodup_map (·.name) (fun _ _ hname _ => hname) (fun _ _ _ _ hupdates => hupdates.free.1) hnames

theorem Step.ids (h : d.Step catalog a d') (hids : d.nodeIds.Nodup) : d'.nodeIds.Nodup :=
  h.nodup_map (·.id) (fun _ _ _ hid => hid) (fun _ _ _ _ hupdates => hupdates.free.2) hids

/-! ## Ends of links -/

theorem Linked.removeTargets (h : d.Linked) {source : Node} (hsource : source ∈ d.nodes)
    (output : String) (test : Target → Bool) (index : Option Int) :
    Linked { d with
      connections := d.connections.removeTargets source.name output test index } where
  sources name hname := by
    rcases Connections.mem_keys_setSlots hname with rfl | hold
    · exact name_mem_nodeNames hsource
    · exact h.sources name hold
  targets l hl := h.targets l (Connections.links_removeTargets_subset hl)
  indices l hl := h.indices l (Connections.links_removeTargets_subset hl)

theorem Linked.addLink (h : d.Linked) {l : AddedLink} {source target : Node}
    (hadd : Draft.Addable catalog d l source target) : (Draft.linked d l source target).Linked := by
  have hlinks := Connections.links_addTarget_perm source.name l.output l.sourceIndex.toNat
    ⟨target.name, l.input, l.targetIndex⟩ d.connections
  refine ⟨?_, ?_, ?_⟩
  · intro name hname
    rcases Entries.mem_keys_put hname with rfl | hold
    · exact name_mem_nodeNames hadd.from_mem
    · exact h.sources name hold
  · intro l' hl'
    rcases List.mem_cons.1 (hlinks.subset hl') with rfl | hold
    · exact name_mem_nodeNames hadd.to_mem
    · exact h.targets l' hold
  · intro l' hl'
    rcases List.mem_cons.1 (hlinks.subset hl') with rfl | hold
    · exact hadd.index
    · exact h.indices l' hold

/-- The name that an updated node gets, if it is a new one, does not occur among the connections. -/
theorem Linked.nodup_renamed (h : d.Linked) (hkeys : d.connections.Distinct) {old new : String}
    (hnew : new ∉ d.nodeNames) :
    (d.connections.keys.map fun k => if k = old then new else k).Nodup :=
  hkeys.nodup_renamed fun hmem => hnew (h.sources new hmem)

theorem Linked.of_same_names (h : d.Linked) (hnames : d'.nodeNames = d.nodeNames)
    (hconnections : d'.connections = d.connections) : d'.Linked where
  sources := by simpa only [hnames, hconnections] using h.sources
  targets := by simpa only [hnames, hconnections] using h.targets
  indices := by simpa only [hconnections] using h.indices

section WholeNodes

variable {front back : List Node}

theorem nodeNames_replaced {before after : Node} (hnodes : d.nodes = front ++ before :: back)
    (hname : after.name = before.name) : (front ++ after :: back).map (·.name) = d.nodeNames := by
  simp [nodeNames, hnodes, hname]

theorem Linked.removeNode (h : d.Linked) (hkeys : d.connections.Distinct) {n : Node}
    (hnodes : d.nodes = front ++ n :: back) :
    Linked { d with
      nodes := front ++ back, connections := d.connections.removeNode n.name } := by
  have hothers : ∀ x ∈ d.nodeNames, x ≠ n.name → x ∈ (front ++ back).map (·.name) := by
    intro x hx hne
    simp only [nodeNames, hnodes] at hx
    exact mem_map_others hx hne
  refine ⟨?_, ?_, ?_⟩
  · intro name hname
    have herased := (Connections.removeNode_sublist n.name d.connections).subset hname
    have hold := ((Entries.erase_sublist n.name d.connections).map Prod.fst).subset herased
    refine hothers name (h.sources name hold) ?_
    -- The node that is gone is no source any more, since its key has been erased.
    rintro rfl
    exact Entries.not_mem_keys_erase hkeys n.name herased
  · intro l hl
    rw [Connections.links_removeNode hkeys] at hl
    rcases List.mem_filter.1 hl with ⟨hold, hkept⟩
    have hne : l.target.node ≠ n.name := by simpa using (Bool.and_eq_true_iff.1 hkept).2
    exact hothers _ (h.targets l hold) hne
  · intro l hl
    rw [Connections.links_removeNode hkeys] at hl
    exact h.indices l (List.mem_filter.1 hl).1

theorem Linked.renameNode (h : d.Linked) (hkeys : d.connections.Distinct) {before after : Node}
    (hnodes : d.nodes = front ++ before :: back) (hnew : after.name ∉ d.nodeNames) :
    Linked { d with
      nodes := front ++ after :: back
      connections := d.connections.renameNode before.name after.name } := by
  have hnames : ∀ x ∈ d.nodeNames, (if x = before.name then after.name else x) ∈
      (front ++ after :: back).map (·.name) := by
    intro x hx
    simp only [nodeNames, hnodes] at hx
    exact mem_map_replaced hx
  have hnodup : (d.connections.keys.map fun k =>
      if k = before.name then after.name else k).Nodup := h.nodup_renamed hkeys hnew
  have hlinks := Connections.links_renameNode hnodup
  have htarget : ∀ l : Link, (l.rename before.name after.name).target.node =
      if l.target.node = before.name then after.name else l.target.node := by
    intro l
    by_cases hold : l.target.node = before.name <;> simp [Link.rename, Target.rename, hold]
  have hindex : ∀ l : Link, (l.rename before.name after.name).target.index = l.target.index := by
    intro l
    by_cases hold : l.target.node = before.name <;> simp [Link.rename, Target.rename, hold]
  -- A link after the renaming is one from before with its ends renamed.
  refine ⟨?_, ?_, ?_⟩
  · intro name hname
    rw [Connections.keys_renameNode hnodup] at hname
    rcases List.mem_map.1 hname with ⟨k, hk, rfl⟩
    exact hnames k (h.sources k hk)
  · intro l hl
    rcases List.mem_map.1 (hlinks ▸ hl) with ⟨l', hl', rfl⟩
    rw [htarget]
    exact hnames _ (h.targets l' hl')
  · intro l hl
    rcases List.mem_map.1 (hlinks ▸ hl) with ⟨l', hl', rfl⟩
    rw [hindex]
    exact h.indices l' hl'

end WholeNodes

theorem nodup_map_added (f : Node → String) {n : Node} (h : (d.nodes.map f).Nodup)
    (hnew : f n ∉ d.nodes.map f) : ((d.nodes ++ [n]).map f).Nodup := by
  rw [List.map_append, List.map_singleton]
  refine List.nodup_append.2 ⟨h, List.nodup_singleton _, ?_⟩
  intro x hx y hy heq
  exact hnew (List.mem_singleton.1 hy ▸ heq ▸ hx)

theorem Linked.addNode (h : d.Linked) (n : Node) :
    Linked { d with nodes := d.nodes ++ [n] } := by
  have hmore : ∀ name ∈ d.nodeNames, name ∈ (d.nodes ++ [n]).map (·.name) := by
    intro name hname
    rw [List.map_append]
    exact List.mem_append_left _ hname
  constructor
  case sources =>
    intro name hname
    exact hmore name (h.sources name hname)
  case targets =>
    intro l hl
    exact hmore _ (h.targets l hl)
  case indices => exact h.indices

theorem Step.linked (h : d.Step catalog a d') (hkeys : d.connections.Distinct)
    (hlinked : d.Linked) : d'.Linked := by
  cases h with
  | removeNode hpicks => exact hlinked.removeNode hkeys hpicks.nodes
  | @updateNode r changes front back before after hpicks hupdates =>
    by_cases hname : after.name = before.name
    · simp only [hname, if_true]
      exact hlinked.of_same_names (nodeNames_replaced hpicks.nodes hname) rfl
    · simp only [hname, if_false]
      exact hlinked.renameNode hkeys hpicks.nodes (hupdates.free.1.resolve_left hname)
  | touchNode hpicks hname =>
    exact hlinked.of_same_names (nodeNames_replaced hpicks.nodes hname) rfl
  | addConnection hadd => exact hlinked.addLink hadd
  | removeConnection hsource => exact hlinked.removeTargets hsource _ _ _
  | updateConnection hd₁ hadd =>
    subst hd₁
    exact (hlinked.removeTargets hadd.from_mem _ _ _).addLink hadd
  | touchRest hnodes hconnections =>
    exact hlinked.of_same_names (by simp only [nodeNames, hnodes]) hconnections

theorem Step.distinct (h : d.Step catalog a d') (hlinked : d.Linked)
    (hkeys : d.connections.Distinct) : d'.connections.Distinct := by
  cases h with
  | @removeNode r front back n hpicks =>
    exact (Connections.removeNode_sublist n.name d.connections).nodup (hkeys.erase n.name)
  | @updateNode r changes front back before after hpicks hupdates =>
    by_cases hname : after.name = before.name
    · simpa only [hname, if_true] using hkeys
    · have hnodup : (d.connections.keys.map fun k =>
          if k = before.name then after.name else k).Nodup :=
        hlinked.nodup_renamed hkeys (hupdates.free.1.resolve_left hname)
      simp only [hname, if_false, Entries.Distinct]
      rw [Connections.keys_renameNode hnodup]
      exact hnodup
  | touchNode => exact hkeys
  | addConnection => exact hkeys.put _ _
  | removeConnection => exact Connections.distinct_setSlots hkeys _ _ _
  | updateConnection hd₁ =>
    subst hd₁
    exact (Connections.distinct_setSlots hkeys _ _ _).put _ _
  | touchRest _ hconnections => exact hconnections ▸ hkeys

theorem Step.tidy (h : d.Step catalog a d') (hd : d.WellFormed) : d'.connections.Tidy := by
  cases h with
  | removeNode => exact hd.tidy.removeNode _
  | @updateNode r changes front back before after hpicks hupdates =>
    by_cases hname : after.name = before.name
    · simpa only [hname, if_true] using hd.tidy
    · have hnew := hupdates.free.1.resolve_left hname
      simp only [hname, if_false]
      -- No link leads to the new name, as all links lead to nodes and no node has it yet.
      refine hd.tidy.renameNode (hd.nodup_renamed hd.tidy.keys hnew) ?_
      intro l hl heq
      exact hnew (heq ▸ hd.targets l hl)
  | touchNode => exact hd.tidy
  | addConnection hadd => exact hd.tidy.addTarget hadd.new
  | removeConnection => exact hd.tidy.removeTargets _ _ _ _
  | updateConnection hd₁ hadd =>
    subst hd₁
    exact (hd.tidy.removeTargets _ _ _ _).addTarget hadd.new
  | touchRest _ hconnections => exact hconnections ▸ hd.tidy

theorem Step.wellFormed (h : d.Step catalog a d') (hd : d.WellFormed) : d'.WellFormed where
  toLinked := h.linked hd.tidy.keys hd.toLinked
  names := h.names hd.names
  ids := h.ids hd.ids
  tidy := h.tidy hd

end Document

/-! ## Batches -/

namespace Draft

variable {catalog : Option Catalog} {s s' : Draft}

/-- The id that the operation would draw, if it draws one, is not yet the id of a node. -/
def DrawsFresh (s : Draft) (a : Action) : Prop :=
  ∀ n, a = .addNode n → n.id = none → s.ids s.nextId ∉ s.document.nodeIds

/-- The id of an added node is new, whether it was given or drawn. -/
theorem Added.id_new {n : NewNode} {node : Node} (hadded : Added s n node)
    (hn : (Action.addNode n).Readable) (hfresh : s.DrawsFresh (.addNode n)) :
    node.id ∉ s.document.nodeIds := by
  rcases hn with ⟨v, hv⟩
  rw [hadded.id (NewNode.extra_of_decode hv)]
  cases hid : n.id with
  | none => exact hfresh n rfl hid
  | some id => exact hadded.id_free id hid

theorem wellFormed_of_added {n : NewNode} {node : Node} (hadded : Added s n node)
    (hn : (Action.addNode n).Readable) (hfresh : s.DrawsFresh (.addNode n))
    (hd : s.document.WellFormed) :
    Document.WellFormed { s.document with nodes := s.document.nodes ++ [node] } where
  toLinked := hd.toLinked.addNode node
  names := Document.nodup_map_added (·.name) hd.names hadded.name_new
  ids := Document.nodup_map_added (·.id) hd.ids (hadded.id_new hn hfresh)
  tidy := hd.tidy

theorem Step.wellFormed {a : Action} (h : s.Step catalog a s') (ha : a.Readable)
    (hfresh : s.DrawsFresh a) (hd : s.document.WellFormed) : s'.document.WellFormed := by
  cases h with
  | addNode hadded => exact wellFormed_of_added hadded ha hfresh hd
  | onDocument hstep => exact hstep.wellFormed hd

theorem Run.wellFormed {as : List Action} (h : Run catalog s as s')
    (has : ∀ a ∈ as, a.Readable)
    (hfresh : ∀ front a back t, as = front ++ a :: back → Run catalog s front t → t.DrawsFresh a)
    (hd : s.document.WellFormed) : s'.document.WellFormed := by
  refine h.inv (P := fun t => t.document.WellFormed) hd ?_
  intro front a back t t' heq hrun hstep ht
  have ha : a.Readable := has a (by simp [heq])
  exact (step_of_carryOut hstep).wellFormed ha (hfresh front a back t heq hrun) ht

end Draft

namespace Editor

/-- No id that is drawn in the course of the batch is the id of a node when it is drawn. -/
def DrawsFresh (e : Editor) (ids : IdSupply) (nextId : Nat) (d : Document)
    (batch : List Value) : Prop :=
  ∀ front a back s, actions batch = front ++ a :: back →
    Draft.Run e.catalog ⟨d, nextId, ids⟩ front s → s.DrawsFresh a

/-- Whatever batch is carried out on a well-formed document, the document that is returned is
well-formed. -/
theorem wellFormed_of_applyWith (e : Editor) (ids : IdSupply) (dryRun : Bool) (nextId : Nat)
    {d d' : Document} {batch : List Value} {r : EditResult} {k : Nat} (hd : d.WellFormed)
    (hfresh : e.DrawsFresh ids nextId d batch)
    (h : e.applyWith ids dryRun nextId d batch = .ok (r, k)) (hd' : r.document = some d') :
    d'.WellFormed := by
  rcases document_of_applyWith h hd' with ⟨-, rfl⟩ | ⟨-, s, hrun, rfl⟩
  · exact hd
  · exact hrun.wellFormed (fun a ha => readable_of_mem_actions ha) hfresh hd

def pair : Document where
  nodes := [{ id := "1", name := "A", type := "n8n-nodes-base.set" },
    { id := "2", name := "B", type := "n8n-nodes-base.set" }]
  connections := [("A", [("main", [some [⟨"B", "main", 0⟩]])])]

/-- A third node is put in place, the first one gets a new name, and both are linked. -/
def pairBatch : List Value :=
  [.obj [("type", .str "addNode"),
      ("node", .obj [("name", .str "D"), ("type", .str "n8n-nodes-base.set"),
        ("position", .arr [.int 0, .int 0])])],
    .obj [("type", .str "updateNode"), ("nodeName", .str "A"),
      ("changes", .obj [("name", .str "C")])],
    .obj [("type", .str "addConnection"), ("source", .str "C"), ("target", .str "D")]]

theorem wellFormed_pair_edited :
    ∃ d', Accepts {} (fun _ => "3") 1 pair pairBatch d' ∧ d'.nodeNames = ["C", "B", "D"] ∧
      d'.WellFormed := by
  have hd : pair.WellFormed := by decide
  have hlater : ∀ a ∈ (actions pairBatch).tail, a.word ≠ "addNode" := by decide +kernel
  have hfresh : DrawsFresh {} (fun _ => "3") 1 pair pairBatch := by
    intro front a back s heq hrun n hn hid
    -- An id is drawn for the first operation only.
    cases front with
    | nil =>
      cases hrun
      decide
    | cons b front =>
      have hmem : a ∈ (actions pairBatch).tail := by simp [heq]
      exact absurd (hn ▸ rfl) (hlater a hmem)
  have haccepts : ∃ d', Accepts {} (fun _ => "3") 1 pair pairBatch d' ∧
      (d'.nodeNames == ["C", "B", "D"]) = true := exists_accepts (by decide +kernel)
  rcases haccepts with ⟨d', ⟨r, k, h, hsuccess, hd'⟩, hnames⟩
  exact ⟨d', ⟨r, k, h, hsuccess, hd'⟩, by simpa using hnames,
    wellFormed_of_applyWith {} _ false 1 hd hfresh h hd'⟩

end Editor
end Workflows
