import Workflows.Proofs.Edit.WellFormed

/-!
# Addressable — nodes that a reference can mean

A reference is the id or the name of a node, and both are looked up alike. Names are kept apart from
names and ids from ids, but an id may be the name of another node; a reference that means both is
refused. A node whose id is the name of a second node can still be referred to by its name, unless
this is in turn the id of another one: then no reference means the node, and it can neither be
changed nor linked nor removed.

No operation but an addition or an update brings that about. The node that it puts into the document
need not be the one that is lost: its id and name may complete what two other nodes have begun. So
the nodes to look at are the one that is put in and those whose references meet with it.

Main definitions:

* `Document.Named` — names are distinct, and so are ids;
* `Document.Addressable`, `Document.Crossed` — the nodes that a reference means, and the others;
* `Document.Apart` — a node that takes part in no crossing;
* `Editor.stay_addressable_iff` — when the nodes stay addressable in the course of a batch.
-/

namespace Workflows
namespace Document

/-- No two nodes share a name, and no two an id. -/
@[mk_iff]
structure Named (d : Document) : Prop where
  names : d.nodeNames.Nodup
  ids : d.nodeIds.Nodup

instance (d : Document) : Decidable d.Named :=
  decidable_of_iff _ (named_iff d).symm

def Addressable (d : Document) (n : Node) : Prop :=
  d.resolve n.id = .ok n ∨ d.resolve n.name = .ok n

/-- The id of the node is the name of another node, and its name the id of another one. Where names
and ids are distinct, a node whose id is its own name shares neither with others. -/
def Crossed (d : Document) (n : Node) : Prop :=
  n.id ≠ n.name ∧ n.id ∈ d.nodeNames ∧ n.name ∈ d.nodeIds

instance (d : Document) (n : Node) : Decidable (d.Crossed n) :=
  inferInstanceAs (Decidable (_ ∧ _ ∧ _))

/-- The node is not crossed, nor is any node with which it shares a reference. -/
def Apart (d : Document) (b : Node) : Prop :=
  ∀ n ∈ d.nodes, (n = b ∨ n.id = b.name ∨ n.name = b.id) → ¬ d.Crossed n

/-! ## References that mean a node -/

section References

variable {d : Document} {n m : Node} {reference : String}

theorem Named.eq_of_name (hd : d.Named) (hm : m ∈ d.nodes) (hn : n ∈ d.nodes)
    (h : m.name = n.name) : m = n :=
  List.inj_on_of_nodup_map hd.names hm hn h

theorem Named.eq_of_id (hd : d.Named) (hm : m ∈ d.nodes) (hn : n ∈ d.nodes)
    (h : m.id = n.id) : m = n :=
  List.inj_on_of_nodup_map hd.ids hm hn h

theorem answersTo_iff : n.answersTo reference = true ↔ n.id = reference ∨ n.name = reference := by
  simp only [Node.answersTo, Bool.or_eq_true, beq_iff_eq]
  exact or_congr eq_comm eq_comm

/-- A reference means a node if no other one answers to it. -/
theorem Named.resolve_iff (hd : d.Named) (hn : n ∈ d.nodes)
    (hanswers : n.answersTo reference = true) :
    d.resolve reference = .ok n ↔ ∀ m ∈ d.nodes, m.answersTo reference = true → m = n := by
  constructor
  · intro h m hm hm'
    exact (eq_of_resolve hm hm' h).symm
  · intro honly
    have hnodup : (d.nodes.filter (Node.answersTo reference)).Nodup :=
      (List.Nodup.of_map _ hd.ids).filter _
    have hsingle : d.nodes.filter (Node.answersTo reference) = [n] := by
      refine List.perm_singleton.1 ((List.perm_ext_iff_of_nodup hnodup (List.nodup_singleton n)).2
        ?_)
      intro m
      rw [List.mem_filter, List.mem_singleton]
      constructor
      · rintro ⟨hm, hanswer⟩
        exact honly m hm hanswer
      · rintro rfl
        exact ⟨hn, hanswers⟩
    unfold resolve
    rw [hsingle]

theorem Named.resolve_id_iff (hd : d.Named) (hn : n ∈ d.nodes) :
    d.resolve n.id = .ok n ↔ n.id = n.name ∨ n.id ∉ d.nodeNames := by
  rw [hd.resolve_iff hn (answersTo_iff.2 (Or.inl rfl))]
  constructor
  · intro honly
    by_contra hnot
    rw [not_or, not_not] at hnot
    rcases List.mem_map.1 hnot.2 with ⟨m, hm, hname⟩
    have hsame : m = n := honly m hm (answersTo_iff.2 (Or.inr hname))
    exact hnot.1 (hsame ▸ hname.symm)
  · intro h m hm hanswers
    rcases answersTo_iff.1 hanswers with hid | hname
    · exact hd.eq_of_id hm hn hid
    · rcases h with hown | hfree
      · exact hd.eq_of_name hm hn (hname.trans hown)
      · exact absurd (hname ▸ name_mem_nodeNames hm) hfree

theorem Named.resolve_name_iff (hd : d.Named) (hn : n ∈ d.nodes) :
    d.resolve n.name = .ok n ↔ n.id = n.name ∨ n.name ∉ d.nodeIds := by
  rw [hd.resolve_iff hn (answersTo_iff.2 (Or.inr rfl))]
  constructor
  · intro honly
    by_contra hnot
    rw [not_or, not_not] at hnot
    rcases List.mem_map.1 hnot.2 with ⟨m, hm, hid⟩
    have hsame : m = n := honly m hm (answersTo_iff.2 (Or.inl hid))
    exact hnot.1 (hsame ▸ hid)
  · intro h m hm hanswers
    rcases answersTo_iff.1 hanswers with hid | hname
    · rcases h with hown | hfree
      · exact hd.eq_of_id hm hn (hid.trans hown.symm)
      · exact absurd (hid ▸ List.mem_map_of_mem hm) hfree
    · exact hd.eq_of_name hm hn hname

theorem Named.addressable_iff (hd : d.Named) (hn : n ∈ d.nodes) :
    d.Addressable n ↔ ¬ d.Crossed n := by
  unfold Addressable Crossed
  rw [hd.resolve_id_iff hn, hd.resolve_name_iff hn]
  tauto

end References

/-! ## Crossings that come about -/

section Crossings

variable {catalog : Option Catalog} {d d' : Document} {a : Action} {put : Option Node}

/-- Every node of the second document has been put in, or bears the name and the id of a node of the
first one. -/
def Renews (d : Document) (put : Option Node) (d' : Document) : Prop :=
  ∀ m ∈ d'.nodes, put = some m ∨ ∃ n ∈ d.nodes, n.name = m.name ∧ n.id = m.id

/-- A crossing that is new is one in which the node that has been put in takes part. -/
theorem Renews.not_crossed (h : d.Renews put d') (hd : ∀ n ∈ d.nodes, ¬ d.Crossed n)
    (hput : ∀ b, put = some b → d'.Apart b) : ∀ m ∈ d'.nodes, ¬ d'.Crossed m := by
  intro m hm hboth
  rcases hboth with ⟨hne, hid, hname⟩
  have hapart : ∀ b, put = some b → ¬ (m = b ∨ m.id = b.name ∨ m.name = b.id) :=
    fun b hb hmeet => hput b hb m hm hmeet ⟨hne, hid, hname⟩
  -- All three nodes of the crossing are then as they were.
  rcases List.mem_map.1 hid with ⟨k, hk, hkname⟩
  rcases List.mem_map.1 hname with ⟨l, hl, hlid⟩
  have hold : ∃ n ∈ d.nodes, n.name = m.name ∧ n.id = m.id :=
    (h m hm).resolve_left fun hb => hapart m hb (Or.inl rfl)
  have hkold : ∃ n ∈ d.nodes, n.name = k.name ∧ n.id = k.id :=
    (h k hk).resolve_left fun hb => hapart k hb (Or.inr (Or.inl hkname.symm))
  have hlold : ∃ n ∈ d.nodes, n.name = l.name ∧ n.id = l.id :=
    (h l hl).resolve_left fun hb => hapart l hb (Or.inr (Or.inr hlid.symm))
  rcases hold with ⟨n, hn, hnname, hnid⟩
  rcases hkold with ⟨n₁, hn₁, hname₁, -⟩
  rcases hlold with ⟨n₂, hn₂, -, hid₂⟩
  refine hd n hn ⟨?_, ?_, ?_⟩
  · rw [hnid, hnname]
    exact hne
  · rw [hnid, ← hkname, ← hname₁]
    exact List.mem_map_of_mem hn₁
  · rw [hnname, ← hlid, ← hid₂]
    exact List.mem_map_of_mem hn₂

theorem renews_of_subset (h : ∀ m ∈ d'.nodes, m ∈ d.nodes) : d.Renews put d' :=
  fun m hm => Or.inr ⟨m, h m hm, rfl, rfl⟩

/-- Of the operations on a document, only an update puts a node in. -/
theorem Step.renews (h : d.Step catalog a d') :
    ∃ put, d.Renews put d' ∧ ∀ b, put = some b →
      ∃ r changes before, a = .updateNode r changes ∧
        Draft.Updates d r.text changes before b := by
  have hnone : ∀ b : Node, none = some b → ∃ r changes before, a = .updateNode r changes ∧
      Draft.Updates d r.text changes before b := fun b hb => absurd hb (by simp)
  -- Only an update brings a node with a name or an identifier that was not there.
  cases h with
  | removeNode hpicks =>
    refine ⟨none, renews_of_subset ?_, hnone⟩
    intro m hm
    rw [hpicks.nodes]
    exact ((List.sublist_cons_self _ _).append_left _).subset hm
  | @updateNode r changes front back before after hpicks hupdates =>
    refine ⟨some after, ?_, ?_⟩
    · intro m hm
      have hreplaced : m = after ∨ m ∈ front ++ before :: back := mem_of_mem_replaced hm
      rcases hreplaced with rfl | hold
      · exact Or.inl rfl
      · exact Or.inr ⟨m, hpicks.nodes ▸ hold, rfl, rfl⟩
    · intro b hboth
      cases hboth
      exact ⟨r, changes, before, rfl, hupdates⟩
  | @touchNode a r front back before after hpicks hname hid =>
    refine ⟨none, fun m hm => Or.inr ?_, hnone⟩
    have hreplaced : m = after ∨ m ∈ front ++ before :: back := mem_of_mem_replaced hm
    rcases hreplaced with rfl | hold
    · exact ⟨before, hpicks.mem, hname.symm, hid.symm⟩
    · exact ⟨m, hpicks.nodes ▸ hold, rfl, rfl⟩
  | addConnection => exact ⟨none, renews_of_subset fun m hm => hm, hnone⟩
  | removeConnection => exact ⟨none, renews_of_subset fun m hm => hm, hnone⟩
  | updateConnection hd₁ =>
    refine ⟨none, renews_of_subset ?_, hnone⟩
    intro m hm
    subst hd₁
    exact hm
  | touchRest hnodes => exact ⟨none, renews_of_subset fun m hm => hnodes ▸ hm, hnone⟩

end Crossings

end Document

/-! ## Batches -/

namespace Draft

variable {catalog : Option Catalog} {s s' : Draft} {a : Action} {as : List Action}

/-- The node that an accepted action puts into the document, as a new one or in the place of another
one. -/
def Puts (s : Draft) (a : Action) (s' : Draft) (b : Node) : Prop :=
  (∃ n, a = .addNode n ∧ s'.document.nodes = s.document.nodes ++ [b]) ∨
    ∃ r changes before, a = .updateNode r changes ∧ Updates s.document r.text changes before b

theorem Step.named (h : s.Step catalog a s') (ha : a.Readable) (hfresh : s.DrawsFresh a)
    (hd : s.document.Named) : s'.document.Named := by
  cases h with
  | addNode hadded =>
    exact ⟨Document.nodup_map_added (·.name) hd.names hadded.name_new,
      Document.nodup_map_added (·.id) hd.ids (hadded.id_new ha hfresh)⟩
  | onDocument hstep => exact ⟨hstep.names hd.names, hstep.ids hd.ids⟩

theorem Step.renews (h : s.Step catalog a s') :
    ∃ put, s.document.Renews put s'.document ∧ ∀ b, put = some b → s.Puts a s' b := by
  cases h with
  | @addNode n node hadded =>
    refine ⟨some node, ?_, ?_⟩
    · intro m hm
      rcases List.mem_append.1 hm with hold | hnew
      · exact Or.inr ⟨m, hold, rfl, rfl⟩
      · exact Or.inl (List.mem_singleton.1 hnew ▸ rfl)
    · intro b hboth
      cases hboth
      exact Or.inl ⟨n, rfl, rfl⟩
  | onDocument hstep =>
    rcases hstep.renews with ⟨put, hrenews, hput⟩
    exact ⟨put, hrenews, fun b hb => Or.inr (hput b hb)⟩

/-- An action makes no crossing exactly if the node that it puts in takes part in none. -/
theorem Step.not_crossed_iff (h : s.Step catalog a s')
    (hd : ∀ n ∈ s.document.nodes, ¬ s.document.Crossed n) :
    (∀ n ∈ s'.document.nodes, ¬ s'.document.Crossed n) ↔
      ∀ b, s.Puts a s' b → s'.document.Apart b := by
  constructor
  · intro hall b _ n hn _
    exact hall n hn
  · intro hapart
    rcases h.renews with ⟨put, hrenews, hput⟩
    exact hrenews.not_crossed hd fun b hb => hapart b (hput b hb)

theorem Run.named (h : Run catalog s as s') (has : ∀ a ∈ as, a.Readable)
    (hfresh : ∀ front a back t, as = front ++ a :: back → Run catalog s front t → t.DrawsFresh a)
    (hd : s.document.Named) : s'.document.Named := by
  refine h.inv (P := fun t => t.document.Named) hd fun front a back t t' heq hrun hstep ht => ?_
  have ha : a.Readable := has a (by simp [heq])
  exact (step_of_carryOut hstep).named ha (hfresh front a back t heq hrun) ht

end Draft

def Action.drawsId : Action → Bool
  | .addNode n => n.id.isNone
  | _ => false

namespace Editor

variable {e : Editor} {ids : IdSupply} {nextId : Nat} {d d' : Document} {batch : List Value}

/-- Where no id is drawn, none is drawn that is taken. -/
theorem drawsFresh_of_given (h : ∀ a ∈ actions batch, a.drawsId = false) :
    e.DrawsFresh ids nextId d batch := by
  intro front a back s heq _ n hn hid
  have hgiven := h a (by simp [heq])
  simp [hn, Action.drawsId, hid] at hgiven

/-- A batch that is carried out on a document with distinct names and ids, all nodes of which are
addressable, leads to one with distinct names and ids, where just the crossed nodes are not
addressable. And all nodes are addressable on the whole way exactly if no node that the batch puts
in, by an addition or an update, takes part in a crossing. -/
theorem stay_addressable_iff (hd : d.Named) (hall : ∀ n ∈ d.nodes, d.Addressable n)
    (hfresh : e.DrawsFresh ids nextId d batch) (h : e.Accepts ids nextId d batch d') :
    d'.Named ∧ (∀ n ∈ d'.nodes, d'.Addressable n ↔ ¬ d'.Crossed n) ∧
      ((∀ front back s, actions batch = front ++ back →
          Draft.Run e.catalog ⟨d, nextId, ids⟩ front s →
            ∀ n ∈ s.document.nodes, s.document.Addressable n) ↔
        ∀ front a back s s', actions batch = front ++ a :: back →
          Draft.Run e.catalog ⟨d, nextId, ids⟩ front s → s.carryOut e.catalog a = .ok s' →
            ∀ b, s.Puts a s' b → s'.document.Apart b) := by
  have hnamed : ∀ front back s, actions batch = front ++ back →
      Draft.Run e.catalog ⟨d, nextId, ids⟩ front s → s.document.Named := by
    intro front back s heq hrun
    refine hrun.named ?_ ?_ hd
    · intro a ha
      exact readable_of_mem_actions (heq ▸ List.mem_append_left back ha)
    · intro front' a back' t heq'
      exact hfresh front' a (back' ++ back) t (by simp [heq, heq'])
  -- With distinct identifiers and names, what cannot be addressed is what is crossed.
  have hclear : ∀ s : Draft, s.document.Named →
      ((∀ n ∈ s.document.nodes, s.document.Addressable n) ↔
        ∀ n ∈ s.document.nodes, ¬ s.document.Crossed n) :=
    fun s hs => forall₂_congr fun n hn => hs.addressable_iff hn
  rcases run_of_accepts h with ⟨u, hrun, rfl⟩
  have hu : u.document.Named := hnamed _ [] u (by simp) hrun
  refine ⟨hu, fun n hn => hu.addressable_iff hn, ?_⟩
  refine Draft.kept_iff (P := fun s => ∀ n ∈ s.document.nodes, s.document.Addressable n)
    (Q := fun s a s' => ∀ b, s.Puts a s' b → s'.document.Apart b) hall ?_
  intro front a back s s' heq hfront hstep hs
  have hlast : Draft.Run e.catalog ⟨d, nextId, ids⟩ (front ++ [a]) s' :=
    hfront.append (.cons hstep (.nil s'))
  have hs' : s'.document.Named := hnamed _ back s' (by simp [heq]) hlast
  rw [hclear s (hnamed front (a :: back) s heq hfront)] at hs
  rw [hclear s' hs']
  exact (Draft.step_of_carryOut hstep).not_crossed_iff hs

def lone : Document where
  nodes := [{ id := "x", name := "A", type := "n8n-nodes-base.set" }]

theorem lone_addressable : lone.Named ∧ ∀ n ∈ lone.nodes, lone.Addressable n := by
  have hd : lone.Named := by decide
  exact ⟨hd, fun n hn => (hd.addressable_iff hn).2 (by revert n; decide)⟩

def joining (id name : String) : Value :=
  .obj [("type", .str "addNode"),
    ("node", .obj [("id", .str id), ("name", .str name), ("type", .str "n8n-nodes-base.set"),
      ("position", .arr [.int 0, .int 0])])]

/-- The name of a node is the id of a second one and stays it while the second one gets the first
one's old id for a name, when the first one has got another id. -/
def sharedBatch : List Value :=
  [joining "A" "B",
    .obj [("type", .str "updateNode"), ("nodeId", .str "x"),
      ("changes", .obj [("id", .str "y")])],
    .obj [("type", .str "updateNode"), ("nodeName", .str "B"),
      ("changes", .obj [("name", .str "x")])]]

theorem lone_shared_addressable :
    ∃ d', Accepts {} idText 1 lone sharedBatch d' ∧ d'.nodeIds = ["y", "A"] ∧
      d'.nodeNames = ["A", "x"] ∧ ∀ n ∈ d'.nodes, d'.Addressable n := by
  have hfresh : DrawsFresh {} idText 1 lone sharedBatch :=
    drawsFresh_of_given (by decide +kernel)
  have haccepts : ∃ d', Accepts {} idText 1 lone sharedBatch d' ∧
      decide (d'.nodeIds = ["y", "A"] ∧ d'.nodeNames = ["A", "x"] ∧
        ∀ n ∈ d'.nodes, ¬ d'.Crossed n) = true := exists_accepts (by decide +kernel)
  rcases haccepts with ⟨d', h, htest⟩
  rcases of_decide_eq_true htest with ⟨hids, hnames, hclear⟩
  have hresult := stay_addressable_iff lone_addressable.1 lone_addressable.2 hfresh h
  exact ⟨d', h, hids, hnames, fun n hn => (hresult.2.1 n hn).2 (hclear n hn)⟩

/-- A node joins whose id is the name of the first one, and whose name is its id. Neither can be
referred to any more. -/
theorem both_nodes_lost :
    lone.Named ∧ (∀ n ∈ lone.nodes, lone.Addressable n) ∧
      (∀ a ∈ actions [joining "A" "x"], a.drawsId = false) ∧
      ∃ d', Accepts {} idText 1 lone [joining "A" "x"] d' ∧ d'.nodes.length = 2 ∧
        ∀ n ∈ d'.nodes, ¬ d'.Addressable n := by
  have haccepts : ∃ d', Accepts {} idText 1 lone [joining "A" "x"] d' ∧
      decide (d'.Named ∧ d'.nodes.length = 2 ∧ ∀ n ∈ d'.nodes, d'.Crossed n) = true :=
    exists_accepts (by decide +kernel)
  rcases haccepts with ⟨d', h, htest⟩
  rcases of_decide_eq_true htest with ⟨hd', hlength, hcrossed⟩
  refine ⟨lone_addressable.1, lone_addressable.2, by decide +kernel, d', h, hlength, ?_⟩
  intro n hn haddressable
  exact (hd'.addressable_iff hn).1 haddressable (hcrossed n hn)

end Editor
end Workflows
