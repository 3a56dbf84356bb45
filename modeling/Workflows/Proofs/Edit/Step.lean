import Workflows.Proofs.Decoded
import Workflows.Proofs.Tidy

/-!
# Step — what an accepted operation makes of a draft

Everything that is said about batches rests on the list of cases here: an operation that is carried
out adds a node, takes one away, puts one in the place of another, adds or removes links, does both
to one slot, or leaves nodes and connections as they are. Each case comes with the checks that have
been passed.

Main definitions:

* `Document.Picks` — the node that a reference means, and the nodes around it;
* `Draft.Updates`, `Draft.Addable` — the checks of an update and of a new link;
* `Document.Step`, `Draft.Step`, `Draft.step_of_carryOut` — the cases.
-/

namespace Workflows

/-! ## References -/

namespace Document

variable {d : Document} {reference : String} {front back : List Node} {n : Node}

def nodeIds (d : Document) : List String :=
  d.nodes.map (·.id)

theorem node?_eq_none_iff {name : String} : d.node? name = none ↔ name ∉ d.nodeNames := by
  simp [node?, nodeNames]

theorem name_mem_nodeNames (h : n ∈ d.nodes) : n.name ∈ d.nodeNames :=
  List.mem_map_of_mem h

/-- Where names are unique, a node is the one that is found by its name. -/
theorem node?_of_mem (hnames : d.nodeNames.Nodup) (h : n ∈ d.nodes) :
    d.node? n.name = some n := by
  cases hfind : d.node? n.name with
  | none => exact absurd (name_mem_nodeNames h) (node?_eq_none_iff.1 hfind)
  | some m =>
    have hm : m ∈ d.nodes := List.mem_of_find?_eq_some hfind
    have hsame : m.name = n.name := by simpa using List.find?_some hfind
    exact congrArg some (List.inj_on_of_nodup_map hnames hm h hsame)

/-- The node that a reference means stands between nodes that it does not mean. -/
structure Picks (d : Document) (reference : String) (front : List Node) (n : Node)
    (back : List Node) : Prop where
  nodes : d.nodes = front ++ n :: back
  answers : n.answersTo reference = true
  others : ∀ m ∈ front ++ back, m.answersTo reference = false

theorem picks_of_resolve (h : d.resolve reference = .ok n) :
    ∃ front back, d.Picks reference front n back := by
  unfold resolve at h
  split at h
  · simp at h
  · rename_i m hfilter
    have heq : m = n := by simpa using h
    subst heq
    rcases List.filter_eq_cons_iff.1 hfilter with ⟨front, back, hnodes, hfront, hanswers, hback⟩
    refine ⟨front, back, hnodes, hanswers, ?_⟩
    intro m' hm'
    rcases List.mem_append.1 hm' with hm' | hm'
    · exact Bool.eq_false_iff.2 (hfront m' hm')
    · exact Bool.eq_false_iff.2 (List.filter_eq_nil_iff.1 hback m' hm')
  · simp at h

theorem Picks.mem (h : d.Picks reference front n back) : n ∈ d.nodes := by
  simp [h.nodes]

theorem mem_of_resolve (h : d.resolve reference = .ok n) : n ∈ d.nodes := by
  rcases picks_of_resolve h with ⟨front, back, hpicks⟩
  exact hpicks.mem

/-- A node of the document that answers to a reference is the only one that the reference can
mean. -/
theorem eq_of_resolve {m : Node} (hn : n ∈ d.nodes) (hanswers : n.answersTo reference = true)
    (h : d.resolve reference = .ok m) : m = n := by
  rcases picks_of_resolve h with ⟨front, back, hpicks⟩
  -- Only the picked node answers.
  rw [hpicks.nodes] at hn
  rcases List.mem_append.1 hn with hfront | hback
  · simp [hpicks.others n (List.mem_append_left _ hfront)] at hanswers
  · rcases List.mem_cons.1 hback with heq | hback
    · exact heq.symm
    · simp [hpicks.others n (List.mem_append_right _ hback)] at hanswers

theorem eq_of_resolve_name {m : Node} (hn : n ∈ d.nodes) (h : d.resolve n.name = .ok m) :
    m = n :=
  eq_of_resolve hn (by simp [Node.answersTo]) h

theorem Picks.map_answering (h : d.Picks reference front n back) (f : Node → Node) :
    (d.nodes.map fun m => if m.answersTo reference then f m else m) = front ++ f n :: back := by
  -- On either side of the picked node nothing answers.
  have hkeep : ∀ ms : List Node, (∀ m ∈ ms, m ∈ front ++ back) →
      (ms.map fun m => if m.answersTo reference then f m else m) = ms := by
    intro ms hms
    have hsame : ∀ m ∈ ms, (if m.answersTo reference then f m else m) = id m := by
      intro m hm
      simp [h.others m (hms m hm)]
    rw [List.map_congr_left hsame, List.map_id]
  have hfront := hkeep front fun m hm => List.mem_append_left _ hm
  have hback := hkeep back fun m hm => List.mem_append_right _ hm
  rw [h.nodes, List.map_append, List.map_cons, hfront, hback, if_pos h.answers]

theorem Picks.filter_others (h : d.Picks reference front n back) :
    (d.nodes.filter fun m => !m.answersTo reference) = front ++ back := by
  have hkeep : ∀ ms : List Node, (∀ m ∈ ms, m ∈ front ++ back) →
      (ms.filter fun m => !m.answersTo reference) = ms := by
    intro ms hms
    refine List.filter_eq_self.2 ?_
    intro m hm
    simp [h.others m (hms m hm)]
  have hfront := hkeep front fun m hm => List.mem_append_left _ hm
  have hback := hkeep back fun m hm => List.mem_append_right _ hm
  have hpicked : (n :: back).filter (fun m => !m.answersTo reference) =
      back.filter fun m => !m.answersTo reference :=
    List.filter_cons_of_neg (by simp [h.answers])
  rw [h.nodes, List.filter_append, hpicked, hfront, hback]

end Document

namespace Draft

theorem resolve_eq_ok {d : Document} {reference : String} {n : Node} :
    resolve d reference = .ok n ↔ d.resolve reference = .ok n := by
  unfold resolve
  cases d.resolve reference <;> simp [Except.mapError]

/-! ## Checks -/

section Checks

variable {d : Document}

/-- An update that is accepted makes the first node the second one, on trial and for good. -/
def Updates (d : Document) (reference : String) (changes : List (String × Value))
    (before after : Node) : Prop :=
  d.resolve reference = .ok before ∧
    ∃ trial settled rest,
      updated d before (Change.ofEntries changes) = .ok (trial, settled) ∧
        updated d before settled = .ok (after, rest)

theorem updateNode_eq_ok {reference : String} {changes : List (String × Value)} {d' : Document} :
    updateNode d reference changes = .ok d' ↔
      ∃ before after, Updates d reference changes before after ∧
        replaceNode d reference before after = d' := by
  unfold updateNode Updates
  cases hn : resolve d reference with
  | error r =>
    have hnone : ∀ n, d.resolve reference ≠ .ok n := by
      intro n h
      rw [resolve_eq_ok.2 h] at hn
      simp at hn
    simp [hnone]
  | ok n =>
    rw [resolve_eq_ok] at hn
    cases htrial : updated d n (Change.ofEntries changes) with
    | error r => simp [hn, htrial]
    | ok p =>
      rcases p with ⟨trial, settled⟩
      cases hafter : updated d n settled with
      | error r => simp [hn, htrial, hafter]
      | ok q =>
        rcases q with ⟨after, rest⟩
        simp [hn, htrial, hafter]

theorem updated_eq_ok {before after : Node} {changes settled : List Change}
    (h : updated d before changes = .ok (after, settled)) :
    ∃ r, ChangeRun.run changes before.toEntries = .ok r ∧ Node.ofEntries r.data = .ok after ∧
      updateRefusal? d before after = none ∧ r.changes = settled := by
  unfold updated at h
  split at h
  · simp at h
  · rename_i r hrun
    split at h
    · simp at h
    · rename_i m hread
      split at h
      · simp at h
      · rename_i hnone
        simp only [Except.ok.injEq, Prod.mk.injEq] at h
        exact ⟨r, hrun, h.1 ▸ hread, h.1 ▸ hnone, h.2⟩

/-- The name and the id of an updated node are its own or those of no node. -/
theorem Updates.free {reference : String} {changes : List (String × Value)} {before after : Node}
    (h : Updates d reference changes before after) :
    (after.name = before.name ∨ after.name ∉ d.nodeNames) ∧
      (after.id = before.id ∨ after.id ∉ d.nodeIds) := by
  rcases h with ⟨-, trial, settled, rest, -, hafter⟩
  -- The check of the second round is the one that counts: it is made on the node that is left.
  rcases updated_eq_ok hafter with ⟨r, -, -, hrefusal, -⟩
  unfold updateRefusal? at hrefusal
  split at hrefusal
  · simp at hrefusal
  · rename_i hname
    split at hrefusal
    · simp at hrefusal
    · rename_i hid
      refine ⟨?_, ?_⟩
      · by_cases h : after.name = before.name
        · exact Or.inl h
        · refine Or.inr (Document.node?_eq_none_iff.1 ?_)
          simpa [h] using hname
      · by_cases h : after.id = before.id
        · exact Or.inl h
        · refine Or.inr fun hmem => hid ⟨h, ?_⟩
          rcases List.mem_map.1 hmem with ⟨n, hn, heq⟩
          exact List.any_eq_true.2 ⟨n, hn, by simpa using heq⟩

theorem Updates.unique {reference : String} {changes : List (String × Value)}
    {before after before' after' : Node} (h : Updates d reference changes before after)
    (h' : Updates d reference changes before' after') : before = before' ∧ after = after' := by
  rcases h with ⟨hn, trial, settled, rest, htrial, hafter⟩
  rcases h' with ⟨hn', trial', settled', rest', htrial', hafter'⟩
  obtain rfl : before = before' := Except.ok.inj (hn.symm.trans hn')
  have hsettled := Except.ok.inj (htrial.symm.trans htrial')
  simp only [Prod.mk.injEq] at hsettled
  rw [← hsettled.2] at hafter'
  have hrest := Except.ok.inj (hafter.symm.trans hafter')
  simp only [Prod.mk.injEq] at hrest
  exact ⟨rfl, hrest.1⟩

structure Addable (catalog : Option Catalog) (d : Document) (l : AddedLink)
    (source target : Node) : Prop where
  from_mem : source ∈ d.nodes
  to_mem : target ∈ d.nodes
  slot : 0 ≤ l.sourceIndex
  index : 0 ≤ l.targetIndex
  output : outputRefusal? catalog d source l = none
  new : ⟨target.name, l.input, l.targetIndex⟩ ∉
    d.connections.slotTargets source.name l.output l.sourceIndex.toNat

def linked (d : Document) (l : AddedLink) (source target : Node) : Document :=
  { d with
    connections :=
      d.connections.addTarget source.name l.output l.sourceIndex.toNat
        ⟨target.name, l.input, l.targetIndex⟩ }

theorem endpoints_eq_ok {source target : String} {s t : Node} :
    endpoints d source target = .ok (s, t) ↔
      d.resolve source = .ok s ∧ d.resolve target = .ok t := by
  unfold endpoints
  cases d.resolve source with
  | error f => simp
  | ok s' => cases d.resolve target <;> simp

theorem addable_of_addConnection {catalog : Option Catalog} {l : AddedLink} {d' : Document}
    (h : addConnection catalog d l = .ok d') :
    ∃ source target, d.resolve l.source = .ok source ∧ d.resolve l.target = .ok target ∧
      Addable catalog d l source target ∧ linked d l source target = d' := by
  unfold addConnection at h
  split at h
  · simp at h
  · rename_i source target hends
    rcases endpoints_eq_ok.1 hends with ⟨hs, ht⟩
    refine ⟨source, target, hs, ht, ?_⟩
    split at h
    · simp at h
    · rename_i hnone
      refine ⟨?_, Except.ok.inj h⟩
      unfold addLinkRefusal? at hnone
      split at hnone
      · simp at hnone
      · split at hnone
        · simp at hnone
        · split at hnone
          · simp at hnone
          · rename_i hslot hindex _ houtput
            refine ⟨Document.mem_of_resolve hs, Document.mem_of_resolve ht, by omega, by omega,
              houtput, ?_⟩
            simpa using hnone

end Checks

/-! ## New nodes -/

theorem exists_toAllEntries_eq (id : Value) (b : NodeBody) :
    ∃ rest, b.toAllEntries id = ("id", id) :: ("name", .str b.name) :: rest ∧
      (b.extra.get? "id" = none → Entries.get? "id" rest = none) := by
  refine ⟨_, rfl, ?_⟩
  intro h
  simpa [Entries.get?] using h

theorem get?_name_toEntries (n : NewNode) : n.toEntries.get? "name" = some (.str n.name) := by
  rcases exists_toAllEntries_eq n.idValue n.toNodeBody with ⟨rest, heq, -⟩
  unfold NewNode.toEntries Entries.withoutNulls
  rw [heq]
  cases hid : n.id <;> simp [NewNode.idValue, hid, Value.isNull, Entries.get?]

theorem get?_id_toEntries {n : NewNode} (h : n.extra.get? "id" = none) :
    n.toEntries.get? "id" = n.id.map .str := by
  rcases exists_toAllEntries_eq n.idValue n.toNodeBody with ⟨rest, heq, hrest⟩
  unfold NewNode.toEntries Entries.withoutNulls
  rw [heq]
  cases hid : n.id with
  | none =>
    -- The id is null and left out, and what is held beside the fields brings no other.
    have hnone : Entries.get? "id" (("name", .str n.name) :: rest) = none := by
      simpa [Entries.get?] using hrest h
    rw [List.filter_cons_of_neg (by simp [NewNode.idValue, hid, Value.isNull])]
    exact Entries.get?_eq_none_of_sublist List.filter_sublist hnone
  | some id => simp [NewNode.idValue, hid, Value.isNull, Entries.get?]

/-- An added node has the name that was asked for, and the id that was asked for or else the one
that was drawn. -/
structure Added (s : Draft) (n : NewNode) (node : Node) : Prop where
  name : node.name = n.name
  id : n.extra.get? "id" = none → node.id = n.id.getD (s.ids s.nextId)
  name_free : n.name ∉ s.document.nodeNames
  id_free : ∀ id, n.id = some id → id ∉ s.document.nodeIds

theorem Added.name_new {s : Draft} {n : NewNode} {node : Node} (hadded : Added s n node) :
    node.name ∉ s.document.nodeNames :=
  hadded.name ▸ hadded.name_free

/-- A node that may be added has a name that no node has, and no node's id. -/
theorem free_of_addNodeRefusal? {d : Document} {n : NewNode} (h : addNodeRefusal? d n = none) :
    n.name ∉ d.nodeNames ∧ ∀ id, n.id = some id → id ∉ d.nodeIds := by
  unfold addNodeRefusal? at h
  split at h
  · simp at h
  · rename_i hname
    refine ⟨Document.node?_eq_none_iff.1 (by simpa using hname), fun id hn hmem => ?_⟩
    rcases List.mem_map.1 hmem with ⟨m, hm, heq⟩
    have htaken : (n.id.any fun id => d.nodes.any (·.id == id)) = true := by
      rw [hn]
      exact List.any_eq_true.2 ⟨m, hm, by simpa using heq⟩
    simp [htaken] at h

/-- An added node is read from the written form of the one that was asked for. -/
theorem exists_of_addNode {s s' : Draft} {n : NewNode} (h : s.addNode n = .ok s') :
    ∃ node, addNodeRefusal? s.document n = none ∧
      Node.ofEntries ((n.toEntries.putNew "id" (.str (s.ids s.nextId))).putNew "typeVersion"
        (.int 1)) = .ok node ∧
      s' = { s with
        document := { s.document with nodes := s.document.nodes ++ [node] }
        nextId := if n.id.isSome then s.nextId else s.nextId + 1 } := by
  unfold addNode at h
  split at h
  · simp at h
  · rename_i hrefusal
    dsimp only at h
    split at h
    · simp at h
    · rename_i node hnode
      exact ⟨node, hrefusal, hnode, (Except.ok.inj h).symm⟩

theorem addNode_eq_ok {s s' : Draft} {n : NewNode} (h : s.addNode n = .ok s') :
    ∃ node, Added s n node ∧
      s' = { s with
        document := { s.document with nodes := s.document.nodes ++ [node] }
        nextId := if n.id.isSome then s.nextId else s.nextId + 1 } := by
  rcases exists_of_addNode h with ⟨node, hrefusal, hnode, hs'⟩
  rcases free_of_addNodeRefusal? hrefusal with ⟨hfreeName, hfreeId⟩
  rcases Node.of_ofEntries hnode with ⟨hid, hname⟩
  simp only [Entries.get?_putNew, get?_name_toEntries] at hid hname
  refine ⟨node, ⟨?_, ?_, hfreeName, hfreeId⟩, hs'⟩
  · simpa using hname.symm
  · intro hextra
    rw [get?_id_toEntries hextra] at hid
    cases hn : n.id <;> simpa [hn] using hid.symm

end Draft

/-! ## The cases -/

/-- What an operation on a document, if it is accepted, makes of it. -/
inductive Document.Step (catalog : Option Catalog) (d : Document) : Action → Document → Prop
  | removeNode {r : NodeRef} {front back : List Node} {n : Node}
      (h : d.Picks r.text front n back) :
      Step catalog d (.removeNode r)
        { d with nodes := front ++ back, connections := d.connections.removeNode n.name }
  | updateNode {r : NodeRef} {changes : List (String × Value)} {front back : List Node}
      {before after : Node} (h : d.Picks r.text front before back)
      (hupdates : Draft.Updates d r.text changes before after) :
      Step catalog d (.updateNode r changes)
        { d with
          nodes := front ++ after :: back
          connections :=
            if after.name = before.name then d.connections
            else d.connections.renameNode before.name after.name }
  /-- Changes of a node that no check of links or references takes notice of. -/
  | touchNode {a : Action} {r : NodeRef} {front back : List Node} {before after : Node}
      (h : d.Picks r.text front before back) (hname : after.name = before.name)
      (hid : after.id = before.id) (htype : after.type = before.type)
      (honError : after.onError = before.onError) (ha : ∀ r changes, a ≠ .updateNode r changes) :
      Step catalog d a { d with nodes := front ++ after :: back }
  | addConnection {l : AddedLink} {source target : Node}
      (h : Draft.Addable catalog d l source target) :
      Step catalog d (.addConnection l) (Draft.linked d l source target)
  | removeConnection {l : RemovedLinks} {source target : Node} (hsource : source ∈ d.nodes) :
      Step catalog d (.removeConnection l)
        { d with
          connections :=
            d.connections.removeTargets source.name l.output
              (Connections.leadsTo target.name (some l.input)) l.sourceIndex }
  | updateConnection {l : ChangedLink} {d₁ : Document} {source target : Node} {slot : Nat}
      {existing : Target}
      (hd₁ : d₁ =
        { d with
          connections :=
            d.connections.removeTargets source.name l.output
              (Connections.leadsTo target.name none) l.sourceIndex })
      (h : Draft.Addable catalog d₁ (Draft.replacement source target l slot existing) source
        target) :
      Step catalog d (.updateConnection l)
        (Draft.linked d₁ (Draft.replacement source target l slot existing) source target)
  /-- Changes of anything else. -/
  | touchRest {a : Action} {d' : Document} (hnodes : d'.nodes = d.nodes)
      (hconnections : d'.connections = d.connections) (ha : ∀ r changes, a ≠ .updateNode r changes) :
      Step catalog d a d'

/-- What an accepted operation makes of a draft. -/
inductive Draft.Step (catalog : Option Catalog) (s : Draft) : Action → Draft → Prop
  | addNode {n : NewNode} {node : Node} (h : Added s n node) :
      Step catalog s (.addNode n)
        { s with
          document := { s.document with nodes := s.document.nodes ++ [node] }
          nextId := if n.id.isSome then s.nextId else s.nextId + 1 }
  | onDocument {a : Action} {d : Document} (h : s.document.Step catalog a d) :
      Step catalog s a { s with document := d }

namespace Draft

variable {catalog : Option Catalog} {d d' : Document}

theorem changeNode_eq_ok {reference : String} {f : Node → Node}
    (h : changeNode d reference f = .ok d') :
    ∃ n, d.resolve reference = .ok n ∧
      d' = { d with nodes := d.nodes.map fun m => if m.answersTo reference then f m else m } := by
  unfold changeNode at h
  cases hn : resolve d reference with
  | error r => simp [hn, Except.map] at h
  | ok n =>
    simp only [hn, Except.map, Except.ok.injEq] at h
    exact ⟨n, resolve_eq_ok.1 hn, h.symm⟩

theorem removeNode_eq_ok {reference : String} (h : removeNode d reference = .ok d') :
    ∃ n, d.resolve reference = .ok n ∧
      d' = { d with
        nodes := d.nodes.filter fun m => !m.answersTo reference
        connections := d.connections.removeNode n.name } := by
  unfold removeNode at h
  cases hn : resolve d reference with
  | error r => simp [hn, Except.map] at h
  | ok n =>
    simp only [hn, Except.map, Except.ok.injEq] at h
    exact ⟨n, resolve_eq_ok.1 hn, h.symm⟩

theorem removeConnection_eq_ok {l : RemovedLinks} (h : removeConnection d l = .ok d') :
    ∃ source target, d.resolve l.source = .ok source ∧ d.resolve l.target = .ok target ∧
      d.connections.matchingSlots source.name l.output
        (Connections.leadsTo target.name (some l.input)) l.sourceIndex ≠ [] ∧
      d' = { d with
        connections :=
          d.connections.removeTargets source.name l.output
            (Connections.leadsTo target.name (some l.input)) l.sourceIndex } := by
  unfold removeConnection at h
  split at h
  · simp at h
  · rename_i source target hends
    dsimp only at h
    split at h
    · simp at h
    · rename_i hsome
      rcases endpoints_eq_ok.1 hends with ⟨hsource, htarget⟩
      exact ⟨source, target, hsource, htarget, by simpa using hsome, (Except.ok.inj h).symm⟩

theorem step_of_changeNode {a : Action} {r : NodeRef} {f : Node → Node}
    (h : changeNode d r.text f = .ok d') (hname : ∀ n, (f n).name = n.name)
    (hid : ∀ n, (f n).id = n.id) (htype : ∀ n, (f n).type = n.type)
    (honError : ∀ n, (f n).onError = n.onError) (ha : ∀ r changes, a ≠ .updateNode r changes) :
    d.Step catalog a d' := by
  rcases changeNode_eq_ok h with ⟨n, hn, rfl⟩
  rcases Document.picks_of_resolve hn with ⟨front, back, hpicks⟩
  rw [hpicks.map_answering f]
  exact .touchNode hpicks (hname n) (hid n) (htype n) (honError n) ha

theorem step_of_removeNode {r : NodeRef} (h : removeNode d r.text = .ok d') :
    d.Step catalog (.removeNode r) d' := by
  rcases removeNode_eq_ok h with ⟨n, hn, rfl⟩
  rcases Document.picks_of_resolve hn with ⟨front, back, hpicks⟩
  rw [hpicks.filter_others]
  exact .removeNode hpicks

theorem step_of_updateNode {r : NodeRef} {changes : List (String × Value)}
    (h : updateNode d r.text changes = .ok d') :
    d.Step catalog (.updateNode r changes) d' := by
  rcases updateNode_eq_ok.1 h with ⟨before, after, hupdates, rfl⟩
  rcases Document.picks_of_resolve hupdates.1 with ⟨front, back, hpicks⟩
  unfold replaceNode
  rw [hpicks.map_answering fun _ => after]
  exact .updateNode hpicks hupdates

theorem step_of_removeConnection {l : RemovedLinks} (h : removeConnection d l = .ok d') :
    d.Step catalog (.removeConnection l) d' := by
  rcases removeConnection_eq_ok h with ⟨source, target, hsource, -, -, rfl⟩
  exact .removeConnection (Document.mem_of_resolve hsource)

/-- A change of a link takes all links of one slot to the target away and adds one link. -/
theorem updateConnection_eq_ok {l : ChangedLink} (h : updateConnection catalog d l = .ok d') :
    ∃ source target slot existing d₁,
      d.resolve l.source = .ok source ∧ d.resolve l.target = .ok target ∧
      d.connections.matchingSlots source.name l.output
        (Connections.leadsTo target.name none) l.sourceIndex = [slot] ∧
      (d.connections.slotTargets source.name l.output slot).find?
        (Connections.leadsTo target.name none) = some existing ∧
      d₁ = { d with
        connections :=
          d.connections.removeTargets source.name l.output
            (Connections.leadsTo target.name none) l.sourceIndex } ∧
      Addable catalog d₁ (replacement source target l slot existing) source target ∧
      linked d₁ (replacement source target l slot existing) source target = d' := by
  unfold updateConnection at h
  split at h
  · simp at h
  · rename_i source target hends
    rcases endpoints_eq_ok.1 hends with ⟨hs, ht⟩
    dsimp only at h
    split at h
    · simp at h
    · rename_i slot hslot
      split at h
      · simp at h
      · rename_i existing hexisting
        rcases addable_of_addConnection h with ⟨source', target', hs', ht', hadd, hlinked⟩
        -- The ends are looked up again, now by their names.
        obtain rfl : source' = source :=
          Document.eq_of_resolve_name (n := source) (Document.mem_of_resolve (n := source) hs) hs'
        obtain rfl : target' = target :=
          Document.eq_of_resolve_name (n := target) (Document.mem_of_resolve (n := target) ht) ht'
        exact ⟨source', target', slot, existing, _, hs, ht, hslot, hexisting, rfl, hadd, hlinked⟩
    · simp at h

theorem step_of_carryOutOn {a : Action} (hnode : ∀ n, a ≠ .addNode n)
    (h : carryOutOn catalog d a = .ok d') : d.Step catalog a d' := by
  cases a with
  | addNode n => exact absurd rfl (hnode n)
  | removeNode r => exact step_of_removeNode h
  | updateNode r changes => exact step_of_updateNode h
  | moveNode r position =>
    exact step_of_changeNode h (fun _ => rfl) (fun _ => rfl) (fun _ => rfl) (fun _ => rfl) nofun
  | enableNode r =>
    exact step_of_changeNode h (fun _ => rfl) (fun _ => rfl) (fun _ => rfl) (fun _ => rfl) nofun
  | disableNode r =>
    exact step_of_changeNode h (fun _ => rfl) (fun _ => rfl) (fun _ => rfl) (fun _ => rfl) nofun
  | addConnection l =>
    rcases addable_of_addConnection h with ⟨source, target, -, -, hadd, rfl⟩
    exact .addConnection hadd
  | removeConnection l => exact step_of_removeConnection h
  | updateConnection l =>
    obtain ⟨source, target, slot, existing, d₁, -, -, -, -, hd₁, hadd, rfl⟩ :=
      updateConnection_eq_ok h
    exact .updateConnection hd₁ hadd
  | updateSettings settings =>
    cases h
    exact .touchRest rfl rfl nofun
  | updateName name =>
    cases h
    exact .touchRest rfl rfl nofun
  | addTag tag =>
    simp only [carryOutOn, Except.ok.injEq] at h
    rw [← h]
    split <;> exact .touchRest rfl rfl nofun
  | removeTag tag =>
    cases h
    exact .touchRest rfl rfl nofun

/-- All kinds of operations but additions work on the document alone. -/
theorem carryOut_of_ne {a : Action} (hne : ∀ n, a ≠ .addNode n) (s : Draft) :
    s.carryOut catalog a =
      ((carryOutOn catalog s.document a).mapError .refused).map
        fun d => { s with document := d } := by
  cases hd : carryOutOn catalog s.document a <;> cases a with
    | addNode n => exact absurd rfl (hne n)
    | _ =>
      simp only [carryOut, hd]
      rfl

theorem carryOut_eq_ok_iff {a : Action} (hne : ∀ n, a ≠ .addNode n) {s s' : Draft} :
    s.carryOut catalog a = .ok s' ↔
      ∃ d, carryOutOn catalog s.document a = .ok d ∧ s' = { s with document := d } := by
  rw [carryOut_of_ne hne]
  cases carryOutOn catalog s.document a with
  | error r => simp [Except.mapError, Except.map]
  | ok d => simp [Except.mapError, Except.map, eq_comm]

theorem step_of_carryOut {s s' : Draft} {a : Action} (h : s.carryOut catalog a = .ok s') :
    s.Step catalog a s' := by
  by_cases hnode : ∃ n, a = .addNode n
  · rcases hnode with ⟨n, rfl⟩
    rcases addNode_eq_ok h with ⟨node, hadded, rfl⟩
    exact .addNode hadded
  · have hne : ∀ n, a ≠ .addNode n := fun n heq => hnode ⟨n, heq⟩
    rcases (carryOut_eq_ok_iff hne).1 h with ⟨d, hd, rfl⟩
    exact .onDocument (step_of_carryOutOn hne hd)

end Draft
end Workflows
