import Workflows.Proofs.Validation.Wiring

/-!
# Outputs — whether batches keep links on outputs that exist

How many main outputs a node has depends on its type, on the catalog and on its error policy. A new
link is checked against that, and so is one that is put back by a change of a link. An update that
gives a node another type or another error policy is not checked, although the node may lose outputs
that links use. This is the only way in which a batch, on a document whose connections are all
valid, leads to one with invalid connections: no document on the way has any exactly if every update
leaves its node the outputs that links of the node use at that moment.

Main definitions:

* `Document.Wired` — the part of being well-formed that the count of invalid connections needs;
* `Draft.Fits` — an update leaves its node the outputs that links use;
* `Draft.Run.outputsExist_iff`, `Editor.outputs_kept_iff` — when no output gets lost.
-/

namespace Workflows

/-! ## Documents -/

namespace Document

/-- Names are unique, and all ends of links are nodes. -/
structure Wired (d : Document) : Prop extends Linked d where
  names : d.nodeNames.Nodup
  keys : d.connections.Distinct

variable {catalog : Option Catalog} {d d' : Document} {a : Action}

theorem Step.wired (h : d.Step catalog a d') (hd : d.Wired) : d'.Wired where
  toLinked := h.linked hd.keys hd.toLinked
  names := h.names hd.names
  keys := h.distinct hd.toLinked hd.keys

theorem Wired.removeTargets (hd : d.Wired) {source : Node} (hsource : source ∈ d.nodes)
    (output : String) (test : Target → Bool) (index : Option Int) :
    Wired { d with
      connections := d.connections.removeTargets source.name output test index } where
  toLinked := hd.toLinked.removeTargets hsource output test index
  names := hd.names
  keys := Connections.distinct_setSlots hd.keys source.name output _

theorem source_mem_keys {l : Link} (hl : l ∈ d.connections.links) :
    l.source ∈ d.connections.keys := by
  rcases Connections.mem_links_iff.1 hl with ⟨os, he, -⟩
  exact Entries.key_mem_keys he

/-- Where names are unique, the source of a link is the node of that name. -/
theorem Wired.outputsExist_iff (hd : d.Wired) {c : Catalog} :
    Scene.OutputsExist ⟨d, c⟩ ↔
      ∀ l ∈ d.connections.links, ∀ n ∈ d.nodes, n.name = l.source →
        Scene.hasOutput ⟨d, c⟩ n l.output l.slot = true := by
  constructor
  · intro h l hl n hn hname
    exact h l hl n (hname ▸ node?_of_mem hd.names hn)
  · intro h l hl n hfind
    have hname : n.name = l.source := by simpa using List.find?_some hfind
    exact h l hl n (List.mem_of_find?_eq_some hfind) hname

end Document

/-! ## Outputs of changed nodes -/

/-- The outputs of a node are a matter of its type and its error policy. -/
theorem Scene.hasOutput_congr {c : Catalog} {d d' : Document} {n m : Node}
    (htype : n.type = m.type) (honError : n.onError = m.onError) (output : String) (slot : Nat) :
    Scene.hasOutput ⟨d, c⟩ n output slot = Scene.hasOutput ⟨d', c⟩ m output slot := by
  simp only [hasOutput, declaredOutputs?, typeOf, htype, honError]

namespace Draft

/-- The node that an update leaves has every output that links of the node use. -/
def Fits (c : Catalog) (d : Document) (reference : String) (changes : List (String × Value)) :
    Prop :=
  ∀ before after, Updates d reference changes before after →
    ∀ l ∈ d.connections.links, l.source = before.name →
      Scene.hasOutput ⟨d, c⟩ after l.output l.slot = true

def ActionFits (c : Catalog) (d : Document) (a : Action) : Prop :=
  ∀ r changes, a = .updateNode r changes → Fits c d r.text changes

theorem hasOutput_of_addable {c : Catalog} {d : Document} {l : AddedLink} {source target : Node}
    (h : Addable (some c) d l source target) :
    Scene.hasOutput ⟨d, c⟩ source l.output l.sourceIndex.toNat = true := by
  have hrefusal := h.output
  unfold outputRefusal? at hrefusal
  dsimp only at hrefusal
  split at hrefusal
  · assumption
  · simp at hrefusal

end Draft

/-! ## Single operations -/

namespace Document

variable {c : Catalog} {d d' : Document}

/-- Neither fewer links nor nodes that differ in other things take outputs away. -/
theorem Wired.outputs_of_subset (hd : d.Wired) (hd' : d'.Wired)
    (hnodes : ∀ n ∈ d'.nodes, ∃ m ∈ d.nodes,
      m.name = n.name ∧ m.type = n.type ∧ m.onError = n.onError)
    (hlinks : ∀ l ∈ d'.connections.links, l ∈ d.connections.links)
    (h : Scene.OutputsExist ⟨d, c⟩) : Scene.OutputsExist ⟨d', c⟩ := by
  rw [hd.outputsExist_iff] at h
  rw [hd'.outputsExist_iff]
  intro l hl n hn hname
  rcases hnodes n hn with ⟨m, hm, hsame, htype, honError⟩
  rw [← Scene.hasOutput_congr (d := d) htype honError]
  exact h l (hlinks l hl) m hm (hsame.trans hname)

theorem Wired.outputs_linked (hd : d.Wired) {l : AddedLink} {source target : Node}
    (hd' : (Draft.linked d l source target).Wired)
    (hadd : Draft.Addable (some c) d l source target) (h : Scene.OutputsExist ⟨d, c⟩) :
    Scene.OutputsExist ⟨Draft.linked d l source target, c⟩ := by
  rw [hd.outputsExist_iff] at h
  rw [hd'.outputsExist_iff]
  intro l' hl' n hn hname
  have hlinks := Connections.links_addTarget_perm source.name l.output l.sourceIndex.toNat
    ⟨target.name, l.input, l.targetIndex⟩ d.connections
  rcases List.mem_cons.1 (hlinks.subset hl') with rfl | hold
  · have heq : n = source := List.inj_on_of_nodup_map hd.names hn hadd.from_mem hname
    rw [heq]
    exact (Scene.hasOutput_congr rfl rfl _ _).trans (Draft.hasOutput_of_addable hadd)
  · exact (Scene.hasOutput_congr rfl rfl _ _).trans (h l' hold n hn hname)

section Updated

variable {reference : String} {front back : List Node} {before after : Node}

def updatedTo (d : Document) (front back : List Node) (before after : Node) : Document :=
  { d with
    nodes := front ++ after :: back
    connections :=
      if after.name = before.name then d.connections
      else d.connections.renameNode before.name after.name }

theorem links_updatedTo (hd : d.Wired)
    (hnew : after.name = before.name ∨ after.name ∉ d.nodeNames) :
    (d.updatedTo front back before after).connections.links =
      if after.name = before.name then d.connections.links
      else d.connections.links.map (Link.rename before.name after.name) := by
  unfold updatedTo
  by_cases hname : after.name = before.name
  · simp only [hname, if_true]
  · simp only [hname, if_false]
    exact Connections.links_renameNode
      (hd.nodup_renamed hd.keys (hnew.resolve_left hname))

/-- A link of the updated document stands for one from before, with the same output; its source has
got the new name if it is the updated node. -/
theorem exists_link_of_updatedTo (hd : d.Wired)
    (hnew : after.name = before.name ∨ after.name ∉ d.nodeNames) {l' : Link}
    (hl' : l' ∈ (d.updatedTo front back before after).connections.links) :
    ∃ l ∈ d.connections.links, l'.output = l.output ∧ l'.slot = l.slot ∧
      l'.source = if l.source = before.name then after.name else l.source := by
  rw [links_updatedTo hd hnew] at hl'
  by_cases hname : after.name = before.name
  · rw [if_pos hname] at hl'
    refine ⟨l', hl', rfl, rfl, ?_⟩
    by_cases hsource : l'.source = before.name
    · rw [if_pos hsource, hsource, hname]
    · rw [if_neg hsource]
  · rw [if_neg hname] at hl'
    rcases List.mem_map.1 hl' with ⟨l, hl, rfl⟩
    exact ⟨l, hl, rfl, rfl, rfl⟩

theorem exists_updatedTo_link (hd : d.Wired)
    (hnew : after.name = before.name ∨ after.name ∉ d.nodeNames) {l : Link}
    (hl : l ∈ d.connections.links) :
    ∃ l' ∈ (d.updatedTo front back before after).connections.links,
      l'.output = l.output ∧ l'.slot = l.slot ∧
        l'.source = if l.source = before.name then after.name else l.source := by
  rw [links_updatedTo hd hnew]
  by_cases hname : after.name = before.name
  · rw [if_pos hname]
    refine ⟨l, hl, rfl, rfl, ?_⟩
    by_cases hsource : l.source = before.name
    · rw [if_pos hsource, hsource, hname]
    · rw [if_neg hsource]
  · rw [if_neg hname]
    exact ⟨_, List.mem_map_of_mem hl, rfl, rfl, rfl⟩

/-- An update keeps all links on outputs that exist exactly if the node it leaves has those that
links of the node use. -/
theorem Wired.outputs_updatedTo_iff (hd : d.Wired)
    (hd' : (d.updatedTo front back before after).Wired)
    (hnodes : d.nodes = front ++ before :: back)
    (hnew : after.name = before.name ∨ after.name ∉ d.nodeNames)
    (h : Scene.OutputsExist ⟨d, c⟩) :
    Scene.OutputsExist ⟨d.updatedTo front back before after, c⟩ ↔
      ∀ l ∈ d.connections.links, l.source = before.name →
        Scene.hasOutput ⟨d, c⟩ after l.output l.slot = true := by
  rw [hd.outputsExist_iff] at h
  rw [hd'.outputsExist_iff]
  constructor
  · intro h' l hl hsource
    have hlink : ∃ l' ∈ (d.updatedTo front back before after).connections.links,
        l'.output = l.output ∧ l'.slot = l.slot ∧
          l'.source = if l.source = before.name then after.name else l.source :=
      exists_updatedTo_link hd hnew hl
    rcases hlink with ⟨l', hl', houtput, hslot, hsource'⟩
    -- Under its new name the link still uses the same output, now of the updated node.
    rw [if_pos hsource] at hsource'
    have hafter : after ∈ (d.updatedTo front back before after).nodes :=
      List.mem_append_right _ List.mem_cons_self
    rw [← houtput, ← hslot]
    exact h' l' hl' after hafter hsource'.symm
  · intro hfits l' hl' n hn hname
    rcases exists_link_of_updatedTo hd hnew hl' with ⟨l, hl, houtput, hslot, hsource⟩
    rw [houtput, hslot]
    by_cases hl_before : l.source = before.name
    · rw [if_pos hl_before] at hsource
      have hafter : after ∈ (d.updatedTo front back before after).nodes :=
        List.mem_append_right _ List.mem_cons_self
      have heq : n = after :=
        List.inj_on_of_nodup_map hd'.names hn hafter (hname.trans hsource)
      rw [heq]
      exact hfits l hl hl_before
    · -- The source of any other link is a node from before.
      rw [if_neg hl_before] at hsource
      have hold : l.source ∈ d.nodeNames := hd.sources _ (source_mem_keys hl)
      have hne : n ≠ after := by
        rintro rfl
        rcases hnew with hsame | hfree
        · exact hl_before (hsource ▸ hname ▸ hsame)
        · exact hfree (hname ▸ hsource ▸ hold)
      have hmem : n ∈ d.nodes := by
        rw [hnodes]
        exact (mem_of_mem_replaced hn).resolve_left hne
      exact h l hl n hmem (hname.trans hsource)

end Updated

theorem Step.outputsExist_iff {a : Action} (h : d.Step (some c) a d') (hd : d.Wired)
    (houtputs : Scene.OutputsExist ⟨d, c⟩) :
    Scene.OutputsExist ⟨d', c⟩ ↔ Draft.ActionFits c d a := by
  have hd' := h.wired hd
  -- An action that is no update fits, and only an update may take outputs away.
  have hother : (∀ r changes, a ≠ .updateNode r changes) → Scene.OutputsExist ⟨d', c⟩ →
      (Scene.OutputsExist ⟨d', c⟩ ↔ Draft.ActionFits c d a) := by
    intro ha h'
    exact iff_of_true h' fun r changes heq => absurd heq (ha r changes)
  cases h with
  | @removeNode r front back n hpicks =>
    refine hother nofun (hd.outputs_of_subset hd' ?_ ?_ houtputs)
    · intro m hm
      refine ⟨m, ?_, rfl, rfl, rfl⟩
      rw [hpicks.nodes]
      exact ((List.sublist_cons_self n back).append_left front).subset hm
    · intro l hl
      rw [Connections.links_removeNode hd.keys] at hl
      exact (List.mem_filter.1 hl).1
  | @updateNode r changes front back before after hpicks hupdates =>
    have hiff := hd.outputs_updatedTo_iff hd' hpicks.nodes hupdates.free.1 houtputs
    refine hiff.trans ?_
    constructor
    · intro hfits r' changes' heq before' after' hupdates'
      cases heq
      rcases hupdates.unique hupdates' with ⟨rfl, rfl⟩
      exact hfits
    · intro hfits
      exact hfits r changes rfl before after hupdates
  | @touchNode a r front back before after hpicks hname hid htype honError ha =>
    refine hother ha (hd.outputs_of_subset hd' ?_ (fun l hl => hl) houtputs)
    intro m hm
    rw [hpicks.nodes]
    rcases mem_of_mem_replaced hm with rfl | hold
    · exact ⟨before, by simp, hname.symm, htype.symm, honError.symm⟩
    · exact ⟨m, hold, rfl, rfl, rfl⟩
  | addConnection hadd => exact hother nofun (hd.outputs_linked hd' hadd houtputs)
  | removeConnection hsource =>
    refine hother nofun (hd.outputs_of_subset hd' ?_ ?_ houtputs)
    · intro m hm
      exact ⟨m, hm, rfl, rfl, rfl⟩
    · intro l hl
      exact Connections.links_removeTargets_subset hl
  | @updateConnection l d₁ source target slot existing hd₁ hadd =>
    -- First links are taken away, then one is added to what is left.
    have hwired : d₁.Wired := by
      subst hd₁
      exact hd.removeTargets hadd.from_mem _ _ _
    refine hother nofun (hwired.outputs_linked hd' hadd ?_)
    refine hd.outputs_of_subset hwired ?_ ?_ houtputs
    · subst hd₁
      intro m hm
      exact ⟨m, hm, rfl, rfl, rfl⟩
    · subst hd₁
      intro l' hl'
      exact Connections.links_removeTargets_subset hl'
  | touchRest hnodes hconnections ha =>
    refine hother ha (hd.outputs_of_subset hd' ?_ ?_ houtputs)
    · intro m hm
      exact ⟨m, hnodes ▸ hm, rfl, rfl, rfl⟩
    · intro l hl
      exact hconnections ▸ hl

end Document

/-! ## Batches -/

namespace Draft

variable {catalog : Option Catalog} {c : Catalog} {s s' : Draft} {a : Action} {as : List Action}

theorem wired_of_added {n : NewNode} {node : Node} (hadded : Added s n node)
    (hd : s.document.Wired) :
    Document.Wired { s.document with nodes := s.document.nodes ++ [node] } := by
  refine ⟨hd.toLinked.addNode node, ?_, hd.keys⟩
  exact Document.nodup_map_added (·.name) hd.names hadded.name_new

theorem outputs_of_added {n : NewNode} {node : Node} (hadded : Added s n node)
    (hd : s.document.Wired) (houtputs : Scene.OutputsExist ⟨s.document, c⟩) :
    Scene.OutputsExist ⟨{ s.document with nodes := s.document.nodes ++ [node] }, c⟩ := by
  rw [hd.outputsExist_iff] at houtputs
  rw [(wired_of_added hadded hd).outputsExist_iff]
  intro l hl m hm hname
  refine (Scene.hasOutput_congr rfl rfl _ _).trans (houtputs l hl m ?_ hname)
  rcases List.mem_append.1 hm with hold | hnew
  · exact hold
  · -- No link leads from a name that was free.
    have hsource := hd.sources _ (Document.source_mem_keys hl)
    rw [← hname, List.mem_singleton.1 hnew] at hsource
    exact absurd hsource hadded.name_new

theorem Step.wired (h : s.Step catalog a s') (hd : s.document.Wired) : s'.document.Wired := by
  cases h with
  | addNode hadded => exact wired_of_added hadded hd
  | onDocument hstep => exact hstep.wired hd

theorem Step.outputsExist_iff (h : s.Step (some c) a s') (hd : s.document.Wired)
    (houtputs : Scene.OutputsExist ⟨s.document, c⟩) :
    Scene.OutputsExist ⟨s'.document, c⟩ ↔ ActionFits c s.document a := by
  cases h with
  | addNode hadded =>
    exact iff_of_true (outputs_of_added hadded hd houtputs) fun r changes heq => by cases heq
  | onDocument hstep => exact hstep.outputsExist_iff hd houtputs

theorem Run.wired (h : Run catalog s as s') (hd : s.document.Wired) : s'.document.Wired := by
  induction h with
  | nil => exact hd
  | cons hfirst _ ih => exact ih ((step_of_carryOut hfirst).wired hd)

/-- No document on the way lacks an output that a link uses exactly if every action fits the
document that it is carried out on. -/
theorem Run.outputsExist_iff (h : Run (some c) s as s') (hd : s.document.Wired)
    (houtputs : Scene.OutputsExist ⟨s.document, c⟩) :
    (∀ front back t, as = front ++ back → Run (some c) s front t →
        Scene.OutputsExist ⟨t.document, c⟩) ↔
      ∀ front a back t, as = front ++ a :: back → Run (some c) s front t →
        ActionFits c t.document a := by
  rw [kept_iff (P := fun t => Scene.OutputsExist ⟨t.document, c⟩)
    (Q := fun t a _ => ActionFits c t.document a) houtputs]
  · constructor
    · intro hfits front a back t heq hfront
      -- The run goes on from the draft in question, as the operations lead to no other one.
      rcases Run.split (heq ▸ h) with ⟨t₁, hfront₁, hback⟩
      obtain rfl := hfront.unique hfront₁
      cases hback with
      | cons hfirst _ => exact hfits front a back _ _ heq hfront hfirst
    · intro hfits front a back t t' heq hfront _
      exact hfits front a back t heq hfront
  · intro front a back t t' _ hfront hfirst hbefore
    exact (step_of_carryOut hfirst).outputsExist_iff (hfront.wired hd) hbefore

end Draft

namespace Editor

variable {e : Editor} {v : Validator} {ids : IdSupply} {nextId : Nat} {d d' : Document}
  {batch : List Value}

/-- An accepted batch on a document with distinct names, whose report has no invalid connections.
What reports of the new document count are the links from outputs that their sources have lost, so
they count none exactly if there are no such links. And no document on the way has invalid
connections exactly if every update leaves its node the outputs that links use. -/
theorem outputs_kept_iff {profile : Profile} {r : Report} (he : e.catalog = some v.catalog)
    (hfilled : d.nodes ≠ []) (hnames : d.nodeNames.Nodup) (hkeys : d.connections.Distinct)
    (hreport : v.report profile d = .ok r) (hvalid : r.statistics.invalidConnections = 0)
    (h : e.Accepts ids nextId d batch d') :
    (∀ profile' r', v.report profile' d' = .ok r' →
        (r'.statistics.invalidConnections = 0 ↔
          ∀ l ∈ d'.connections.links, ∀ n ∈ d'.nodes, n.name = l.source →
            (v.scene d').hasOutput n l.output l.slot = true)) ∧
      ((∀ front back s, actions batch = front ++ back →
          Draft.Run e.catalog ⟨d, nextId, ids⟩ front s → v.invalidConnections s.document = 0) ↔
        ∀ front ref changes back s, actions batch = front ++ .updateNode ref changes :: back →
          Draft.Run e.catalog ⟨d, nextId, ids⟩ front s →
            Draft.Fits v.catalog s.document ref.text changes) := by
  -- The first report says that all links are sound, and with them the document is wired.
  have hcount : (v.scene d).wiring.invalid = 0 := by
    have hzero : v.invalidConnections d = 0 := by
      have hsame := Validator.invalidConnections_of_report hreport
      omega
    have hne : d.nodes.isEmpty = false := by simpa using hfilled
    simpa [Validator.invalidConnections, hne] using hzero
  rcases Scene.invalid_eq_zero_iff.1 hcount with ⟨hlinked, houtputs⟩
  have hd : d.Wired := ⟨hlinked, hnames, hkeys⟩
  rcases run_of_accepts h with ⟨s, hrun, rfl⟩
  rw [he] at hrun ⊢
  constructor
  · intro profile' r' hr'
    have hd' := hrun.wired hd
    have hsame := Validator.invalidConnections_of_report hr'
    have hzero : r'.statistics.invalidConnections = 0 ↔ v.invalidConnections s.document = 0 := by
      omega
    rw [hzero, Validator.invalidConnections_eq_zero_iff hd'.toLinked]
    exact hd'.outputsExist_iff
  · -- At any stage of the batch the count of a report is the existence of the outputs.
    have hway : ∀ front t, Draft.Run (some v.catalog) ⟨d, nextId, ids⟩ front t →
        (v.invalidConnections t.document = 0 ↔ Scene.OutputsExist ⟨t.document, v.catalog⟩) := by
      intro front t hfront
      exact Validator.invalidConnections_eq_zero_iff (hfront.wired hd).toLinked
    have hiff := hrun.outputsExist_iff hd houtputs
    constructor
    · intro hall front ref changes back t heq hfront
      refine hiff.1 ?_ front _ back t heq hfront ref changes rfl
      intro front' back' t' heq' hrun'
      exact (hway front' t' hrun').1 (hall front' back' t' heq' hrun')
    · intro hfits front back t heq hfront
      refine (hway front t hfront).2 (hiff.2 ?_ front back t heq hfront)
      intro front' a back' t' heq' hrun' ref changes ha
      exact hfits front' ref changes back' t' (ha ▸ heq') hrun'

/-- A catalog of one type, with one output. -/
def plainTypes : Validator where
  catalog := .ofTypes "1" [{ name := "n8n-nodes-base.set" }]

/-- A node that passes its failures on, by the output that it has for them. -/
def failurePath : Document where
  nodes :=
    [{ id := "1"
       name := "A"
       type := "n8n-nodes-base.set"
       onError := some "continueErrorOutput" },
      { id := "2", name := "B", type := "n8n-nodes-base.set" }]
  connections := [("A", [("main", [some [], some [⟨"B", "main", 0⟩]])])]

def changeA (key value : String) : List Value :=
  [.obj [("type", .str "updateNode"), ("nodeName", .str "A"),
    ("changes", .obj [(key, .str value)])]]

theorem report_failurePath :
    ∃ r, plainTypes.report .runtime failurePath = .ok r ∧ r.statistics.invalidConnections = 0 := by
  have hreport : ((plainTypes.report .runtime failurePath).toOption.any
      fun r => r.statistics.invalidConnections == 0) = true := by decide +kernel
  rcases Validator.exists_report hreport with ⟨r, hr, hzero⟩
  exact ⟨r, hr, by simpa using hzero⟩

theorem outputs_kept_renamed :
    ∃ d', plainTypes.editor.Accepts idText 1 failurePath (changeA "name" "C") d' ∧
      ∀ profile r, plainTypes.report profile d' = .ok r → r.statistics.invalidConnections = 0 := by
  have haccepts : ∃ d', plainTypes.editor.Accepts idText 1 failurePath (changeA "name" "C") d' ∧
      decide (∀ l ∈ d'.connections.links, ∀ n ∈ d'.nodes, n.name = l.source →
        (plainTypes.scene d').hasOutput n l.output l.slot = true) = true :=
    exists_accepts (by decide +kernel)
  rcases haccepts with ⟨d', h, houtputs⟩
  rcases report_failurePath with ⟨r, hr, hzero⟩
  have hkept := outputs_kept_iff (v := plainTypes) rfl (by simp [failurePath]) (by decide)
    (by decide) hr hzero h
  exact ⟨d', h, fun profile r' hr' => (hkept.1 profile r' hr').2 (of_decide_eq_true houtputs)⟩

/-- A link from the output for failures is left behind when the node stops on failures instead. -/
theorem output_lost_by_update :
    failurePath.WellFormed ∧
      ∃ r d' r', plainTypes.report .runtime failurePath = .ok r ∧
        r.statistics.invalidConnections = 0 ∧
        plainTypes.editor.Accepts idText 1 failurePath (changeA "onError" "stopWorkflow") d' ∧
        plainTypes.report .runtime d' = .ok r' ∧ r'.statistics.invalidConnections = 1 := by
  have haccepts : ∃ d', plainTypes.editor.Accepts idText 1 failurePath
        (changeA "onError" "stopWorkflow") d' ∧
      ((plainTypes.report .runtime d').toOption.any
        fun r' => r'.statistics.invalidConnections == 1) = true :=
    exists_accepts (by decide +kernel)
  rcases haccepts with ⟨d', h, hone⟩
  rcases report_failurePath with ⟨r, hr, hzero⟩
  rcases Validator.exists_report hone with ⟨r', hr', hone'⟩
  exact ⟨by decide, r, d', r', hr, hzero, h, hr', by simpa using hone'⟩

end Editor
end Workflows
