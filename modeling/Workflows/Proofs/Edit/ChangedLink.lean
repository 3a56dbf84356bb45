import Workflows.Proofs.Edit.Step

/-!
# ChangedLink — what a change of a link does to the links beside it

A change of a link means one link: the first one that leads to the target in the only slot that has
such links. Carrying it out takes away every link of that slot to the target and puts one link
back, which is the meant one as it has been changed. So the links of the slot that lead to other
inputs of the same target are lost, and a change keeps all other links exactly if there are none.

Main definitions:

* `Document.Means` — the link that a change means;
* `LinkChanges.applied` — a link with the changes made to it;
* `Draft.links_changed_iff` — when everything else stays.
-/

namespace Workflows

/-- The link that a change of a link means. -/
structure Document.Means (d : Document) (l : ChangedLink) (e : Link) : Prop where
  source : ∃ n, d.resolve l.source = .ok n ∧ n.name = e.source
  target : ∃ n, d.resolve l.target = .ok n ∧ n.name = e.target.node
  output : e.output = l.output
  slot : d.connections.matchingSlots e.source e.output (Connections.leadsTo e.target.node none)
    l.sourceIndex = [e.slot]
  first : (d.connections.slotTargets e.source e.output e.slot).find?
    (Connections.leadsTo e.target.node none) = some e.target

/-- A link with the changes made to it that are given. -/
def LinkChanges.applied (c : LinkChanges) (e : Link) : Link where
  source := e.source
  output := c.output.getD e.output
  slot := (c.sourceIndex.getD e.slot).toNat
  target :=
    { node := e.target.node
      input := c.input.getD e.target.input
      index := c.targetIndex.getD e.target.index }

namespace Document

variable {d : Document} {l : ChangedLink} {e e' : Link}

theorem Means.unique (h : d.Means l e) (h' : d.Means l e') : e = e' := by
  rcases h with ⟨⟨n, hn, hsource⟩, ⟨m, hm, htarget⟩, houtput, hslot, hfirst⟩
  rcases h' with ⟨⟨n', hn', hsource'⟩, ⟨m', hm', htarget'⟩, houtput', hslot', hfirst'⟩
  -- The references give both names, the names and the output the slot, and the slot its first
  -- target that leads to the node.
  have hs : e.source = e'.source := by
    rw [← hsource, ← hsource', Except.ok.inj (hn.symm.trans hn')]
  have ht : e.target.node = e'.target.node := by
    rw [← htarget, ← htarget', Except.ok.inj (hm.symm.trans hm')]
  have ho : e.output = e'.output := houtput.trans houtput'.symm
  rw [hs, ho, ht, hslot'] at hslot
  have hindex : e.slot = e'.slot := by simpa using hslot.symm
  rw [hs, ho, ht, hindex, hfirst'] at hfirst
  have htargets : e.target = e'.target := (Option.some.inj hfirst).symm
  cases e
  cases e'
  simp_all

end Document

namespace Draft

theorem filledOr_eq_getD_iff {o : Option String} {other : String} :
    filledOr o other = o.getD other ↔ (o = some "" → other = "") := by
  cases o with
  | none => simp [filledOr]
  | some s =>
    by_cases hs : s = "" <;> simp [filledOr, hs]

def putBack (l : ChangedLink) (e : Link) : Link where
  source := e.source
  output := filledOr l.changes.output e.output
  slot := (l.changes.sourceIndex.getD e.slot).toNat
  target :=
    { node := e.target.node
      input := filledOr l.changes.input e.target.input
      index := l.changes.targetIndex.getD e.target.index }

theorem putBack_eq_applied_iff {l : ChangedLink} {e : Link} :
    putBack l e = l.changes.applied e ↔
      (l.changes.output = some "" → e.output = "") ∧
        (l.changes.input = some "" → e.target.input = "") := by
  rw [← filledOr_eq_getD_iff, ← filledOr_eq_getD_iff]
  simp [putBack, LinkChanges.applied]

variable {catalog : Option Catalog} {d d' : Document} {l : ChangedLink}

/-- What a change of a link does to the links: those of the slot to the target are the meant one and
some others, and all of them give way to the one that is put back. -/
theorem links_updateConnection (h : updateConnection catalog d l = .ok d') :
    ∃ e others kept, d.Means l e ∧
      (d.connections.slotTargets e.source e.output e.slot).filter
        (Connections.leadsTo e.target.node none) = e.target :: others ∧
      d.connections.links.Perm
        (e :: others.map (Link.mk e.source e.output e.slot) ++ kept) ∧
      d'.connections.links.Perm (putBack l e :: kept) := by
  rcases updateConnection_eq_ok h with
    ⟨source, target, slot, existing, d₁, hs, ht, hslot, hfirst, rfl, hadd, rfl⟩
  let test := Connections.leadsTo target.name none
  have hnode : existing.node = target.name := by
    simpa [Connections.leadsTo] using List.find?_some hfirst
  have hmeans : d.Means l ⟨source.name, l.output, slot, existing⟩ := by
    refine ⟨⟨source, hs, rfl⟩, ⟨target, ht, hnode.symm⟩, rfl, ?_, ?_⟩
    · simpa only [hnode] using hslot
    · simpa only [hnode] using hfirst
  have hhead : ((d.connections.slotTargets source.name l.output slot).filter test).head? =
      some existing := by
    rw [List.head?_filter]
    exact hfirst
  rcases List.head?_eq_some_iff.1 hhead with ⟨others, hothers⟩
  -- What is taken away are the targets found in the slot; what is put back is one link.
  have hremoved := Connections.links_removeTargets_of_slot hslot
  have hput := Connections.links_addTarget_perm source.name
    (replacement source target l slot existing).output
    (replacement source target l slot existing).sourceIndex.toNat
    ⟨target.name, (replacement source target l slot existing).input,
      (replacement source target l slot existing).targetIndex⟩
    (d.connections.removeTargets source.name l.output test l.sourceIndex)
  refine ⟨⟨source.name, l.output, slot, existing⟩, others,
    (d.connections.removeTargets source.name l.output test l.sourceIndex).links, hmeans, ?_, ?_, ?_⟩
  · simpa only [hnode] using hothers
  · rw [hothers] at hremoved
    exact hremoved.symm.trans List.perm_append_comm
  · simpa [linked, putBack, replacement, hnode] using hput

/-- An accepted change of a link leaves all links but the meant one as they are, and makes that one
what it is to become, exactly if no other target of its slot is the same node and no text that is
given is empty. -/
theorem links_changed_iff {s s' : Draft} (h : s.carryOut catalog (.updateConnection l) = .ok s') :
    (∃ e, s.document.Means l e) ∧
      ∀ e, s.document.Means l e →
        (s'.document.connections.links.Perm
            (l.changes.applied e :: s.document.connections.links.erase e) ↔
          (s.document.connections.slotTargets e.source e.output e.slot).countP
              (Connections.leadsTo e.target.node none) = 1 ∧
            (l.changes.output = some "" → e.output = "") ∧
            (l.changes.input = some "" → e.target.input = "")) := by
  have hd : updateConnection catalog s.document l = .ok s'.document := by
    simp only [carryOut, carryOutOn] at h
    cases hd : updateConnection catalog s.document l with
    | error r => simp [hd] at h
    | ok d =>
      simp only [hd, Except.ok.injEq] at h
      rw [← h]
  rcases links_updateConnection hd with ⟨e, others, kept, hmeans, hothers, hbefore, hafter⟩
  refine ⟨⟨e, hmeans⟩, ?_⟩
  intro e' hmeans'
  obtain rfl := hmeans.unique hmeans'
  have hrest : (s.document.connections.links.erase e).Perm
      (others.map (Link.mk e.source e.output e.slot) ++ kept) := by
    have herase := hbefore.erase e
    simpa using herase
  have hcount : (s.document.connections.slotTargets e.source e.output e.slot).countP
      (Connections.leadsTo e.target.node none) = others.length + 1 := by
    rw [List.countP_eq_length_filter, hothers, List.length_cons]
  rw [hcount, ← putBack_eq_applied_iff]
  constructor
  · intro hperm
    have hall := hafter.symm.trans (hperm.trans (hrest.cons (l.changes.applied e)))
    -- Counting the links on both sides leaves no room for others in the slot.
    have hnone : others = [] := by
      have hlength := hall.length_eq
      simp only [List.length_cons, List.length_append, List.length_map] at hlength
      exact List.length_eq_zero_iff.1 (by omega)
    refine ⟨by simp [hnone], ?_⟩
    rw [hnone] at hall
    have hone : [putBack l e].Perm [l.changes.applied e] :=
      (List.perm_append_right_iff kept).1 hall
    simpa using hone
  · intro hboth
    rcases hboth with ⟨hone, hput⟩
    have hnone : others = [] := List.length_eq_zero_iff.1 (by omega)
    rw [hnone] at hrest
    rw [hput] at hafter
    exact hafter.trans (hrest.symm.cons (l.changes.applied e))

/-- Two nodes, the first of which is linked from one slot to some inputs of the second. -/
def fan (inputs : List Int) : Draft where
  document :=
    { nodes := [{ id := "1", name := "A", type := "n8n-nodes-base.set" },
        { id := "2", name := "B", type := "n8n-nodes-base.merge" }]
      connections := [("A", [("main", [some (inputs.map (Target.mk "B" "main"))])])] }

def toThird : ChangedLink :=
  ⟨"A", "B", "main", none, ⟨none, none, none, some 2⟩⟩

theorem means_fan (others : List Int) :
    (fan (0 :: others)).document.Means toThird ⟨"A", "main", 0, ⟨"B", "main", 0⟩⟩ := by
  refine ⟨⟨_, rfl, rfl⟩, ⟨_, rfl, rfl⟩, rfl, ?_, ?_⟩
  · simp [fan, toThird, Connections.matchingSlots, Connections.slots, Connections.outputs,
      Outputs.slots, Entries.get?, Slot.targets, Connections.leadsTo]
  · simp [fan, Connections.slotTargets, Connections.slots, Connections.outputs, Outputs.slots,
      Entries.get?, Slot.targets, Connections.leadsTo]

theorem single_link_changed :
    (fan [0]).carryOut none (.updateConnection toThird) = .ok (fan [2]) ∧
      (fan [2]).document.connections.links.Perm
        (toThird.changes.applied ⟨"A", "main", 0, ⟨"B", "main", 0⟩⟩ ::
          (fan [0]).document.connections.links.erase ⟨"A", "main", 0, ⟨"B", "main", 0⟩⟩) := by
  have h : (fan [0]).carryOut none (.updateConnection toThird) = .ok (fan [2]) := rfl
  refine ⟨h, ((links_changed_iff h).2 _ (means_fan [])).2 ?_⟩
  decide

/-- A second link from the slot to the same node is lost. -/
theorem parallel_link_lost :
    (fan [0, 1]).carryOut none (.updateConnection toThird) = .ok (fan [2]) ∧
      (fan [0, 1]).document.Means toThird ⟨"A", "main", 0, ⟨"B", "main", 0⟩⟩ ∧
      ¬ (fan [2]).document.connections.links.Perm
        (toThird.changes.applied ⟨"A", "main", 0, ⟨"B", "main", 0⟩⟩ ::
          (fan [0, 1]).document.connections.links.erase ⟨"A", "main", 0, ⟨"B", "main", 0⟩⟩) := by
  refine ⟨rfl, means_fan [1], ?_⟩
  decide

end Draft
end Workflows
