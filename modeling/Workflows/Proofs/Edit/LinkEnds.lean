import Workflows.Proofs.Edit.AddedLink
import Workflows.Proofs.Edit.ChangedLink
import Workflows.Proofs.Edit.Removal

/-!
# LinkEnds — the ends of a changed link are looked up twice

A change of a link finds its two nodes by the references that it gives, which may be ids or names.
The link that is put back is then added like any other, between the names of these nodes, and the
names are looked up once more. A name may mean no single node where the reference did: another node
may have it as its id, or as its name too. So a change that is in order in all other respects is
accepted exactly if both names are references of their own.

Main definitions:

* `Draft.Admissible` — everything that is asked of a changed link but its ends;
* `Draft.changed_accepted_iff` — when a change that fits is accepted.
-/

namespace Workflows
namespace Document

variable {d : Document} {l : ChangedLink} {source target : Node} {slot : Nat}

/-- Where one slot links the nodes that are referred to, a link is meant. -/
theorem exists_means (hs : d.resolve l.source = .ok source) (ht : d.resolve l.target = .ok target)
    (hslot : d.connections.matchingSlots source.name l.output
      (Connections.leadsTo target.name none) l.sourceIndex = [slot]) :
    ∃ existing, (d.connections.slotTargets source.name l.output slot).find?
        (Connections.leadsTo target.name none) = some existing ∧
      d.Means l ⟨source.name, l.output, slot, existing⟩ := by
  have hmem : slot ∈ d.connections.matchingSlots source.name l.output
      (Connections.leadsTo target.name none) l.sourceIndex := by
    rw [hslot]
    exact List.mem_singleton_self slot
  rcases Connections.mem_matchingSlots_iff.1 hmem with ⟨-, t, ht', htest⟩
  cases hfirst : (d.connections.slotTargets source.name l.output slot).find?
      (Connections.leadsTo target.name none) with
  | none => exact absurd htest (List.find?_eq_none.1 hfirst t ht')
  | some existing =>
    have hnode : existing.node = target.name := by
      simpa [Connections.leadsTo] using List.find?_some hfirst
    refine ⟨existing, rfl, ⟨source, hs, rfl⟩, ⟨target, ht, hnode.symm⟩, rfl, ?_, ?_⟩
    · simpa only [hnode] using hslot
    · simpa only [hnode] using hfirst

end Document

namespace Draft

variable {catalog : Option Catalog} {d d' : Document} {l : ChangedLink} {e : Link}
  {source target : Node} {slot : Nat} {existing : Target}

/-- The link that a change puts back is in range, from an output that its source has, and there is
no such link yet, unless it is one of those that give way to it. -/
structure Admissible (catalog : Option Catalog) (d : Document) (l : ChangedLink) (e : Link) :
    Prop where
  slot : 0 ≤ l.changes.sourceIndex.getD e.slot
  index : 0 ≤ (putBack l e).target.index
  output : ∀ c, catalog = some c → ∀ n, d.resolve l.source = .ok n →
    Scene.hasOutput ⟨d, c⟩ n (putBack l e).output (putBack l e).slot = true
  new : putBack l e ∈ d.connections.links →
    (putBack l e).output = e.output ∧ (putBack l e).slot = e.slot

/-- The document without the links that give way to a changed one. -/
def cleared (d : Document) (source target : Node) (l : ChangedLink) : Document :=
  { d with
    connections :=
      d.connections.removeTargets source.name l.output (Connections.leadsTo target.name none)
        l.sourceIndex }

/-- The change of a link adds the new one where the old ones have been. -/
theorem updateConnection_of_means (hs : d.resolve l.source = .ok source)
    (ht : d.resolve l.target = .ok target)
    (hslot : d.connections.matchingSlots source.name l.output
      (Connections.leadsTo target.name none) l.sourceIndex = [slot])
    (hfirst : (d.connections.slotTargets source.name l.output slot).find?
      (Connections.leadsTo target.name none) = some existing) :
    updateConnection catalog d l =
      addConnection catalog (cleared d source target l)
        (replacement source target l slot existing) := by
  have hends : endpoints d l.source l.target = .ok (source, target) := endpoints_eq_ok.2 ⟨hs, ht⟩
  simp only [updateConnection, hends, hslot, hfirst]
  rfl

/-- A link that fits is not among the targets of its slot once the old ones are gone. -/
theorem Admissible.not_mem_slotTargets
    (h : Admissible catalog d l ⟨source.name, l.output, slot, existing⟩)
    (hkeys : d.connections.Keyed) (hnode : existing.node = target.name)
    (hindex : l.sourceIndex.all (· == (slot : Int)) = true) :
    (putBack l ⟨source.name, l.output, slot, existing⟩).target ∉
      (cleared d source target l).connections.slotTargets source.name
        (putBack l ⟨source.name, l.output, slot, existing⟩).output
        (putBack l ⟨source.name, l.output, slot, existing⟩).slot := by
  intro hmem
  let new := putBack l ⟨source.name, l.output, slot, existing⟩
  have hleads : Connections.leadsTo target.name none new.target = true := by
    simp [new, putBack, Connections.leadsTo, hnode]
  -- A target of a slot is a link, so this one would have been left by the removal.
  have hleft : new ∈ (cleared d source target l).connections.links :=
    Connections.mem_links_of_mem_slotTargets hmem
  rw [cleared, Connections.links_removeTargets hkeys] at hleft
  rcases List.mem_filter.1 hleft with ⟨hold, hkept⟩
  rcases h.new hold with ⟨houtput, hslot⟩
  have hsource : new.source = source.name := rfl
  have hselected : Connections.selects (Connections.leadsTo target.name none) l.sourceIndex new =
      true := by
    have hsame : new.slot = slot := hslot
    simp only [Connections.selects, hsame, hindex, hleads, Bool.and_self]
  have hsame : new.output = l.output := houtput
  simp [hsource, hsame, hselected] at hkept

/-- A link that fits can be added once the old ones are gone. -/
theorem Admissible.addable (h : Admissible catalog d l ⟨source.name, l.output, slot, existing⟩)
    (hkeys : d.connections.Keyed) (hs : d.resolve l.source = .ok source)
    (ht : d.resolve l.target = .ok target) (hnode : existing.node = target.name)
    (hindex : l.sourceIndex.all (· == (slot : Int)) = true) :
    Addable catalog (cleared d source target l) (replacement source target l slot existing) source
      target := by
  have hbare : Addable none (cleared d source target l)
      (replacement source target l slot existing) source target := by
    refine ⟨Document.mem_of_resolve hs, Document.mem_of_resolve ht, h.slot, h.index, rfl, ?_⟩
    simpa [putBack, replacement, hnode] using h.not_mem_slotTargets hkeys hnode hindex
  cases hc : catalog with
  | none => exact hbare
  | some c => exact addable_some_iff.2 ⟨hbare, h.output c hc source hs⟩

theorem exists_carryOut_iff {s : Draft} :
    (∃ s', s.carryOut catalog (.updateConnection l) = .ok s') ↔
      ∃ d', updateConnection catalog s.document l = .ok d' := by
  have hne : ∀ n, Action.updateConnection l ≠ .addNode n := fun _ => nofun
  constructor
  · intro h
    rcases h with ⟨s', hs'⟩
    rcases (carryOut_eq_ok_iff hne).1 hs' with ⟨d', hd', -⟩
    exact ⟨d', hd'⟩
  · intro h
    rcases h with ⟨d', hd'⟩
    exact ⟨_, (carryOut_eq_ok_iff hne).2 ⟨d', hd', rfl⟩⟩

/-- A change of a link between two nodes that are found, which is in order in all other respects,
is accepted exactly if the names of both nodes are found as well. -/
theorem changed_accepted_iff {s : Draft} (hkeys : s.document.connections.Keyed)
    (hs : s.document.resolve l.source = .ok source)
    (ht : s.document.resolve l.target = .ok target)
    (hslot : s.document.connections.matchingSlots source.name l.output
      (Connections.leadsTo target.name none) l.sourceIndex = [slot]) :
    ∃ e, s.document.Means l e ∧
      (Admissible catalog s.document l e →
        ((∃ s', s.carryOut catalog (.updateConnection l) = .ok s') ↔
          s.document.resolve source.name = .ok source ∧
            s.document.resolve target.name = .ok target)) := by
  rcases Document.exists_means hs ht hslot with ⟨existing, hfirst, hmeans⟩
  refine ⟨_, hmeans, ?_⟩
  intro h
  have hnode : existing.node = target.name := by
    simpa [Connections.leadsTo] using List.find?_some hfirst
  have hindex : l.sourceIndex.all (· == (slot : Int)) = true := by
    have hmem := List.mem_singleton_self slot
    rw [← hslot] at hmem
    exact (Connections.mem_matchingSlots_iff.1 hmem).1
  have hadd := h.addable hkeys hs ht hnode hindex
  -- The removal leaves the nodes, so that the names mean the same before and after it.
  rw [exists_carryOut_iff, updateConnection_of_means hs ht hslot hfirst]
  constructor
  · intro hexists
    rcases hexists with ⟨d', hd'⟩
    rcases addConnection_eq_ok_iff.1 hd' with ⟨source', target', hs', ht', -⟩
    have hsource : source' = source :=
      Document.eq_of_resolve_name (Document.mem_of_resolve hs) hs'
    have htarget : target' = target :=
      Document.eq_of_resolve_name (Document.mem_of_resolve ht) ht'
    exact ⟨hsource ▸ hs', htarget ▸ ht'⟩
  · intro hboth
    rcases hboth with ⟨hs', ht'⟩
    exact ⟨_, addConnection_eq_ok_iff.2 ⟨source, target, hs', ht', hadd, rfl⟩⟩

def sender : Node := { id := "1", name := "A", type := "n8n-nodes-base.set" }

def receiver (id : String) : Node := { id := id, name := "B", type := "n8n-nodes-base.merge" }

def pairWith (id : String) (index : Int) : Draft where
  document :=
    { nodes := [sender, receiver id]
      connections := [("A", [("main", [some [⟨"B", "main", index⟩]])])] }

/-- The link from the first node, given by its id, is to lead to the second input. -/
def toSecond : ChangedLink :=
  ⟨"1", "B", "main", none, ⟨none, none, none, some 1⟩⟩

def toFirst : Link := ⟨"A", "main", 0, ⟨"B", "main", 0⟩⟩

theorem keyed_pairWith (id : String) (index : Int) :
    (pairWith id index).document.connections.Keyed where
  keys := List.nodup_singleton "A"
  outputs e he := by
    rw [List.mem_singleton.1 he]
    exact List.nodup_singleton "main"

theorem matchingSlots_pairWith (id : String) (index : Int) :
    (pairWith id index).document.connections.matchingSlots "A" "main"
      (Connections.leadsTo "B" none) none = [0] := by
  simp [pairWith, Connections.matchingSlots, Connections.slots, Connections.outputs,
    Outputs.slots, Entries.get?, Slot.targets, Connections.leadsTo]

/-- There is no link to the second input yet. -/
theorem admissible_pairWith (id : String) :
    Admissible none (pairWith id 0).document toSecond toFirst where
  slot := by decide
  index := by decide
  output := nofun
  new := by
    change putBack toSecond toFirst ∈ [toFirst] → _
    decide

theorem means_pairWith {id : String}
    (h : (pairWith id 0).document.resolve "1" = .ok sender)
    (h' : (pairWith id 0).document.resolve "B" = .ok (receiver id)) :
    (pairWith id 0).document.Means toSecond toFirst where
  source := ⟨sender, h, rfl⟩
  target := ⟨receiver id, h', rfl⟩
  output := rfl
  slot := matchingSlots_pairWith id 0
  first := by
    simp [pairWith, toFirst, Connections.slotTargets, Connections.slots, Connections.outputs,
      Outputs.slots, Entries.get?, Slot.targets, Connections.leadsTo]

theorem changed_by_id :
    ∃ s', (pairWith "2" 0).carryOut none (.updateConnection toSecond) = .ok s' := by
  have hs : (pairWith "2" 0).document.resolve toSecond.source = .ok sender := rfl
  have ht : (pairWith "2" 0).document.resolve toSecond.target = .ok (receiver "2") := rfl
  have hslot := matchingSlots_pairWith "2" 0
  rcases changed_accepted_iff (keyed_pairWith "2" 0) hs ht hslot with ⟨e, hmeans, hiff⟩
  obtain rfl := hmeans.unique (means_pairWith hs ht)
  exact (hiff (admissible_pairWith "2")).2 ⟨rfl, rfl⟩

/-- The name of the first node is the id of the second one. Both references of the change mean one
node each, but the name that is put in the place of the first one does not. -/
theorem refused_by_name :
    (pairWith "A" 0).document.connections.Keyed ∧
      (pairWith "A" 0).document.resolve "1" = .ok sender ∧
      (pairWith "A" 0).document.resolve "B" = .ok (receiver "A") ∧
      (pairWith "A" 0).document.connections.matchingSlots "A" "main"
        (Connections.leadsTo "B" none) none = [0] ∧
      (pairWith "A" 0).document.Means toSecond toFirst ∧
      Admissible none (pairWith "A" 0).document toSecond toFirst ∧
      (pairWith "A" 0).carryOut none (.updateConnection toSecond) =
        .error (.refused (.noSource (.ambiguous "A" 2))) :=
  ⟨keyed_pairWith "A" 0, rfl, rfl, matchingSlots_pairWith "A" 0, means_pairWith rfl rfl,
    admissible_pairWith "A", rfl⟩

end Draft
end Workflows
