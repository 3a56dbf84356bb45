import Workflows.Proofs.Cleared
import Workflows.Proofs.Edit.Step

/-!
# Removal — which links a removal takes away, and which it leaves where they are

The links of a document are a list, in document order, and each of them says in which slot it
stands. A removal filters this list: what is cleared away behind the last link of an output holds no
links, so no slot that is still used gets another index, and no link changes its place among the
others. Parallel links, links of a node to itself, null slots and empty ones in between make no
difference.

Main definitions:

* `Link.touches`, `RemovedLinks.covers` — the links that a removal is meant to take away;
* `Connections.links_setSlots_filter` — an output that loses some of its links;
* `Connections.links_removeTargets` — the same of a removal, as lists;
* `Draft.removal_exact` — what an accepted removal makes of a draft.
-/

namespace Workflows

/-! ## Assignment of filtered lists -/

namespace Entries

variable {α β : Type} {items : String × List α → List β} {keep : β → Bool} {key : String}
  {value : List α}

theorem filter_flatMap_of_keep {es : Entries (List α)}
    (h : ∀ e ∈ es, ∀ b ∈ items e, keep b = true) :
    (es.flatMap items).filter keep = es.flatMap items := by
  refine List.filter_eq_self.2 ?_
  intro b hb
  rcases List.mem_flatMap.1 hb with ⟨e, he, hb⟩
  exact h e he b hb

/-- Where a list is assigned whose items are those of the old one that are kept, and all other items
are kept, the items of the whole are filtered. -/
theorem flatMap_putFilled_filter {es : Entries (List α)} (hes : es.Distinct)
    (hnil : items (key, []) = []) (hkey : items (key, value) = (itemsAt items key es).filter keep)
    (hothers : ∀ e ∈ es, e.1 ≠ key → ∀ b ∈ items e, keep b = true) :
    (es.putFilled key value).flatMap items = (es.flatMap items).filter keep := by
  induction es with
  | nil =>
    have hnone : items (key, value) = [] := hkey
    unfold putFilled
    split
    · rfl
    · simp [put, hnone]
  | cons e rest ih =>
    rcases e with ⟨k, v⟩
    rcases List.nodup_cons.1 hes with ⟨hnew, hrest⟩
    by_cases hk : k = key
    · subst hk
      have hitems : items (k, value) = (items (k, v)).filter keep := by
        simpa [itemsAt, get?] using hkey
      -- No later entry has the key, so nothing is lost there.
      have hlater : (rest.flatMap items).filter keep = rest.flatMap items := by
        refine filter_flatMap_of_keep fun e he => hothers e (List.mem_cons_of_mem _ he) ?_
        intro heq
        exact hnew (List.mem_map.2 ⟨e, he, heq⟩)
      rw [List.flatMap_cons, List.filter_append, ← hitems, hlater]
      unfold putFilled
      split
      · rename_i hempty
        rw [hempty, hnil, erase, if_pos rfl, List.nil_append]
      · rw [put, if_pos rfl, List.flatMap_cons]
    · have hfirst : (items (k, v)).filter keep = items (k, v) :=
        List.filter_eq_self.2 (hothers (k, v) List.mem_cons_self hk)
      have hlater : items (key, value) = (itemsAt items key rest).filter keep := by
        simpa [itemsAt, get?, hk] using hkey
      rw [putFilled_cons_of_ne v value hk, List.flatMap_cons, List.flatMap_cons,
        List.filter_append, hfirst,
        ih hrest hlater fun e he => hothers e (List.mem_cons_of_mem _ he)]

theorem mem_flatMap_of_mem_itemsAt {items : String × α → List β} {es : Entries α} {b : β}
    (h : b ∈ itemsAt items key es) : b ∈ es.flatMap items := by
  cases hv : es.get? key with
  | none => simp [itemsAt, hv] at h
  | some v => exact List.mem_flatMap.2 ⟨(key, v), mem_of_get? hv, by simpa [itemsAt, hv] using h⟩

end Entries

/-! ## Links -/

def Link.touches (name : String) (e : Link) : Bool :=
  e.source == name || e.target.node == name

/-- Whether a link is one of those between two nodes that are to be removed. -/
def RemovedLinks.covers (source target : String) (l : RemovedLinks) (e : Link) : Bool :=
  e.source == source && e.output == l.output && e.target.node == target
    && e.target.input == l.input && l.sourceIndex.all (· == (e.slot : Int))

namespace Connections

variable {cs : Connections} {source output : String}

/-- An output that is left with some of its links leaves all other links where they are. -/
theorem links_setSlots_filter (h : cs.Keyed) {new : List Slot} {keep : Link → Bool}
    (hothers : ∀ e : Link, e.source ≠ source ∨ e.output ≠ output → keep e = true)
    (hnew : linksFrom source output 0 new =
      (linksFrom source output 0 (cs.slots source output)).filter keep) :
    (cs.setSlots source output new).links = cs.links.filter keep := by
  -- Inside the source, only the output loses links.
  have hinner : outputLinks source ((cs.outputs source).putFilled output (trim new)) =
      (outputLinks source (cs.outputs source)).filter keep := by
    refine Entries.flatMap_putFilled_filter (h.outputs_distinct source) rfl ?_ ?_
    · rw [linksFrom_trim, hnew, slots, linksFrom_slots]
    · intro o _ ho e he
      exact hothers e (Or.inr fun heq => ho (((mem_linksFrom_iff _ _).1 he).2.1.symm.trans heq))
  rw [setSlots_eq_putFilled, links_eq, links_eq]
  refine Entries.flatMap_putFilled_filter h.keys rfl ?_ ?_
  · rw [← outputLinks_outputs]
    exact hinner
  · intro s _ hs e he
    exact hothers e (Or.inl fun heq => hs ((source_of_mem_outputLinks he).symm.trans heq))

theorem links_removeTargets (h : cs.Keyed) (test : Target → Bool) (index : Option Int) :
    (cs.removeTargets source output test index).links =
      cs.links.filter fun e => !(e.source == source && e.output == output
        && selects test index e) := by
  refine links_setSlots_filter h ?_ ?_
  · intro e hcases
    rcases hcases with hs | ho
    · simp [hs]
    · simp [ho]
  · rw [linksFrom_removeTargets]
    refine List.filter_congr ?_
    intro e he
    rcases (mem_linksFrom_iff source output).1 he with ⟨hs, ho, -⟩
    simp [hs, ho]

/-- The targets of a slot are ends of links. -/
theorem mem_links_of_mem_slotTargets {slot : Nat} {t : Target}
    (h : t ∈ cs.slotTargets source output slot) :
    (⟨source, output, slot, t⟩ : Link) ∈ cs.links := by
  have hslot : (⟨source, output, slot, t⟩ : Link) ∈
      linksFrom source output 0 ((cs.outputs source).slots output) :=
    (mem_linksFrom_iff source output).2 ⟨rfl, rfl, slot, by simp, h⟩
  rw [linksFrom_slots] at hslot
  have hsource : (⟨source, output, slot, t⟩ : Link) ∈ outputLinks source (cs.outputs source) :=
    Entries.mem_flatMap_of_mem_itemsAt hslot
  rw [outputLinks_outputs] at hsource
  rw [links_eq]
  exact Entries.mem_flatMap_of_mem_itemsAt hsource

/-- A slot that matches has a link that is selected. -/
theorem exists_link_of_mem_matchingSlots {test : Target → Bool} {index : Option Int} {j : Nat}
    (hj : j ∈ cs.matchingSlots source output test index) :
    ∃ t, ⟨source, output, j, t⟩ ∈ cs.links ∧ selects test index ⟨source, output, j, t⟩ = true := by
  rcases mem_matchingSlots_iff.1 hj with ⟨hindex, t, ht, htest⟩
  exact ⟨t, mem_links_of_mem_slotTargets ht, by simp [selects, hindex, htest]⟩

end Connections

/-- The links to be removed are selected links of one output. -/
theorem RemovedLinks.covers_eq (source target : String) (l : RemovedLinks) (e : Link) :
    l.covers source target e = (e.source == source && e.output == l.output
      && Connections.selects (Connections.leadsTo target (some l.input)) l.sourceIndex e) := by
  rw [Bool.eq_iff_iff]
  simp only [covers, Connections.selects, Connections.leadsTo, Option.all_some, Bool.and_eq_true,
    beq_iff_eq]
  constructor
  · intro h
    rcases h with ⟨⟨⟨⟨hs, ho⟩, ht⟩, hinput⟩, hindex⟩
    exact ⟨⟨hs, ho⟩, hindex, ht, hinput.symm⟩
  · intro h
    rcases h with ⟨⟨hs, ho⟩, hindex, ht, hinput⟩
    exact ⟨⟨⟨⟨hs, ho⟩, ht⟩, hinput.symm⟩, hindex⟩

/-! ## Accepted removals -/

namespace Draft

variable {catalog : Option Catalog} {s s' : Draft}

theorem removal_of_removeNode (h : s.document.connections.Keyed) {r : NodeRef}
    (hs' : s.carryOut catalog (.removeNode r) = .ok s') :
    ∃ front n back, s.document.Picks r.text front n back ∧
      s' = { s with
        document :=
          { s.document with nodes := front ++ back, connections := s'.document.connections } } ∧
      s'.document.connections.links =
        s.document.connections.links.filter fun e => !e.touches n.name := by
  rcases (carryOut_eq_ok_iff (by simp)).1 hs' with ⟨d, hd, rfl⟩
  rcases removeNode_eq_ok hd with ⟨n, hn, rfl⟩
  rcases Document.picks_of_resolve hn with ⟨front, back, hpicks⟩
  refine ⟨front, n, back, hpicks, by simp only [hpicks.filter_others], ?_⟩
  refine (Connections.links_removeNode h.keys).trans (List.filter_congr ?_)
  intro e _
  simp only [Link.touches, Bool.not_or, bne]

theorem removal_of_removeConnection (h : s.document.connections.Keyed) {l : RemovedLinks}
    (hs' : s.carryOut catalog (.removeConnection l) = .ok s') :
    ∃ source target, s.document.resolve l.source = .ok source ∧
      s.document.resolve l.target = .ok target ∧
      s' = { s with
        document := { s.document with connections := s'.document.connections } } ∧
      s'.document.connections.links =
        s.document.connections.links.filter (fun e => !l.covers source.name target.name e) ∧
      ∃ e ∈ s.document.connections.links, l.covers source.name target.name e = true := by
  rcases (carryOut_eq_ok_iff (by simp)).1 hs' with ⟨d, hd, rfl⟩
  rcases removeConnection_eq_ok hd with ⟨source, target, hs, ht, hmatches, rfl⟩
  refine ⟨source, target, hs, ht, rfl, ?_, ?_⟩
  · simp only [Connections.links_removeTargets h, RemovedLinks.covers_eq]
  · rcases List.exists_mem_of_ne_nil _ hmatches with ⟨j, hj⟩
    rcases Connections.exists_link_of_mem_matchingSlots hj with ⟨t, he, hselected⟩
    exact ⟨_, he, by simp [RemovedLinks.covers_eq, hselected]⟩

/-- An accepted removal takes away the links that it is meant to take away, and nothing else: those
at the node that is removed, or those between two nodes on one output and one type of input, of
which there is at least one. All other links are left in their slots and in their order, and of the
draft nothing changes but them and the node that is removed. -/
theorem removal_exact (h : s.document.connections.Keyed) :
    (∀ r s', s.carryOut catalog (.removeNode r) = .ok s' →
      ∃ front n back, s.document.Picks r.text front n back ∧
        s' = { s with
          document :=
            { s.document with nodes := front ++ back, connections := s'.document.connections } } ∧
        s'.document.connections.links =
          s.document.connections.links.filter fun e => !e.touches n.name) ∧
      ∀ l s', s.carryOut catalog (.removeConnection l) = .ok s' →
        ∃ source target, s.document.resolve l.source = .ok source ∧
          s.document.resolve l.target = .ok target ∧
          s' = { s with
            document := { s.document with connections := s'.document.connections } } ∧
          s'.document.connections.links =
            s.document.connections.links.filter (fun e => !l.covers source.name target.name e) ∧
          ∃ e ∈ s.document.connections.links, l.covers source.name target.name e = true :=
  ⟨fun _ _ hs' => removal_of_removeNode h hs', fun _ _ hs' => removal_of_removeConnection h hs'⟩

/-- Three nodes with parallel links, a link of a node to itself, a null slot and an empty one, and
links on a second output. -/
def crowded : Draft where
  document :=
    { nodes := [{ id := "1", name := "A", type := "n8n-nodes-base.set" },
        { id := "2", name := "B", type := "n8n-nodes-base.merge" },
        { id := "3", name := "C", type := "n8n-nodes-base.set" }]
      connections :=
        [("A", [("main", [some [⟨"B", "main", 0⟩, ⟨"C", "main", 0⟩, ⟨"B", "main", 0⟩], none,
            some [⟨"A", "main", 0⟩], some [], some [⟨"B", "main", 1⟩, ⟨"B", "ai_tool", 0⟩]]),
          ("error", [some [⟨"B", "main", 0⟩]])]),
        ("B", [("main", [some [⟨"B", "main", 0⟩, ⟨"C", "main", 0⟩]])]),
        ("C", [("main", [none, some [⟨"B", "main", 0⟩], some [⟨"A", "main", 0⟩], none])])] }

theorem crowded_removals :
    crowded.document.connections.Keyed ∧
      (∃ s', crowded.carryOut none (.removeNode ⟨none, some "B", by decide⟩) = .ok s' ∧
        s'.document.connections.links =
          [⟨"A", "main", 0, ⟨"C", "main", 0⟩⟩, ⟨"A", "main", 2, ⟨"A", "main", 0⟩⟩,
            ⟨"C", "main", 2, ⟨"A", "main", 0⟩⟩]) ∧
      ∃ s', crowded.carryOut none (.removeConnection ⟨"A", "B", "main", "main", none⟩) = .ok s' ∧
        s'.document.connections.links =
          [⟨"A", "main", 0, ⟨"C", "main", 0⟩⟩, ⟨"A", "main", 2, ⟨"A", "main", 0⟩⟩,
            ⟨"A", "main", 4, ⟨"B", "ai_tool", 0⟩⟩, ⟨"A", "error", 0, ⟨"B", "main", 0⟩⟩,
            ⟨"B", "main", 0, ⟨"B", "main", 0⟩⟩, ⟨"B", "main", 0, ⟨"C", "main", 0⟩⟩,
            ⟨"C", "main", 1, ⟨"B", "main", 0⟩⟩, ⟨"C", "main", 2, ⟨"A", "main", 0⟩⟩] := by
  have hkeyed : crowded.document.connections.Keyed := ⟨by decide, by decide⟩
  have hexact := @removal_exact none crowded hkeyed
  refine ⟨hkeyed, ⟨_, rfl, ?_⟩, ⟨_, rfl, ?_⟩⟩
  · obtain ⟨front, n, back, hpicks, -, hlinks⟩ := hexact.1 ⟨none, some "B", by decide⟩ _ rfl
    obtain rfl := Document.eq_of_resolve hpicks.mem hpicks.answers rfl
    exact hlinks
  · obtain ⟨source, target, hs, ht, -, hlinks, -⟩ :=
      hexact.2 ⟨"A", "B", "main", "main", none⟩ _ rfl
    cases hs
    cases ht
    exact hlinks

end Draft
end Workflows
