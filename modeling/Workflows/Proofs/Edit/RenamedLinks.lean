import Workflows.Proofs.Edit.Step

/-!
# RenamedLinks — what a new name does to the links of a node

The links of a document stand under the names of their sources, and a node that gets a new name
takes its links along. The name is new among the nodes, but the connections may have an entry under
it all the same, one that no node bears. Then two entries come under one name: the second of them is
kept, in the place of the first, and the links of the first one are lost.

Main definitions:

* `Connections.placedLinks` — the links with their places in their slots;
* `Connections.Shares` — two entries that come under one name;
* `Draft.links_renamed_iff` — when a new name changes nothing but the name.
-/

namespace Workflows

namespace Connections

/-! ## Links with their places -/

/-- The links from the outputs of a source, each with its place among the targets of its slot. -/
def placedAt (source : String) (os : Outputs) : List (Link × Nat) :=
  os.flatMap fun o => o.2.zipIdx.flatMap fun s =>
    (Slot.targets s.1).zipIdx.map fun t => (⟨source, o.1, s.2, t.1⟩, t.2)

def placedLinks (cs : Connections) : List (Link × Nat) :=
  cs.flatMap fun e => placedAt e.1 e.2

theorem map_fst_placedAt (source : String) (os : Outputs) :
    (placedAt source os).map Prod.fst = outputLinks source os := by
  simp only [placedAt, outputLinks, ← flatMap_zipIdx_eq_linksFrom, List.map_flatMap, List.map_map]
  refine List.flatMap_congr fun o _ => List.flatMap_congr ?_
  intro s _
  conv_rhs => rw [← List.zipIdx_map_fst 0 s.1.targets, List.map_map]
  rfl

/-- Without their places they are the links of the document. -/
theorem map_fst_placedLinks (cs : Connections) : cs.placedLinks.map Prod.fst = cs.links := by
  simp only [links_eq, placedLinks, List.map_flatMap, map_fst_placedAt]

theorem placedAt_eq_nil_iff {source : String} {os : Outputs} :
    placedAt source os = [] ↔ outputLinks source os = [] := by
  rw [← map_fst_placedAt, List.map_eq_nil_iff]

theorem placedLinks_eq_nil_iff {cs : Connections} : cs.placedLinks = [] ↔ cs.links = [] := by
  rw [← map_fst_placedLinks, List.map_eq_nil_iff]

theorem source_of_mem_placedAt {source : String} {os : Outputs} {p : Link × Nat}
    (h : p ∈ placedAt source os) : p.1.source = source :=
  source_of_mem_outputLinks (map_fst_placedAt source os ▸ List.mem_map_of_mem h)

def renamedInPlace (old new : String) : Link × Nat → Link × Nat :=
  Prod.map (Link.rename old new) id

theorem placedAt_rename (old new source : String) (os : Outputs) :
    placedAt (if source = old then new else source)
        (os.map fun o => (o.1, o.2.map (Slot.rename old new))) =
      (placedAt source os).map (renamedInPlace old new) := by
  simp only [placedAt, List.flatMap_map, List.map_flatMap, List.zipIdx_map, List.map_map,
    Prod.map_fst, Prod.map_snd, Slot.targets_rename]
  rfl

/-! ## Two entries under one name -/

/-- Two entries of the connections that come under one name when the old one gives way to the new
one, with what stands before, between and behind them. -/
structure Shares (old new : String) (cs front : Connections) (first : String × Outputs)
    (between : Connections) (second : String × Outputs) (back : Connections) : Prop where
  entries : cs = front ++ first :: (between ++ second :: back)
  first : first.1 = old ∨ first.1 = new
  second : second.1 = old ∨ second.1 = new

section Renaming

variable {old new : String} {cs front between back : Connections} {first second : String × Outputs}

def renamedEntry (old new : String) (e : String × Outputs) : String × Outputs :=
  (if e.1 = old then new else e.1, e.2)

theorem nodup_renamed_of_not_both (hcs : cs.Distinct)
    (h : old = new ∨ old ∉ cs.keys ∨ new ∉ cs.keys) :
    (cs.keys.map fun k => if k = old then new else k).Nodup := by
  have hkept (hsame : ∀ k ∈ cs.keys, (if k = old then new else k) = k) :
      (cs.keys.map fun k => if k = old then new else k).Nodup := by
    rw [(List.map_congr_left hsame).trans (List.map_id' _)]
    exact hcs
  rcases h with heq | hold | hnew
  · refine hkept ?_
    intro k _
    by_cases hk : k = old
    · rw [if_pos hk, hk, heq]
    · rw [if_neg hk]
  · exact hkept fun k hk => if_neg fun (heq : k = old) => hold (heq ▸ hk)
  · exact hcs.nodup_renamed hnew

/-- Two entries come under one name if both names are there. -/
theorem exists_shares (hold : old ∈ cs.keys) (hnew : new ∈ cs.keys) (hne : old ≠ new) :
    ∃ front first between second back, cs.Shares old new front first between second back := by
  rcases List.mem_map.1 hold with ⟨e, he, rfl⟩
  rcases List.mem_map.1 hnew with ⟨e', he', rfl⟩
  rcases List.append_of_mem he with ⟨front, rest, rfl⟩
  -- The other entry stands before this one or behind it.
  rcases List.mem_append.1 he' with hfront | hrest
  · rcases List.append_of_mem hfront with ⟨front', between, rfl⟩
    exact ⟨front', e', between, e, rest, by simp, Or.inr rfl, Or.inl rfl⟩
  · rcases List.mem_cons.1 hrest with rfl | hrest
    · exact absurd rfl hne
    · rcases List.append_of_mem hrest with ⟨between, back, rfl⟩
      exact ⟨front, e, between, e', back, rfl, Or.inl rfl, Or.inr rfl⟩

namespace Shares

variable (h : cs.Shares old new front first between second back) (hcs : cs.Distinct)

include h hcs

theorem keys_nodup :
    second.1 ∉ (front ++ first :: (between ++ back)).keys ∧
      Entries.Distinct (front ++ first :: (between ++ back)) := by
  have hkeys : (second.1 :: (front ++ first :: (between ++ back)).keys).Nodup := by
    have hall := hcs
    rw [h.entries] at hall
    unfold Entries.Distinct Entries.keys at hall
    have hsplit : front ++ first :: (between ++ second :: back) =
        (front ++ first :: between) ++ second :: back := by simp
    rw [hsplit, List.map_append, List.map_cons, List.nodup_middle] at hall
    simpa [Entries.keys] using hall
  exact List.nodup_cons.1 hkeys

/-- The names under which the entries come beside the second one are all different. -/
theorem nodup_others :
    ((front ++ first :: (between ++ back)).keys.map fun k => if k = old then new else k).Nodup := by
  rcases h.keys_nodup hcs with ⟨hsecond, hothers⟩
  refine nodup_renamed_of_not_both hothers ?_
  rcases h.second with heq | heq
  · exact Or.inr (Or.inl (heq ▸ hsecond))
  · exact Or.inr (Or.inr (heq ▸ hsecond))

/-- The second entry takes the place of the first. -/
theorem renameSource_eq :
    renameSource old new cs = (front ++ second :: (between ++ back)).map (renamedEntry old new) := by
  have hfirst : (if first.1 = old then new else first.1) = new := by
    rcases h.first with heq | heq <;> simp [heq]
  have hsecond : (if second.1 = old then new else second.1) = new := by
    rcases h.second with heq | heq <;> simp [heq]
  have hothers := h.nodup_others hcs
  simp only [Entries.keys, List.map_append, List.map_cons, hfirst, List.map_map] at hothers
  -- Up to the second entry all sources come under names of their own.
  have hbefore : renameSource old new (front ++ first :: between) =
      front.map (renamedEntry old new) ++ (new, first.2) :: between.map (renamedEntry old new) := by
    rw [renameSource_eq_map]
    · simp only [List.map_append, List.map_cons, hfirst]
      rfl
    · refine List.Nodup.sublist ?_ hothers
      simp [Entries.keys, hfirst]
  have hnew : new ∉ Entries.keys (front.map (renamedEntry old new)) := by
    intro hmem
    refine (List.nodup_append.1 hothers).2.2 new ?_ new List.mem_cons_self rfl
    simpa [Entries.keys, renamedEntry] using hmem
  calc
    renameSource old new cs =
        back.foldl (fun acc e => Entries.put (if e.1 = old then new else e.1) e.2 acc)
          (Entries.put new second.2 (renameSource old new (front ++ first :: between))) := by
      rw [h.entries]
      simp [renameSource, hsecond]
    _ = back.foldl (fun acc e => Entries.put (if e.1 = old then new else e.1) e.2 acc)
          (front.map (renamedEntry old new) ++ (new, second.2) ::
            between.map (renamedEntry old new)) := by
      rw [hbefore, Entries.put_append_cons second.2 hnew]
    _ = (front ++ second :: (between ++ back)).map (renamedEntry old new) := by
      rw [foldl_put_renamed]
      · simp only [List.map_append, List.map_cons, List.append_assoc, List.cons_append,
          renamedEntry, hsecond]
        rfl
      · simpa [Entries.keys, renamedEntry, Function.comp_def] using hothers

/-- No entry between the two bears one of their names. -/
theorem source_of_mem_between {e : String × Outputs} (he : e ∈ between) :
    e.1 ≠ old ∧ e.1 ≠ new := by
  have hkeys := hcs
  rw [h.entries] at hkeys
  unfold Entries.Distinct Entries.keys at hkeys
  rw [List.map_append, List.map_cons, List.map_append, List.map_cons] at hkeys
  have hrest := (List.nodup_append.1 hkeys).2.1
  rcases List.nodup_cons.1 hrest with ⟨hfirst, hbehind⟩
  have hkey : e.1 ∈ between.map Prod.fst := List.mem_map_of_mem he
  have hne₁ : e.1 ≠ first.1 := fun heq => hfirst (List.mem_append_left _ (heq ▸ hkey))
  have hne₂ : e.1 ≠ second.1 :=
    fun heq => (List.nodup_append.1 hbehind).2.2 _ hkey _ List.mem_cons_self heq
  have hne : first.1 ≠ second.1 :=
    fun heq => hfirst (List.mem_append_right _ (heq ▸ List.mem_cons_self))
  rcases h.first with h₁ | h₁ <;> rcases h.second with h₂ | h₂
  · exact absurd (h₁.trans h₂.symm) hne
  · exact ⟨h₁ ▸ hne₁, h₂ ▸ hne₂⟩
  · exact ⟨h₂ ▸ hne₂, h₁ ▸ hne₁⟩
  · exact absurd (h₁.trans h₂.symm) hne

end Shares

/-! ## The links under the new name -/

theorem placedLinks_renameNode {es : Connections}
    (h : renameSource old new cs = es.map (renamedEntry old new)) :
    (cs.renameNode old new).placedLinks = es.placedLinks.map (renamedInPlace old new) := by
  simp only [placedLinks, renameNode, h, List.flatMap_map, List.map_flatMap]
  exact List.flatMap_congr fun e _ => placedAt_rename old new e.1 e.2

/-- A part that is left out and a part that is moved to the front, over items without its mark,
leave a list as it is only if there is nothing to be left out or moved. -/
theorem append_moved_eq_iff {α : Type} {mark : α → Prop} {front first between second back : List α}
    (hsecond : ∀ x ∈ second, mark x) (hbetween : ∀ x ∈ between, ¬ mark x) :
    front ++ (second ++ (between ++ back)) =
        front ++ (first ++ (between ++ (second ++ back))) ↔
      first = [] ∧ (between = [] ∨ second = []) := by
  rw [List.append_cancel_left_eq]
  constructor
  · intro heq
    have hlength := congrArg List.length heq
    simp only [List.length_append] at hlength
    have hnone : first = [] := List.length_eq_zero_iff.1 (by omega)
    refine ⟨hnone, ?_⟩
    subst hnone
    -- Where neither is empty, the two sides begin with items of different kinds.
    cases between with
    | nil => exact Or.inl rfl
    | cons x between =>
      cases second with
      | nil => exact Or.inr rfl
      | cons y second =>
        have hxy : y = x := (List.cons.inj heq).1
        exact absurd (hsecond y List.mem_cons_self) (hxy ▸ hbetween x List.mem_cons_self)
  · rintro ⟨rfl, rfl | rfl⟩ <;> simp

/-- Where two entries come under one name, all links are kept if the first entry has none and the
second does not overtake any. -/
theorem Shares.placedLinks_kept_iff
    (h : cs.Shares old new front first between second back) (hcs : cs.Distinct) :
    (cs.renameNode old new).placedLinks = cs.placedLinks.map (renamedInPlace old new) ↔
      outputLinks first.1 first.2 = [] ∧
        (between.links = [] ∨ outputLinks second.1 second.2 = []) := by
  let moved := renamedInPlace old new
  have hsecond : ∀ p ∈ (placedAt second.1 second.2).map moved, p.1.source = new := by
    intro p hp
    rcases List.mem_map.1 hp with ⟨q, hq, rfl⟩
    have hsource := source_of_mem_placedAt hq
    rcases h.second with heq | heq <;>
      simp [moved, renamedInPlace, Link.rename, hsource, heq]
  have hbetween : ∀ p ∈ between.placedLinks.map moved, p.1.source ≠ new := by
    intro p hp
    rcases List.mem_map.1 hp with ⟨q, hq, rfl⟩
    rcases List.mem_flatMap.1 hq with ⟨e, he, hqe⟩
    have hsource := source_of_mem_placedAt hqe
    rcases h.source_of_mem_between hcs he with ⟨hold, hnew⟩
    simpa [moved, renamedInPlace, Link.rename, hsource, hold] using hnew
  -- The renaming puts the second entry in the place of the first, whose links are lost. The order
  -- is kept exactly if nothing is lost, and if the second entry passes no links, or has none.
  have hall : cs.placedLinks.map moved = front.placedLinks.map moved ++
      ((placedAt first.1 first.2).map moved ++ (between.placedLinks.map moved ++
        ((placedAt second.1 second.2).map moved ++ back.placedLinks.map moved))) := by
    rw [h.entries]
    simp [placedLinks]
  have hkept : (cs.renameNode old new).placedLinks = front.placedLinks.map moved ++
      ((placedAt second.1 second.2).map moved ++
        (between.placedLinks.map moved ++ back.placedLinks.map moved)) := by
    rw [placedLinks_renameNode (h.renameSource_eq hcs)]
    simp [placedLinks, moved]
  rw [hkept, hall, append_moved_eq_iff hsecond hbetween]
  simp only [List.map_eq_nil_iff, placedAt_eq_nil_iff, placedLinks_eq_nil_iff]

/-- A new name changes nothing but the name exactly when no two entries with links get in each
other's way. -/
theorem placedLinks_renamed_iff (hcs : cs.Distinct) :
    (cs.renameNode old new).placedLinks = cs.placedLinks.map (renamedInPlace old new) ↔
      ∀ front first between second back, cs.Shares old new front first between second back →
        outputLinks first.1 first.2 = [] ∧
          (between.links = [] ∨ outputLinks second.1 second.2 = []) := by
  constructor
  · intro heq front first between second back h
    exact (h.placedLinks_kept_iff hcs).1 heq
  · intro hall
    by_cases hone : old = new ∨ old ∉ cs.keys ∨ new ∉ cs.keys
    · exact placedLinks_renameNode (renameSource_eq_map (nodup_renamed_of_not_both hcs hone))
    · simp only [not_or, not_not] at hone
      rcases exists_shares hone.2.1 hone.2.2 hone.1 with ⟨front, first, between, second, back, h⟩
      exact (h.placedLinks_kept_iff hcs).2 (hall front first between second back h)

theorem placedLinks_renameNode_self (hcs : cs.Distinct) :
    (cs.renameNode old old).placedLinks = cs.placedLinks := by
  have hnodup : (cs.keys.map fun k => if k = old then old else k).Nodup :=
    nodup_renamed_of_not_both hcs (Or.inl rfl)
  have hsame : renamedInPlace old old = id := by
    have hlink : Link.rename old old = id := funext (Link.rename_self old)
    rw [renamedInPlace, hlink, Prod.map_id]
  rw [placedLinks_renameNode (renameSource_eq_map hnodup), hsame, List.map_id]

end Renaming

end Connections

/-! ## Updates -/

namespace Draft

variable {catalog : Option Catalog} {s s' : Draft} {r : NodeRef} {changes : List (String × Value)}

theorem connections_of_updateNode (h : s.carryOut catalog (.updateNode r changes) = .ok s') :
    ∃ before after, Updates s.document r.text changes before after ∧
      s'.document.connections =
        if after.name = before.name then s.document.connections
        else s.document.connections.renameNode before.name after.name := by
  simp only [carryOut, carryOutOn] at h
  cases hd : updateNode s.document r.text changes with
  | error f => simp [hd] at h
  | ok d =>
    simp only [hd, Except.ok.injEq] at h
    rcases updateNode_eq_ok.1 hd with ⟨before, after, hupdates, rfl⟩
    exact ⟨before, after, hupdates, h ▸ rfl⟩

/-- An accepted update changes nothing about the links but the name of the node, their order and
places included, exactly if no two entries of the connections come under the new name, or else the
first of them has no links and the second does not come before those of others. -/
theorem links_renamed_iff (hkeys : s.document.connections.Distinct)
    (h : s.carryOut catalog (.updateNode r changes) = .ok s') :
    (∃ before after, Updates s.document r.text changes before after) ∧
      ∀ before after, Updates s.document r.text changes before after →
        (s'.document.connections.placedLinks =
            s.document.connections.placedLinks.map
              (Connections.renamedInPlace before.name after.name) ↔
          ∀ front first between second back,
            s.document.connections.Shares before.name after.name front first between second back →
              Connections.outputLinks first.1 first.2 = [] ∧
                (between.links = [] ∨ Connections.outputLinks second.1 second.2 = [])) := by
  rcases connections_of_updateNode h with ⟨before, after, hupdates, hconnections⟩
  refine ⟨⟨before, after, hupdates⟩, ?_⟩
  intro before' after' hupdates'
  obtain ⟨rfl, rfl⟩ := hupdates.unique hupdates'
  rw [hconnections, ← Connections.placedLinks_renamed_iff hkeys]
  by_cases hname : after.name = before.name
  · -- A name that stays takes its own place.
    rw [if_pos hname, hname, Connections.placedLinks_renameNode_self hkeys]
  · rw [if_neg hname]

/-- Two nodes, the first of which is linked to the second, and outputs under a name that no node
bears. -/
def stray (left : Outputs) : Draft where
  document :=
    { nodes := [{ id := "1", name := "A", type := "n8n-nodes-base.set" },
        { id := "2", name := "C", type := "n8n-nodes-base.merge" }]
      connections := [("B", left), ("A", [("main", [some [⟨"C", "main", 0⟩]])])] }

/-- The first node is to bear that name. -/
def renameToB : Action :=
  .updateNode ⟨none, some "A", Or.inr rfl⟩ [("name", .str "B")]

def renamedStray (left : Outputs) : Draft where
  document :=
    { nodes := [{ id := "1", name := "B", type := "n8n-nodes-base.set" },
        { id := "2", name := "C", type := "n8n-nodes-base.merge" }]
      connections := (stray left).document.connections.renameNode "A" "B" }

theorem updates_stray (left : Outputs) :
    Updates (stray left).document "A" [("name", .str "B")]
      { id := "1", name := "A", type := "n8n-nodes-base.set" }
      { id := "1", name := "B", type := "n8n-nodes-base.set" } :=
  ⟨rfl, _, _, _, rfl, rfl⟩

theorem links_kept_beside_empty_outputs :
    (stray [("ai_tool", [none])]).document.connections.Distinct ∧
      (stray [("ai_tool", [none])]).carryOut none renameToB =
        .ok (renamedStray [("ai_tool", [none])]) ∧
      (renamedStray [("ai_tool", [none])]).document.connections.placedLinks =
        (stray [("ai_tool", [none])]).document.connections.placedLinks.map
          (Connections.renamedInPlace "A" "B") := by
  have hkeys : (stray [("ai_tool", [none])]).document.connections.Distinct := by decide
  have h : (stray [("ai_tool", [none])]).carryOut none renameToB =
      .ok (renamedStray [("ai_tool", [none])]) := rfl
  refine ⟨hkeys, h, ((links_renamed_iff hkeys h).2 _ _ (updates_stray _)).2 ?_⟩
  intro front first between second back hshares
  have hentries := hshares.entries
  -- There are two entries only, the first of them without links.
  have hlength := congrArg List.length hentries
  simp only [stray, List.length_append, List.length_cons, List.length_nil] at hlength
  obtain rfl : front = [] := List.length_eq_zero_iff.1 (by omega)
  obtain rfl : between = [] := List.length_eq_zero_iff.1 (by omega)
  simp only [stray, List.nil_append, List.cons.injEq] at hentries
  exact ⟨hentries.1 ▸ rfl, Or.inl rfl⟩

/-- The links under the name that no node bears make way for those of the renamed node. -/
theorem links_lost_to_renamed_node :
    (stray [("ai_tool", [some [⟨"C", "ai_tool", 0⟩]])]).document.connections.Distinct ∧
      (stray [("ai_tool", [some [⟨"C", "ai_tool", 0⟩]])]).carryOut none renameToB =
        .ok (renamedStray [("ai_tool", [some [⟨"C", "ai_tool", 0⟩]])]) ∧
      (renamedStray [("ai_tool", [some [⟨"C", "ai_tool", 0⟩]])]).document.connections.placedLinks ≠
        (stray [("ai_tool", [some [⟨"C", "ai_tool", 0⟩]])]).document.connections.placedLinks.map
          (Connections.renamedInPlace "A" "B") :=
  ⟨by decide, rfl, by decide⟩

end Draft
end Workflows
