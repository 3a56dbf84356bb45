import Workflows.Proofs.Edit.Answer
import Workflows.Proofs.Edit.Outputs
import Workflows.Proofs.Validation.Rewired

/-!
# AddedLink — editor and report agree on which links are valid

Both the editor, before it adds a link, and the report, when it counts the links, ask for the
outputs of the source. They mean the same ones: a link that is accepted is counted as valid and
brings no error about links, and a link that is turned down for its output alone is counted as
invalid where it is added all the same.

Main definitions:

* `Draft.addConnection_eq_ok_iff` — when a link is added;
* `Editor.added_link_counted` — what the next report says of it.
-/

namespace Workflows

/-! ## The editor -/

namespace Draft

variable {catalog : Option Catalog} {c : Catalog} {d d' : Document} {l : AddedLink}
  {source target : Node}

/-- A link is added exactly if both of its ends are nodes between which it may be. -/
theorem addConnection_eq_ok_iff :
    addConnection catalog d l = .ok d' ↔
      ∃ source target, d.resolve l.source = .ok source ∧ d.resolve l.target = .ok target ∧
        Addable catalog d l source target ∧ linked d l source target = d' := by
  constructor
  · exact addable_of_addConnection
  · intro h
    rcases h with ⟨source, target, hsource, htarget, hadd, rfl⟩
    have hends : endpoints d l.source l.target = .ok (source, target) :=
      endpoints_eq_ok.2 ⟨hsource, htarget⟩
    have hslot : ¬ l.sourceIndex < 0 := Int.not_lt.2 hadd.slot
    have hindex : ¬ l.targetIndex < 0 := Int.not_lt.2 hadd.index
    have hallowed : addLinkRefusal? catalog d source target l = none := by
      simp [addLinkRefusal?, hslot, hindex, hadd.output, hadd.new]
    simp only [addConnection, hends, hallowed, linked]

/-- The output of the source is the only thing about a link for which the catalog is asked. -/
theorem addable_some_iff :
    Addable (some c) d l source target ↔
      Addable none d l source target ∧
        Scene.hasOutput ⟨d, c⟩ source l.output l.sourceIndex.toNat = true := by
  constructor
  · intro h
    exact ⟨⟨h.from_mem, h.to_mem, h.slot, h.index, rfl, h.new⟩, hasOutput_of_addable h⟩
  · intro hboth
    rcases hboth with ⟨h, houtput⟩
    refine ⟨h.from_mem, h.to_mem, h.slot, h.index, ?_, h.new⟩
    simp [outputRefusal?, houtput]

def addedLink (l : AddedLink) (source target : Node) : Link :=
  ⟨source.name, l.output, l.sourceIndex.toNat, ⟨target.name, l.input, l.targetIndex⟩⟩

theorem scene_linked (v : Validator) :
    v.scene (linked d l source target) = (v.scene d).withLink (addedLink l source target) :=
  rfl

/-- A link that may be added as far as its ends are concerned, is valid if its output exists. -/
theorem isValidLink_addedLink (h : Addable none d l source target) :
    Scene.isValidLink ⟨d, c⟩ source (addedLink l source target) =
      Scene.hasOutput ⟨d, c⟩ source l.output l.sourceIndex.toNat := by
  have htarget : Scene.targetFault? ⟨d, c⟩ ⟨target.name, l.input, l.targetIndex⟩ = none :=
    Scene.targetFault?_eq_none_iff.2 ⟨Document.name_mem_nodeNames h.to_mem, h.index⟩
  simp [Scene.isValidLink, addedLink, htarget]

end Draft

/-! ## The report -/

namespace Validator

variable {v : Validator} {profile : Profile} {d : Document} {r r' : Report} {l : AddedLink}
  {source target : Node}

/-- The report counts the link as valid if it leaves an output that exists, and as invalid
otherwise; in the first case it has the same errors about links as before. -/
theorem report_linked (hnames : d.nodeNames.Nodup)
    (hadd : Draft.Addable none d l source target) (h : v.report profile d = .ok r)
    (h' : v.report profile (Draft.linked d l source target) = .ok r') :
    if (v.scene d).hasOutput source l.output l.sourceIndex.toNat then
      r'.statistics.validConnections = r.statistics.validConnections + 1 ∧
        r'.statistics.invalidConnections = r.statistics.invalidConnections ∧
        r'.errors.filter (Issue.hasCode Scene.faultCodes) =
          r.errors.filter (Issue.hasCode Scene.faultCodes)
    else r'.statistics.invalidConnections = r.statistics.invalidConnections + 1 := by
  have hnodes : d.nodes ≠ [] := List.ne_nil_of_mem hadd.from_mem
  have hnode : (v.scene d).node? (Draft.addedLink l source target).source = some source :=
    Document.node?_of_mem hnames hadd.from_mem
  -- As both ends are there, the new link is valid exactly if its output exists.
  have hvalid : (v.scene d).isValidLink source (Draft.addedLink l source target) =
      (v.scene d).hasOutput source l.output l.sourceIndex.toNat :=
    Draft.isValidLink_addedLink hadd
  have husable : (v.scene d).isUsable (Draft.addedLink l source target) =
      (v.scene d).hasOutput source l.output l.sourceIndex.toNat :=
    (Scene.isUsable_of_node? hnode).trans hvalid
  have hcounted : r'.statistics.validConnections = r.statistics.validConnections +
      if (v.scene d).hasOutput source l.output l.sourceIndex.toNat then 1 else 0 := by
    rw [validConnections_of_report (d := Draft.linked d l source target) hnodes h',
      validConnections_of_report hnodes h, Draft.scene_linked, Scene.valid_addTarget, husable]
    split <;> simp
  have hbroken : r'.statistics.invalidConnections = r.statistics.invalidConnections +
      if (v.scene d).hasOutput source l.output l.sourceIndex.toNat then 0 else 1 := by
    rw [invalidConnections_of_nodes (d := Draft.linked d l source target) hnodes h',
      invalidConnections_of_nodes hnodes h, Draft.scene_linked, Scene.invalid_addTarget hnode,
      hvalid]
    split <;> simp
  split
  · rename_i houtput
    rw [if_pos houtput] at hcounted hbroken
    refine ⟨hcounted, by simpa using hbroken, ?_⟩
    rw [faulty_errors (d := Draft.linked d l source target) hnodes h', faulty_errors hnodes h,
      Draft.scene_linked, Scene.faults_addTarget hnode (hvalid.trans houtput)]
  · rename_i houtput
    rwa [if_neg houtput] at hbroken

end Validator

/-! ## Both -/

namespace Editor

variable {e : Editor} {v : Validator} {ids : IdSupply} {nextId : Nat} {d d' : Document}
  {batch : List Value} {l : AddedLink}

theorem accepts_link_iff (hbatch : actions batch = [.addConnection l]) :
    e.Accepts ids nextId d batch d' ↔
      e.Admits batch ∧ Draft.addConnection e.catalog d l = .ok d' := by
  have hother : ∀ n, Action.addConnection l ≠ .addNode n := by
    intro n heq
    cases heq
  rw [accepts_iff, hbatch]
  refine and_congr_right ?_
  intro _
  constructor
  · intro h
    rcases h with ⟨s, hrun, rfl⟩
    cases hrun with
    | cons hfirst hothers =>
      cases hothers
      rcases (Draft.carryOut_eq_ok_iff hother).1 hfirst with ⟨d', hd', rfl⟩
      exact hd'
  · intro hadded
    have hfirst : Draft.carryOut e.catalog ⟨d, nextId, ids⟩ (.addConnection l) =
        .ok ⟨d', nextId, ids⟩ := (Draft.carryOut_eq_ok_iff hother).2 ⟨d', hadded, rfl⟩
    exact ⟨_, .cons hfirst (.nil _), rfl⟩

/-- A link that is added by an editor with a catalog is counted as valid by reports with the same
catalog, and changes nothing else that these say about links. A link that the editor turns down,
though it would add it without a catalog, is counted as invalid where it is added. -/
theorem added_link_counted (he : e.catalog = some v.catalog) (hnames : d.nodeNames.Nodup)
    (hbatch : actions batch = [.addConnection l]) :
    (e.Accepts ids nextId d batch d' → ∀ profile r, v.report profile d = .ok r →
      ∃ r', v.report profile d' = .ok r' ∧
        r'.statistics.validConnections = r.statistics.validConnections + 1 ∧
        r'.statistics.invalidConnections = r.statistics.invalidConnections ∧
        r'.errors.filter (Issue.hasCode Scene.faultCodes) =
          r.errors.filter (Issue.hasCode Scene.faultCodes)) ∧
    ((∀ d'', ¬ e.Accepts ids nextId d batch d'') →
      Accepts { e with catalog := none } ids nextId d batch d' →
        ∀ profile r, v.report profile d = .ok r →
          ∃ r', v.report profile d' = .ok r' ∧
            r'.statistics.invalidConnections = r.statistics.invalidConnections + 1) := by
  constructor
  · intro h profile r hr
    rcases (accepts_link_iff hbatch).1 h with ⟨-, hadded⟩
    rw [he] at hadded
    rcases Draft.addConnection_eq_ok_iff.1 hadded with ⟨source, target, -, -, hadd, rfl⟩
    have hfree : Draft.Addable none d l source target := (Draft.addable_some_iff.1 hadd).1
    have houtput : (v.scene d).hasOutput source l.output l.sourceIndex.toNat = true :=
      (Draft.addable_some_iff.1 hadd).2
    have hnodes : d.nodes ≠ [] := List.ne_nil_of_mem hadd.from_mem
    rcases Validator.exists_report_rewired hr hnodes
      (Draft.linked d l source target).connections with ⟨r', hr'⟩
    have hlinked := Validator.report_linked hnames hfree hr hr'
    rw [if_pos houtput] at hlinked
    exact ⟨r', hr', hlinked⟩
  · intro hrejected h profile r hr
    rcases (accepts_link_iff hbatch).1 h with ⟨hadmits, hadded⟩
    rcases Draft.addConnection_eq_ok_iff.1 hadded with
      ⟨source, target, hsource, htarget, hadd, rfl⟩
    -- With the output there would have been nothing left to turn the link down for.
    have houtput : ¬ (v.scene d).hasOutput source l.output l.sourceIndex.toNat = true := by
      intro houtput
      have hallowed : Draft.Addable e.catalog d l source target :=
        he ▸ Draft.addable_some_iff.2 ⟨hadd, houtput⟩
      have hok : Draft.addConnection e.catalog d l = .ok (Draft.linked d l source target) :=
        Draft.addConnection_eq_ok_iff.2 ⟨source, target, hsource, htarget, hallowed, rfl⟩
      exact hrejected _ ((accepts_link_iff hbatch).2 ⟨⟨hadmits.clean, hadmits.size⟩, hok⟩)
    have hnodes : d.nodes ≠ [] := List.ne_nil_of_mem hadd.from_mem
    rcases Validator.exists_report_rewired hr hnodes
      (Draft.linked d l source target).connections with ⟨r', hr'⟩
    have hlinked := Validator.report_linked hnames hadd hr hr'
    rw [if_neg houtput] at hlinked
    exact ⟨r', hr', hlinked⟩

/-- A batch with one link to be added, from an output of the main type. -/
def linkBatch (source target : String) (slot : Int) : List Value :=
  [.obj [("type", .str "addConnection"), ("source", .str source), ("target", .str target),
    ("sourceIndex", .int slot)]]

theorem actions_linkBatch (source target : String) (slot : Int) :
    actions (linkBatch source target slot) =
      [.addConnection ⟨source, target, "main", "main", slot, 0⟩] :=
  rfl

/-- A node with one output gets a link from it, and one from an output that it does not have. -/
theorem second_link_counted :
    (∃ d' r', plainTypes.editor.Accepts idText 1 pair (linkBatch "B" "A" 0) d' ∧
        plainTypes.report .runtime d' = .ok r' ∧ r'.statistics.validConnections = 2) ∧
      ∃ d' r', (∀ d'', ¬ plainTypes.editor.Accepts idText 1 pair (linkBatch "B" "A" 1) d'') ∧
        Accepts {} idText 1 pair (linkBatch "B" "A" 1) d' ∧
        plainTypes.report .runtime d' = .ok r' ∧ r'.statistics.invalidConnections = 1 := by
  have hreport : ∃ r, plainTypes.report .runtime pair = .ok r ∧
      (r.statistics.validConnections == 1 && r.statistics.invalidConnections == 0) = true :=
    Validator.exists_report (by decide +kernel)
  have hadded : ∃ d', plainTypes.editor.Accepts idText 1 pair (linkBatch "B" "A" 0) d' ∧
      true = true := exists_accepts (by decide +kernel)
  have hfree : ∃ d', Accepts {} idText 1 pair (linkBatch "B" "A" 1) d' ∧ true = true :=
    exists_accepts (by decide +kernel)
  have hrejected : ∀ d'', ¬ plainTypes.editor.Accepts idText 1 pair (linkBatch "B" "A" 1) d'' := by
    have hnone : ((plainTypes.editor.applyWith idText false 1 pair
        (linkBatch "B" "A" 1)).toOption.any fun p => p.1.success) = false := by decide +kernel
    intro d'' hexists
    rcases hexists with ⟨r, k, h, hsuccess, -⟩
    simp [h, hsuccess, Except.toOption] at hnone
  rcases hreport with ⟨r, hr, hcounts⟩
  simp only [Bool.and_eq_true, beq_iff_eq] at hcounts
  refine ⟨?_, ?_⟩
  · rcases hadded with ⟨d', h, -⟩
    rcases (added_link_counted rfl (by decide) (actions_linkBatch "B" "A" 0)).1 h .runtime r hr with
      ⟨r', hr', hvalid, -, -⟩
    exact ⟨d', r', h, hr', by rw [hvalid, hcounts.1]; rfl⟩
  · rcases hfree with ⟨d', h, -⟩
    rcases (added_link_counted (e := plainTypes.editor) rfl (by decide)
      (actions_linkBatch "B" "A" 1)).2 hrejected h .runtime r hr with ⟨r', hr', hinvalid⟩
    exact ⟨d', r', hrejected, h, hr', by rw [hinvalid, hcounts.2]; rfl⟩

end Editor
end Workflows
