import Workflows.Proofs.Graph.DepthFirst
import Workflows.Proofs.Validation.MainGraph

/-!
# Rearranged — documents with the same wiring

The entries of the connections are keyed by their sources, so their order says nothing; and a node
that no link mentions has no edges. A document whose entries are in another order, and which has
more such nodes, has the same edges, each source with its targets in the same order. A depth-first
search meets the same cycles in the same order.

Main definitions:

* `Document.Rearranges` — the entries in another order, and unrelated nodes added;
* `Scene.mainLink_rearranged`, `Scene.loops_rearranged` — edges and cycles stay the same.
-/

namespace Workflows

/-! ## Chosen names -/

/-- It makes no difference whether names are chosen before or after those that occur twice are
dropped. -/
theorem filter_eraseDups (keep : String → Bool) : ∀ names : List String,
    names.eraseDups.filter keep = (names.filter keep).eraseDups
  | [] => rfl
  | name :: rest => by
    have hrest : (rest.filter fun v => !v == name).eraseDups.filter keep
        = ((rest.filter fun v => !v == name).filter keep).eraseDups := filter_eraseDups keep _
    rw [List.eraseDups_cons]
    cases hname : keep name with
    | true =>
      rw [List.filter_cons_of_pos hname, List.filter_cons_of_pos hname, List.eraseDups_cons, hrest,
        List.filter_comm]
    | false =>
      -- A name that is not chosen is none of those that are.
      have hothers : (rest.filter keep).filter (fun v => !v == name) = rest.filter keep := by
        refine List.filter_eq_self.2 ?_
        intro v hv
        have hv' : keep v = true := (List.mem_filter.1 hv).2
        have hother : v ≠ name := fun heq => by simp [heq, hname] at hv'
        simpa using hother
      rw [List.filter_cons_of_neg (by simp [hname]), List.filter_cons_of_neg (by simp [hname]),
        hrest, List.filter_comm, hothers]
termination_by names => names.length
decreasing_by exact Nat.lt_succ_of_le (List.length_filter_le _ _)

/-! ## The links of a source -/

namespace Connections

/-- The links of a source are those of its entry. -/
theorem filter_source_links (source : String) (cs : Connections) :
    cs.links.filter (·.source == source) =
      (cs.filter (·.1 == source)).flatMap fun e => outputLinks e.1 e.2 := by
  rw [links_eq, List.filter_flatMap]
  induction cs with
  | nil => rfl
  | cons e rest ih =>
    rcases e with ⟨name, os⟩
    have hsource : ∀ l ∈ outputLinks name os, l.source = name :=
      fun l hl => source_of_mem_outputLinks hl
    rw [List.flatMap_cons, ih]
    by_cases hname : name = source
    · have hall : (outputLinks name os).filter (·.source == source) = outputLinks name os :=
        List.filter_eq_self.2 fun l hl => by simp [hsource l hl, hname]
      rw [hall, List.filter_cons_of_pos (by simpa using hname), List.flatMap_cons]
    · have hnone : (outputLinks name os).filter (·.source == source) = [] :=
        List.filter_eq_nil_iff.2 fun l hl => by simp [hsource l hl, hname]
      rw [hnone, List.filter_cons_of_neg (by simpa using hname), List.nil_append]

/-- A source has one entry at most. -/
theorem length_filter_source {cs : Connections} (h : cs.Distinct) (source : String) :
    (cs.filter (·.1 == source)).length ≤ 1 := by
  have hnodup : ((cs.filter (·.1 == source)).map Prod.fst).Nodup :=
    h.sublist List.filter_sublist
  have hsame : ∀ name ∈ (cs.filter (·.1 == source)).map Prod.fst, name = source := by
    intro name hname
    rcases List.mem_map.1 hname with ⟨e, he, rfl⟩
    simpa using (List.mem_filter.1 he).2
  rw [List.eq_replicate_of_mem hsame, List.nodup_replicate, List.length_map] at hnodup
  exact hnodup

/-- The order of the entries makes no difference to the links of a source. -/
theorem filter_source_links_of_perm {cs cs' : Connections} (hperm : cs'.Perm cs)
    (h : cs.Distinct) (source : String) :
    cs'.links.filter (·.source == source) = cs.links.filter (·.source == source) := by
  have hentries : (cs'.filter (·.1 == source)).Perm (cs.filter (·.1 == source)) := hperm.filter _
  have hlength := length_filter_source h source
  rw [filter_source_links, filter_source_links]
  generalize cs.filter (·.1 == source) = entries at hentries hlength
  match entries with
  | [] => rw [hentries.eq_nil]
  | [e] => rw [List.perm_singleton.1 hentries]

end Connections

/-! ## Documents -/

/-- The first document has the connections of the second one, with their entries in any order, and
its nodes, with others among them of names that are not theirs and that no link mentions. -/
structure Document.Rearranges (d' d : Document) (related : String → Bool) : Prop where
  distinct : d.connections.Distinct
  connections : d'.connections.Perm d.connections
  nodes : d'.nodes.filter (fun n => related n.name) = d.nodes
  links : ∀ l ∈ d.connections.links, related l.source = true ∧ related l.target.node = true

namespace Scene

variable {s s' : Scene} {related : String → Bool} {name u v : String}

/-- The names that matter are the same, in the same order. -/
theorem names_rearranged (h : s'.document.Rearranges s.document related) :
    s'.names.filter related = s.names := by
  have hnames : s'.document.nodeNames.filter related = s.document.nodeNames := by
    rw [Document.nodeNames, Document.nodeNames, ← h.nodes, List.filter_map]
    rfl
  rw [names, names, filter_eraseDups, hnames]

/-- A name that matters is that of the same node. -/
theorem node?_rearranged (h : s'.document.Rearranges s.document related)
    (hname : related name = true) : s'.node? name = s.node? name := by
  have hfind : s.document.node? name = s'.document.node? name := by
    rw [Document.node?, Document.node?, ← h.nodes, List.find?_filter]
    refine congrArg (fun test => List.find? test s'.document.nodes) (funext ?_)
    intro n
    by_cases hn : n.name = name
    · simp [hn, hname]
    · simp [hn]
  exact hfind.symm

variable (hcatalog : s'.catalog = s.catalog) (h : s'.document.Rearranges s.document related)

include hcatalog h

/-- A link is usable in both documents or in none. -/
theorem isUsable_rearranged {l : Link} (hl : l ∈ s.document.connections.links) :
    s'.isUsable l = s.isUsable l := by
  have hsource : s'.node? l.source = s.node? l.source := node?_rearranged h (h.links l hl).1
  have htarget : s'.node? l.target.node = s.node? l.target.node :=
    node?_rearranged h (h.links l hl).2
  have htargets : l.target.node ∈ s'.document.nodeNames ↔ l.target.node ∈ s.document.nodeNames := by
    rw [← exists_node?_iff, ← exists_node?_iff, htarget]
  have houtput : ∀ n, s'.hasOutput n l.output l.slot = s.hasOutput n l.output l.slot := by
    intro n
    simp only [hasOutput, declaredOutputs?, typeOf, hcatalog]
  have hvalid : ∀ n, s'.isValidLink n l = s.isValidLink n l := by
    intro n
    rw [Bool.eq_iff_iff, isValidLink_iff, isValidLink_iff, houtput n, htargets]
  unfold isUsable
  rw [hsource]
  cases s.node? l.source with
  | none => rfl
  | some n => exact hvalid n

/-- Each source has the same targets, in the same order. -/
theorem mainTargets_rearranged : mainTargets s'.wiring u = mainTargets s.wiring u := by
  have hlinks : s'.document.connections.links.filter (·.source == u)
      = s.document.connections.links.filter (·.source == u) :=
    Connections.filter_source_links_of_perm h.connections h.distinct u
  have hvalid : s'.wiring.valid.filter (·.source == u) = s.wiring.valid.filter (·.source == u) := by
    calc s'.wiring.valid.filter (·.source == u)
        = (s.document.connections.links.filter (·.source == u)).filter s'.isUsable := by
          rw [valid_wiring, List.filter_comm, hlinks]
      _ = (s.document.connections.links.filter (·.source == u)).filter s.isUsable :=
          List.filter_congr fun l hl =>
            isUsable_rearranged hcatalog h (List.mem_filter.1 hl).1
      _ = s.wiring.valid.filter (·.source == u) := by rw [valid_wiring, List.filter_comm]
  rw [mainTargets, mainTargets, hvalid]

/-- A node that matters has the same successors. -/
theorem successors_rearranged :
    (s'.mainGraph s'.wiring).successors u = (s.mainGraph s.wiring).successors u := by
  rw [successors_mainGraph, successors_mainGraph, mainTargets_rearranged hcatalog h]

/-- The links between nodes are the same. -/
theorem mainLink_rearranged : s'.MainLink = s.MainLink := by
  rw [← edge_eq_mainLink, ← edge_eq_mainLink]
  funext u v
  rw [Graph.Edge, Graph.Edge, successors_rearranged hcatalog h]

/-- The cycles are met in the same order. -/
theorem loops_rearranged :
    (s'.mainGraph s'.wiring).loops = (s.mainGraph s.wiring).loops := by
  have hnodes : (s'.mainGraph s'.wiring).nodes.filter related = (s.mainGraph s.wiring).nodes := by
    rw [nodes_mainGraph, nodes_mainGraph]
    exact names_rearranged h
  exact Graph.loops_of_filter simple_mainGraph hnodes fun _ => successors_rearranged hcatalog h

end Scene
end Workflows
