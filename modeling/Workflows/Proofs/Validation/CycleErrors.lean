import Workflows.Proofs.Validation.CycleCodes
import Workflows.Proofs.Validation.Rearranged
import Workflows.Proofs.Validation.Reported

/-!
# CycleErrors — what a report says about cycles

A cycle is harmful if it passes through no node that is made for loops. Up to fifty names and a
hundred cycles the errors are the harmful cycles, one for one. Beyond either number they are not:
too many cycles are an error of their own, harmful or not, beside which only the first hundred are
judged, and among too many nodes only the first cycle is looked at that a depth-first search meets,
so that a harmless one may be all that is seen.

On either side of fifty names the verdict depends on the wiring alone. Which side a document is on
depends on all its nodes, so a node that has nothing to do with the cycles can change the verdict.

Main definitions:

* `Scene.HarmfulCycle` — cycles of main links without a loop node;
* `Validator.errors_of_few_cycles` — the errors are the harmful cycles;
* `Validator.cycle_error_iff` — when there is an error, for documents of any size.
-/

namespace Workflows
namespace Scene

variable {s : Scene} {c : Cycle String} {cycle : List String}

/-! ## Harmful cycles -/

/-- The name is that of a node whose type is made for loops. -/
def IsLoopNode (s : Scene) (name : String) : Prop :=
  ∃ n, s.node? name = some n ∧ s.isLoopCapable n = true

/-- An elementary cycle of main links that passes through no loop node. -/
structure HarmfulCycle (s : Scene) (c : Cycle String) : Prop where
  elementary : IsElementary s.MainLink c
  outside : ∀ name ∈ c, ¬ s.IsLoopNode name

/-- A cycle lacks a loop node if none of its members is one. -/
theorem lacksLoopNode_iff :
    s.lacksLoopNode cycle = true ↔ ∀ name ∈ (cycle : Cycle String), ¬ s.IsLoopNode name := by
  have hname : ∀ name, (!(s.node? name).any s.isLoopCapable) = true ↔ ¬ s.IsLoopNode name := by
    intro name
    rw [Bool.not_eq_true', ← Bool.not_eq_true, Option.any_eq_true]
    rfl
  rw [lacksLoopNode, List.all_eq_true]
  exact forall₂_congr fun name _ => hname name

/-- A cycle of the graph is harmful if it lacks a loop node. -/
theorem harmfulCycle_iff :
    s.HarmfulCycle (cycle : Cycle String) ↔
      IsElementary (s.mainGraph s.wiring).Edge (cycle : Cycle String) ∧
        s.lacksLoopNode cycle = true := by
  rw [edge_eq_mainLink, lacksLoopNode_iff]
  constructor
  · intro h
    exact ⟨h.elementary, h.outside⟩
  · intro h
    exact ⟨h.1, h.2⟩

/-! ## Counting -/

/-- Cycles are counted up to one more than a limit. -/
theorem encard_mainLink_le_iff {limit : Nat} :
    {c : Cycle String | IsElementary s.MainLink c}.encard ≤ limit ↔
      ((s.mainGraph s.wiring).cyclesUpTo (limit + 1)).length ≤ limit := by
  have hcount : {c : Cycle String | IsElementary s.MainLink c}.encard =
      (s.mainGraph s.wiring).allCycles.length := by
    rw [← edge_eq_mainLink, Graph.encard_elementary simple_mainGraph]
  have hfound : ((s.mainGraph s.wiring).cyclesUpTo (limit + 1)).length =
      min (limit + 1) (s.mainGraph s.wiring).allCycles.length := by
    rw [Graph.cyclesUpTo_eq, List.length_take]
  rw [hcount, hfound, Nat.cast_le]
  omega

/-! ## The findings -/

/-- Where there are few cycles among few nodes, each harmful cycle is a finding. -/
theorem cycleIssues_of_few (hnames : s.names.length ≤ fullCycleCheckNodes)
    (hcycles : {c : Cycle String | IsElementary s.MainLink c}.encard ≤ cycleLimit) :
    ∃ cycles : List (List String),
      s.cycleIssues (s.mainGraph s.wiring) = cycles.map cycleIssue ∧
        (cycles.map Cycle.ofList).Nodup ∧
        ∀ c : Cycle String, c ∈ cycles.map Cycle.ofList ↔ s.HarmfulCycle c := by
  let g := s.mainGraph s.wiring
  have hfew : g.allCycles.length ≤ cycleLimit := by
    rw [← edge_eq_mainLink, Graph.encard_elementary simple_mainGraph, Nat.cast_le] at hcycles
    exact hcycles
  -- One cycle more than the limit is asked for, so that all of them are found.
  have hall : g.cyclesUpTo (cycleLimit + 1) = g.allCycles := by
    rw [Graph.cyclesUpTo_eq, List.take_of_length_le (Nat.le_succ_of_le hfew)]
  let before := fun a b : List String => messageLe (cycleIssue a) (cycleIssue b)
  let cycles := (g.allCycles.filter s.lacksLoopNode).mergeSort before
  have hperm : cycles.Perm (g.allCycles.filter s.lacksLoopNode) := List.mergeSort_perm _ _
  refine ⟨cycles, ?_, ?_, ?_⟩
  · have hsmall : ¬ fullCycleCheckNodes < g.nodes.length := by
      rw [nodes_mainGraph]
      exact Nat.not_lt.2 hnames
    rw [cycleIssues, if_neg hsmall]
    dsimp only
    rw [hall, if_neg (Nat.not_lt.2 hfew), List.append_nil, List.take_of_length_le hfew]
    exact (List.map_mergeSort (f := cycleIssue) (r := before) fun _ _ _ _ => rfl).symm
  · have hsublist := (List.filter_sublist (p := s.lacksLoopNode) (l := g.allCycles)).map Cycle.ofList
    exact (hperm.map Cycle.ofList).nodup_iff.2
      ((Graph.nodup_map_allCycles simple_mainGraph).sublist hsublist)
  · intro c
    rw [(hperm.map Cycle.ofList).mem_iff]
    constructor
    · intro hc
      rcases List.mem_map.1 hc with ⟨l, hl, rfl⟩
      rcases List.mem_filter.1 hl with ⟨hmem, hlacks⟩
      exact harmfulCycle_iff.2 ⟨((Graph.mem_allCycles_iff simple_mainGraph).1 hmem).2, hlacks⟩
    · intro hc
      have hgraph : IsElementary g.Edge c := edge_eq_mainLink ▸ hc.elementary
      rcases List.mem_map.1 ((Graph.mem_map_allCycles_iff simple_mainGraph).2 hgraph) with ⟨l, hl, rfl⟩
      exact List.mem_map_of_mem (List.mem_filter.2 ⟨hl, lacksLoopNode_iff.2 hc.outside⟩)

/-- Where there are too many cycles among few nodes, the harmful ones among the first of them are
findings, and that there are too many. -/
theorem cycleIssues_of_many (hnames : s.names.length ≤ fullCycleCheckNodes)
    (hcycles : cycleLimit < {c : Cycle String | IsElementary s.MainLink c}.encard) :
    s.cycleIssues (s.mainGraph s.wiring) =
      s.harmfulCycleIssues ((s.mainGraph s.wiring).allCycles.take cycleLimit) ++
        [tooManyCycles] := by
  have hmany : cycleLimit < ((s.mainGraph s.wiring).cyclesUpTo (cycleLimit + 1)).length := by
    by_contra hle
    exact absurd (encard_mainLink_le_iff.2 (Nat.not_lt.1 hle)) (not_le.2 hcycles)
  have hsmall : ¬ fullCycleCheckNodes < (s.mainGraph s.wiring).nodes.length := by
    rw [nodes_mainGraph]
    exact Nat.not_lt.2 hnames
  have hfirst : ((s.mainGraph s.wiring).cyclesUpTo (cycleLimit + 1)).take cycleLimit =
      (s.mainGraph s.wiring).allCycles.take cycleLimit := by
    rw [Graph.cyclesUpTo_eq, List.take_take, Nat.min_eq_left (Nat.le_succ _)]
  rw [cycleIssues, if_neg hsmall]
  dsimp only
  rw [if_pos hmany, hfirst]

/-- Among too many nodes only the first cycle can be a finding. -/
theorem cycleIssues_of_large (hnames : fullCycleCheckNodes < s.names.length) :
    s.cycleIssues (s.mainGraph s.wiring) =
      ((s.mainGraph s.wiring).loops.head?.toList.filter s.lacksLoopNode).map firstCycleIssue := by
  have hlarge : fullCycleCheckNodes < (s.mainGraph s.wiring).nodes.length := by
    rw [nodes_mainGraph]
    exact hnames
  rw [cycleIssues, if_pos hlarge, Graph.firstCycle?_eq simple_mainGraph]

/-! ## When something is found -/

/-- Something is found among few nodes if there is a harmful cycle, or too many cycles. -/
theorem cycleIssues_ne_nil_iff_of_small (hnames : s.names.length ≤ fullCycleCheckNodes) :
    s.cycleIssues (s.mainGraph s.wiring) ≠ [] ↔
      (∃ c, s.HarmfulCycle c) ∨
        cycleLimit < {c : Cycle String | IsElementary s.MainLink c}.encard := by
  by_cases hcycles : cycleLimit < {c : Cycle String | IsElementary s.MainLink c}.encard
  · simp [cycleIssues_of_many hnames hcycles, hcycles]
  · rcases cycleIssues_of_few hnames (not_lt.1 hcycles) with ⟨cycles, hissues, -, hmem⟩
    have hsome : cycles ≠ [] ↔ ∃ c, s.HarmfulCycle c := by
      constructor
      · intro hne
        rcases List.exists_mem_of_ne_nil cycles hne with ⟨l, hl⟩
        exact ⟨l, (hmem l).1 (List.mem_map_of_mem hl)⟩
      · intro h
        rcases h with ⟨c, hc⟩
        rcases List.mem_map.1 ((hmem c).2 hc) with ⟨l, hl, -⟩
        exact List.ne_nil_of_mem hl
    simp [hissues, hcycles, hsome]

/-- Something is found among too many nodes if the first cycle is harmful. -/
theorem cycleIssues_ne_nil_iff_of_large (hnames : fullCycleCheckNodes < s.names.length) :
    s.cycleIssues (s.mainGraph s.wiring) ≠ [] ↔
      ∃ first, (s.mainGraph s.wiring).loops.head? = some first ∧
        s.HarmfulCycle (first : Cycle String) := by
  rw [cycleIssues_of_large hnames]
  cases hfirst : (s.mainGraph s.wiring).loops.head? with
  | none => simp
  | some first =>
    have hmem : first ∈ (s.mainGraph s.wiring).loops := List.mem_of_mem_head? hfirst
    have helementary := (Graph.mem_loops_iff simple_mainGraph).1 hmem
    have hharmful : s.HarmfulCycle (first : Cycle String) ↔ s.lacksLoopNode first = true :=
      harmfulCycle_iff.trans (and_iff_right helementary)
    cases hlacks : s.lacksLoopNode first <;> simp [hharmful, hlacks]

/-! ## Rearranged documents -/

section Rearranged

variable {s' : Scene} {related : String → Bool}

/-- All members of a cycle are names of the document. -/
theorem names_of_isElementary (h : IsElementary s.MainLink c) : ∀ name ∈ c, name ∈ s.names := by
  induction c using Quotient.inductionOn with
  | h l =>
    intro name hname
    cases l with
    | nil => exact absurd h.two_le (by simp)
    | cons start tail =>
      have hround : List.IsChain (s.mainGraph s.wiring).Edge (start :: (tail ++ [start])) := by
        rw [edge_eq_mainLink]
        exact h.chain
      have hnodes := simple_mainGraph.mem_nodes_of_isChain hround
      rw [nodes_mainGraph] at hnodes
      have hmem : name ∈ start :: tail := hname
      exact hnodes name (by simpa [or_comm] using hmem)

/-- The same cycles are harmful. -/
theorem harmfulCycle_rearranged (hcatalog : s'.catalog = s.catalog)
    (h : s'.document.Rearranges s.document related) : s'.HarmfulCycle c ↔ s.HarmfulCycle c := by
  have hlinks : s'.MainLink = s.MainLink := mainLink_rearranged hcatalog h
  have hloop : ∀ name ∈ s.names, (s'.IsLoopNode name ↔ s.IsLoopNode name) := by
    intro name hname
    have hrelated : related name = true :=
      (List.mem_filter.1 (names_rearranged h ▸ hname)).2
    have hcapable : ∀ n, s'.isLoopCapable n = s.isLoopCapable n := by
      intro n
      rw [isLoopCapable, isLoopCapable, typeOf, typeOf, hcatalog]
    simp only [IsLoopNode, node?_rearranged h hrelated, hcapable]
  constructor
  · intro hboth
    rcases hboth with ⟨helementary, houtside⟩
    have helementary' : IsElementary s.MainLink c := hlinks ▸ helementary
    refine ⟨helementary', ?_⟩
    intro name hname
    exact mt (hloop name (names_of_isElementary helementary' name hname)).2 (houtside name hname)
  · intro hboth
    rcases hboth with ⟨helementary, houtside⟩
    refine ⟨hlinks ▸ helementary, ?_⟩
    intro name hname
    exact mt (hloop name (names_of_isElementary helementary name hname)).1 (houtside name hname)

/-- Something is found in both of two documents or in none, if both have few names or both many. -/
theorem cycleIssues_rearranged (hcatalog : s'.catalog = s.catalog)
    (h : s'.document.Rearranges s.document related)
    (hside : s'.names.length ≤ fullCycleCheckNodes ↔ s.names.length ≤ fullCycleCheckNodes) :
    s'.cycleIssues (s'.mainGraph s'.wiring) ≠ [] ↔ s.cycleIssues (s.mainGraph s.wiring) ≠ [] := by
  have hharmful : ∀ c, s'.HarmfulCycle c ↔ s.HarmfulCycle c := fun _ =>
    harmfulCycle_rearranged hcatalog h
  by_cases hsmall : s.names.length ≤ fullCycleCheckNodes
  · rw [cycleIssues_ne_nil_iff_of_small hsmall, cycleIssues_ne_nil_iff_of_small (hside.2 hsmall),
      mainLink_rearranged hcatalog h]
    simp only [hharmful]
  · have hlarge : fullCycleCheckNodes < s.names.length := Nat.lt_of_not_le hsmall
    have hlarge' : fullCycleCheckNodes < s'.names.length := Nat.lt_of_not_le (mt hside.1 hsmall)
    rw [cycleIssues_ne_nil_iff_of_large hlarge, cycleIssues_ne_nil_iff_of_large hlarge',
      loops_rearranged hcatalog h]
    simp only [hharmful]

end Rearranged

end Scene

/-! ## Reports -/

namespace Validator

variable {v : Validator} {d : Document} {profile : Profile} {r : Report}

/-- The errors about cycles of a document with few names and few cycles are its harmful cycles, each
of them once and listed in the order in which it is passed through. -/
theorem errors_of_few_cycles (h : v.report profile d = .ok r)
    (hnames : (v.scene d).names.length ≤ 50)
    (hcycles : {c : Cycle String | IsElementary (v.scene d).MainLink c}.encard ≤ 100) :
    ∃ cycles : List (List String),
      r.errors.filter Issue.isCyclic = cycles.map Scene.cycleIssue ∧
        (cycles.map Cycle.ofList).Nodup ∧
        ∀ c : Cycle String, c ∈ cycles.map Cycle.ofList ↔ (v.scene d).HarmfulCycle c := by
  rw [cyclic_errors h]
  exact Scene.cycleIssues_of_few hnames hcycles

/-! ### A document with three cycles -/

/-- Two types of nodes, one of which is made for loops. -/
def loopTypes : Validator where
  catalog := .ofTypes "1" [{ name := "x.loop", isLoopCapable := true }, { name := "x.step" }]

def nodesOf (type : String) (names : List String) : List Node :=
  names.map fun name => { id := name, name := name, type := type }

theorem exists_loopTypes_report (profile : Profile) {d : Document}
    (h : (d.nodes.all fun n => n.parameters.isEmpty) = true) :
    ∃ r, loopTypes.report profile d = .ok r := by
  refine exists_report_of_bare profile ?_ h
  intro type t ht
  rcases List.mem_pair.1 (Catalog.mem_of_find?_ofTypes ht) with rfl | rfl <;> rfl

def leads (source : String) (targets : List String) : String × Outputs :=
  (source, [("main", [some (targets.map fun name => ⟨name, "main", 0⟩)])])

/-- Two steps lead to each other, and one of them and a loop node. -/
def knot : Document where
  nodes := nodesOf "x.loop" ["L"] ++ nodesOf "x.step" ["A", "B"]
  connections := [leads "A" ["B", "L"], leads "B" ["A"], leads "L" ["A"]]

theorem names_knot_le : (loopTypes.scene knot).names.length ≤ 50 := by
  decide +kernel

/-- The cycle through the loop node is no error. -/
theorem knot_cycles_reported :
    ∃ r, loopTypes.report .runtime knot = .ok r ∧ (r.errors.filter Issue.isCyclic).length = 1 ∧
      ∃ cycles : List (List String),
        r.errors.filter Issue.isCyclic = cycles.map Scene.cycleIssue ∧
          ∀ c : Cycle String, c ∈ cycles.map Cycle.ofList ↔
            (loopTypes.scene knot).HarmfulCycle c := by
  have hcycles : {c : Cycle String | IsElementary (loopTypes.scene knot).MainLink c}.encard ≤ 100 :=
    Scene.encard_mainLink_le_iff.2 (by decide +kernel)
  have hlength : ((loopTypes.scene knot).cycleIssues
      ((loopTypes.scene knot).mainGraph (loopTypes.scene knot).wiring)).length = 1 := by
    decide +kernel
  rcases exists_loopTypes_report (d := knot) .runtime rfl with ⟨r, hr⟩
  rcases errors_of_few_cycles hr names_knot_le hcycles with ⟨cycles, herrors, -, hmem⟩
  exact ⟨r, hr, cyclic_errors hr ▸ hlength, cycles, herrors, hmem⟩

/-! ## The verdict -/

/-- There is an error on cycles exactly if the check of cycles finds something. -/
theorem exists_cyclic_error_iff (h : v.report profile d = .ok r) :
    (∃ i ∈ r.errors, i.isCyclic = true) ↔
      (v.scene d).cycleIssues ((v.scene d).mainGraph (v.scene d).wiring) ≠ [] := by
  rw [← cyclic_errors h, Ne, List.filter_eq_nil_iff]
  simp

/-- Whether a report has an error about cycles. With up to fifty names it has one exactly if there
is a harmful cycle or there are more than a hundred cycles; with more names, exactly if the first
cycle that a depth-first search meets is harmful. As long as this number of names is not passed, it
makes no difference in which order the sources stand, or which unrelated nodes there are. -/
theorem cycle_error_iff (h : v.report profile d = .ok r) :
    ((v.scene d).names.length ≤ 50 →
      ((∃ i ∈ r.errors, i.isCyclic = true) ↔
        (∃ c, (v.scene d).HarmfulCycle c) ∨
          100 < {c : Cycle String | IsElementary (v.scene d).MainLink c}.encard)) ∧
    (50 < (v.scene d).names.length →
      ((∃ i ∈ r.errors, i.isCyclic = true) ↔
        ∃ first, ((v.scene d).mainGraph (v.scene d).wiring).loops.head? = some first ∧
          (v.scene d).HarmfulCycle (first : Cycle String))) ∧
    ∀ d' related profile' r', d'.Rearranges d related → v.report profile' d' = .ok r' →
      ((v.scene d').names.length ≤ 50 ↔ (v.scene d).names.length ≤ 50) →
        ((∃ i ∈ r'.errors, i.isCyclic = true) ↔ ∃ i ∈ r.errors, i.isCyclic = true) := by
  refine ⟨?_, ?_, ?_⟩
  · intro hnames
    exact (exists_cyclic_error_iff h).trans (Scene.cycleIssues_ne_nil_iff_of_small hnames)
  · intro hnames
    exact (exists_cyclic_error_iff h).trans (Scene.cycleIssues_ne_nil_iff_of_large hnames)
  · intro d' related profile' r' hd' h' hside
    have hsame : (v.scene d').cycleIssues ((v.scene d').mainGraph (v.scene d').wiring) ≠ [] ↔
        (v.scene d).cycleIssues ((v.scene d).mainGraph (v.scene d).wiring) ≠ [] :=
      Scene.cycleIssues_rearranged rfl hd' hside
    exact (exists_cyclic_error_iff h').trans (hsame.trans (exists_cyclic_error_iff h).symm)

/-- The entries in another order, and a node that no link mentions. -/
def knotBeside : Document where
  nodes := nodesOf "x.loop" ["L"] ++ nodesOf "x.step" ["Z", "A", "B"]
  connections := [leads "L" ["A"], leads "B" ["A"], leads "A" ["B", "L"]]

theorem knotBeside_rearranges : knotBeside.Rearranges knot (· != "Z") where
  distinct := by decide +kernel
  connections := by
    have hsame : knotBeside.connections = knot.connections.reverse := rfl
    exact hsame ▸ List.reverse_perm _
  nodes := rfl
  links := by decide +kernel

/-- Both documents have an error, and the first one because it has a harmful cycle. -/
theorem knot_error_stays :
    ∃ r r', loopTypes.report .runtime knot = .ok r ∧ loopTypes.report .strict knotBeside = .ok r' ∧
      (∃ i ∈ r.errors, i.isCyclic = true) ∧ (∃ i ∈ r'.errors, i.isCyclic = true) ∧
      ((∃ c, (loopTypes.scene knot).HarmfulCycle c) ∨
        100 < {c : Cycle String | IsElementary (loopTypes.scene knot).MainLink c}.encard) := by
  have hissues : (loopTypes.scene knot).cycleIssues
      ((loopTypes.scene knot).mainGraph (loopTypes.scene knot).wiring) ≠ [] := by decide +kernel
  have hnames : (loopTypes.scene knotBeside).names.length ≤ 50 := by decide +kernel
  rcases exists_loopTypes_report (d := knot) .runtime rfl with ⟨r, hr⟩
  rcases exists_loopTypes_report (d := knotBeside) .strict rfl with ⟨r', hr'⟩
  have hsome : ∃ i ∈ r.errors, i.isCyclic = true := (exists_cyclic_error_iff hr).2 hissues
  rcases cycle_error_iff hr with ⟨hsmall, -, hstays⟩
  have hside := iff_of_true hnames names_knot_le
  exact ⟨r, r', hr, hr', hsome, (hstays _ _ _ _ knotBeside_rearranges hr' hside).2 hsome,
    (hsmall names_knot_le).1 hsome⟩

/-! ### Beyond the numbers -/

/-- Six loop nodes, each of which leads to all others. -/
def thicket : Document where
  nodes := nodesOf "x.loop" ["A", "B", "C", "D", "E", "F"]
  connections := ["A", "B", "C", "D", "E", "F"].map fun name =>
    leads name (["A", "B", "C", "D", "E", "F"].filter (· != name))

/-- Two cycles of two nodes each, of which the first one passes through a loop node, among many
nodes without links. -/
def masked : Document where
  nodes := nodesOf "x.loop" ["A"] ++ nodesOf "x.step" ["B", "C", "D"]
    ++ nodesOf "x.step" ((List.range 47).map fun i => "N" ++ toString i)
  connections := [leads "A" ["B"], leads "B" ["A"], leads "C" ["D"], leads "D" ["C"]]

theorem harmfulCycle_masked : (loopTypes.scene masked).HarmfulCycle (["C", "D"] : Cycle String) := by
  refine Scene.harmfulCycle_iff.2 ⟨⟨by decide, by decide, ?_⟩, by decide +kernel⟩
  refine (Cycle.chain_coe_cons _ "C" ["D"]).2 ?_
  decide +kernel

/-- There can be an error although every cycle passes through a loop node, and none although one
does not. -/
theorem cycle_error_astray :
    (∃ r, loopTypes.report .runtime thicket = .ok r ∧ (∃ i ∈ r.errors, i.isCyclic = true) ∧
      ¬ ∃ c, (loopTypes.scene thicket).HarmfulCycle c) ∧
    ∃ r, loopTypes.report .runtime masked = .ok r ∧ (¬ ∃ i ∈ r.errors, i.isCyclic = true) ∧
      ∃ c, (loopTypes.scene masked).HarmfulCycle c := by
  have hthicket : (loopTypes.scene thicket).cycleIssues
      ((loopTypes.scene thicket).mainGraph (loopTypes.scene thicket).wiring) ≠ [] := by
    decide +kernel
  have hmasked : (loopTypes.scene masked).cycleIssues
      ((loopTypes.scene masked).mainGraph (loopTypes.scene masked).wiring) = [] := by
    decide +kernel
  have hloops : ∀ name ∈ (loopTypes.scene thicket).names,
      ((loopTypes.scene thicket).node? name).any (loopTypes.scene thicket).isLoopCapable = true := by
    decide +kernel
  rcases exists_loopTypes_report (d := thicket) .runtime rfl with ⟨r, hr⟩
  rcases exists_loopTypes_report (d := masked) .runtime rfl with ⟨r', hr'⟩
  refine ⟨⟨r, hr, (exists_cyclic_error_iff hr).2 hthicket, ?_⟩, r', hr',
    fun hsome => (exists_cyclic_error_iff hr').1 hsome hmasked, _, harmfulCycle_masked⟩
  intro h
  rcases h with ⟨c, hc⟩
  rcases hc.elementary.exists_mem with ⟨name, hname⟩
  have hin : name ∈ (loopTypes.scene thicket).names :=
    Scene.names_of_isElementary hc.elementary name hname
  exact hc.outside name hname ((Option.any_eq_true _ _).1 (hloops name hin))

end Validator
end Workflows
