import Workflows.Proofs.Graph.Elementary

/-!
# DepthFirst — which cycle a depth-first search meets first

A depth-first search does not enter a node again that it is done with. That changes nothing about
the first cycle it meets, because no path from such a node comes back to the path the search is on:
all edges from a node it is done with lead to nodes it was done with before. So the cycle it meets
first is the first one on the list of all cycles that a search meets which follows every path. That
list holds the elementary cycles of the graph, each from every node on at which it can be entered.

Main definitions:

* `Graph.loops` — the cycles in the order of a depth-first search, with repetitions;
* `Graph.Settled` — nodes from which no path comes back;
* `Graph.firstCycle?_eq` — the search meets the first of the cycles;
* `Graph.mem_loops_iff` — what is on the list.
-/

namespace Workflows
namespace Graph

variable {g : Graph} {node next first : String} {steps : Nat}
  {path here finished rest c : List String}

/-! ## Following every path -/

/-- The cycles met behind a node at the end of a path, when every path is followed. The path is
given from its end to its start. -/
def loopsFrom (g : Graph) : Nat → List String → String → List (List String)
  | 0, _, _ => []
  | steps + 1, path, node =>
    (g.successors node).flatMap fun next =>
      if (node :: path).contains next then [backTo next (node :: path)]
      else loopsFrom g steps (node :: path) next

/-- The cycles met on the way from the end of a path to one of its successors. -/
def loopsVia (g : Graph) (steps : Nat) (here : List String) (next : String) : List (List String) :=
  if here.contains next then [backTo next here] else g.loopsFrom steps here next

/-- The loops that are closed from a node on are those by way of its successors. -/
theorem loopsFrom_succ :
    g.loopsFrom (steps + 1) path node =
      (g.successors node).flatMap (g.loopsVia steps (node :: path)) :=
  rfl

/-- The cycles in the order in which following every path from each node meets them. -/
def loops (g : Graph) : List (List String) :=
  g.nodes.flatMap (g.loopsFrom (g.nodes.length + 1) [])

/-! ## Nodes that the search is done with -/

/-- All edges from each of the nodes lead to nodes behind it in the list. -/
inductive Settled (g : Graph) : List String → Prop
  | nil : Settled g []
  | cons {node : String} {rest : List String} :
      (∀ next, g.Edge node next → next ∈ rest) → node ∉ rest → Settled g rest →
        Settled g (node :: rest)

/-- No cycle is met behind a settled node. -/
theorem Settled.loopsFrom_eq_nil (h : g.Settled finished) (hnode : node ∈ finished)
    (haway : ∀ v ∈ finished, v ∉ path) : g.loopsFrom steps path node = [] := by
  induction h generalizing node path steps with
  | nil => simp at hnode
  | @cons head rest hedges hhead _ ih =>
    have haway' : ∀ v ∈ rest, v ∉ path := fun v hv => haway v (List.mem_cons_of_mem head hv)
    rcases List.mem_cons.1 hnode with rfl | hrest
    · cases steps with
      | zero => rfl
      | succ steps =>
        rw [loopsFrom_succ, List.flatMap_eq_nil_iff]
        intro next hnext
        have hlater : next ∈ rest := hedges next hnext
        have hbehind : ∀ v ∈ rest, v ∉ node :: path := by
          intro v hv hon
          rcases List.mem_cons.1 hon with rfl | hon
          · exact hhead hv
          · exact haway' v hv hon
        have hoff : (node :: path).contains next = false :=
          List.contains_eq_mem next _ ▸ decide_eq_false (hbehind next hlater)
        rw [loopsVia, hoff, if_neg Bool.false_ne_true]
        exact ih hlater hbehind
    · exact ih hrest haway'

/-! ## The search -/

/-- Visits nodes in turn until a cycle is met. -/
def inTurn (continuation : String → List String → Search) (nodes : List String) (s : Search) :
    Search :=
  nodes.foldl (fun s node => s.andThen (continuation node)) s

/-- The search goes from the end of a path to one of its successors. -/
def visit (g : Graph) (steps : Nat) (here : List String) (next : String) (finished : List String) :
    Search :=
  if here.contains next then .cycle (backTo next here)
  else if finished.contains next then .done finished
  else g.search steps here finished next

/-- A search visits the successors of a node one after the other before the node is finished. -/
theorem search_succ :
    g.search (steps + 1) path finished node =
      (inTurn (g.visit steps (node :: path)) (g.successors node) (.done finished)).andThen
        fun finished => .done (node :: finished) :=
  rfl

/-- What the outcome of a search says: the first of the cycles that were to be met, or that there
are none. In that case it is done with the nodes it was to visit, and those it is done with are
settled and not on the path. -/
inductive Answers (g : Graph) (path : List String) (cycles : List (List String))
    (visited : List String) : Search → Prop
  | cycle {members : List String} :
      cycles.head? = some members → Answers g path cycles visited (.cycle members)
  | done {finished : List String} :
      cycles = [] → g.Settled finished → (∀ v ∈ finished, v ∉ path) →
        (∀ v ∈ visited, v ∈ finished) → Answers g path cycles visited (.done finished)

/-- A node that the search is done with need not be visited. -/
theorem Settled.answers (h : g.Settled finished) (hnode : node ∈ finished)
    (haway : ∀ v ∈ finished, v ∉ path) :
    g.Answers path (g.loopsFrom steps path node) (node :: finished) (.done finished) :=
  Answers.done (h.loopsFrom_eq_nil hnode haway) h haway
    (List.forall_mem_cons.2 ⟨hnode, fun _ hv => hv⟩)

/-- A cycle that was found ends the search. -/
theorem inTurn_cycle {continuation : String → List String → Search} {nodes members : List String} :
    inTurn continuation nodes (.cycle members) = .cycle members := by
  induction nodes with
  | nil => rfl
  | cons node rest ih => exact ih

/-- If each visit gives an answer, so do all of them in turn. -/
theorem answers_inTurn {cycles : String → List (List String)}
    {continuation : String → List String → Search} {nodes : List String}
    (hvisit : ∀ node ∈ nodes, ∀ finished, g.Settled finished → (∀ v ∈ finished, v ∉ path) →
      g.Answers path (cycles node) (node :: finished) (continuation node finished)) :
    ∀ finished, g.Settled finished → (∀ v ∈ finished, v ∉ path) →
      g.Answers path (nodes.flatMap cycles) (nodes ++ finished)
        (inTurn continuation nodes (.done finished)) := by
  induction nodes with
  | nil =>
    intro finished hsettled haway
    exact Answers.done rfl hsettled haway fun v hv => hv
  | cons node rest ih =>
    intro finished hsettled haway
    have hnode := hvisit node List.mem_cons_self finished hsettled haway
    have hstep : inTurn continuation (node :: rest) (.done finished)
        = inTurn continuation rest (continuation node finished) :=
      rfl
    rw [hstep, List.flatMap_cons]
    generalize continuation node finished = outcome at hnode ⊢
    cases hnode with
    | cycle hfirst =>
      rw [inTurn_cycle]
      exact Answers.cycle (by rw [List.head?_append, hfirst, Option.some_or])
    | @done finished' hnone hsettled' haway' hvisited =>
      have hrest :=
        ih (fun v hv => hvisit v (List.mem_cons_of_mem node hv)) finished' hsettled' haway'
      rw [hnone, List.nil_append]
      generalize inTurn continuation rest (.done finished') = outcome at hrest ⊢
      cases hrest with
      | cycle hfirst => exact Answers.cycle hfirst
      | done hnone' hsettled'' haway'' hvisited' =>
        refine Answers.done hnone' hsettled'' haway'' ?_
        intro v hv
        -- What was finished before is among what was finished on the way.
        rcases List.mem_cons.1 hv with rfl | hv
        · exact hvisited' v (List.mem_append_right _ (hvisited v List.mem_cons_self))
        · rcases List.mem_append.1 hv with hv | hv
          · exact hvisited' v (List.mem_append_left _ hv)
          · exact hvisited' v (List.mem_append_right _ (hvisited v (List.mem_cons_of_mem node hv)))

/-- The search behind a node at the end of a path. There are always steps left, because the path
holds no node twice. -/
theorem answers_search (hg : g.Simple) (hinside : ∀ v ∈ node :: path, v ∈ g.nodes)
    (hnodup : (node :: path).Nodup) (hsteps : g.nodes.length < steps + path.length)
    (hsettled : g.Settled finished) (haway : ∀ v ∈ finished, v ∉ node :: path) :
    g.Answers path (g.loopsFrom steps path node) (node :: finished)
      (g.search steps path finished node) := by
  induction steps generalizing path finished node with
  | zero =>
    -- The path has no repetition and stays among the nodes, so the steps do not run out.
    have hlength : (node :: path).length ≤ g.nodes.length :=
      (List.subperm_of_subset hnodup hinside).length_le
    rw [List.length_cons] at hlength
    omega
  | succ steps ih =>
    -- What a single successor contributes: a cycle if it is on the path, nothing if it is
    -- finished, and by induction the answers of a search from it otherwise.
    have hvisit : ∀ next ∈ g.successors node, ∀ finished, g.Settled finished →
        (∀ v ∈ finished, v ∉ node :: path) →
        g.Answers (node :: path) (g.loopsVia steps (node :: path) next) (next :: finished)
          (g.visit steps (node :: path) next finished) := by
      intro next hnext finished hsettled haway
      unfold visit loopsVia
      by_cases hon : next ∈ node :: path
      · have hon' : (node :: path).contains next = true := List.contains_iff_mem.2 hon
        rw [if_pos hon', if_pos hon']
        exact Answers.cycle rfl
      · have hoff : ¬ (node :: path).contains next = true := mt List.contains_iff_mem.1 hon
        rw [if_neg hoff, if_neg hoff]
        by_cases hdone : next ∈ finished
        · rw [if_pos (List.contains_iff_mem.2 hdone)]
          exact hsettled.answers hdone haway
        · rw [if_neg (mt List.contains_iff_mem.1 hdone)]
          refine ih ?_ (List.nodup_cons.2 ⟨hon, hnodup⟩) ?_ hsettled ?_
          · exact List.forall_mem_cons.2 ⟨(hg.inside node next hnext).2, hinside⟩
          · rw [List.length_cons]
            omega
          · intro v hv hmem
            rcases List.mem_cons.1 hmem with rfl | hmem
            · exact hdone hv
            · exact haway v hv hmem
    have hbehind := answers_inTurn hvisit finished hsettled haway
    rw [search_succ, loopsFrom_succ]
    generalize inTurn (g.visit steps (node :: path)) (g.successors node) (.done finished) = outcome
      at hbehind ⊢
    cases hbehind with
    | cycle hfirst => exact Answers.cycle hfirst
    -- All successors are finished without a cycle, and so is the node itself now.
    | @done finished' hnone hsettled' haway' hvisited =>
      have hedges : ∀ next, g.Edge node next → next ∈ finished' := fun next hnext =>
        hvisited next (List.mem_append_left _ hnext)
      have hfresh : node ∉ finished' := fun hin => haway' node hin List.mem_cons_self
      refine Answers.done hnone (Settled.cons hedges hfresh hsettled') ?_ ?_
      · refine List.forall_mem_cons.2 ⟨(List.nodup_cons.1 hnodup).1, ?_⟩
        intro v hv hmem
        exact haway' v hv (List.mem_cons_of_mem node hmem)
      · refine List.forall_mem_cons.2 ⟨List.mem_cons_self, ?_⟩
        intro v hv
        exact List.mem_cons_of_mem node (hvisited v (List.mem_append_right _ hv))

/-- The search meets the first of the cycles. -/
theorem firstCycle?_eq (hg : g.Simple) : g.firstCycle? = g.loops.head? := by
  have hvisit : ∀ node ∈ g.nodes, ∀ finished, g.Settled finished → (∀ v ∈ finished, v ∉ []) →
      g.Answers [] (g.loopsFrom (g.nodes.length + 1) [] node) (node :: finished)
        (if finished.contains node then Search.done finished
          else g.search (g.nodes.length + 1) [] finished node) := by
    intro node hnode finished hsettled haway
    by_cases hdone : node ∈ finished
    · rw [if_pos (List.contains_iff_mem.2 hdone)]
      exact hsettled.answers hdone haway
    · rw [if_neg (mt List.contains_iff_mem.1 hdone)]
      refine answers_search hg ?_ (List.nodup_singleton node) (Nat.lt_succ_self _) hsettled ?_
      · simpa using hnode
      · intro v hv hmem
        exact hdone (List.mem_singleton.1 hmem ▸ hv)
  have hall : g.Answers [] g.loops (g.nodes ++ []) g.searchAll :=
    answers_inTurn hvisit [] Settled.nil (by simp)
  unfold firstCycle?
  generalize g.searchAll = outcome at hall ⊢
  cases hall with
  | cycle hfirst => exact hfirst.symm
  | done hnone _ _ _ => simp [hnone]

/-! ## What is on the list -/

/-- The way back to a node on the path is what was passed since, in the order in which it was
passed. -/
theorem backTo_append {before behind : List String} (h : next ∉ before) :
    backTo next (before ++ next :: behind) = next :: before.reverse := by
  have hbefore : ∀ v ∈ before, (v != next) = true := fun v hv => by
    have hother : v ≠ next := fun heq => h (heq ▸ hv)
    simpa using hother
  simp [backTo, List.takeWhile_append_of_pos hbefore]

/-- An edge from the end of a path back to one of its nodes closes an elementary cycle. -/
theorem isElementary_backTo (hg : g.Simple)
    (hpath : List.IsChain (fun u v => g.Edge v u) (node :: path)) (hnodup : (node :: path).Nodup)
    (hedge : g.Edge node next) (hon : next ∈ node :: path) :
    IsElementary g.Edge (backTo next (node :: path) : Cycle String) := by
  have hclosed : List.IsChain (fun u v => g.Edge v u) (next :: node :: path) :=
    List.isChain_cons_cons.2 ⟨hedge, hpath⟩
  rcases List.append_of_mem hon with ⟨before, behind, heq⟩
  rw [heq] at hnodup hclosed
  rcases List.nodup_cons.1 (List.nodup_middle.1 hnodup) with ⟨hnext, hothers⟩
  have hbefore : next ∉ before := fun h => hnext (List.mem_append_left _ h)
  rw [heq, backTo_append hbefore]
  refine ⟨?_, ?_, ?_⟩
  · -- A path that ends in the node itself would be closed by an edge from it to itself.
    cases before with
    | nil =>
      have hsame : node = next := (List.cons.inj heq).1
      exact absurd (hsame ▸ hedge) (hg.loopless next)
    | cons v before => simp
  · have hfirst : next ∉ before.reverse := mt List.mem_reverse.1 hbefore
    exact Cycle.nodup_coe_iff.2
      (List.nodup_cons.2 ⟨hfirst, List.nodup_reverse.2 hothers.of_append_left⟩)
  · have hback : List.IsChain (fun u v => g.Edge v u) (next :: before ++ [next]) :=
      (List.isChain_split.1 hclosed).1
    have hround : List.IsChain g.Edge (next :: before ++ [next]).reverse :=
      List.isChain_reverse.2 hback
    simpa using hround

/-- What is on the list of loops is an elementary cycle. -/
theorem isElementary_of_mem_loopsFrom (hg : g.Simple)
    (hpath : List.IsChain (fun u v => g.Edge v u) (node :: path)) (hnodup : (node :: path).Nodup)
    (h : c ∈ g.loopsFrom steps path node) : IsElementary g.Edge (c : Cycle String) := by
  induction steps generalizing path node with
  | zero => simp [loopsFrom] at h
  | succ steps ih =>
    rw [loopsFrom_succ, List.mem_flatMap] at h
    rcases h with ⟨next, hedge, hc⟩
    unfold loopsVia at hc
    split at hc
    · rename_i hon
      rw [List.mem_singleton.1 hc]
      exact isElementary_backTo hg hpath hnodup hedge (List.contains_iff_mem.1 hon)
    · rename_i hoff
      have hfresh : next ∉ node :: path := mt List.contains_iff_mem.2 hoff
      exact ih (List.isChain_cons_cons.2 ⟨hedge, hpath⟩) (List.nodup_cons.2 ⟨hfresh, hnodup⟩) hc

/-- A cycle is met when the search enters it at its first node and stays on it. -/
theorem mem_loopsFrom_of_isChain {more : List String}
    (hround : List.IsChain g.Edge (node :: (rest ++ [first])))
    (hnodup : (path.reverse ++ node :: rest).Nodup) (hfirst : (node :: path).reverse = first :: more)
    (hsteps : rest.length < steps) : path.reverse ++ node :: rest ∈ g.loopsFrom steps path node := by
  -- The induction is on the part of the round that lies ahead; the path behind it grows.
  induction rest generalizing node path steps more with
  | nil =>
    cases steps with
    | zero => simp at hsteps
    | succ steps =>
      have hedge : g.Edge node first := by simpa using hround
      have hhere : node :: path = more.reverse ++ [first] := by
        rw [← List.reverse_reverse (node :: path), hfirst, List.reverse_cons]
      have hnodup' : (first :: more).Nodup := by
        rw [← hfirst, List.reverse_cons]
        exact hnodup
      have hnot : first ∉ more.reverse := mt List.mem_reverse.1 (List.nodup_cons.1 hnodup').1
      have hon : (node :: path).contains first = true :=
        List.contains_iff_mem.2 (hhere ▸ List.mem_append_right _ List.mem_cons_self)
      -- The first node closes the round, and the way back to it is the whole path.
      have hback : backTo first (node :: path) = path.reverse ++ [node] := by
        rw [hhere, backTo_append hnot, List.reverse_reverse, ← hfirst, List.reverse_cons]
      rw [loopsFrom_succ, List.mem_flatMap]
      refine ⟨first, hedge, ?_⟩
      rw [loopsVia, if_pos hon, hback]
      exact List.mem_singleton_self _
  | cons next rest ih =>
    cases steps with
    | zero => simp at hsteps
    | succ steps =>
      rcases List.isChain_cons_cons.1 hround with ⟨hedge, hrest⟩
      have hlist :
          path.reverse ++ node :: next :: rest = (node :: path).reverse ++ next :: rest := by
        simp
      have hfresh : next ∉ node :: path := by
        rw [hlist] at hnodup
        intro hmem
        have hdisjoint := List.disjoint_of_nodup_append hnodup
        exact hdisjoint (List.mem_reverse.2 hmem) List.mem_cons_self
      have hlonger : (next :: node :: path).reverse = first :: (more ++ [next]) := by
        rw [List.reverse_cons, hfirst, List.cons_append]
      rw [loopsFrom_succ, List.mem_flatMap]
      refine ⟨next, hedge, ?_⟩
      rw [loopsVia, if_neg (mt List.contains_iff_mem.1 hfresh), hlist]
      exact ih hrest (hlist ▸ hnodup) hlonger (Nat.lt_of_succ_lt_succ hsteps)

/-- The cycles on the list are the elementary ones, from each of their nodes on. -/
theorem mem_loops_iff (hg : g.Simple) :
    c ∈ g.loops ↔ IsElementary g.Edge (c : Cycle String) := by
  constructor
  · intro h
    rcases List.mem_flatMap.1 h with ⟨node, -, hc⟩
    exact isElementary_of_mem_loopsFrom hg (List.isChain_singleton node)
      (List.nodup_singleton node) hc
  · intro h
    cases c with
    | nil => exact absurd h.two_le (by simp)
    | cons start tail =>
      have hround : List.IsChain g.Edge (start :: (tail ++ [start])) := h.chain
      have hinside := hg.mem_nodes_of_isChain hround
      have hstart : start ∈ g.nodes := hinside start (by simp)
      have hnodup : (start :: tail).Nodup := h.nodup
      have hlength : (start :: tail).length ≤ g.nodes.length :=
        (List.subperm_of_subset hnodup (List.forall_mem_cons.2
          ⟨hstart, fun v hv => hinside v (List.mem_append_left _ hv)⟩)).length_le
      rw [List.length_cons] at hlength
      exact List.mem_flatMap.2 ⟨start, hstart,
        mem_loopsFrom_of_isChain hround hnodup rfl (by omega)⟩

/-! ## Graphs with the same edges -/

/-- How many steps there are makes no difference as long as they are enough. -/
theorem loopsFrom_congr {g' : Graph} {steps' : Nat} (hg : g.Simple)
    (hsuccessors : ∀ u, g'.successors u = g.successors u) (hinside : ∀ v ∈ node :: path, v ∈ g.nodes)
    (hnodup : (node :: path).Nodup) (hsteps : g.nodes.length < steps + path.length)
    (hsteps' : g.nodes.length < steps' + path.length) :
    g'.loopsFrom steps' path node = g.loopsFrom steps path node := by
  have hlength : (node :: path).length ≤ g.nodes.length :=
    (List.subperm_of_subset hnodup hinside).length_le
  rw [List.length_cons] at hlength
  induction steps generalizing path node steps' with
  | zero => omega
  | succ steps ih =>
    cases steps' with
    | zero => omega
    | succ steps' =>
      rw [loopsFrom_succ, loopsFrom_succ, hsuccessors]
      refine List.flatMap_congr ?_
      intro next hnext
      unfold loopsVia
      split
      · rfl
      · rename_i hoff
        have hfresh : next ∉ node :: path := mt List.contains_iff_mem.2 hoff
        have hinside' : ∀ v ∈ next :: node :: path, v ∈ g.nodes :=
          List.forall_mem_cons.2 ⟨(hg.inside node next hnext).2, hinside⟩
        have hnodup' : (next :: node :: path).Nodup := List.nodup_cons.2 ⟨hfresh, hnodup⟩
        have hlength' : (next :: node :: path).length ≤ g.nodes.length :=
          (List.subperm_of_subset hnodup' hinside').length_le
        refine ih hinside' hnodup' ?_ ?_ hlength'
        · rw [List.length_cons]
          omega
        · rw [List.length_cons]
          omega

/-- Nodes without edges, wherever they stand, make no difference to the cycles and their order. -/
theorem loops_of_filter {g' : Graph} {related : String → Bool} (hg : g.Simple)
    (hnodes : g'.nodes.filter related = g.nodes)
    (hsuccessors : ∀ u, g'.successors u = g.successors u) : g'.loops = g.loops := by
  have hmore : g.nodes.length ≤ g'.nodes.length := hnodes ▸ List.length_filter_le _ _
  have hrelated : ∀ u ∈ g.nodes,
      g'.loopsFrom (g'.nodes.length + 1) [] u = g.loopsFrom (g.nodes.length + 1) [] u := by
    intro u hu
    refine loopsFrom_congr hg hsuccessors (by simpa using hu) (List.nodup_singleton u) ?_ ?_
    · exact Nat.lt_succ_self _
    · exact Nat.lt_succ_of_le hmore
  -- The other nodes have no successors, so that no loop begins at them.
  have hunrelated : ∀ u, related u = false → g'.loopsFrom (g'.nodes.length + 1) [] u = [] := by
    intro u hu
    have hnone : g'.successors u = [] := by
      rw [hsuccessors, List.eq_nil_iff_forall_not_mem]
      intro w hedge
      have hin : u ∈ g'.nodes.filter related := hnodes ▸ (hg.inside u w hedge).1
      simp [hu] at hin
    rw [loopsFrom_succ, hnone, List.flatMap_nil]
  have hskip : ∀ names : List String,
      names.flatMap (g'.loopsFrom (g'.nodes.length + 1) []) =
        (names.filter related).flatMap (g'.loopsFrom (g'.nodes.length + 1) []) := by
    intro names
    induction names with
    | nil => rfl
    | cons u rest ih =>
      cases hu : related u with
      | true => rw [List.filter_cons_of_pos hu, List.flatMap_cons, List.flatMap_cons, ih]
      | false =>
        rw [List.filter_cons_of_neg (by simp [hu]), List.flatMap_cons, hunrelated u hu,
          List.nil_append, ih]
  calc g'.loops
      = (g'.nodes.filter related).flatMap (g'.loopsFrom (g'.nodes.length + 1) []) := hskip g'.nodes
    _ = g.nodes.flatMap (g'.loopsFrom (g'.nodes.length + 1) []) := by rw [hnodes]
    _ = g.loops := List.flatMap_congr hrelated

end Graph
end Workflows
