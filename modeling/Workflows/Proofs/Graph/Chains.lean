import Mathlib.Order.Bounds.Basic
import Mathlib.Order.WellFoundedSet
import Workflows.Proofs.Graph.Elementary

/-!
# Chains — the longest paths of a graph without cycles

The length of a longest path is found by taking nodes away: all those at once that no other one
leads to, then again, until nothing is left. Each round takes the first node of every path that is
left, so no path is longer than the number of rounds; and a node that a round leaves has one before
it, so some path is as long. Nodes on a cycle are never taken away.

Main definitions:

* `IsPath`, `Acyclic` — the paths of a relation, and relations that have no cycles;
* `Graph.length_le_of_layers?`, `Graph.exists_chain_of_layers?` — the rounds and the paths;
* `Graph.longestChain?_eq_some_iff` — when there is a longest path, and how long it is.
-/

namespace Workflows

/-- A path from one node to the next, through none of them twice. -/
structure IsPath (nodes : List String) (r : String → String → Prop) (path : List String) :
    Prop where
  inside : ∀ u ∈ path, u ∈ nodes
  chain : path.IsChain r
  nodup : path.Nodup

/-- No way leads from anywhere back to where it starts. -/
def Acyclic (r : String → String → Prop) : Prop :=
  ∀ u, ¬ Relation.TransGen r u u

/-- Where there are no cycles, nothing comes twice however one goes on. -/
theorem Acyclic.nodup {r : String → String → Prop} (h : Acyclic r) {chain : List String}
    (hchain : chain.IsChain r) : chain.Nodup := by
  have hbefore : chain.Pairwise (Relation.TransGen r) :=
    List.isChain_iff_pairwise.1 (hchain.imp fun _ _ => Relation.TransGen.single)
  refine hbefore.imp fun {u v} huv heq => ?_
  exact h u (heq ▸ huv)

namespace Graph

variable {g : Graph} {left chain : List String} {u v : String} {rounds n : Nat}

/-! ## Rounds -/

/-- A node is entered if one of the others leads to it. -/
theorem isEntered_iff : g.isEntered left v = true ↔ ∃ u ∈ left, g.Edge u v := by
  simp [isEntered, Edge]

def entered (g : Graph) (left : List String) : List String :=
  left.filter (g.isEntered left)

theorem mem_entered : v ∈ g.entered left ↔ v ∈ left ∧ ∃ u ∈ left, g.Edge u v := by
  rw [entered, List.mem_filter, isEntered_iff]

/-- Without nodes there are no layers. -/
theorem layers?_nil : g.layers? rounds [] = some 0 := by
  cases rounds <;> rfl

/-- A layer is what no other node leads to, and below it lie the layers of the rest. -/
theorem layers?_succ (h : left ≠ []) :
    g.layers? (rounds + 1) left = (g.layers? rounds (g.entered left)).map (· + 1) := by
  cases left with
  | nil => exact absurd rfl h
  | cons u rest => rfl

/-- The last round takes away what is left; each one before leaves something to the next. -/
theorem of_layers? (hleft : left ≠ []) (h : g.layers? rounds left = some n) :
    ∃ rounds' n', rounds = rounds' + 1 ∧ n = n' + 1 ∧
      g.layers? rounds' (g.entered left) = some n' := by
  cases rounds with
  | zero =>
    cases left with
    | nil => exact absurd rfl hleft
    | cons u rest => cases h
  | succ rounds =>
    rw [layers?_succ hleft] at h
    rcases Option.map_eq_some_iff.1 h with ⟨n', hrest, rfl⟩
    exact ⟨rounds, n', rfl, rfl, hrest⟩

/-! ## Paths -/

/-- Whatever comes behind the first node of a chain is entered from the chain. -/
theorem tail_entered (hchain : (u :: chain).IsChain g.Edge) (hleft : ∀ w ∈ u :: chain, w ∈ left) :
    ∀ w ∈ chain, w ∈ g.entered left := by
  induction chain generalizing u with
  | nil => simp
  | cons v rest ih =>
    rcases List.isChain_cons_cons.1 hchain with ⟨hedge, hrest⟩
    rw [List.forall_mem_cons] at hleft
    have hv : v ∈ g.entered left :=
      mem_entered.2 ⟨hleft.2 v List.mem_cons_self, u, hleft.1, hedge⟩
    exact List.forall_mem_cons.2 ⟨hv, ih hrest hleft.2⟩

/-- A chain has no more nodes than it takes rounds until nothing is left. -/
theorem length_le_of_layers? (h : g.layers? rounds left = some n) (hchain : chain.IsChain g.Edge)
    (hleft : ∀ w ∈ chain, w ∈ left) : chain.length ≤ n := by
  -- The induction is on the chain, whose first node the first round takes away.
  induction chain generalizing rounds left n with
  | nil => exact Nat.zero_le n
  | cons u rest ih =>
    have hsome : left ≠ [] := List.ne_nil_of_mem (hleft u List.mem_cons_self)
    rcases of_layers? hsome h with ⟨rounds', n', -, rfl, hnext⟩
    exact Nat.succ_le_succ (ih hnext hchain.tail (tail_entered hchain hleft))

/-- Some chain has as many nodes as it takes rounds. -/
theorem exists_chain_of_layers? (h : g.layers? rounds left = some n) :
    ∃ chain : List String, chain.IsChain g.Edge ∧ (∀ w ∈ chain, w ∈ left) ∧ chain.length = n := by
  -- The induction is on the rounds that take something away. A chain through what the first one
  -- leaves can be continued to the front, since its first node was left for having one before it.
  induction n generalizing rounds left with
  | zero => exact ⟨[], List.isChain_nil, by simp, rfl⟩
  | succ n ih =>
    have hsome : left ≠ [] := by
      rintro rfl
      simp [layers?_nil] at h
    rcases of_layers? hsome h with ⟨rounds', n', -, hn, hnext⟩
    rcases ih (Nat.succ.inj hn ▸ hnext) with ⟨chain, hchain, hinside, hlength⟩
    have hleft : ∀ w ∈ chain, w ∈ left := fun w hw => (mem_entered.1 (hinside w hw)).1
    cases chain with
    | nil =>
      rcases List.exists_mem_of_ne_nil left hsome with ⟨u, hu⟩
      exact ⟨[u], List.isChain_singleton u, by simpa using hu, congrArg (· + 1) hlength⟩
    | cons v rest =>
      rcases (mem_entered.1 (hinside v List.mem_cons_self)).2 with ⟨u, hu, hedge⟩
      refine ⟨u :: v :: rest, List.isChain_cons_cons.2 ⟨hedge, hchain⟩, ?_, ?_⟩
      · exact List.forall_mem_cons.2 ⟨hu, hleft⟩
      · simpa using hlength

/-! ## Cycles -/

/-- The rounds do not come to an end as long as there is a cycle, since none of them takes away a
node on a cycle. -/
theorem layers?_of_cyclic (hleft : ∀ v, Relation.TransGen g.Edge v v → v ∈ left)
    (hcycle : Relation.TransGen g.Edge u u) : g.layers? rounds left = none := by
  by_contra hends
  rcases Option.ne_none_iff_exists'.1 hends with ⟨n, h⟩
  induction rounds generalizing left n with
  | zero =>
    rcases of_layers? (List.ne_nil_of_mem (hleft u hcycle)) h with ⟨rounds', n', hzero, -⟩
    cases hzero
  | succ rounds ih =>
    rcases of_layers? (List.ne_nil_of_mem (hleft u hcycle)) h with ⟨rounds', n', hsucc, -, hnext⟩
    have hsame : rounds' = rounds := (Nat.succ.inj hsucc).symm
    subst hsame
    refine ih ?_ (by simp [hnext]) n' hnext
    intro v hv
    -- The node before on the cycle is on a cycle too.
    rcases Relation.TransGen.tail'_iff.1 hv with ⟨w, hback, hedge⟩
    exact mem_entered.2 ⟨hleft v hv, w, hleft w (Relation.TransGen.head' hedge hback), hedge⟩

/-- Without cycles some node has none before it. -/
theorem exists_source (h : Acyclic g.Edge) (hleft : left ≠ []) :
    ∃ u ∈ left, u ∉ g.entered left := by
  have horder : IsStrictOrder String (Relation.TransGen g.Edge) := {
    irrefl := h
    trans := fun _ _ _ => Relation.TransGen.trans }
  have hfounded : {u | u ∈ left}.WellFoundedOn (Relation.TransGen g.Edge) :=
    (List.finite_toSet left).wellFoundedOn
  rcases List.exists_mem_of_ne_nil left hleft with ⟨u, hu⟩
  rcases hfounded.has_min {w | w.1 ∈ left} ⟨⟨u, hu⟩, hu⟩ with ⟨⟨w, hw⟩, -, hmin⟩
  refine ⟨w, hw, ?_⟩
  intro hentered
  rcases (mem_entered.1 hentered).2 with ⟨v, hv, hedge⟩
  exact hmin ⟨v, hv⟩ hv (Relation.TransGen.single hedge)

/-- Without cycles every round takes something away, so there are no more rounds than nodes. -/
theorem isSome_layers? (h : Acyclic g.Edge) (hrounds : left.length ≤ rounds) :
    (g.layers? rounds left).isSome = true := by
  induction rounds generalizing left with
  | zero =>
    rw [List.length_eq_zero_iff.1 (Nat.le_zero.1 hrounds), layers?_nil]
    rfl
  | succ rounds ih =>
    by_cases hleft : left = []
    · rw [hleft, layers?_nil]
      rfl
    · rcases exists_source h hleft with ⟨u, hu, hsource⟩
      have hfewer : (g.entered left).length < left.length := by
        refine List.length_filter_lt_length_iff_exists.2 ⟨u, hu, fun hentered => hsource ?_⟩
        exact List.mem_filter.2 ⟨hu, hentered⟩
      rw [layers?_succ hleft, Option.isSome_map]
      exact ih (Nat.le_of_lt_succ (Nat.lt_of_lt_of_le hfewer hrounds))

/-- A longest path is found exactly if the graph has no cycle, and the number that is found is the
greatest number of nodes on a path. -/
theorem longestChain?_eq_some_iff (hg : g.Simple) :
    g.longestChain? = some n ↔
      Acyclic g.Edge ∧ IsGreatest {k | ∃ path, IsPath g.nodes g.Edge path ∧ path.length = k} n := by
  -- The layers give a chain of their number, and each path gets through at most one node of a
  -- layer.
  have hgreatest : ∀ {m}, Acyclic g.Edge → g.longestChain? = some m →
      IsGreatest {k | ∃ path, IsPath g.nodes g.Edge path ∧ path.length = k} m := by
    intro m hacyclic h
    refine ⟨?_, ?_⟩
    · rcases exists_chain_of_layers? h with ⟨path, hchain, hinside, hlength⟩
      exact ⟨path, ⟨hinside, hchain, hacyclic.nodup hchain⟩, hlength⟩
    · intro k hexists
      rcases hexists with ⟨path, hpath, rfl⟩
      exact length_le_of_layers? h hpath.chain hpath.inside
  constructor
  · intro h
    have hacyclic : Acyclic g.Edge := by
      intro u hcycle
      have hinside : ∀ v, Relation.TransGen g.Edge v v → v ∈ g.nodes := by
        intro v hv
        rcases Relation.TransGen.head'_iff.1 hv with ⟨w, hedge, -⟩
        exact (hg.inside v w hedge).1
      rw [longestChain?, layers?_of_cyclic hinside hcycle] at h
      cases h
    exact ⟨hacyclic, hgreatest hacyclic h⟩
  · intro hboth
    rcases hboth with ⟨hacyclic, hn⟩
    rcases Option.isSome_iff_exists.1 (isSome_layers? hacyclic (Nat.le_refl g.nodes.length))
      with ⟨m, hm⟩
    rw [longestChain?, hm, (hgreatest hacyclic hm).unique hn]

end Graph
end Workflows
