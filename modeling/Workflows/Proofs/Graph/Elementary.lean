import Mathlib.Data.List.Cycle
import Mathlib.Data.Set.Card
import Workflows.Graph.Cycles
import Workflows.Proofs.Graph.Walks
import Workflows.Proofs.NameSet

/-!
# Elementary — the enumeration of elementary cycles is exact

An elementary cycle has no first node. Each of them is listed once all the same, because the search
lists it from its least node on: it starts at each node in turn, and follows paths through greater
nodes only. A path is given up when no way back to the start is left, which loses no cycle. The
limit cuts the list of all cycles off and has no other effect.

Main definitions:

* `IsElementary` — the elementary cycles of a relation, with at least two members;
* `Graph.Simple` — what the graphs of documents have in common;
* `Graph.allCycles`, `Graph.cyclesUpTo_eq` — all cycles, of which the limit leaves a first part;
* `Graph.mem_allCycles_iff`, `Graph.nodup_allCycles` — each elementary cycle is listed, once.
-/

namespace Workflows

/-- A cycle that goes along a relation, has two members at least, and passes through none of them
twice. -/
structure IsElementary (r : String → String → Prop) (c : Cycle String) : Prop where
  two_le : 2 ≤ c.length
  nodup : c.Nodup
  chain : c.Chain r

/-- A cycle has members. -/
theorem IsElementary.exists_mem {r : String → String → Prop} {c : Cycle String}
    (h : IsElementary r c) : ∃ name, name ∈ c := by
  induction c using Quotient.inductionOn with
  | h names =>
    have hpos : 0 < names.length := Nat.lt_of_lt_of_le Nat.two_pos h.two_le
    exact List.exists_mem_of_length_pos hpos

namespace Graph

/-- No node and no edge is listed twice, and edges lead to other nodes of the graph. -/
structure Simple (g : Graph) : Prop where
  nodes : g.nodes.Nodup
  successors : ∀ u, (g.successors u).Nodup
  inside : ∀ u v, g.Edge u v → u ∈ g.nodes ∧ v ∈ g.nodes
  loopless : ∀ u, ¬ g.Edge u u

end Graph

/-! ## The list of a cycle that begins with its least member -/

/-- The first of the names is less than all others. -/
def LeastFirst : List String → Prop
  | [] => False
  | start :: tail => ∀ v ∈ tail, start < v

/-- Among some names there is a first one. -/
theorem exists_least {names : List String} (h : names ≠ []) :
    ∃ start ∈ names, ∀ v ∈ names, start ≤ v := by
  induction names with
  | nil => exact absurd rfl h
  | cons name rest ih =>
    by_cases hrest : rest = []
    · refine ⟨name, List.mem_cons_self, ?_⟩
      intro v hv
      have heq : v = name := by simpa [hrest] using hv
      exact heq ▸ String.le_refl name
    · rcases ih hrest with ⟨least, hleast, hbelow⟩
      rcases String.le_total name least with hle | hle
      · refine ⟨name, List.mem_cons_self, ?_⟩
        intro v hv
        rcases List.mem_cons.1 hv with rfl | hv
        · exact String.le_refl _
        · exact String.le_trans hle (hbelow v hv)
      · refine ⟨least, List.mem_cons_of_mem name hleast, ?_⟩
        intro v hv
        rcases List.mem_cons.1 hv with rfl | hv
        · exact hle
        · exact hbelow v hv

/-- A cycle without repetitions can be listed from its least member on. -/
theorem exists_leastFirst {c : Cycle String} (hnodup : c.Nodup) (hlength : 0 < c.length) :
    ∃ l : List String, LeastFirst l ∧ (l : Cycle String) = c := by
  induction c using Quotient.inductionOn with
  | h names =>
    have hne : names ≠ [] := List.ne_nil_of_length_pos hlength
    rcases exists_least hne with ⟨start, hstart, hbelow⟩
    rcases List.append_of_mem hstart with ⟨before, behind, rfl⟩
    refine ⟨start :: behind ++ before, ?_, Cycle.coe_eq_coe.2 List.isRotated_append⟩
    intro v hv
    have hv' : v ∈ before ∨ v ∈ behind := (List.mem_append.1 hv).symm
    have hle : start ≤ v := hbelow v (by simpa using hv'.imp id Or.inr)
    have hother : v ≠ start := by
      have hnodup' : (start :: (before ++ behind)).Nodup :=
        List.nodup_middle.1 (Cycle.nodup_coe_iff.1 hnodup)
      have hnot : start ∉ before ++ behind := (List.nodup_cons.1 hnodup').1
      intro heq
      exact hnot (heq ▸ List.mem_append.2 hv')
    by_contra hnot
    exact hother (String.le_antisymm (String.not_lt.1 hnot) hle)

/-- There is only one such list. -/
theorem LeastFirst.eq_of_isRotated {l l' : List String} (h : LeastFirst l) (h' : LeastFirst l')
    (hnodup : l.Nodup) (hrotated : l ~r l') : l = l' := by
  cases l with
  | nil => exact absurd h id
  | cons start tail =>
    cases l' with
    | nil => exact absurd h' id
    | cons start' tail' =>
      -- Each of the two first names is in the other list, so neither is less than the other.
      have hsame : start = start' := by
        rcases List.mem_cons.1 (hrotated.mem_iff.1 List.mem_cons_self) with heq | hmem
        · exact heq
        · rcases List.mem_cons.1 (hrotated.mem_iff.2 List.mem_cons_self) with heq | hmem'
          · exact heq.symm
          · exact absurd (h start' hmem') (String.lt_asymm (h' start hmem))
      subst hsame
      rcases hrotated with ⟨n, hn⟩
      -- A rotation that keeps the first name of a list without repetitions keeps the list.
      have hpos : 0 < (start :: tail).length := Nat.succ_pos _
      have hfirst : ((start :: tail).rotate n)[0]? = some start := by
        rw [hn]
        rfl
      have hindex : (start :: tail)[n % (start :: tail).length]? = (start :: tail)[0]? := by
        rw [List.getElem?_rotate hpos, Nat.zero_add] at hfirst
        exact hfirst
      have hzero : n % (start :: tail).length = 0 :=
        (List.getElem?_inj (Nat.mod_lt n hpos) hnodup).1 hindex
      have hkept : (start :: tail).rotate n = start :: tail :=
        hnodup.rotate_eq_self_iff.2 (Or.inl hzero)
      exact hkept.symm.trans hn

namespace Graph

variable {g : Graph} {start node next : String} {steps limit : Nat}
  {free path tail found c : List String}

/-! ## Without a limit -/

/-- The cycles that close a path, as the search meets them. -/
def closing (g : Graph) (start : String) : Nat → List String → List String → List (List String)
  | 0, _, _ => []
  | _, _, [] => []
  | steps + 1, free, node :: path =>
    (g.successors node).flatMap fun next =>
      if next = start then [(node :: path).reverse]
      else if (g.leadingTo start free).contains next then
        closing g start steps (free.erase next) (next :: node :: path)
      else []

def behind (g : Graph) (start : String) (steps : Nat) (free : List String) (node : String)
    (path : List String) (next : String) : List (List String) :=
  if next = start then [(node :: path).reverse]
  else if (g.leadingTo start free).contains next then
    g.closing start steps (free.erase next) (next :: node :: path)
  else []

/-- The ways to close a cycle go by way of the successors of its last node. -/
theorem closing_succ :
    g.closing start (steps + 1) free (node :: path) =
      (g.successors node).flatMap (g.behind start steps free node path) :=
  rfl

def cyclesThrough (g : Graph) (start : String) : List (List String) :=
  let free := g.nodes.filter (start < ·)
  g.closing start (free.length + 1) free [start]

/-- All cycles, in the order in which they are found. -/
def allCycles (g : Graph) : List (List String) :=
  (NameSet.insertAll g.nodes []).flatMap g.cyclesThrough

/-- A part that is cut off at the limit may be cut off after something is added, too. -/
theorem take_append_take {β : Type} (l m : List β) :
    (l.take limit ++ m).take limit = (l ++ m).take limit := by
  by_cases hshort : l.length ≤ limit
  · rw [List.take_of_length_le hshort]
  · have hlength : limit ≤ l.length := Nat.le_of_not_le hshort
    have hcut : limit ≤ (l.take limit).length := by
      rw [List.length_take, Nat.min_eq_left hlength]
    rw [List.take_append_of_le_length hcut, List.take_append_of_le_length hlength, List.take_take,
      Nat.min_self]

/-- Steps that each add something to a list, cut off at the limit, add everything, cut off there. -/
theorem foldl_eq_take {α β : Type} {step : List β → α → List β} {adds : α → List β}
    (hstep : ∀ found a, found.length ≤ limit → step found a = (found ++ adds a).take limit)
    (l : List α) :
    ∀ found : List β, found.length ≤ limit →
      l.foldl step found = (found ++ l.flatMap adds).take limit := by
  induction l with
  | nil =>
    intro found hfound
    simp [List.take_of_length_le hfound]
  | cons a rest ih =>
    intro found hfound
    calc (a :: rest).foldl step found
        = rest.foldl step ((found ++ adds a).take limit) := by
          rw [List.foldl_cons, hstep _ _ hfound]
      _ = ((found ++ adds a).take limit ++ rest.flatMap adds).take limit :=
          ih _ (List.length_take_le _ _)
      _ = (found ++ adds a ++ rest.flatMap adds).take limit := take_append_take _ _
      _ = (found ++ (a :: rest).flatMap adds).take limit := by
          rw [List.flatMap_cons, List.append_assoc]

/-- The enumeration goes on from what it has found, as far as the limit lets it. -/
theorem closures_eq (found : List (List String)) (hfound : found.length ≤ limit) :
    g.closures limit start steps free path found =
      (found ++ g.closing start steps free path).take limit := by
  induction steps generalizing free path found with
  | zero => simp [closures, closing, List.take_of_length_le hfound]
  | succ steps ih =>
    cases path with
    | nil => simp [closures, closing, List.take_of_length_le hfound]
    | cons node path =>
      refine foldl_eq_take ?_ _ found hfound
      intro found next hfound
      split
      · rename_i hfull
        rw [List.take_append_of_le_length hfull, List.take_of_length_le hfound]
      · rename_i hroom
        split
        · have hlength : (found ++ [(node :: path).reverse]).length ≤ limit := by
            rw [List.length_append, List.length_singleton]
            exact Nat.lt_of_not_le hroom
          rw [List.take_of_length_le hlength]
        · split
          · exact ih found hfound
          · rw [List.append_nil, List.take_of_length_le hfound]

/-- With a limit, as many of all cycles are found. -/
theorem cyclesUpTo_eq (g : Graph) (limit : Nat) :
    g.cyclesUpTo limit = g.allCycles.take limit := by
  have hfrom : ∀ (found : List (List String)) (start : String), found.length ≤ limit →
      g.cyclesFrom limit found start = (found ++ g.cyclesThrough start).take limit :=
    fun found start hfound => closures_eq found hfound
  exact foldl_eq_take hfrom (NameSet.insertAll g.nodes []) [] (Nat.zero_le _)

/-! ## Which cycles are found -/

/-- The way through free nodes by which a path from the start is closed. -/
structure Closes (g : Graph) (start node : String) (free tail : List String) : Prop where
  nodup : tail.Nodup
  free : ∀ v ∈ tail, v ∈ free
  chain : List.IsChain g.Edge (node :: (tail ++ [start]))

/-- A cycle is closed by a link back to its start. -/
theorem closes_nil_iff : g.Closes start node free [] ↔ g.Edge node start := by
  refine ⟨fun h => by simpa using h.chain, fun h => ⟨List.nodup_nil, by simp, by simpa using h⟩⟩

/-- A cycle is closed by way of a free node from which it is closed without this node. -/
theorem closes_cons_iff (hfree : free.Nodup) :
    g.Closes start node free (next :: tail) ↔
      g.Edge node next ∧ next ∈ free ∧ g.Closes start next (free.erase next) tail := by
  constructor
  · intro h
    rcases List.nodup_cons.1 h.nodup with ⟨hnext, htail⟩
    rcases List.isChain_cons_cons.1 h.chain with ⟨hedge, hchain⟩
    refine ⟨hedge, h.free next List.mem_cons_self, htail, ?_, hchain⟩
    intro v hv
    have hother : v ≠ next := fun heq => hnext (heq ▸ hv)
    exact (List.mem_erase_of_ne hother).2 (h.free v (List.mem_cons_of_mem next hv))
  · intro hboth
    rcases hboth with ⟨hedge, hmem, h⟩
    have hnext : next ∉ tail := fun hin => hfree.not_mem_erase (h.free next hin)
    refine ⟨List.nodup_cons.2 ⟨hnext, h.nodup⟩, ?_,
      List.isChain_cons_cons.2 ⟨hedge, h.chain⟩⟩
    intro v hv
    rcases List.mem_cons.1 hv with rfl | hv
    · exact hmem
    · exact List.mem_of_mem_erase (h.free v hv)

/-- The search does not give up a node from which the path can be closed. -/
theorem Closes.mem_leadingTo (h : g.Closes start node free (next :: tail)) :
    next ∈ g.leadingTo start free :=
  mem_leadingTo_of_path (List.isChain_cons_cons.1 h.chain).2 h.free h.nodup

/-- The search finds exactly the ways that close the cycle. -/
theorem mem_closing_iff (hfree : free.Nodup) (hstart : start ∉ free) (hsteps : free.length < steps) :
    c ∈ g.closing start steps free (node :: path) ↔
      ∃ tail, g.Closes start node free tail ∧ c = (node :: path).reverse ++ tail := by
  induction steps generalizing free node path with
  | zero => simp at hsteps
  | succ steps ih =>
    -- What is found behind a free node is what closes the path that is longer by it.
    have hbehind : ∀ next ∈ free,
        (c ∈ g.closing start steps (free.erase next) (next :: node :: path) ↔
          ∃ tail, g.Closes start next (free.erase next) tail ∧
            c = (node :: path).reverse ++ next :: tail) := by
      intro next hnext
      have hshorter : (free.erase next).length < steps := by
        rw [List.length_erase_of_mem hnext]
        have hpos := List.length_pos_of_mem hnext
        omega
      have hfound : c ∈ g.closing start steps (free.erase next) (next :: node :: path) ↔
          ∃ tail, g.Closes start next (free.erase next) tail ∧
            c = (next :: node :: path).reverse ++ tail :=
        ih (hfree.erase next) (fun hin => hstart (List.mem_of_mem_erase hin)) hshorter
      simpa using hfound
    rw [closing_succ, List.mem_flatMap]
    constructor
    · intro h
      rcases h with ⟨next, hedge, hc⟩
      unfold behind at hc
      split at hc
      · rename_i heq
        refine ⟨[], closes_nil_iff.2 (heq ▸ hedge), ?_⟩
        simpa using hc
      · split at hc
        · rename_i huseful
          have hnext : next ∈ free :=
            mem_allowed_of_mem_leadingTo (List.contains_iff_mem.1 huseful)
          rcases (hbehind next hnext).1 hc with ⟨tail, hcloses, heq⟩
          exact ⟨next :: tail, (closes_cons_iff hfree).2 ⟨hedge, hnext, hcloses⟩, heq⟩
        · simp at hc
    · intro h
      rcases h with ⟨tail, hcloses, heq⟩
      cases tail with
      | nil => exact ⟨start, closes_nil_iff.1 hcloses, by simp [behind, heq]⟩
      | cons next tail =>
        rcases (closes_cons_iff hfree).1 hcloses with ⟨hedge, hnext, hrest⟩
        have hother : next ≠ start := fun hsame => hstart (hsame ▸ hnext)
        have huseful : (g.leadingTo start free).contains next = true :=
          List.contains_iff_mem.2 hcloses.mem_leadingTo
        refine ⟨next, hedge, ?_⟩
        rw [behind, if_neg hother, if_pos huseful]
        exact (hbehind next hnext).2 ⟨tail, hrest, heq⟩

/-! ## No cycle is found twice -/

/-- All that is found goes on from the path. -/
theorem exists_append_of_mem_closing (h : c ∈ g.closing start steps free path) :
    ∃ tail, c = path.reverse ++ tail := by
  induction steps generalizing free path with
  | zero => simp [closing] at h
  | succ steps ih =>
    cases path with
    | nil => simp [closing] at h
    | cons node path =>
      rw [closing_succ, List.mem_flatMap] at h
      rcases h with ⟨next, -, hc⟩
      unfold behind at hc
      split at hc
      · exact ⟨[], by simpa using hc⟩
      · split at hc
        · rcases ih hc with ⟨tail, heq⟩
          exact ⟨next :: tail, by simpa using heq⟩
        · simp at hc

/-- What is met behind a successor has it in the next place, or ends there. -/
theorem getElem?_of_mem_behind {loop : List String}
    (h : loop ∈ g.behind start steps free node path next) :
    loop[(node :: path).length]? = if next = start then none else some next := by
  have hlength : (node :: path).length = (node :: path).reverse.length :=
    List.length_reverse.symm
  unfold behind at h
  split at h
  · rename_i heq
    rw [List.mem_singleton.1 h, if_pos heq, hlength]
    exact List.getElem?_eq_none (Nat.le_refl _)
  · rename_i hother
    split at h
    · rcases exists_append_of_mem_closing h with ⟨tail, heq⟩
      have hloop : loop = (node :: path).reverse ++ next :: tail := by
        rw [heq, List.reverse_cons, List.append_assoc]
        rfl
      rw [hloop, if_neg hother, hlength, List.getElem?_append_right (Nat.le_refl _), Nat.sub_self]
      rfl
    · simp at h

/-- No way to close the cycle is found twice. -/
theorem nodup_closing (hg : g.Simple) : (g.closing start steps free path).Nodup := by
  induction steps generalizing free path with
  | zero => exact List.nodup_nil
  | succ steps ih =>
    cases path with
    | nil => exact List.nodup_nil
    | cons node path =>
      rw [closing_succ, List.nodup_flatMap]
      refine ⟨fun next _ => ?_, (hg.successors node).imp fun {u v} hne => ?_⟩
      · unfold behind
        split
        · exact List.nodup_singleton _
        · split
          · exact ih
          · exact List.nodup_nil
      · -- Cycles through different successors differ in the node behind the path.
        intro c hu hv
        have hsame := (getElem?_of_mem_behind hu).symm.trans (getElem?_of_mem_behind hv)
        by_cases hustart : u = start
        · by_cases hvstart : v = start
          · exact hne (hustart.trans hvstart.symm)
          · simp [hustart, hvstart] at hsame
        · by_cases hvstart : v = start
          · simp [hustart, hvstart] at hsame
          · simp only [if_neg hustart, if_neg hvstart, Option.some.injEq] at hsame
            exact hne hsame

/-! ## All cycles -/

/-- The cycles through a node are found by its least member alone. -/
theorem mem_cyclesThrough_iff (hg : g.Simple) :
    c ∈ g.cyclesThrough start ↔
      ∃ tail, g.Closes start start (g.nodes.filter (start < ·)) tail ∧ c = start :: tail := by
  have hstart : start ∉ g.nodes.filter (start < ·) := fun h =>
    String.lt_irrefl start (of_decide_eq_true (List.mem_filter.1 h).2)
  exact mem_closing_iff (hg.nodes.filter _) hstart (Nat.lt_succ_self _)

/-- All nodes that a chain of edges arrives at are nodes of the graph. -/
theorem Simple.mem_nodes_of_isChain (hg : g.Simple) {u : String} {l : List String}
    (h : List.IsChain g.Edge (u :: l)) : ∀ v ∈ l, v ∈ g.nodes := by
  induction l generalizing u with
  | nil => simp
  | cons w rest ih =>
    rcases List.isChain_cons_cons.1 h with ⟨hedge, hrest⟩
    exact List.forall_mem_cons.2 ⟨(hg.inside u w hedge).2, ih hrest⟩

/-- The lists found are those of the elementary cycles that begin with the least member. -/
theorem mem_allCycles_iff (hg : g.Simple) :
    c ∈ g.allCycles ↔ LeastFirst c ∧ IsElementary g.Edge (c : Cycle String) := by
  constructor
  · intro h
    rcases List.mem_flatMap.1 h with ⟨start, -, hc⟩
    rcases (mem_cyclesThrough_iff hg).1 hc with ⟨tail, hcloses, rfl⟩
    have hleast : ∀ v ∈ tail, start < v := fun v hv =>
      of_decide_eq_true (List.mem_filter.1 (hcloses.free v hv)).2
    have hnot : start ∉ tail := fun hv => String.lt_irrefl start (hleast start hv)
    have hlong : 2 ≤ (start :: tail).length := by
      cases tail with
      | nil => exact absurd (closes_nil_iff.1 hcloses) (hg.loopless start)
      | cons next rest => simp
    exact ⟨hleast, hlong, List.nodup_cons.2 ⟨hnot, hcloses.nodup⟩, hcloses.chain⟩
  · -- A cycle is listed when the search begins at its least node, as the others are free then.
    intro hboth
    rcases hboth with ⟨hleast, hc⟩
    cases c with
    | nil => exact absurd hleast id
    | cons start tail =>
      have hchain : List.IsChain g.Edge (start :: (tail ++ [start])) := hc.chain
      have hinside := hg.mem_nodes_of_isChain hchain
      have hstart : start ∈ NameSet.insertAll g.nodes [] :=
        NameSet.mem_insertAll.2 (Or.inl (hinside start (by simp)))
      refine List.mem_flatMap.2 ⟨start, hstart, (mem_cyclesThrough_iff hg).2 ⟨tail, ?_, rfl⟩⟩
      refine ⟨(List.nodup_cons.1 hc.nodup).2, fun v hv => List.mem_filter.2 ⟨?_, ?_⟩, hchain⟩
      · exact hinside v (List.mem_append_left _ hv)
      · exact decide_eq_true (hleast v hv)

/-- No cycle is enumerated twice. -/
theorem nodup_allCycles (hg : g.Simple) : g.allCycles.Nodup := by
  refine List.nodup_flatMap.2 ⟨fun start _ => nodup_closing hg,
    (NameSet.nodup_insertAll g.nodes).imp fun {u v} hne => ?_⟩
  intro c hu hv
  rcases (mem_cyclesThrough_iff hg).1 hu with ⟨tail, -, rfl⟩
  rcases (mem_cyclesThrough_iff hg).1 hv with ⟨tail', -, heq⟩
  exact hne (List.cons.inj heq).1

/-- Each elementary cycle is found. -/
theorem mem_map_allCycles_iff (hg : g.Simple) {c : Cycle String} :
    c ∈ g.allCycles.map Cycle.ofList ↔ IsElementary g.Edge c := by
  constructor
  · intro h
    rcases List.mem_map.1 h with ⟨l, hl, rfl⟩
    exact ((mem_allCycles_iff hg).1 hl).2
  · intro h
    rcases exists_leastFirst h.nodup (Nat.lt_of_lt_of_le Nat.two_pos h.two_le) with ⟨l, hleast, rfl⟩
    exact List.mem_map_of_mem ((mem_allCycles_iff hg).2 ⟨hleast, h⟩)

/-- No two of the lists are of the same cycle. -/
theorem nodup_map_allCycles (hg : g.Simple) : (g.allCycles.map Cycle.ofList).Nodup := by
  refine List.Nodup.map_on ?_ (nodup_allCycles hg)
  intro l hl l' hl' heq
  rcases (mem_allCycles_iff hg).1 hl with ⟨hleast, hc⟩
  rcases (mem_allCycles_iff hg).1 hl' with ⟨hleast', -⟩
  exact hleast.eq_of_isRotated hleast' hc.nodup (Cycle.coe_eq_coe.1 heq)

/-- There are as many lists as cycles. -/
theorem encard_elementary (hg : g.Simple) :
    {c : Cycle String | IsElementary g.Edge c}.encard = g.allCycles.length := by
  have hset : {c : Cycle String | IsElementary g.Edge c}
      = ((g.allCycles.map Cycle.ofList).toFinset : Set (Cycle String)) := by
    ext c
    rw [List.coe_toFinset]
    exact (mem_map_allCycles_iff hg).symm
  rw [hset, Set.encard_coe_eq_coe_finsetCard,
    List.toFinset_card_of_nodup (nodup_map_allCycles hg), List.length_map]

end Graph
end Workflows
