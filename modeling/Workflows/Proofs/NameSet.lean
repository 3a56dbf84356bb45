import Mathlib.Data.List.Basic
import Workflows.NameSet

/-!
# NameSet — what is in a set of names

Main statements:

* `NameSet.mem_insert`, `NameSet.mem_insertAll` — the members after names have been added;
* `NameSet.nodup_insertAll` — a set that is built up from nothing has no name twice.
-/

namespace Workflows
namespace NameSet

/-- A name that is inserted is the only one that comes in. -/
theorem mem_insert {name v : String} {set : List String} :
    v ∈ insert name set ↔ v = name ∨ v ∈ set := by
  induction set with
  | nil => simp [insert]
  | cons head rest ih =>
    unfold insert
    split
    · rename_i heq
      simp [heq]
    · split
      · exact List.mem_cons
      · rw [List.mem_cons, ih, List.mem_cons]
        exact or_left_comm

/-- The names of a list that are inserted are the only ones that come in. -/
theorem mem_insertAll {names set : List String} {v : String} :
    v ∈ insertAll names set ↔ v ∈ names ∨ v ∈ set := by
  unfold insertAll
  induction names generalizing set with
  | nil => simp
  | cons name rest ih =>
    rw [List.foldl_cons, ih, mem_insert, List.mem_cons]
    exact or_left_comm.trans or_assoc.symm

/-- An insertion keeps the names in order. -/
theorem pairwise_insert {name : String} {set : List String} (h : set.Pairwise (· < ·)) :
    (insert name set).Pairwise (· < ·) := by
  induction set with
  | nil => exact List.pairwise_singleton _ _
  | cons head rest ih =>
    rcases List.pairwise_cons.1 h with ⟨hhead, hrest⟩
    unfold insert
    split
    · exact h
    · rename_i hne
      split
      · rename_i hlt
        refine List.pairwise_cons.2 ⟨?_, h⟩
        intro v hv
        rcases List.mem_cons.1 hv with rfl | hv
        · exact hlt
        · exact String.lt_trans hlt (hhead v hv)
      · rename_i hnot
        have hgreater : head < name := by
          by_contra hle
          exact hne (String.le_antisymm (String.not_lt.1 hle) (String.not_lt.1 hnot))
        refine List.pairwise_cons.2 ⟨?_, ih hrest⟩
        intro v hv
        rcases mem_insert.1 hv with rfl | hv
        · exact hgreater
        · exact hhead v hv

/-- No name is in a set twice. -/
theorem nodup_insertAll (names : List String) : (insertAll names []).Nodup := by
  have hordered : ∀ set : List String, set.Pairwise (· < ·) →
      (names.foldl (fun acc name => insert name acc) set).Pairwise (· < ·) := by
    induction names with
    | nil => exact fun _ hset => hset
    | cons name rest ih => exact fun set hset => ih (insert name set) (pairwise_insert hset)
  refine (hordered [] List.Pairwise.nil).imp fun {a b} hlt heq => ?_
  exact String.lt_irrefl b (heq ▸ hlt)

end NameSet

end Workflows
