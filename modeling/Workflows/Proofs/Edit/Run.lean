import Workflows.Proofs.Edit.Step

/-!
# Run — accepted batches

A batch that is accepted runs through: each of its operations is carried out on the draft that the
ones before have left. A result that comes with a document comes from such a run, or has the
document that was there before.

Main definitions:

* `Draft.Run`, `Draft.run_iff` — several operations on a draft;
* `Editor.Accepts`, `Editor.run_of_accepts` — batches that lead from one document to another.
-/

namespace Workflows
namespace Draft

/-- Operations that are carried out one after the other. -/
inductive Run (catalog : Option Catalog) : Draft → List Action → Draft → Prop
  | nil (s : Draft) : Run catalog s [] s
  | cons {s t u : Draft} {a : Action} {rest : List Action} (first : s.carryOut catalog a = .ok t)
      (others : Run catalog t rest u) : Run catalog s (a :: rest) u

section Runs

variable {catalog : Option Catalog}

theorem run_iff {index : Nat} {os : List Operation} {s u : Draft} :
    carryOutAll catalog index os s = .ok u ↔ Run catalog s (os.map (·.action)) u := by
  induction os generalizing index s with
  | nil =>
    constructor
    · intro h
      cases h
      exact .nil _
    · intro h
      cases h
      rfl
  | cons o rest ih =>
    simp only [carryOutAll, List.map_cons]
    constructor
    · intro h
      cases hfirst : s.carryOut catalog o.action with
      | error obstacle => simp [hfirst] at h
      | ok t =>
        simp only [hfirst] at h
        exact .cons hfirst (ih.1 h)
    · intro h
      cases h with
      | cons hfirst hothers =>
        simp only [hfirst]
        exact ih.2 hothers

/-- The draft to which the supply and the operations lead is no other. -/
theorem Run.unique {s u v : Draft} {as : List Action} (h : Run catalog s as u)
    (h' : Run catalog s as v) : u = v := by
  induction h with
  | nil => cases h'; rfl
  | cons hfirst hothers ih =>
    cases h' with
    | cons hfirst' hothers' =>
      have heq := Except.ok.inj (hfirst.symm.trans hfirst')
      exact ih (heq ▸ hothers')

theorem Run.append {s t u : Draft} {front back : List Action} (h : Run catalog s front t)
    (h' : Run catalog t back u) : Run catalog s (front ++ back) u := by
  induction h with
  | nil => exact h'
  | cons hfirst _ ih => exact .cons hfirst (ih h')

/-- A run splits wherever its operations do. -/
theorem Run.split {s u : Draft} {front back : List Action}
    (h : Run catalog s (front ++ back) u) :
    ∃ t, Run catalog s front t ∧ Run catalog t back u := by
  induction front generalizing s with
  | nil => exact ⟨s, .nil s, h⟩
  | cons a front ih =>
    cases h with
    | cons hfirst hothers =>
      rcases ih hothers with ⟨t, hfront, hback⟩
      exact ⟨t, .cons hfirst hfront, hback⟩

/-- What every step of a run keeps, it still has at the end. -/
theorem Run.inv {P : Draft → Prop} {s u : Draft} {as : List Action} (h : Run catalog s as u)
    (hs : P s)
    (hkeep : ∀ front a back t t', as = front ++ a :: back → Run catalog s front t →
      t.carryOut catalog a = .ok t' → P t → P t') : P u := by
  induction h with
  | nil => exact hs
  | @cons s t u a rest hfirst _ ih =>
    -- What is assumed of every step of the run holds of the first, and of every step of the rest.
    refine ih (hkeep [] a rest s t rfl (.nil s) hfirst hs) ?_
    intro front b back v v' heq hrun hstep
    exact hkeep (a :: front) b back v v' (by simp [heq]) (.cons hfirst hrun) hstep

/-- When it is known of every step what it needs to keep something, that is kept up to every point
on the way exactly if every step has what it needs. -/
theorem kept_iff {P : Draft → Prop} {Q : Draft → Action → Draft → Prop} {s : Draft}
    {as : List Action} (hs : P s)
    (hstep : ∀ front a back t t', as = front ++ a :: back → Run catalog s front t →
      t.carryOut catalog a = .ok t' → P t → (P t' ↔ Q t a t')) :
    (∀ front back t, as = front ++ back → Run catalog s front t → P t) ↔
      ∀ front a back t t', as = front ++ a :: back → Run catalog s front t →
        t.carryOut catalog a = .ok t' → Q t a t' := by
  constructor
  · intro hall front a back t t' heq hfront hfirst
    have hafter : P t' :=
      hall (front ++ [a]) back t' (by simp [heq]) (hfront.append (.cons hfirst (.nil t')))
    exact (hstep front a back t t' heq hfront hfirst (hall front (a :: back) t heq hfront)).1 hafter
  · intro hneeds front back t heq hfront
    refine hfront.inv hs ?_
    intro front' a back' v v' heq' hrun hfirst hv
    have hall : as = front' ++ a :: (back' ++ back) := by simp [heq, heq']
    exact (hstep _ _ _ v v' hall hrun hfirst hv).2 (hneeds _ _ _ v v' hall hrun hfirst)

end Runs

end Draft

/-! ## Batches -/

namespace Editor

variable {e : Editor} {ids : IdSupply} {nextId : Nat} {d d' : Document} {batch : List Value}

/-- The editor carries the batch out on the first document and returns the second one. -/
def Accepts (e : Editor) (ids : IdSupply) (nextId : Nat) (d : Document) (batch : List Value)
    (d' : Document) : Prop :=
  ∃ r k, e.applyWith ids false nextId d batch = .ok (r, k) ∧ r.success = true ∧
    r.document = some d'

def actions (batch : List Value) : List Action :=
  (Operation.parseAll batch).1.map (·.action)

theorem readable_of_mem_actions {a : Action} (h : a ∈ actions batch) : a.Readable := by
  rcases List.mem_map.1 h with ⟨o, ho, rfl⟩
  have hparse : Operation.parseFrom 0 batch =
      ((Operation.parseAll batch).1, (Operation.parseAll batch).2) := rfl
  exact Operation.readable_of_parseFrom hparse o ho

/-- A result that has a document has the old one, or the one that an accepted batch leads to. -/
theorem document_of_applyWith {dryRun : Bool} {r : EditResult} {k : Nat}
    (h : e.applyWith ids dryRun nextId d batch = .ok (r, k)) (hd' : r.document = some d') :
    (r.success = false ∧ d' = d) ∨
      r.success = true ∧ ∃ s, Draft.Run e.catalog ⟨d, nextId, ids⟩ (actions batch) s ∧
        s.document = d' := by
  have hactions : actions batch = (Operation.parseAll batch).1.map (·.action) := rfl
  -- Batches with malformed operations, too many of them, or one that is refused change nothing.
  unfold applyWith at h
  split at h
  · rename_i os hparse
    rw [hparse] at hactions
    unfold applyOperations at h
    split at h
    · simp only [Except.ok.injEq, Prod.mk.injEq] at h
      rw [← h.1] at hd' ⊢
      exact Or.inl ⟨rfl, (Option.some.inj hd').symm⟩
    · simp at h
    · split at h
      · rename_i s hrun
        simp only [Except.ok.injEq, Prod.mk.injEq] at h
        rw [← h.1] at hd' ⊢
        -- A trial run returns no document.
        cases dryRun with
        | true => simp [EditResult.checked] at hd'
        | false =>
          refine Or.inr ⟨rfl, s, ?_, Option.some.inj hd'⟩
          rw [hactions]
          exact Draft.run_iff.1 hrun
      · split at h
        · simp at h
        · simp only [Except.ok.injEq, Prod.mk.injEq] at h
          rw [← h.1] at hd' ⊢
          exact Or.inl ⟨rfl, (Option.some.inj hd').symm⟩
  · simp only [Except.ok.injEq, Prod.mk.injEq] at h
    rw [← h.1] at hd' ⊢
    exact Or.inl ⟨rfl, (Option.some.inj hd').symm⟩

/-- There is a result that passes a test if the test finds one. -/
theorem exists_result {dryRun : Bool} {test : EditResult × Nat → Bool}
    (h : ((e.applyWith ids dryRun nextId d batch).toOption.any test) = true) :
    ∃ r k, e.applyWith ids dryRun nextId d batch = .ok (r, k) ∧ test (r, k) = true := by
  cases hresult : e.applyWith ids dryRun nextId d batch with
  | error m => simp [hresult, Except.toOption] at h
  | ok p => exact ⟨p.1, p.2, rfl, by simpa [hresult, Except.toOption] using h⟩

/-- A batch is accepted if carrying it out gives a document; a test tells of the document. -/
theorem exists_accepts {test : Document → Bool}
    (h : ((e.applyWith ids false nextId d batch).toOption.any fun p =>
      p.1.success && p.1.document.any test) = true) :
    ∃ d', e.Accepts ids nextId d batch d' ∧ test d' = true := by
  rcases exists_result h with ⟨r, k, hresult, htest⟩
  rcases Bool.and_eq_true_iff.1 htest with ⟨hsuccess, hany⟩
  rcases (Option.any_eq_true _ _).1 hany with ⟨d', hd', hpasses⟩
  exact ⟨d', ⟨r, k, hresult, hsuccess, hd'⟩, hpasses⟩

theorem run_of_accepts (h : e.Accepts ids nextId d batch d') :
    ∃ s, Draft.Run e.catalog ⟨d, nextId, ids⟩ (actions batch) s ∧ s.document = d' := by
  rcases h with ⟨r, k, h, hsuccess, hd'⟩
  rcases document_of_applyWith h hd' with ⟨hfailed, -⟩ | ⟨-, hrun⟩
  · simp [hsuccess] at hfailed
  · exact hrun

end Editor
end Workflows
