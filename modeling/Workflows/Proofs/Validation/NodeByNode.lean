import Mathlib.Data.List.Forall2
import Workflows.Validation

/-!
# NodeByNode — findings that are made on one node after the other

Single nodes are checked one after the other, and so are their expressions. What relates the
findings on every node to those on its counterpart in another list, relates the findings on all
nodes of the two lists.

Main definitions:

* `Scene.of_findingsOf_cons`, `Scene.of_textFindingsOf_cons` — the first node and the others;
* `Scene.rel_findingsOf`, `Scene.rel_textFindingsOf` — from single nodes to all nodes;
* `Scene.findingsOf_congr`, `Scene.textFindingsOf_congr` — the same findings, or the same failure.
-/

namespace Workflows

theorem TextFindings.issues_append (f g : TextFindings) :
    (f ++ g).issues = f.issues ++ g.issues := rfl

namespace Scene

variable {s s' : Scene} {n : Node} {ns ns' : List Node}

/-! ## Parameters and attributes -/

section Nodes

variable {p q : Profile} {f g : NodeFindings}

/-- The findings on the first node come before those on the others. -/
theorem of_findingsOf_cons (h : s.findingsOf p (n :: ns) = .ok f) :
    ∃ found more, s.nodeFindings p n = .ok found ∧ s.findingsOf p ns = .ok more ∧
      f = found ++ more := by
  unfold findingsOf at h
  cases hfound : s.nodeFindings p n with
  | error e => simp [hfound] at h
  | ok found =>
    cases hmore : s.findingsOf p ns with
    | error e => simp [hfound, hmore, Except.map] at h
    | ok more =>
      have heq : found ++ more = f := by simpa [hfound, hmore, Except.map] using h
      exact ⟨found, more, rfl, rfl, heq.symm⟩

/-- What relates the findings on every single node relates those on all of them. -/
theorem rel_findingsOf (rel : NodeFindings → NodeFindings → Prop) (hnone : rel {} {})
    (happend : ∀ f f' g g', rel f g → rel f' g' → rel (f ++ f') (g ++ g'))
    (h : List.Forall₂ (fun n n' => ∀ f g, s.nodeFindings p n = .ok f →
      s'.nodeFindings q n' = .ok g → rel f g) ns ns')
    (hf : s.findingsOf p ns = .ok f) (hg : s'.findingsOf q ns' = .ok g) : rel f g := by
  induction h generalizing f g with
  | nil =>
    rw [← Except.ok.inj hf, ← Except.ok.inj hg]
    exact hnone
  | cons hfirst _ ih =>
    rcases of_findingsOf_cons hf with ⟨f₁, f₂, hfn, hfr, rfl⟩
    rcases of_findingsOf_cons hg with ⟨g₁, g₂, hgn, hgr, rfl⟩
    exact happend _ _ _ _ (hfirst _ _ hfn hgn) (ih hfr hgr)

/-- The findings on two lists of nodes are the same if those on every single node are. -/
theorem findingsOf_congr
    (h : List.Forall₂ (fun n n' => s.nodeFindings p n = s'.nodeFindings q n') ns ns') :
    s.findingsOf p ns = s'.findingsOf q ns' := by
  induction h with
  | nil => rfl
  | cons hfirst _ ih => rw [findingsOf, findingsOf, hfirst, ih]

/-- Of a scene the checks of a single node read the catalog only. -/
theorem nodeFindings_of_catalog (h : s.catalog = s'.catalog) (n : Node) :
    s.nodeFindings p n = s'.nodeFindings p n := by
  simp only [nodeFindings, unknownTypeIssue, typeOf, h]

end Nodes

/-! ## Expressions -/

section Texts

variable {depth : Number} {w w' : Wiring} {f g : TextFindings}

/-- There are findings about the expressions of a node if there are some about their form. -/
theorem nodeTextFindings_eq_ok :
    s.nodeTextFindings depth w n = .ok f ↔
      ∃ issues, s.formatIssues depth n = .ok issues ∧
        s.expressionFindings depth w n ++ { issues := issues } = f := by
  unfold nodeTextFindings
  cases s.formatIssues depth n with
  | error e => simp [Except.map]
  | ok issues => simp [Except.map]

/-- The findings on the expressions of the first node come before those on the others. -/
theorem of_textFindingsOf_cons (h : s.textFindingsOf depth w (n :: ns) = .ok f) :
    ∃ found more, s.nodeTextFindings depth w n = .ok found ∧
      s.textFindingsOf depth w ns = .ok more ∧ f = found ++ more := by
  unfold textFindingsOf at h
  cases hfound : s.nodeTextFindings depth w n with
  | error e => simp [hfound] at h
  | ok found =>
    cases hmore : s.textFindingsOf depth w ns with
    | error e => simp [hfound, hmore, Except.map] at h
    | ok more =>
      have heq : found ++ more = f := by simpa [hfound, hmore, Except.map] using h
      exact ⟨found, more, rfl, rfl, heq.symm⟩

/-- What relates the findings on the expressions of every single node relates those on all of
them. -/
theorem rel_textFindingsOf (rel : TextFindings → TextFindings → Prop) (hnone : rel {} {})
    (happend : ∀ f f' g g', rel f g → rel f' g' → rel (f ++ f') (g ++ g'))
    (h : List.Forall₂ (fun n n' => ∀ f g, s.nodeTextFindings depth w n = .ok f →
      s'.nodeTextFindings depth w' n' = .ok g → rel f g) ns ns')
    (hf : s.textFindingsOf depth w ns = .ok f) (hg : s'.textFindingsOf depth w' ns' = .ok g) :
    rel f g := by
  induction h generalizing f g with
  | nil =>
    rw [← Except.ok.inj hf, ← Except.ok.inj hg]
    exact hnone
  | cons hfirst _ ih =>
    rcases of_textFindingsOf_cons hf with ⟨f₁, f₂, hfn, hfr, rfl⟩
    rcases of_textFindingsOf_cons hg with ⟨g₁, g₂, hgn, hgr, rfl⟩
    exact happend _ _ _ _ (hfirst _ _ hfn hgn) (ih hfr hgr)

/-- The findings on the expressions of two lists of nodes are the same if those on every node
are. -/
theorem textFindingsOf_congr
    (h : List.Forall₂ (fun n n' =>
      s.nodeTextFindings depth w n = s'.nodeTextFindings depth w' n') ns ns') :
    s.textFindingsOf depth w ns = s'.textFindingsOf depth w' ns' := by
  induction h with
  | nil => rfl
  | cons hfirst _ ih => rw [textFindingsOf, textFindingsOf, hfirst, ih]

/-- Of a scene and its links, the checks of expressions read the catalog, the names, and the valid
links. -/
theorem nodeTextFindings_of_catalog (h : s.catalog = s'.catalog) (hnames : s.names = s'.names)
    (n : Node) : s.nodeTextFindings depth w n = s'.nodeTextFindings depth w n := by
  simp only [nodeTextFindings, formatIssues, declaredLocators, expressionFindings,
    expressionContext, typeOf, h, hnames]

/-- Whether there are findings about expressions does not depend on the links. -/
theorem exists_textFindingsOf_iff :
    (∃ f, s.textFindingsOf depth w ns = .ok f) ↔
      ∀ n ∈ ns, ∃ issues, s.formatIssues depth n = .ok issues := by
  induction ns with
  | nil => simp [textFindingsOf]
  | cons n rest ih =>
    rw [List.forall_mem_cons, ← ih]
    constructor
    · intro h
      rcases h with ⟨f, hf⟩
      rcases of_textFindingsOf_cons hf with ⟨found, more, hfound, hmore, -⟩
      rcases nodeTextFindings_eq_ok.1 hfound with ⟨issues, hissues, -⟩
      exact ⟨⟨issues, hissues⟩, more, hmore⟩
    · intro h
      rcases h with ⟨⟨issues, hissues⟩, more, hmore⟩
      have hfirst : ∃ found, s.nodeTextFindings depth w n = .ok found :=
        ⟨_, nodeTextFindings_eq_ok.2 ⟨issues, hissues, rfl⟩⟩
      rcases hfirst with ⟨found, hfound⟩
      exact ⟨found ++ more, by simp only [textFindingsOf, hfound, hmore, Except.map]⟩

end Texts

end Scene
end Workflows
