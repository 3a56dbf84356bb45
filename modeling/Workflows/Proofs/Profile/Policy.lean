import Workflows.Proofs.Profile.StyleCodes

/-!
# Policy — what two profiles make of the same findings

The errors of the runtime profile are those errors of the strict one that are more than matters of
style, and what is milder than an error is the same under both. This holds of any findings, and it
still holds of those on the parameters of a node, of which the first of each path and code is kept:
the codes tell which findings are matters of style, so that none of them hides a real error.

Main definitions:

* `Policy.errors`, `Policy.warnings` — what a policy reports of some findings;
* `Profile.errors_runtime`, `Profile.warnings_runtime` — two profiles on any findings;
* `NodeConfig.errors_minimal_sublist`, `NodeConfig.errors_runtime_eq` — on those on parameters.
-/

namespace Workflows

/-! ## The first finding of each key -/

namespace Issue

variable {κ : Type} [BEq κ] {key : Issue → κ}

/-- What is kept of each kind stays in its order. -/
theorem firstBy_sublist (seen : List κ) (issues : List Issue) :
    (firstBy key seen issues).Sublist issues := by
  induction issues generalizing seen with
  | nil => exact List.Sublist.slnil
  | cons i rest ih =>
    unfold firstBy
    split
    · exact (ih seen).cons i
    · exact (ih (key i :: seen)).cons_cons i

/-- Findings that come behind hide none of those before. -/
theorem firstBy_append_sublist (seen : List κ) (issues more : List Issue) :
    (firstBy key seen issues).Sublist (firstBy key seen (issues ++ more)) := by
  induction issues generalizing seen with
  | nil => exact List.nil_sublist _
  | cons i rest ih =>
    rw [List.cons_append]
    unfold firstBy
    split
    · exact ih seen
    · exact (ih (key i :: seen)).cons_cons i

/-- Where the key of a finding tells whether a test holds, findings are chosen by the test before
or after the first ones are kept. -/
theorem firstBy_filter [LawfulBEq κ] {test : Issue → Bool} {tells : κ → Bool}
    {issues : List Issue} (h : ∀ i ∈ issues, test i = tells (key i)) {seen seen' : List κ}
    (hseen : ∀ k, tells k = true → (k ∈ seen ↔ k ∈ seen')) :
    firstBy key seen (issues.filter test) = (firstBy key seen' issues).filter test := by
  induction issues generalizing seen seen' with
  | nil => rfl
  | cons i rest ih =>
    have hrest : ∀ j ∈ rest, test j = tells (key j) := fun j hj => h j (List.mem_cons_of_mem i hj)
    have hi := h i List.mem_cons_self
    cases htest : test i with
    | true =>
      have htells : tells (key i) = true := hi ▸ htest
      have hmem : seen.contains (key i) = seen'.contains (key i) := by
        rw [Bool.eq_iff_iff]
        simpa using hseen (key i) htells
      rw [List.filter_cons_of_pos htest, firstBy, firstBy, hmem]
      split
      · exact ih hrest hseen
      · rw [List.filter_cons_of_pos htest]
        refine congrArg (i :: ·) (ih hrest ?_)
        intro k hk
        simp only [List.mem_cons, hseen k hk]
    | false =>
      have htells : tells (key i) = false := hi ▸ htest
      rw [List.filter_cons_of_neg (by simp [htest]), firstBy]
      split
      · exact ih hrest hseen
      · rw [List.filter_cons_of_neg (by simp [htest])]
        -- The key that is now seen is one of those for which it does not matter.
        refine ih hrest ?_
        intro k hk
        have hne : k ≠ key i := fun heq => by simp [heq, htells] at hk
        simp only [List.mem_cons, hne, false_or, hseen k hk]

def matters (i : Issue) : Bool :=
  i.category != .style

end Issue

/-! ## What policies report -/

namespace Policy

def errors (p : Policy) (issues : List Issue) : List Issue :=
  (issues.filterMap p.apply).filter Issue.isError

def warnings (p : Policy) (issues : List Issue) : List Issue :=
  (issues.filterMap p.apply).filter fun i => i.severity == .warning

variable {p : Policy}

@[simp] theorem errors_append (xs ys : List Issue) :
    p.errors (xs ++ ys) = p.errors xs ++ p.errors ys := by
  simp [errors]

@[simp] theorem warnings_append (xs ys : List Issue) :
    p.warnings (xs ++ ys) = p.warnings xs ++ p.warnings ys := by
  simp [warnings]

theorem errors_flatMap {α : Type} (f : α → List Issue) (l : List α) :
    p.errors (l.flatMap f) = l.flatMap fun a => p.errors (f a) := by
  simp only [errors, List.filterMap_flatMap, List.filter_flatMap]

theorem warnings_flatMap {α : Type} (f : α → List Issue) (l : List α) :
    p.warnings (l.flatMap f) = l.flatMap fun a => p.warnings (f a) := by
  simp only [warnings, List.filterMap_flatMap, List.filter_flatMap]

/-- A policy that keeps an issue keeps it as it is. -/
theorem keep_eq_some {i j : Issue} (h : p.keep i = some j) : i = j := by
  unfold keep at h
  split at h
  · simp at h
  · exact Option.some.inj h

/-- What has been reported once is reported again as it is. -/
theorem apply_apply {i j : Issue} (h : p.apply i = some j) : p.apply j = some j := by
  by_cases hstyle : i.category = .style
  · simp only [apply, hstyle, if_true] at h
    split at h
    · rename_i hpromote
      simp [apply, ← Option.some.inj h, hpromote]
    · rename_i hpromote
      split at h
      · rename_i hkeep
        obtain rfl := keep_eq_some h
        simp [apply, hstyle, hpromote, hkeep, h]
      · simp at h
  · simp only [apply, hstyle, if_false] at h
    obtain rfl := keep_eq_some h
    simp [apply, hstyle, h]

/-- A policy reports a finding as it is, or as an error. -/
theorem apply_eq_some {i j : Issue} (h : p.apply i = some j) :
    j = i ∨ j = { i with severity := .error } := by
  unfold apply at h
  split at h
  · split at h
    · exact Or.inr (Option.some.inj h).symm
    · split at h
      · exact Or.inl (keep_eq_some h).symm
      · simp at h
  · exact Or.inl (keep_eq_some h).symm

/-- A policy changes neither the category nor the code of an issue. -/
theorem category_apply {i j : Issue} (h : p.apply i = some j) :
    j.category = i.category ∧ j.code = i.code := by
  rcases apply_eq_some h with rfl | rfl <;> exact ⟨rfl, rfl⟩

/-- A policy leaves an issue with its node. -/
theorem nodeName_apply {i j : Issue} (h : p.apply i = some j) : j.nodeName = i.nodeName := by
  rcases apply_eq_some h with rfl | rfl <;> rfl

/-- What changes neither category nor severity makes no difference to the policy. -/
theorem apply_comm {f : Issue → Issue} (hcategory : ∀ i, (f i).category = i.category)
    (hseverity : ∀ i, (f i).severity = i.severity)
    (herror : ∀ i, f { i with severity := .error } = { f i with severity := .error })
    (i : Issue) : p.apply (f i) = (p.apply i).map f := by
  have hkeep : p.keep (f i) = (p.keep i).map f := by
    unfold keep
    rw [Issue.isError, Issue.isError, hseverity]
    split <;> rfl
  by_cases hstyle : i.category = .style
  · have hstyle' : (f i).category = .style := (hcategory i).trans hstyle
    rw [apply, apply, if_pos hstyle', if_pos hstyle, hkeep]
    split
    · exact congrArg some (herror i).symm
    · split <;> rfl
  · have hstyle' : (f i).category ≠ .style := by
      rw [hcategory]
      exact hstyle
    rw [apply, apply, if_neg hstyle', if_neg hstyle, hkeep]

/-- A policy does not look at the id of the node. -/
theorem apply_withId (id : Option String) (i : Issue) :
    p.apply { i with nodeId := id } = (p.apply i).map fun j => { j with nodeId := id } :=
  apply_comm (f := fun j => { j with nodeId := id }) (fun _ => rfl) (fun _ => rfl)
    (fun _ => rfl) i

/-- Issues that a policy leaves as they are go through it unchanged. -/
theorem filterMap_apply {issues : List Issue} (h : ∀ i ∈ issues, p.apply i = some i) :
    issues.filterMap p.apply = issues := by
  induction issues with
  | nil => rfl
  | cons i rest ih =>
    rw [List.filterMap_cons_some (h i List.mem_cons_self),
      ih fun j hj => h j (List.mem_cons_of_mem i hj)]

end Policy

/-! ## Two profiles side by side -/

namespace Profile

/-- Where two policies report the same of every single finding, as far as it passes a test, they
report the same of all. -/
theorem filter_reported {p q : Policy} {test test' : Issue → Bool}
    (h : ∀ i, (p.apply i).toList.filter test = (q.apply i).toList.filter test')
    (issues : List Issue) :
    (issues.filterMap p.apply).filter test = (issues.filterMap q.apply).filter test' := by
  have hsplit (p : Policy) (i : Issue) (rest : List Issue) :
      (i :: rest).filterMap p.apply = (p.apply i).toList ++ rest.filterMap p.apply := by
    rw [List.filterMap_cons]
    cases p.apply i <;> rfl
  induction issues with
  | nil => rfl
  | cons i rest ih =>
    calc ((i :: rest).filterMap p.apply).filter test
        = (p.apply i).toList.filter test ++ (rest.filterMap p.apply).filter test := by
          rw [hsplit, List.filter_append]
      _ = (q.apply i).toList.filter test' ++ (rest.filterMap q.apply).filter test' := by
          rw [h i, ih]
      _ = ((i :: rest).filterMap q.apply).filter test' := by
          rw [hsplit, List.filter_append]

variable (issues : List Issue)

/-- Only warnings tell the minimal profile from the default one. -/
theorem errors_minimal : minimal.policy.errors issues = runtime.policy.errors issues := by
  refine filter_reported ?_ issues
  intro i
  by_cases hstyle : i.category = .style <;> cases hseverity : i.severity <;>
    simp [policy, Policy.apply, Policy.keep, Issue.isError, hstyle, hseverity]

/-- The minimal profile has no warnings. -/
theorem warnings_minimal : minimal.policy.warnings issues = [] := by
  refine List.filter_eq_nil_iff.2 ?_
  intro i hi
  rcases List.mem_filterMap.1 hi with ⟨j, -, hj⟩
  by_cases hstyle : j.category = .style
  · simp [policy, Policy.apply, hstyle] at hj
  · cases hseverity : j.severity <;>
      simp [policy, Policy.apply, Policy.keep, Issue.isError, hstyle, hseverity] at hj
    simp [← hj, hseverity]

/-- The errors of the strict profile are those of the others and matters of style. -/
theorem errors_runtime :
    runtime.policy.errors issues = (strict.policy.errors issues).filter Issue.matters := by
  unfold Policy.errors
  rw [List.filter_filter]
  refine filter_reported ?_ issues
  intro i
  by_cases hstyle : i.category = .style <;> cases hseverity : i.severity <;>
    simp [policy, Policy.apply, Policy.keep, Issue.isError, Issue.matters, hstyle, hseverity]

/-- What is milder than an error is the same for both. -/
theorem milder_runtime :
    (issues.filterMap runtime.policy.apply).filter (fun i => !i.isError) =
      (issues.filterMap strict.policy.apply).filter fun i => !i.isError := by
  refine filter_reported ?_ issues
  intro i
  by_cases hstyle : i.category = .style <;> cases hseverity : i.severity <;>
    simp [policy, Policy.apply, Policy.keep, Issue.isError, hstyle, hseverity]

/-- The strict profile turns errors of style into errors, so the warnings are those of the default
one. -/
theorem warnings_runtime : runtime.policy.warnings issues = strict.policy.warnings issues := by
  refine filter_reported ?_ issues
  intro i
  by_cases hstyle : i.category = .style <;> cases hseverity : i.severity <;>
    simp [policy, Policy.apply, Policy.keep, Issue.isError, hstyle, hseverity]

end Profile

/-! ## The parameters of a node -/

namespace NodeConfig

variable (profile : Profile) (c : NodeConfig) (visible : List Property)

/-- Everything that is found, with the name of the node. -/
def namedFindings : List Issue :=
  (c.findings profile.policy visible).issues.map fun i => { i with nodeName := c.nodeName }

/-- What is reported of the parameters is what the policy makes of the findings. -/
theorem reported_eq :
    c.reported profile.policy (c.findings profile.policy visible).issues =
      (c.namedFindings profile visible).filterMap profile.policy.apply := by
  simp only [reported, namedFindings, List.filterMap_map]
  rfl

/-- The errors of a configuration are the errors that the policy makes, each of them once. -/
theorem errors_reportOf :
    (reportOf profile c visible).errors =
      Issue.distinct (profile.policy.errors (c.namedFindings profile visible)) := by
  unfold Policy.errors
  rw [← reported_eq]
  cases profile <;> rfl

/-- The warnings of a configuration are the other issues that are reported, each message once. -/
theorem warnings_reportOf :
    (reportOf profile c visible).warnings =
      Issue.distinctByMessage
        (((c.namedFindings profile visible).filterMap profile.policy.apply).filter
          fun i => !i.isError) := by
  rw [← reported_eq]
  cases profile <;> rfl

/-- The minimal profile reports no errors but those of the default one. -/
theorem errors_minimal_sublist :
    (reportOf .minimal c visible).errors.Sublist (reportOf .runtime c visible).errors := by
  -- The checks that run in any case are the first ones.
  have hmore : ∃ more, c.namedFindings .runtime visible =
      c.namedFindings .minimal visible ++ more := by
    let first := c.malformedIssues ++ requiredIssues c.parameters visible
    have hminimal : (c.findings Profile.minimal.policy visible).issues = first := by
      have hparts : (c.findings Profile.minimal.policy visible).issues = (first ++ []) ++ [] := rfl
      simpa using hparts
    have hruntime : ∃ rules, (c.findings Profile.runtime.policy visible).issues =
        first ++ (typeIssues c.parameters [] visible ++ rules) := by
      have hparts : ∃ rules, (c.findings Profile.runtime.policy visible).issues =
          (first ++ typeIssues c.parameters [] visible) ++ rules := ⟨_, rfl⟩
      simpa only [List.append_assoc] using hparts
    rcases hruntime with ⟨rules, hruntime⟩
    unfold namedFindings
    rw [hminimal, hruntime, List.map_append]
    exact ⟨_, rfl⟩
  rcases hmore with ⟨more, hmore⟩
  rw [errors_reportOf, errors_reportOf, hmore, Policy.errors_append, Profile.errors_minimal]
  exact Issue.firstBy_append_sublist _ _ _

/-- No error is hidden by one of style. -/
theorem errors_runtime_eq :
    (reportOf .runtime c visible).errors =
      (reportOf .strict c visible).errors.filter Issue.matters := by
  have hfindings : c.namedFindings .runtime visible = c.namedFindings .strict visible := rfl
  rw [errors_reportOf, errors_reportOf, hfindings, Profile.errors_runtime]
  let tells : Option String × String → Bool := fun k => !Issue.styleCodes.contains k.2
  have htells : ∀ i ∈ Profile.strict.policy.errors (c.namedFindings .strict visible),
      i.matters = tells (i.path, i.code) := by
    intro i hi
    rcases List.mem_filterMap.1 (List.mem_filter.1 hi).1 with ⟨j, hj, happly⟩
    rcases List.mem_map.1 hj with ⟨found, hfound, rfl⟩
    rcases Policy.category_apply happly with ⟨hcategory, hcode⟩
    have hmarked : found.Marked := marked_findings _ c visible found hfound
    have hiff : i.category = .style ↔ i.code ∈ Issue.styleCodes := by
      rw [hcategory, hcode]
      exact hmarked
    rw [Bool.eq_iff_iff]
    simp [Issue.matters, tells, hiff]
  exact Issue.firstBy_filter htells fun k _ => Iff.rfl

/-- The warnings of the strict profile are those of the default one. -/
theorem warnings_runtime_eq :
    (reportOf .runtime c visible).warnings = (reportOf .strict c visible).warnings := by
  have hfindings : c.namedFindings .runtime visible = c.namedFindings .strict visible := rfl
  rw [warnings_reportOf, warnings_reportOf, hfindings, Profile.milder_runtime]

/-- What is reported of a node is what the policy makes of a finding. -/
theorem exists_finding_of_mem_reportOf {i : Issue}
    (h : i ∈ (reportOf profile c visible).errors ++ (reportOf profile c visible).warnings) :
    ∃ j ∈ c.namedFindings profile visible, profile.policy.apply j = some i := by
  have hreported : i ∈ (c.namedFindings profile visible).filterMap profile.policy.apply := by
    rw [errors_reportOf, warnings_reportOf] at h
    rcases List.mem_append.1 h with h | h
    · exact (List.mem_filter.1 ((Issue.firstBy_sublist _ _).subset h)).1
    · exact (List.mem_filter.1 ((Issue.firstBy_sublist _ _).subset h)).1
  exact List.mem_filterMap.1 hreported

/-- What is reported of a node is left as it is when it is reported once more. -/
theorem apply_of_mem_reportOf {i : Issue}
    (h : i ∈ (reportOf profile c visible).errors ++ (reportOf profile c visible).warnings) :
    profile.policy.apply i = some i := by
  rcases exists_finding_of_mem_reportOf profile c visible h with ⟨j, -, hj⟩
  exact Policy.apply_apply hj

/-- Among the errors of a configuration all are errors. -/
theorem isError_of_mem_errors {i : Issue} (h : i ∈ (reportOf profile c visible).errors) :
    i.isError = true := by
  rw [errors_reportOf] at h
  exact (List.mem_filter.1 ((Issue.firstBy_sublist _ _).subset h)).2

/-- Among the warnings of a configuration no one is an error. -/
theorem isError_of_mem_warnings {i : Issue} (h : i ∈ (reportOf profile c visible).warnings) :
    i.isError = false := by
  rw [warnings_reportOf] at h
  simpa using (List.mem_filter.1 ((Issue.firstBy_sublist _ _).subset h)).2

end NodeConfig

end Workflows
