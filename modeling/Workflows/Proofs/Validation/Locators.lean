import Workflows.Proofs.Validation.Filed
import Workflows.Proofs.Validation.Reported

/-!
# Locators — what it means for a parameter to be a resource locator

Of the locators that a type declares only the names matter, and these only for parameters that are a
text with an expression in it: such a parameter is asked for a locator if its name is one of those,
and for an equals sign otherwise. So the number of errors that ask for a locator is the number of
such parameters under the name of one. With more locators it is as large or larger, and as large
exactly if the findings are the same.

Main definitions:

* `Format.expressionKeys` — the parameters that are texts with expressions in them;
* `Format.checkVisits_congr`, `Format.count_checkVisits` — findings and how often a locator is
  asked for;
* `Scene.KeepsLocators` — a type declares no more of these parameters than another one;
* `Scene.textFindings_of_keepsLocators`, `Scene.count_textFindingsOf_le` — when nothing changes.
-/

namespace Workflows

/-- Where one test passes whatever another one does, and no more, they are the same. -/
theorem forall_of_countP_le {α : Type} {p q : α → Bool} {l : List α}
    (himp : ∀ a ∈ l, p a = true → q a = true) (h : l.countP q ≤ l.countP p) :
    ∀ a ∈ l, q a = true → p a = true := by
  have hfilter : (l.filter q).filter p = l.filter p := by
    rw [List.filter_filter]
    refine List.filter_congr ?_
    intro a ha
    cases hp : p a with
    | true => simp [himp a ha hp]
    | false => rfl
  have hsub : (l.filter p).Sublist (l.filter q) := hfilter ▸ List.filter_sublist
  rw [List.countP_eq_length_filter, List.countP_eq_length_filter] at h
  intro a ha hq
  have hmem : a ∈ l.filter p := by
    rw [hsub.eq_of_length_le h]
    exact List.mem_filter.2 ⟨ha, hq⟩
  exact (List.mem_filter.1 hmem).2

namespace Format

/-- The parameter that a visited value is, if the value is a text with an expression in it. -/
def expressionKey? (v : Visit) : Option String :=
  if hasExpression v.value then topKey? v else none

/-- The parameters that are texts with expressions in them, as far as a walk gets. -/
def expressionKeys (maxDepth : Number) (tree : Value) : List String :=
  (Walk.visits { depth := maxDepth, skipPrivate := true } "" tree).filterMap expressionKey?

/-- Whether a finding is the error that a resource locator is asked for. -/
def asksLocator (f : FormatIssue) : Bool :=
  f.severity == .error && f.kind == .needsLocator

section Visits

variable {locators locators' : List String} {v : Visit} {vs : List Visit}

/-- What is found of a value that is asked for a locator, whatever else is a locator. -/
theorem checkVisit_of_mem {key : String} (hkey : expressionKey? v = some key) :
    ∃ f : FormatIssue, asksLocator f = true ∧
      ∀ locators, key ∈ locators → checkVisit locators v = .ok (some f) := by
  unfold expressionKey? at hkey
  split at hkey
  · rename_i hexpression
    cases hvalue : v.value with
    | str s =>
      have hmarks : marksExpression s = true := by simpa [hvalue, hasExpression] using hexpression
      refine ⟨needsLocator v.path key s, rfl, ?_⟩
      intro locators hmem
      simp [checkVisit, hvalue, hkey, hmem, hmarks, Option.filter]
    | _ => simp [hvalue, hasExpression] at hexpression
  · simp at hkey

/-- Where no locator is asked for, the same is found as without locators. -/
theorem checkVisit_of_not_mem (h : ∀ key, expressionKey? v = some key → key ∉ locators) :
    checkVisit locators v = checkVisit [] v := by
  unfold checkVisit
  cases hvalue : v.value with
  | str s =>
    cases hkey : topKey? v with
    | none => rfl
    | some key =>
      by_cases hmem : key ∈ locators
      · -- A locator is asked for only where there is an expression.
        have hmarks : marksExpression s = false := by
          by_contra hmarks
          have hexpression : expressionKey? v = some key := by
            simp [expressionKey?, hvalue, hasExpression, hmarks, hkey]
          exact h key hexpression hmem
        simp [Option.filter, hmem, checkValue, hmarks]
      · simp [Option.filter, hmem]
  | _ => rfl

/-- A visit is checked alike by lists of locators that agree on its key. -/
theorem checkVisit_congr
    (h : ∀ key, expressionKey? v = some key → (key ∈ locators ↔ key ∈ locators')) :
    checkVisit locators v = checkVisit locators' v := by
  by_cases hasked : ∃ key, expressionKey? v = some key ∧ key ∈ locators
  · rcases hasked with ⟨key, hkey, hmem⟩
    rcases checkVisit_of_mem hkey with ⟨f, -, hf⟩
    rw [hf locators hmem, hf locators' ((h key hkey).1 hmem)]
  · rw [not_exists] at hasked
    rw [checkVisit_of_not_mem fun key hkey hmem => hasked key ⟨hkey, hmem⟩,
      checkVisit_of_not_mem fun key hkey hmem => hasked key ⟨hkey, (h key hkey).2 hmem⟩]

/-- The findings depend on the locators only as far as these hold expressions. -/
theorem checkVisits_congr
    (h : ∀ key ∈ vs.filterMap expressionKey?, (key ∈ locators ↔ key ∈ locators')) :
    checkVisits locators vs = checkVisits locators' vs := by
  induction vs with
  | nil => rfl
  | cons v rest ih =>
    have hvisit : checkVisit locators v = checkVisit locators' v := by
      refine checkVisit_congr fun key hkey => h key ?_
      exact List.mem_filterMap.2 ⟨v, List.mem_cons_self, hkey⟩
    have hrest : checkVisits locators rest = checkVisits locators' rest := by
      refine ih fun key hkey => h key ?_
      rcases List.mem_filterMap.1 hkey with ⟨w, hw, hwkey⟩
      exact List.mem_filterMap.2 ⟨w, List.mem_cons_of_mem v hw, hwkey⟩
    rw [checkVisits, checkVisits, hvisit, hrest]

/-- No issue of a locator asks for a locator. -/
theorem asksLocator_checkLocator {path : String} {fields : Entries Value} {f : FormatIssue}
    (h : checkLocator path fields = .ok (some f)) : asksLocator f = false := by
  unfold checkLocator at h
  split at h
  · rw [← Option.some.inj (Except.ok.inj h)]
    rfl
  · dsimp only at h
    split at h
    · simp at h
    · rw [← Option.some.inj (Except.ok.inj h)]
      rfl
    · split at h
      · split at h
        · rw [← Option.some.inj (Except.ok.inj h)]
          rfl
        · simp at h
      · simp at h

/-- Without locators none is asked for. -/
theorem asksLocator_of_checkVisit_nil {f : FormatIssue} (h : checkVisit [] v = .ok (some f)) :
    asksLocator f = false := by
  unfold checkVisit at h
  split at h
  · split at h
    · exact asksLocator_checkLocator h
    · simp at h
  · have hnone : (topKey? v).filter ([] : List String).contains = none := by
      cases topKey? v <;> rfl
    rw [hnone] at h
    unfold checkValue at h
    dsimp only at h
    split at h
    · split at h
      · rw [← Option.some.inj (Except.ok.inj h)]
        rfl
      · simp at h
    · simp at h
  · simp at h

/-- A visit asks for a locator if the key of its text is among the locators. -/
theorem count_checkVisit {found : Option FormatIssue} (h : checkVisit locators v = .ok found) :
    found.toList.countP asksLocator =
      (expressionKey? v).toList.countP locators.contains := by
  by_cases hasked : ∃ key, expressionKey? v = some key ∧ key ∈ locators
  · rcases hasked with ⟨key, hkey, hmem⟩
    rcases checkVisit_of_mem hkey with ⟨f, hasks, hf⟩
    rw [hf locators hmem] at h
    rw [← Except.ok.inj h, hkey]
    simp [hasks, hmem]
  · rw [not_exists] at hasked
    have hother : ∀ key, expressionKey? v = some key → key ∉ locators :=
      fun key hkey hmem => hasked key ⟨hkey, hmem⟩
    have hnone : (expressionKey? v).toList.countP locators.contains = 0 := by
      refine List.countP_eq_zero.2 ?_
      intro key hkey
      simpa using hother key (Option.mem_toList.1 hkey)
    rw [checkVisit_of_not_mem hother] at h
    rw [hnone]
    cases found with
    | none => rfl
    | some f => simp [asksLocator_of_checkVisit_nil h]

/-- A locator is asked for as often as there are expressions under the name of one. -/
theorem count_checkVisits {found : List FormatIssue} (h : checkVisits locators vs = .ok found) :
    found.countP asksLocator = (vs.filterMap expressionKey?).countP locators.contains := by
  induction vs generalizing found with
  | nil =>
    rw [← Except.ok.inj h]
    rfl
  | cons v rest ih =>
    unfold checkVisits at h
    cases hfirst : checkVisit locators v with
    | error e => simp [hfirst] at h
    | ok first =>
      cases hmore : checkVisits locators rest with
      | error e => simp [hfirst, hmore] at h
      | ok more =>
        simp only [hfirst, hmore, Except.ok.injEq] at h
        have hkeys : (v :: rest).filterMap expressionKey? =
            (expressionKey? v).toList ++ rest.filterMap expressionKey? := by
          cases hkey : expressionKey? v <;> simp [hkey]
        rw [← h, hkeys, List.countP_append, List.countP_append, count_checkVisit hfirst, ih hmore]

end Visits

section Trees

variable {maxDepth : Number} {locators locators' : List String} {tree : Value}

/-- A tree is checked alike by lists of locators that agree on the keys of its texts. -/
theorem checkTree_congr
    (h : ∀ key ∈ expressionKeys maxDepth tree, (key ∈ locators ↔ key ∈ locators')) :
    checkTree maxDepth locators tree = checkTree maxDepth locators' tree := by
  simp only [checkTree, checkVisits_congr h]

/-- A tree asks for as many locators as texts stand under their keys. -/
theorem count_checkTree {found : Findings} (h : checkTree maxDepth locators tree = .ok found) :
    found.issues.countP asksLocator =
      (expressionKeys maxDepth tree).countP locators.contains := by
  unfold checkTree at h
  dsimp only at h
  split at h
  · simp at h
  · rename_i issues hissues
    rw [← Except.ok.inj h]
    exact count_checkVisits hissues

/-- Whether the check comes to an end does not depend on the locators. -/
theorem exists_checkTree_of_ok {found : Findings} (h : checkTree maxDepth locators tree = .ok found)
    (locators' : List String) : ∃ found', checkTree maxDepth locators' tree = .ok found' := by
  refine exists_checkTree locators' ?_
  by_contra hnot
  rw [checkTree_of_not_readable locators hnot] at h
  simp at h

end Trees

/-- The locators of a node are those of its kind and those that its type declares. -/
theorem mem_locatorFields_iff {type key : String} {declared : List String} :
    key ∈ locatorFields type declared ↔ key ∈ locatorFields type [] ∨ key ∈ declared := by
  simp [locatorFields, NameSet.mem_insertAll]

end Format

/-- Whether a finding is the error that a resource locator is asked for. -/
def Issue.asksLocator (i : Issue) : Bool :=
  i.isError && i.category == .expressionFormat && i.code == "needs-resource-locator"

/-- Findings with other codes ask for no locator. -/
theorem Issue.count_asksLocator_eq_zero {issues : List Issue} {others : List String}
    (h : ∀ i ∈ issues, i.code ∈ others) (hothers : "needs-resource-locator" ∉ others) :
    issues.countP asksLocator = 0 := by
  refine List.countP_eq_zero.2 fun i hi hasks => hothers ?_
  have hcode : i.code = "needs-resource-locator" := by
    simpa using (Bool.and_eq_true_iff.1 hasks).2
  exact hcode ▸ h i hi

/-- A policy leaves the errors alone that ask for a locator. -/
theorem Policy.count_asksLocator (p : Policy) (issues : List Issue) :
    (p.errors issues).countP Issue.asksLocator = issues.countP Issue.asksLocator := by
  have hkinds : ∀ i : Issue, i.asksLocator = true → i.isError = true ∧ i.category ≠ .style := by
    intro i hi
    simp only [Issue.asksLocator, Bool.and_eq_true, beq_iff_eq] at hi
    exact ⟨hi.1.1, by simp [hi.1.2]⟩
  have hfilter : p.errors (issues.filter Issue.asksLocator) =
      (p.errors issues).filter Issue.asksLocator := by
    refine errors_filter fun _ _ happly => test_apply_of_not_style ?_ happly
    intro i hstyle
    simp only [Issue.asksLocator, hstyle, Bool.and_eq_false_iff]
    exact .inl (.inr (by decide))
  rw [List.countP_eq_length_filter, List.countP_eq_length_filter, ← hfilter,
    errors_eq_self fun i hi => hkinds i (List.mem_filter.1 hi).2]

namespace Scene

/-- The declared names are those of the first entry and those of the others. -/
theorem of_declaredLocatorsIn_cons {v : Value} {vs : List Value} {names : List String}
    (h : declaredLocatorsIn (v :: vs) = .ok names) :
    ∃ name more, declaredLocator v = .ok name ∧ declaredLocatorsIn vs = .ok more ∧
      names = name.toList ++ more := by
  unfold declaredLocatorsIn at h
  cases hname : declaredLocator v with
  | error e => simp [hname] at h
  | ok name =>
    cases hmore : declaredLocatorsIn vs with
    | error e => simp [hname, hmore, Except.map] at h
    | ok more =>
      refine ⟨name, more, rfl, rfl, ?_⟩
      simpa [hname, hmore, Except.map] using h.symm

/-- Of the parameters of a node that hold expressions, the second scene declares no more resource
locators than there are in the first. -/
def KeepsLocators (s s' : Scene) (depth : Number) (n : Node) : Prop :=
  ∀ old, s.declaredLocators n = .ok old →
    ∃ new, s'.declaredLocators n = .ok new ∧
      ∀ key ∈ Format.expressionKeys depth (.obj n.parameters),
        key ∈ new → key ∈ Format.locatorFields n.type old

variable {s s' : Scene} {depth : Number} {n : Node} {old new : List String}

/-- The findings about the form of expressions, where the locators are known. -/
theorem formatIssues_of_declared {declared : List String}
    (h : s.declaredLocators n = .ok declared) :
    s.formatIssues depth n =
      (Format.checkTree depth (Format.locatorFields n.type declared) (.obj n.parameters)).map
        fun f => f.issues.map (formatIssue n) := by
  simp only [formatIssues, h]

/-- Where nothing new is asked for the findings on the form of expressions stay. -/
theorem formatIssues_of_keepsLocators (hold : s.declaredLocators n = .ok old)
    (hsub : ∀ new, s'.declaredLocators n = .ok new → old ⊆ new)
    (h : s.KeepsLocators s' depth n) : s'.formatIssues depth n = s.formatIssues depth n := by
  rcases h old hold with ⟨new, hnew, hkeys⟩
  have hcheck : Format.checkTree depth (Format.locatorFields n.type new) (.obj n.parameters) =
      Format.checkTree depth (Format.locatorFields n.type old) (.obj n.parameters) := by
    refine Format.checkTree_congr fun key hkey => ⟨?_, ?_⟩
    · intro hmem
      rcases Format.mem_locatorFields_iff.1 hmem with hknown | hnewkey
      · exact Format.mem_locatorFields_iff.2 (.inl hknown)
      · exact hkeys key hkey hnewkey
    · intro hmem
      refine Format.mem_locatorFields_iff.2 ((Format.mem_locatorFields_iff.1 hmem).imp_right ?_)
      intro holdkey
      exact hsub new hnew holdkey
  rw [formatIssues_of_declared hold, formatIssues_of_declared hnew, hcheck]

/-- The errors about the form of expressions tell how often a locator is asked for. -/
theorem count_formatIssues {declared : List String} {issues : List Issue}
    (hdeclared : s.declaredLocators n = .ok declared)
    (h : s.formatIssues depth n = .ok issues) :
    issues.countP Issue.asksLocator =
      (Format.expressionKeys depth (.obj n.parameters)).countP
        (Format.locatorFields n.type declared).contains := by
  have hcode : Issue.asksLocator ∘ formatIssue n = Format.asksLocator := by
    funext f
    have hasks : Issue.asksLocator (formatIssue n f) =
        (f.severity == .error && true && f.kind.word == "needs-resource-locator") := rfl
    rw [Function.comp_apply, hasks, Format.asksLocator]
    cases f.kind <;> cases f.severity <;> decide
  rw [formatIssues_of_declared hdeclared] at h
  cases hcheck : Format.checkTree depth (Format.locatorFields n.type declared)
      (.obj n.parameters) with
  | error e => simp [hcheck, Except.map] at h
  | ok found =>
    have hissues : found.issues.map (formatIssue n) = issues := by
      simpa [hcheck, Except.map] using h
    rw [← hissues, List.countP_map, hcode, Format.count_checkTree hcheck]

/-- The check of the expressions themselves asks for no locators. -/
theorem count_nodeTextFindings {w : Wiring} {f : TextFindings} {declared : List String}
    (hdeclared : s.declaredLocators n = .ok declared) (h : s.nodeTextFindings depth w n = .ok f) :
    f.issues.countP Issue.asksLocator =
      (Format.expressionKeys depth (.obj n.parameters)).countP
        (Format.locatorFields n.type declared).contains := by
  rcases nodeTextFindings_eq_ok.1 h with ⟨issues, hissues, rfl⟩
  have hnone : (s.expressionFindings depth w n).issues.countP Issue.asksLocator = 0 := by
    have hcodes : ∀ i ∈ (s.expressionFindings depth w n).issues,
        i.code ∈ ["expression_error", "expression_warning"] := by
      intro i hi
      rcases List.mem_append.1 hi with hi | hi
      · rcases List.mem_map.1 hi with ⟨message, -, rfl⟩
        simp [expressionError]
      · rcases List.mem_map.1 hi with ⟨message, -, rfl⟩
        simp [expressionWarning]
    exact Issue.count_asksLocator_eq_zero hcodes (by decide)
  rw [TextFindings.issues_append, List.countP_append, hnone, Nat.zero_add]
  exact count_formatIssues hdeclared hissues

/-- The names that a type declares can be read if the form of expressions could be checked. -/
theorem exists_declaredLocators_of_ok {issues : List Issue}
    (h : s.formatIssues depth n = .ok issues) :
    ∃ declared, s.declaredLocators n = .ok declared := by
  unfold formatIssues at h
  cases hdeclared : s.declaredLocators n with
  | error e => simp [hdeclared] at h
  | ok declared => exact ⟨declared, rfl⟩

/-- With more locators a locator is asked for more often, unless nothing changes. -/
theorem count_nodeTextFindings_le {w w' : Wiring} {f g : TextFindings}
    (hsub : ∀ old new, s.declaredLocators n = .ok old → s'.declaredLocators n = .ok new → old ⊆ new)
    (hf : s.nodeTextFindings depth w n = .ok f) (hg : s'.nodeTextFindings depth w' n = .ok g) :
    f.issues.countP Issue.asksLocator ≤ g.issues.countP Issue.asksLocator ∧
      (g.issues.countP Issue.asksLocator ≤
          f.issues.countP Issue.asksLocator →
        s.KeepsLocators s' depth n) := by
  rcases nodeTextFindings_eq_ok.1 hf with ⟨_, holdIssues, -⟩
  rcases nodeTextFindings_eq_ok.1 hg with ⟨_, hnewIssues, -⟩
  rcases exists_declaredLocators_of_ok holdIssues with ⟨old, hold⟩
  rcases exists_declaredLocators_of_ok hnewIssues with ⟨new, hnew⟩
  have himp : ∀ key ∈ Format.expressionKeys depth (.obj n.parameters),
      (Format.locatorFields n.type old).contains key = true →
        (Format.locatorFields n.type new).contains key = true := by
    intro key _ hmem
    rw [List.contains_iff_mem] at hmem ⊢
    refine Format.mem_locatorFields_iff.2 ((Format.mem_locatorFields_iff.1 hmem).imp_right ?_)
    intro holdkey
    exact hsub old new hold hnew holdkey
  rw [count_nodeTextFindings hold hf, count_nodeTextFindings hnew hg]
  refine ⟨List.countP_mono_left himp, fun hcount old' hold' => ⟨new, hnew, ?_⟩⟩
  obtain rfl : old = old' := Except.ok.inj (hold.symm.trans hold')
  intro key hkey hnewkey
  have hmem : key ∈ Format.locatorFields n.type new :=
    Format.mem_locatorFields_iff.2 (.inr hnewkey)
  have hcontains := forall_of_countP_le himp hcount key hkey (List.contains_iff_mem.2 hmem)
  exact List.contains_iff_mem.1 hcontains

/-- If more locators are declared no less is asked for. -/
theorem count_textFindingsOf_le {w w' : Wiring} {ns : List Node} {f g : TextFindings}
    (hsub : ∀ n ∈ ns, ∀ old new, s.declaredLocators n = .ok old →
      s'.declaredLocators n = .ok new → old ⊆ new)
    (hf : s.textFindingsOf depth w ns = .ok f) (hg : s'.textFindingsOf depth w' ns = .ok g) :
    f.issues.countP Issue.asksLocator ≤ g.issues.countP Issue.asksLocator ∧
      (g.issues.countP Issue.asksLocator ≤
          f.issues.countP Issue.asksLocator →
        ∀ n ∈ ns, s.KeepsLocators s' depth n) := by
  induction ns generalizing f g with
  | nil =>
    rw [← Except.ok.inj hf, ← Except.ok.inj hg]
    simp
  | cons n rest ih =>
    rcases List.forall_mem_cons.1 hsub with ⟨hn, hrest⟩
    rcases of_textFindingsOf_cons hf with ⟨f₁, f₂, hf₁, hf₂, rfl⟩
    rcases of_textFindingsOf_cons hg with ⟨g₁, g₂, hg₁, hg₂, rfl⟩
    rcases count_nodeTextFindings_le hn hf₁ hg₁ with ⟨hfirst, hkeeps⟩
    rcases ih hrest hf₂ hg₂ with ⟨hmore, hothers⟩
    simp only [TextFindings.issues_append, List.countP_append]
    -- No part of the sum is less than before, so each is the same if the sum is.
    refine ⟨by omega, fun hcount => List.forall_mem_cons.2 ⟨hkeeps (by omega), ?_⟩⟩
    exact hothers (by omega)

section Settings

variable {settings : Settings} {w : Wiring} (hdocument : s'.document = s.document)
  (hexecuting : s'.executing = s.executing)

include hexecuting

/-- There are findings under fewer locators if there are some under more. -/
theorem exists_textFindings_of_fewer
    (hfewer : ∀ n ∈ s.executing, ∀ new, s'.declaredLocators n = .ok new →
      ∃ old, s.declaredLocators n = .ok old)
    {g : TextFindings} (hg : s'.textFindings settings w = .ok g) :
    ∃ f, s.textFindings settings w = .ok f := by
  have hformat := exists_textFindingsOf_iff.1 ⟨g, hg⟩
  refine exists_textFindingsOf_iff.2 ?_
  intro n hn
  rcases hformat n (hexecuting ▸ hn) with ⟨issues, hissues⟩
  rcases exists_declaredLocators_of_ok hissues with ⟨new, hnew⟩
  rcases hfewer n hn new hnew with ⟨old, hold⟩
  rw [formatIssues_of_declared hnew] at hissues
  cases hcheck : Format.checkTree settings.maxExpressionDepth (Format.locatorFields n.type new)
      (.obj n.parameters) with
  | error e => simp [hcheck, Except.map] at hissues
  | ok found =>
    rcases Format.exists_checkTree_of_ok hcheck (Format.locatorFields n.type old) with
      ⟨found', hfound'⟩
    exact ⟨_, by rw [formatIssues_of_declared hold, hfound']; rfl⟩

include hdocument

/-- The findings are the same where no expression stands under the name of a locator that is new. -/
theorem textFindings_of_keepsLocators
    (hsub : ∀ n ∈ s.executing, ∀ old new, s.declaredLocators n = .ok old →
      s'.declaredLocators n = .ok new → old ⊆ new)
    {f : TextFindings} (hf : s.textFindings settings w = .ok f)
    (h : ∀ n ∈ s.executing, s.KeepsLocators s' settings.maxExpressionDepth n) :
    s'.textFindings settings w = .ok f := by
  have hformat := exists_textFindingsOf_iff.1 ⟨f, hf⟩
  have hnames : s'.names = s.names := by rw [names, names, hdocument]
  rw [← hf, textFindings, textFindings, hexecuting]
  refine textFindingsOf_congr (List.forall₂_same.2 ?_)
  intro n hn
  rcases hformat n hn with ⟨issues, hissues⟩
  rcases exists_declaredLocators_of_ok hissues with ⟨old, hold⟩
  have hsame : s'.formatIssues settings.maxExpressionDepth n =
      s.formatIssues settings.maxExpressionDepth n :=
    formatIssues_of_keepsLocators hold (fun new hnew => hsub n hn old new hold hnew) (h n hn)
  simp only [nodeTextFindings, hsame, expressionFindings, expressionContext, hnames]

end Settings

end Scene
end Workflows
