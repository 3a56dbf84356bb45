import Workflows.Proofs.Entries
import Workflows.Proofs.Profile.Policy

/-!
# Findings — which errors there are about a node, one check at a time

A report has an error of a path and a code exactly if some check finds something of that path and
code that the policy makes an error of. Under a profile that runs the rules all checks take part,
and only some of them can find errors: what is malformed and what looks like a secret is never more
than a warning.

Main definitions:

* `Policy.Counts`, `NodeConfig.exists_error_iff` — findings that become errors;
* `NodeConfig.mem_findings_iff` — the findings by checks;
* `NodeConfig.mem_hidden_reportOf_iff` — the names that are reported as hidden;
* `NodeConfig.standard?`, `NodeConfig.get?_withDefaults` — the defaults that the resolver sees;
* `NodeConfig.setting` — the configuration in which a parameter is set.
-/

namespace Workflows

namespace Issue

variable {κ : Type} [BEq κ] [LawfulBEq κ]

/-- Every finding has the key of one that is kept, unless its key is among those seen. -/
theorem exists_mem_firstBy (key : Issue → κ) {seen : List κ} {issues : List Issue} {i : Issue}
    (hi : i ∈ issues) (hnew : key i ∉ seen) : ∃ j ∈ firstBy key seen issues, key j = key i := by
  induction issues generalizing seen with
  | nil => exact absurd hi List.not_mem_nil
  | cons first rest ih =>
    by_cases hkey : key i = key first
    · have hfirst : seen.contains (key first) = false := by simpa [← hkey] using hnew
      refine ⟨first, ?_, hkey.symm⟩
      rw [firstBy, if_neg (by simpa using hfirst)]
      exact List.mem_cons_self
    · have hrest : i ∈ rest := by
        rcases List.mem_cons.1 hi with rfl | hrest
        · exact absurd rfl hkey
        · exact hrest
      unfold firstBy
      split
      · exact ih hrest hnew
      · have hnew' : key i ∉ key first :: seen := by simp [hkey, hnew]
        rcases ih hrest hnew' with ⟨j, hj, heq⟩
        exact ⟨j, List.mem_cons_of_mem first hj, heq⟩

end Issue

namespace Policy

def Counts (p : Policy) (i : Issue) : Prop :=
  ∃ j, p.apply i = some j ∧ j.isError = true

theorem path_apply {p : Policy} {i j : Issue} (h : p.apply i = some j) : j.path = i.path := by
  rcases apply_eq_some h with rfl | rfl <;> rfl

/-- What is milder than an error and no matter of style stays so. -/
theorem not_counts {p : Policy} {i : Issue} (hmild : i.isError = false)
    (hstyle : i.category ≠ .style) : ¬ p.Counts i := by
  intro h
  rcases h with ⟨j, hj, herror⟩
  simp only [apply, hstyle, if_false] at hj
  obtain rfl := keep_eq_some hj
  simp [hmild] at herror

end Policy

namespace NodeConfig

variable {c : NodeConfig} {profile : Profile} {visible : List Property}

/-! ## Errors -/

/-- The errors that a policy makes of the findings, with the name of the node. -/
theorem mem_errors_namedFindings_iff {e : Issue} :
    e ∈ profile.policy.errors (c.namedFindings profile visible) ↔
      ∃ i ∈ (findings profile.policy c visible).issues, ∃ j, profile.policy.apply i = some j ∧
        j.isError = true ∧ { j with nodeName := c.nodeName } = e := by
  -- The name of the node makes no difference to the policy.
  have hnamed : ∀ i : Issue, profile.policy.apply { i with nodeName := c.nodeName } =
      (profile.policy.apply i).map fun j => { j with nodeName := c.nodeName } := fun i =>
    Policy.apply_comm (f := fun j => { j with nodeName := c.nodeName }) (fun _ => rfl)
      (fun _ => rfl) (fun _ => rfl) i
  simp only [Policy.errors, namedFindings, List.mem_filter, List.mem_filterMap, List.mem_map]
  constructor
  · intro h
    rcases h with ⟨⟨_, ⟨i, hi, rfl⟩, happly⟩, herror⟩
    rw [hnamed, Option.map_eq_some_iff] at happly
    rcases happly with ⟨j, hj, rfl⟩
    exact ⟨i, hi, j, hj, herror, rfl⟩
  · intro h
    rcases h with ⟨i, hi, j, hj, herror, rfl⟩
    refine ⟨⟨_, ⟨i, hi, rfl⟩, ?_⟩, herror⟩
    rw [hnamed, hj, Option.map_some]

/-- There is an error of a path and a code exactly if there is a finding with them that counts. -/
theorem exists_error_iff {path : Option String} {code : String} :
    (∃ e ∈ (reportOf profile c visible).errors, e.path = path ∧ e.code = code) ↔
      ∃ i ∈ (findings profile.policy c visible).issues,
        profile.policy.Counts i ∧ i.path = path ∧ i.code = code := by
  rw [errors_reportOf, Issue.distinct]
  constructor
  · intro h
    rcases h with ⟨e, he, rfl, rfl⟩
    have he := (Issue.firstBy_sublist _ _).subset he
    rcases mem_errors_namedFindings_iff.1 he with ⟨i, hi, j, hj, herror, rfl⟩
    exact ⟨i, hi, ⟨j, hj, herror⟩, (Policy.path_apply hj).symm, (Policy.category_apply hj).2.symm⟩
  · intro h
    rcases h with ⟨i, hi, ⟨j, hj, herror⟩, rfl, rfl⟩
    have he : { j with nodeName := c.nodeName } ∈
        profile.policy.errors (c.namedFindings profile visible) :=
      mem_errors_namedFindings_iff.2 ⟨i, hi, j, hj, herror, rfl⟩
    rcases Issue.exists_mem_firstBy (fun i => (i.path, i.code)) he List.not_mem_nil with
      ⟨e, hkept, hkey⟩
    simp only [Prod.mk.injEq] at hkey
    exact ⟨e, hkept, hkey.1.trans (Policy.path_apply hj), hkey.2.trans (Policy.category_apply hj).2⟩

/-! ## Checks -/

/-- Where the rules run, all checks find what there is to find. -/
theorem mem_findings_iff (hprofile : profile.policy.runRules = true) {i : Issue} :
    i ∈ (findings profile.policy c visible).issues ↔
      i ∈ c.malformedIssues ∨ i ∈ requiredIssues c.parameters visible ∨
        i ∈ typeIssues c.parameters [] visible ∨ i ∈ (Rules.run c.type c.parameters).issues ∨
        i ∈ unusedIssues c.properties visible c.parameters ∨ i ∈ secretIssues c.parameters := by
  have hissues : (findings profile.policy c visible).issues =
      (c.malformedIssues ++ requiredIssues c.parameters visible
        ++ typeIssues c.parameters [] visible)
        ++ ((Rules.run c.type c.parameters).issues
          ++ (unusedIssues c.properties visible c.parameters ++ secretIssues c.parameters)) := by
    cases profile with
    | minimal => simp [Profile.policy] at hprofile
    | _ => rfl
  rw [hissues]
  simp only [List.mem_append, or_assoc]

theorem not_counts_of_malformed {policy : Policy} {i : Issue} (hi : i ∈ c.malformedIssues) :
    ¬ policy.Counts i := by
  rcases of_mem_malformedIssues hi with ⟨hseverity, hcategory, -⟩
  exact Policy.not_counts (by simp [Issue.isError, hseverity]) (by simp [hcategory])

/-- What looks like a secret is a danger, and no more than a warning. -/
theorem of_mem_secretIssues {ps : Entries Value} {i : Issue} (hi : i ∈ secretIssues ps) :
    i.isError = false ∧ i.category = .security ∧ i.code = "security" := by
  rcases List.mem_filterMap.1 hi with ⟨visit, -, hvisit⟩
  unfold secretIssue? at hvisit
  split at hvisit
  · split at hvisit
    · rw [← Option.some.inj hvisit]
      exact ⟨rfl, rfl, rfl⟩
    · simp at hvisit
  · simp at hvisit

theorem not_counts_of_secret {policy : Policy} {ps : Entries Value} {i : Issue}
    (hi : i ∈ secretIssues ps) : ¬ policy.Counts i := by
  rcases of_mem_secretIssues hi with ⟨hmild, hcategory, -⟩
  exact Policy.not_counts hmild (by simp [hcategory])

theorem mem_requiredIssues_iff {ps : Entries Value} {i : Issue} :
    i ∈ requiredIssues ps visible ↔
      ∃ p ∈ visible, p.required = true ∧ p.hasDefault = false ∧ isUnset ps p.name = true ∧
        missingRequired p = i := by
  simp only [requiredIssues, List.mem_map, List.mem_filter, Bool.and_eq_true, Bool.not_eq_true',
    and_assoc]

/-- What is found wrong with a value is found with the value of a property that applies. -/
theorem exists_of_mem_typeIssues {ps : Entries Value} {checked : List String} {i : Issue}
    (h : i ∈ typeIssues ps checked visible) :
    ∃ p ∈ visible, ∃ v, ps.get? p.name = some v ∧ i ∈ valueIssues p v := by
  induction visible generalizing checked with
  | nil => exact absurd h List.not_mem_nil
  | cons p rest ih =>
    have hlater : ∀ {checked}, i ∈ typeIssues ps checked rest →
        ∃ q ∈ p :: rest, ∃ v, ps.get? q.name = some v ∧ i ∈ valueIssues q v := by
      intro checked hi
      rcases ih hi with ⟨q, hq, hvalue⟩
      exact ⟨q, List.mem_cons_of_mem p hq, hvalue⟩
    unfold typeIssues at h
    split at h
    · exact hlater h
    · rename_i v hv
      split at h
      · exact hlater h
      · rcases List.mem_append.1 h with h | h
        · exact ⟨p, List.mem_cons_self, v, hv, h⟩
        · exact hlater h

/-- Where properties have names of their own, the value of each that applies is checked. -/
theorem mem_typeIssues {ps : Entries Value} {checked : List String} {i : Issue} {p : Property}
    {v : Value} (hnames : (visible.map Property.name).Nodup) (hp : p ∈ visible)
    (hchecked : p.name ∉ checked) (hv : ps.get? p.name = some v) (hi : i ∈ valueIssues p v) :
    i ∈ typeIssues ps checked visible := by
  induction visible generalizing checked with
  | nil => exact absurd hp List.not_mem_nil
  | cons q rest ih =>
    rw [List.map_cons, List.nodup_cons] at hnames
    unfold typeIssues
    -- The values of other properties are checked before, but none under this name.
    rcases List.mem_cons.1 hp with rfl | hp
    · have hnew : checked.contains p.name = false := by simpa using hchecked
      simp only [hv, hnew]
      exact List.mem_append_left _ hi
    · have hne : p.name ≠ q.name := fun heq => hnames.1 (heq ▸ List.mem_map_of_mem hp)
      split
      · exact ih hnames.2 hp hchecked
      · split
        · exact ih hnames.2 hp hchecked
        · refine List.mem_append_right _ (ih hnames.2 hp ?_)
          simp [hne, hchecked]

/-- An error of type or value at a name. -/
def AboutValue (name : String) (i : Issue) : Prop :=
  i.path = some name ∧ (i.code = "invalid_type" ∨ i.code = "invalid_value")

section Values

variable {p : Property} {v : Value} {i : Issue}

theorem of_mem_optionIssues (h : i ∈ optionIssues p v) : AboutValue p.name i := by
  have hunknown : ∀ selected : List Value, i ∈ (if p.optionValues.isEmpty then []
      else (selected.filter fun item => !p.optionValues.any (Allowed.equal item)).map
        (optionIssue p)) → AboutValue p.name i := by
    intro selected hi
    split at hi
    · exact absurd hi List.not_mem_nil
    · rcases List.mem_map.1 hi with ⟨item, -, rfl⟩
      exact ⟨rfl, .inr rfl⟩
  unfold optionIssues at h
  dsimp only at h
  split at h
  · split at h
    · exact hunknown _ h
    · rw [List.mem_singleton.1 h]
      exact ⟨rfl, .inl rfl⟩
  · exact hunknown _ h

theorem of_mem_jsonIssues (h : i ∈ jsonIssues p v) : AboutValue p.name i := by
  unfold jsonIssues at h
  split at h
  · split at h
    · exact absurd h List.not_mem_nil
    · rw [List.mem_singleton.1 h]
      exact ⟨rfl, .inr rfl⟩
  · exact absurd h List.not_mem_nil
  · exact absurd h List.not_mem_nil
  · exact absurd h List.not_mem_nil
  · rw [List.mem_singleton.1 h]
    exact ⟨rfl, .inl rfl⟩

/-- What is wrong with the value of a property is an error of type or value at its name. -/
theorem of_mem_valueIssues (h : i ∈ valueIssues p v) : AboutValue p.name i := by
  unfold valueIssues at h
  split at h
  · exact absurd h List.not_mem_nil
  · split at h
    · exact of_mem_optionIssues h
    · split at h
      · exact of_mem_jsonIssues h
      · split at h
        · split at h
          · exact absurd h List.not_mem_nil
          · rw [List.mem_singleton.1 h]
            exact ⟨rfl, .inl rfl⟩
        · exact absurd h List.not_mem_nil

end Values

theorem mem_unusedIssues_iff {properties : List Property} {ps : Entries Value} {i : Issue} :
    i ∈ unusedIssues properties visible ps ↔
      ∃ name ∈ ps.keys, (∃ p ∈ properties, p.name = name) ∧ (∀ p ∈ visible, p.name ≠ name) ∧
        unusedIssue properties name = i := by
  simp [unusedIssues, and_assoc]

/-! ## Names -/

theorem visible_reportOf :
    (reportOf profile c visible).visible = (visible.map Property.name).eraseDups := by
  unfold reportOf
  dsimp only
  split <;> rfl

theorem hidden_reportOf :
    (reportOf profile c visible).hidden =
      ((c.properties.map Property.name).eraseDups).filter fun name =>
        !(reportOf profile c visible).visible.contains name := by
  unfold reportOf
  dsimp only
  split <;> rfl

/-- Reported as hidden are the names of properties none of which applies. -/
theorem mem_hidden_reportOf_iff {name : String} :
    name ∈ (reportOf profile c visible).hidden ↔
      (∃ p ∈ c.properties, p.name = name) ∧ ∀ p ∈ visible, p.name ≠ name := by
  rw [hidden_reportOf, visible_reportOf]
  simp

/-! ## Defaults -/

/-- The default that counts for a name: that of the first property of the name that has one. -/
def standard? (properties : List Property) (name : String) : Option Value :=
  (properties.find? fun p => p.name == name && !p.default.isNull).map Property.default

/-- The resolver sees the value of a parameter that is given, and else the default. -/
theorem get?_withDefaults (ps : Entries Value) (properties : List Property) (name : String) :
    (withDefaults ps properties).get? name = (ps.get? name).or (standard? properties name) := by
  induction properties generalizing ps with
  | nil => simp [withDefaults, standard?]
  | cons p rest ih =>
    unfold withDefaults
    rw [ih]
    cases hnull : p.default.isNull with
    | true => simp [standard?, hnull]
    | false =>
      simp only [Bool.false_eq_true, if_false, Entries.get?_putNew]
      by_cases hname : p.name = name
      · cases ps.get? name <;> simp [standard?, hnull, hname]
      · simp [standard?, hname]

/-! ## A parameter that is set -/

def setting (c : NodeConfig) (key : String) (value : Value) : NodeConfig :=
  { c with parameters := c.parameters.put key value }

section Setting

variable {key name : String} {value : Value}

theorem get?_setting_of_ne (h : name ≠ key) :
    (c.setting key value).parameters.get? name = c.parameters.get? name :=
  Entries.get?_put_of_ne value c.parameters h

theorem get?_setting_self : (c.setting key value).parameters.get? key = some value :=
  Entries.get?_put_self key value c.parameters

/-- Of the other parameters the resolver sees what it saw before. -/
theorem get?_config_setting_of_ne (h : name ≠ key) :
    (c.setting key value).resolver.config.get? name = c.resolver.config.get? name := by
  change (withDefaults (c.setting key value).parameters c.properties).get? name =
    (withDefaults c.parameters c.properties).get? name
  rw [get?_withDefaults, get?_withDefaults, get?_setting_of_ne h]

theorem get?_config_setting_self :
    (c.setting key value).resolver.config.get? key = some value := by
  change (withDefaults (c.setting key value).parameters c.properties).get? key = some value
  rw [get?_withDefaults, get?_setting_self]
  rfl

end Setting

end NodeConfig

end Workflows
