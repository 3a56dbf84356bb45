import Workflows.NodeConfig

/-!
# StyleCodes — matters of style have codes of their own

Of the findings on one node only the first of each path and code is reported. A profile that turns
matters of style into errors could thereby hide a real error behind one of style, if the two had one
code. They never have: every check that finds something about the parameters of a node uses two
codes for style, and none of the others does. To see that, the kinds of findings are listed, and
every check is shown to keep to the list.

Main definitions:

* `Issue.Marked` — the code of a finding tells whether it is one of style;
* `Issue.parameterKinds`, `NodeConfig.listed_findings` — the kinds of findings on parameters;
* `NodeConfig.marked_findings` — all findings on the parameters of a node are marked.
-/

namespace Workflows

namespace Issue

/-- The codes of findings of style on the parameters of a node. -/
def styleCodes : List String := ["best_practice", "hidden_property"]

/-- The code of a finding is one of those for style exactly if the finding is one of style. -/
def Marked (i : Issue) : Prop :=
  i.category = .style ↔ i.code ∈ styleCodes

instance (i : Issue) : Decidable i.Marked :=
  inferInstanceAs (Decidable (i.category = .style ↔ i.code ∈ styleCodes))

/-- The kinds of findings on the parameters of a node: their categories with their codes. A property
that cannot be read is no finding on a parameter. -/
def parameterKinds : List (Category × String) :=
  [(.required, "missing_required"), (.type, "invalid_type"), (.type, "invalid_value"),
    (.rule, "invalid_value"), (.rule, "missing_required"), (.rule, "incompatible"),
    (.security, "security"), (.style, "best_practice"), (.style, "hidden_property")]

def Listed (i : Issue) : Prop :=
  (i.category, i.code) ∈ parameterKinds

/-- What holds of all kinds holds of the finding. -/
theorem Listed.of_kinds {i : Issue} {p : Category → String → Prop} (h : i.Listed)
    (hkinds : ∀ kind ∈ parameterKinds, p kind.1 kind.2) : p i.category i.code :=
  hkinds _ h

/-- A listed issue is one that bears its mark. -/
theorem Listed.marked {i : Issue} (h : i.Listed) : i.Marked :=
  h.of_kinds (p := fun category code => category = .style ↔ code ∈ styleCodes) (by decide)

end Issue

namespace Outcome

def Marked (o : Outcome) : Prop :=
  ∀ i ∈ o.issues, i.Marked

def Listed (o : Outcome) : Prop :=
  ∀ i ∈ o.issues, i.Listed

variable {o o' : Outcome}

/-- An outcome is listed if its issues are. -/
@[simp] theorem listed_mk_iff {issues : List Issue} {autofix : Entries Value}
    {suggestions : List String} :
    (mk issues autofix suggestions).Listed ↔ ∀ i ∈ issues, i.Listed :=
  Iff.rfl

@[simp] theorem listed_none : none.Listed := by
  simp [none]

@[simp] theorem listed_ofIssue_iff {i : Issue} : (ofIssue i).Listed ↔ i.Listed := by
  simp [ofIssue]

@[simp] theorem listed_append_iff : (o ++ o').Listed ↔ o.Listed ∧ o'.Listed :=
  List.forall_mem_append

@[simp] theorem listed_whenever_iff {condition : Bool} :
    (whenever condition o).Listed ↔ (condition = true → o.Listed) := by
  cases condition <;> simp [whenever]

/-- The outcomes of several rules are listed if each of them is. -/
theorem listed_join {os : List Outcome} (h : ∀ o ∈ os, o.Listed) : (join os).Listed := by
  have hfold : ∀ acc : Outcome, acc.Listed → (os.foldl append acc).Listed := by
    induction os with
    | nil => exact fun _ hacc => hacc
    | cons o rest ih =>
      intro acc hacc
      have hrest : ∀ o ∈ rest, o.Listed := fun o' ho' => h o' (List.mem_cons_of_mem o ho')
      exact ih hrest (acc ++ o) (listed_append_iff.2 ⟨hacc, h o List.mem_cons_self⟩)
  exact hfold none listed_none

end Outcome

/-! ## The rules -/

section Rules

variable (ps : Entries Value)

/-- The findings on the text of a code node are listed. -/
theorem Code.listed_checkText (field : String) (indented : Bool) (code : String) :
    ∀ i ∈ Code.checkText ps field indented code, i.Listed := by
  have hreturn : (Code.missingReturn field indented).Listed := by
    simp [Code.missingReturn, Outcome.error, Issue.Listed, Issue.parameterKinds]
  have hprimitive : (Code.primitiveReturn field).Listed := by
    simp [Code.primitiveReturn, Outcome.error, Issue.Listed, Issue.parameterKinds]
  have hitems : (Code.itemsUnavailable field).Listed := by
    simp [Code.itemsUnavailable, Outcome.style, Issue.Listed, Issue.parameterKinds]
  unfold Code.checkText
  refine List.forall_mem_append.2 ⟨?_, ?_⟩
  · split
    · simpa using hreturn
    · split
      · simpa using hprimitive
      · simp
  · split
    · simpa using hitems
    · simp

/-- The rule on code nodes finds what is listed. -/
theorem Code.listed_check : (Code.check ps).Listed := by
  unfold Code.check
  extract_lets language indented field other
  split
  · simp +zetaDelta [Outcome.error, Issue.Listed, Issue.parameterKinds]
  · split
    · split
      · simp +zetaDelta [Outcome.error, Issue.Listed, Issue.parameterKinds]
      · exact Code.listed_checkText ps _ _ _
    · simp +zetaDelta [Outcome.error, Issue.Listed, Issue.parameterKinds]

/-- The rule on the path of a trigger finds what is listed. -/
theorem Web.listed_checkTriggerPath : (Web.checkTriggerPath ps).Listed := by
  unfold Web.checkTriggerPath
  split
  · simp [Outcome.error, Issue.Listed, Issue.parameterKinds]
  · split
    · simp
    · split
      · simp
      · simp [Web.leadingSlash, Outcome.error, Outcome.style, Issue.Listed, Issue.parameterKinds]

theorem Web.listed_checkResponse : (Web.checkResponse ps).Listed := by
  simp [Web.checkResponse]

theorem Web.listed_unreadable (key text : String) : (Web.unreadable key text).Listed := by
  unfold Web.unreadable
  split
  · simp
  · simp [Outcome.error, Issue.Listed, Issue.parameterKinds]

/-- The rule on requests finds what is listed. -/
theorem Web.listed_checkRequest : (Web.checkRequest ps).Listed := by
  have haddress : ∀ url, (Web.checkAddress url).Listed := by
    intro url
    simp [Web.checkAddress, Outcome.error, Outcome.security, Issue.Listed, Issue.parameterKinds]
  have hbody : (Web.checkBody ps).Listed := by
    unfold Web.checkBody
    split
    · simp [Outcome.style, Issue.Listed, Issue.parameterKinds]
    · simp
  have hjson : (Web.checkJsonBody ps).Listed := by
    unfold Web.checkJsonBody
    split
    · simp
    · simp [Web.listed_unreadable]
  unfold Web.checkRequest
  simp only [Outcome.listed_append_iff, hbody, hjson, and_true]
  split
  · simp
  · simp [haddress]

/-- The rule on statements for databases finds what is listed. -/
theorem Sql.listed_check : (Sql.check ps).Listed := by
  unfold Sql.check
  split
  · simp
  · dsimp only
    split
    · simp
    · simp [Outcome.security, Issue.Listed, Issue.parameterKinds]

theorem Routing.listed_checkSwitch : (Routing.checkSwitch ps).Listed := by
  unfold Routing.checkSwitch
  split
  · simp
  · simp [Outcome.error, Issue.Listed, Issue.parameterKinds]

/-- The rule on conditions finds what is listed. -/
theorem Routing.listed_checkConditions : (Routing.checkConditions ps).Listed := by
  unfold Routing.checkConditions
  split
  · simp
  · simp [Outcome.error, Issue.Listed, Issue.parameterKinds]

theorem Routing.listed_checkSet : (Routing.checkSet ps).Listed := by
  unfold Routing.checkSet
  split
  · split
    · simp
    · simp [Web.listed_unreadable]
  · simp [Outcome.style, Issue.Listed, Issue.parameterKinds]

/-- Whatever the rules of a type find is listed. -/
theorem Rules.listed_run (type : String) : (Rules.run type ps).Listed := by
  have hrules : ∀ short, ∀ rule ∈ Rules.forType short, (rule ps).Listed := by
    intro short
    unfold Rules.forType
    split <;>
      simp [Code.listed_check, Web.listed_checkTriggerPath, Web.listed_checkResponse,
        Web.listed_checkRequest, Sql.listed_check, Routing.listed_checkSwitch,
        Routing.listed_checkConditions, Routing.listed_checkSet]
  refine Outcome.listed_join ?_
  intro o ho
  rcases List.mem_map.1 ho with ⟨rule, hrule, rfl⟩
  exact hrules _ rule hrule

end Rules

/-! ## All findings on the parameters of a node -/

namespace NodeConfig

/-- A finding on the type of a value is listed. -/
theorem listed_typeIssue (p : Property) (expected : String) (v : Value) :
    (typeIssue p expected v).Listed := by
  simp [typeIssue, Issue.Listed, Issue.parameterKinds]

theorem listed_optionIssues (p : Property) (v : Value) : ∀ i ∈ optionIssues p v, i.Listed := by
  have hoption : ∀ item, (optionIssue p item).Listed := by
    intro item
    simp [optionIssue, valueIssue, Issue.Listed, Issue.parameterKinds]
  have hunknown : ∀ selected : List Value, ∀ i ∈ (if p.optionValues.isEmpty then []
      else (selected.filter fun item => !p.optionValues.any (Allowed.equal item)).map
        (optionIssue p)), i.Listed := by
    intro selected i hi
    split at hi
    · simp at hi
    · rcases List.mem_map.1 hi with ⟨item, -, rfl⟩
      exact hoption item
  unfold optionIssues
  dsimp only
  split
  · split
    · exact hunknown _
    · simp [listed_typeIssue]
  · exact hunknown _

theorem listed_jsonIssues (p : Property) (v : Value) : ∀ i ∈ jsonIssues p v, i.Listed := by
  unfold jsonIssues
  split
  · split
    · simp
    · simp [valueIssue, Issue.Listed, Issue.parameterKinds]
  all_goals simp [listed_typeIssue]

/-- The findings on a value of its kind are listed. -/
theorem listed_valueIssues (p : Property) (v : Value) : ∀ i ∈ valueIssues p v, i.Listed := by
  unfold valueIssues
  split
  · simp
  · split
    · exact listed_optionIssues p v
    · split
      · exact listed_jsonIssues p v
      · split
        · split
          · simp
          · simp [listed_typeIssue]
        · simp

/-- The findings on the types of all parameters are listed. -/
theorem listed_typeIssues (ps : Entries Value) (checked : List String) (visible : List Property) :
    ∀ i ∈ typeIssues ps checked visible, i.Listed := by
  induction visible generalizing checked with
  | nil => simp [typeIssues]
  | cons p rest ih =>
    unfold typeIssues
    split
    · exact ih checked
    · split
      · exact ih checked
      · exact List.forall_mem_append.2 ⟨listed_valueIssues p _, ih _⟩

/-- What is found of a property that cannot be read is a warning that is no matter of style. -/
theorem of_mem_malformedIssues {c : NodeConfig} {i : Issue} (h : i ∈ c.malformedIssues) :
    i.severity = .warning ∧ i.category = .anomaly ∧ i.code = "malformed_schema" := by
  rcases List.mem_filterMap.1 h with ⟨⟨v, index⟩, -, heq⟩
  dsimp only at heq
  split at heq
  · simp at heq
  · rw [← Option.some.inj heq]
    exact ⟨rfl, rfl, rfl⟩

/-- The findings on missing parameters are listed. -/
theorem listed_requiredIssues (ps : Entries Value) (visible : List Property) :
    ∀ i ∈ requiredIssues ps visible, i.Listed := by
  intro i hi
  rcases List.mem_map.1 hi with ⟨p, -, rfl⟩
  simp [missingRequired, Issue.Listed, Issue.parameterKinds]

/-- The findings on parameters without effect are listed. -/
theorem listed_unusedIssues (properties visible : List Property) (ps : Entries Value) :
    ∀ i ∈ unusedIssues properties visible ps, i.Listed := by
  intro i hi
  rcases List.mem_map.1 hi with ⟨name, -, rfl⟩
  simp [unusedIssue, Outcome.style, Issue.Listed, Issue.parameterKinds]

/-- The findings on secrets are listed. -/
theorem listed_secretIssues (ps : Entries Value) : ∀ i ∈ secretIssues ps, i.Listed := by
  intro i hi
  rcases List.mem_filterMap.1 hi with ⟨visit, -, heq⟩
  unfold secretIssue? at heq
  split at heq
  · split at heq
    · rw [← Option.some.inj heq]
      simp [Outcome.security, Issue.Listed, Issue.parameterKinds]
    · simp at heq
  · simp at heq

/-- Whatever the policy, the findings on a node that are not about properties that cannot be read are
listed. -/
theorem listed_findings (policy : Policy) (c : NodeConfig) (visible : List Property) :
    ∀ i ∈ (c.findings policy visible).issues, i ∈ c.malformedIssues ∨ i.Listed := by
  have htypes : ∀ i ∈ (if policy.checkTypes then typeIssues c.parameters [] visible else []),
      i.Listed := by
    split
    · exact listed_typeIssues _ _ _
    · simp
  have hrules : (Outcome.whenever policy.runRules (Rules.run c.type c.parameters
      ++ { issues := unusedIssues c.properties visible c.parameters
            ++ secretIssues c.parameters })).Listed := by
    simp only [Outcome.listed_whenever_iff, Outcome.listed_append_iff, Outcome.listed_mk_iff,
      List.forall_mem_append]
    intro _
    exact ⟨Rules.listed_run _ _, listed_unusedIssues _ _ _, listed_secretIssues _⟩
  intro i hi
  rcases List.mem_append.1 hi with hi | hi
  · rcases List.mem_append.1 hi with hi | hi
    · rcases List.mem_append.1 hi with hi | hi
      · exact .inl hi
      · exact .inr (listed_requiredIssues _ _ i hi)
    · exact .inr (htypes i hi)
  · exact .inr (hrules i hi)

/-- Whatever the policy, all findings on the parameters of a node are marked. -/
theorem marked_findings (policy : Policy) (c : NodeConfig) (visible : List Property) :
    (c.findings policy visible).Marked := by
  intro i hi
  rcases listed_findings policy c visible i hi with hmalformed | hlisted
  · rcases of_mem_malformedIssues hmalformed with ⟨-, hcategory, hcode⟩
    simp [Issue.Marked, hcategory, hcode, Issue.styleCodes]
  · exact hlisted.marked

end NodeConfig

end Workflows
