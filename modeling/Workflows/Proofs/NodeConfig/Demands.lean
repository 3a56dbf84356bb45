import Workflows.Proofs.NodeConfig.Findings
import Workflows.Proofs.NodeConfig.Proposals
import Workflows.Proofs.NodeConfig.Required

/-!
# Demands — the missing values that are reported under a profile

Two checks report missing values. One asks for those of required properties that apply; under the
minimal profile it is the only one. The other one is a rule: triggers demand a path, and code nodes
some code. It reads the parameters as they are given, without defaults, and only few of them, and
finds one missing value at most. Where both name the same parameter the first one is reported.

Main definitions:

* `Rules.demanded`, `Rules.demanded_eq` — what the rules of a type miss, and when they do;
* `Rules.demandReads` — the parameters by which they tell;
* `NodeConfig.asked`, `NodeConfig.unasked` — the missing values by checks;
* `NodeConfig.missing_reportOf` — the missing values in a report.
-/

namespace Workflows

def Issue.missingCode : List String := ["missing_required"]

namespace Rules

def otherCodes : List String := ["invalid_value", "incompatible", "best_practice", "security"]

/-- Nothing that is found is a missing value. -/
def Lacking (o : Outcome) : Prop :=
  ∀ i ∈ o.issues, i.code ∈ otherCodes

/-- A value that a rule misses. -/
def demand (field message : String) : Issue :=
  { Outcome.error field message with code := "missing_required" }

def demanded (type : String) (ps : Entries Value) : List Issue :=
  (run type ps).issues.filter (Issue.hasCode Issue.missingCode)

/-- Whether code is missed in one field: there is none, or a blank one, and it is not that code is
given in the other field only. -/
def lacksCode (field other : String) (ps : Entries Value) : Bool :=
  !(Parameters.isSet other ps && !Parameters.isSet field ps) &&
    (Parameters.text? field ps).all fun code => Text.allBlank code.toList

/-- The field for code in the language that is set, and that for the other languages. -/
def codeFields (ps : Entries Value) : String × String :=
  if Code.isIndentedLanguage ((ps.get? "language").getD (.str "javaScript")) then
    ("pythonCode", "jsCode")
  else ("jsCode", "pythonCode")

def demandsOf (short : String) (ps : Entries Value) : List Issue :=
  match short with
  | "code" =>
    if lacksCode (codeFields ps).1 (codeFields ps).2 ps then
      [demand (codeFields ps).1 "Code cannot be empty"] else []
  | "webhook" | "formTrigger" =>
    if Parameters.isSet "path" ps then [] else [demand "path" "Webhook path is required"]
  | _ => []

section Lacking

variable {o o' : Outcome}

@[simp] theorem lacking_mk_iff {issues : List Issue} {autofix : Entries Value}
    {suggestions : List String} :
    Lacking (.mk issues autofix suggestions) ↔ ∀ i ∈ issues, i.code ∈ otherCodes :=
  Iff.rfl

@[simp] theorem lacking_none : Lacking .none := by
  simp [Outcome.none]

@[simp] theorem lacking_ofIssue_iff {i : Issue} : Lacking (.ofIssue i) ↔ i.code ∈ otherCodes := by
  simp [Outcome.ofIssue]

@[simp] theorem lacking_append_iff : Lacking (o ++ o') ↔ Lacking o ∧ Lacking o' :=
  List.forall_mem_append

@[simp] theorem lacking_whenever_iff {condition : Bool} :
    Lacking (.whenever condition o) ↔ (condition = true → Lacking o) := by
  cases condition <;> simp [Outcome.whenever]

theorem Lacking.filter_eq_nil (h : Lacking o) :
    o.issues.filter (Issue.hasCode Issue.missingCode) = [] :=
  Issue.filter_hasCode_eq_nil h (by decide)

/-- Where only the first outcome may miss a value, the joined one misses what that misses. -/
theorem missing_join_cons {os : List Outcome} (hothers : ∀ o' ∈ os, Lacking o') :
    (Outcome.join (o :: os)).issues.filter (Issue.hasCode Issue.missingCode) =
      o.issues.filter (Issue.hasCode Issue.missingCode) := by
  have hrest : Lacking ⟨os.flatMap Outcome.issues, [], []⟩ := by
    intro i hi
    rcases List.mem_flatMap.1 hi with ⟨o', ho', hi⟩
    exact hothers o' ho' i hi
  have hnone : (os.flatMap Outcome.issues).filter (Issue.hasCode Issue.missingCode) = [] :=
    hrest.filter_eq_nil
  calc
    (Outcome.join (o :: os)).issues.filter (Issue.hasCode Issue.missingCode)
        = (o.issues ++ os.flatMap Outcome.issues).filter (Issue.hasCode Issue.missingCode) := by
          rw [Outcome.issues_join, List.flatMap_cons]
    _ = o.issues.filter (Issue.hasCode Issue.missingCode) ++
          (os.flatMap Outcome.issues).filter (Issue.hasCode Issue.missingCode) :=
        List.filter_append _ _
    _ = o.issues.filter (Issue.hasCode Issue.missingCode) := by rw [hnone, List.append_nil]

end Lacking

/-! ## Rule by rule -/

section Rules

variable (ps : Entries Value)

theorem lacking_checkText (field : String) (indented : Bool) (code : String) :
    ∀ i ∈ Code.checkText ps field indented code, i.code ∈ otherCodes := by
  intro i hi
  unfold Code.checkText at hi
  rcases List.mem_append.1 hi with hreturned | hitems
  · split at hreturned
    · have hmissing := List.mem_singleton.1 hreturned
      simp [hmissing, Code.missingReturn, Outcome.error, otherCodes]
    · split at hreturned
      · have hprimitive := List.mem_singleton.1 hreturned
        simp [hprimitive, Code.primitiveReturn, Outcome.error, otherCodes]
      · exact absurd hreturned List.not_mem_nil
  · split at hitems
    · have hunavailable := List.mem_singleton.1 hitems
      simp [hunavailable, Code.itemsUnavailable, Outcome.style, otherCodes]
    · exact absurd hitems List.not_mem_nil

theorem lacking_unreadable (key text : String) : Lacking (Web.unreadable key text) := by
  unfold Web.unreadable
  split <;> simp [Outcome.error, otherCodes]

theorem lacking_checkRequest : Lacking (Web.checkRequest ps) := by
  have haddress : ∀ url, Lacking (Web.checkAddress url) := by
    intro url
    simp [Web.checkAddress, Outcome.error, Outcome.security, otherCodes]
  have hbody : Lacking (Web.checkBody ps) := by
    unfold Web.checkBody
    split <;> simp [Outcome.style, otherCodes]
  have hjson : Lacking (Web.checkJsonBody ps) := by
    unfold Web.checkJsonBody
    split <;> simp [lacking_unreadable]
  unfold Web.checkRequest
  simp only [lacking_append_iff, hbody, hjson, and_true]
  split <;> simp [haddress]

theorem lacking_sql : Lacking (Sql.check ps) := by
  unfold Sql.check
  split
  · simp
  · dsimp only
    split <;> simp [Outcome.security, otherCodes]

theorem lacking_checkSwitch : Lacking (Routing.checkSwitch ps) := by
  unfold Routing.checkSwitch
  split <;> simp [Outcome.error, otherCodes]

theorem lacking_checkConditions : Lacking (Routing.checkConditions ps) := by
  unfold Routing.checkConditions
  split <;> simp [Outcome.error, otherCodes]

theorem lacking_checkSet : Lacking (Routing.checkSet ps) := by
  unfold Routing.checkSet
  split
  · split <;> simp [lacking_unreadable]
  · simp [Outcome.style, otherCodes]

theorem missing_code :
    (Code.check ps).issues.filter (Issue.hasCode Issue.missingCode) =
      if lacksCode (codeFields ps).1 (codeFields ps).2 ps then
        [demand (codeFields ps).1 "Code cannot be empty"] else [] := by
  unfold Code.check
  extract_lets language indented field other
  have hfield : (codeFields ps).1 = field := by
    simp only [codeFields, field, indented, language]
    split
    · rfl
    · rfl
  have hother : (codeFields ps).2 = other := by
    simp only [codeFields, other, indented, language]
    split
    · rfl
    · rfl
  rw [hfield, hother, lacksCode]
  -- Code in the wrong field is an error of its own, and no missing value.
  cases hmoved : Parameters.isSet other ps && !Parameters.isSet field ps with
  | true => rfl
  | false =>
    cases Parameters.text? field ps with
    | none => rfl
    | some code =>
      cases hblank : Text.allBlank code.toList with
      | true =>
        simp only [hblank, Option.all_some]
        rfl
      | false =>
        have hlacking : (Code.checkText ps field indented code).filter
            (Issue.hasCode Issue.missingCode) = [] :=
          Issue.filter_hasCode_eq_nil (lacking_checkText ps field indented code) (by decide)
        simp [hblank, hlacking]

theorem missing_checkTriggerPath :
    (Web.checkTriggerPath ps).issues.filter (Issue.hasCode Issue.missingCode) =
      if Parameters.isSet "path" ps then [] else [demand "path" "Webhook path is required"] := by
  unfold Web.checkTriggerPath
  cases hset : Parameters.isSet "path" ps with
  | false => rfl
  | true =>
    -- What is said about a path that is there is said of its slashes and blanks.
    refine Lacking.filter_eq_nil ?_
    simp only [Bool.not_true, Bool.false_eq_true, if_false]
    split
    · simp
    · split
      · simp
      · simp [Web.leadingSlash, Outcome.style, Outcome.error, otherCodes]

end Rules

/-- The rules of a type miss nothing but the code of a code node and the path of a trigger. -/
theorem demanded_eq (type : String) (ps : Entries Value) :
    demanded type ps = demandsOf (TypeName.short type) ps := by
  -- Most types have one rule only.
  have hone : ∀ rule : Rule, (Outcome.join ([rule].map fun rule => rule ps)).issues.filter
      (Issue.hasCode Issue.missingCode) =
        (rule ps).issues.filter (Issue.hasCode Issue.missingCode) := by
    intro rule
    exact missing_join_cons (by simp)
  unfold demanded run
  generalize TypeName.short type = short
  unfold forType
  split
  · exact (hone _).trans (missing_code ps)
  · refine (missing_join_cons ?_).trans (missing_checkTriggerPath ps)
    simp [Web.checkResponse]
  · exact (hone _).trans (missing_checkTriggerPath ps)
  · exact (hone _).trans (lacking_checkRequest ps).filter_eq_nil
  · exact (hone _).trans (lacking_sql ps).filter_eq_nil
  · exact (hone _).trans (lacking_sql ps).filter_eq_nil
  · exact (hone _).trans (lacking_sql ps).filter_eq_nil
  · exact (hone _).trans (lacking_checkSwitch ps).filter_eq_nil
  · exact (hone _).trans (lacking_checkConditions ps).filter_eq_nil
  · exact (hone _).trans (lacking_checkConditions ps).filter_eq_nil
  · exact (hone _).trans (lacking_checkSet ps).filter_eq_nil
  · -- A type without rules is none of those that miss something.
    unfold demandsOf
    split <;> first | contradiction | rfl

theorem demandsOf_cases (short : String) (ps : Entries Value) :
    demandsOf short ps = [] ∨ ∃ field message, demandsOf short ps = [demand field message] := by
  unfold demandsOf
  split
  · split
    · exact .inr ⟨_, _, rfl⟩
    · exact .inl rfl
  · split
    · exact .inl rfl
    · exact .inr ⟨_, _, rfl⟩
  · split
    · exact .inl rfl
    · exact .inr ⟨_, _, rfl⟩
  · exact .inl rfl

/-- The parameters by which the rules of a type tell what they miss. -/
def demandReads (short : String) : List String :=
  match short with
  | "code" => ["language", "jsCode", "pythonCode"]
  | "webhook" | "formTrigger" => ["path"]
  | _ => []

/-- Parameters that agree on those that are read miss the same. -/
theorem demandsOf_congr {short : String} {ps ps' : Entries Value}
    (h : ∀ name ∈ demandReads short, ps'.get? name = ps.get? name) :
    demandsOf short ps' = demandsOf short ps := by
  have hpath : "path" ∈ demandReads short →
      Parameters.isSet "path" ps' = Parameters.isSet "path" ps := by
    intro hread
    simp only [Parameters.isSet, h "path" hread]
  unfold demandsOf
  split
  · have hlanguage : ps'.get? "language" = ps.get? "language" := h _ (by simp [demandReads])
    have hjs : ps'.get? "jsCode" = ps.get? "jsCode" := h _ (by simp [demandReads])
    have hpython : ps'.get? "pythonCode" = ps.get? "pythonCode" := h _ (by simp [demandReads])
    have hfields : codeFields ps' = codeFields ps := by
      simp only [codeFields, hlanguage]
    have hlacks : lacksCode (codeFields ps).1 (codeFields ps).2 ps' =
        lacksCode (codeFields ps).1 (codeFields ps).2 ps := by
      unfold codeFields
      split
      · simp only [lacksCode, Parameters.isSet, Parameters.text?, hjs, hpython]
      · simp only [lacksCode, Parameters.isSet, Parameters.text?, hjs, hpython]
    rw [hfields, hlacks]
  · rw [hpath (by simp [demandReads])]
  · rw [hpath (by simp [demandReads])]
  · rfl

end Rules

/-- A finding behind others is kept if none of those that are kept has its key. -/
theorem Issue.firstBy_concat {κ : Type} [BEq κ] [LawfulBEq κ] (key : Issue → κ) (seen : List κ)
    (issues : List Issue) (last : Issue) :
    firstBy key seen (issues ++ [last]) = firstBy key seen issues ++
      if seen.contains (key last) || (firstBy key seen issues).any (fun i => key i == key last)
      then [] else [last] := by
  induction issues generalizing seen with
  | nil => simp [firstBy]
  | cons i rest ih =>
    rw [List.cons_append]
    by_cases hseen : key i ∈ seen
    · have hcontains : seen.contains (key i) = true := List.contains_iff_mem.2 hseen
      simp only [firstBy, hcontains, if_true, ih]
    · have hnew : seen.contains (key i) = false := by simpa using hseen
      let kept := firstBy key (key i :: seen) rest
      -- The key of the first finding is now among those seen.
      have hmoved : ((key i :: seen).contains (key last) || kept.any fun j => key j == key last) =
          (seen.contains (key last) || (i :: kept).any fun j => key j == key last) := by
        calc
          ((key i :: seen).contains (key last) || kept.any fun j => key j == key last)
              = ((key i == key last || seen.contains (key last)) ||
                  kept.any fun j => key j == key last) := by rw [List.contains_cons, BEq.comm]
          _ = (seen.contains (key last) ||
                (key i == key last || kept.any fun j => key j == key last)) := by
              rw [Bool.or_assoc, Bool.or_left_comm]
          _ = (seen.contains (key last) || (i :: kept).any fun j => key j == key last) := rfl
      simp only [kept] at hmoved
      simp only [firstBy, hnew, ih, Bool.false_eq_true, if_false, List.cons_append, hmoved]

namespace NodeConfig

variable (c : NodeConfig) (profile : Profile) (visible : List Property)

def asked : List Issue :=
  Issue.distinct (c.askedIssues visible)

/-- What the rules miss under a policy, with the name of the node. -/
def demanded (policy : Policy) : List Issue :=
  if policy.runRules then
    (Rules.demanded c.type c.parameters).map fun i => { i with nodeName := c.nodeName }
  else []

/-- What the rules miss and no property asks for. -/
def unasked (policy : Policy) : List Issue :=
  (c.demanded policy).filter fun i => !(c.asked visible).any fun a => a.path == i.path

variable {c profile visible}

theorem demanded_cases (policy : Policy) :
    c.demanded policy = [] ∨ ∃ field message,
      c.demanded policy = [{ Rules.demand field message with nodeName := c.nodeName }] := by
  unfold demanded
  split
  · rw [Rules.demanded_eq]
    rcases Rules.demandsOf_cases (TypeName.short c.type) c.parameters with hnone | hsome
    · left
      rw [hnone, List.map_nil]
    · right
      rcases hsome with ⟨field, message, hone⟩
      refine ⟨field, message, ?_⟩
      rw [hone, List.map_singleton]
  · left
    rfl

/-- What a rule misses is an error, whatever the policy. -/
theorem of_mem_demanded {policy : Policy} {i : Issue} (hi : i ∈ c.demanded policy) :
    (i.isError = true ∧ i.category ≠ .style) ∧
      i.category = .rule ∧ i.code = "missing_required" := by
  rcases c.demanded_cases policy with hnone | hsome
  · rw [hnone] at hi
    exact absurd hi List.not_mem_nil
  · rcases hsome with ⟨field, message, hone⟩
    rw [hone] at hi
    have hdemand := List.mem_singleton.1 hi
    have hrule : (Rules.demand field message).category ≠ .style := by
      simp [Rules.demand, Outcome.error]
    rw [hdemand]
    exact ⟨⟨rfl, hrule⟩, rfl, rfl⟩

/-! ## Checks that miss nothing -/

theorem missing_malformedIssues :
    c.malformedIssues.filter (Issue.hasCode Issue.missingCode) = [] := by
  have hcodes : ∀ i ∈ c.malformedIssues, i.code ∈ ["malformed_schema"] := by
    intro i hi
    simp [(of_mem_malformedIssues hi).2.2]
  exact Issue.filter_hasCode_eq_nil hcodes (by decide)

theorem missing_typeIssues {ps : Entries Value} {checked : List String} :
    (typeIssues ps checked visible).filter (Issue.hasCode Issue.missingCode) = [] := by
  have hcodes : ∀ i ∈ typeIssues ps checked visible,
      i.code ∈ ["invalid_type", "invalid_value"] := by
    intro i hi
    rcases exists_of_mem_typeIssues hi with ⟨p, -, v, -, hwrong⟩
    simpa using (of_mem_valueIssues hwrong).2
  exact Issue.filter_hasCode_eq_nil hcodes (by decide)

theorem missing_unusedIssues {properties : List Property} {ps : Entries Value} :
    (unusedIssues properties visible ps).filter (Issue.hasCode Issue.missingCode) = [] := by
  have hcodes : ∀ i ∈ unusedIssues properties visible ps, i.code ∈ ["hidden_property"] := by
    intro i hi
    rcases mem_unusedIssues_iff.1 hi with ⟨name, -, -, -, rfl⟩
    simp [unusedIssue]
  exact Issue.filter_hasCode_eq_nil hcodes (by decide)

theorem missing_secretIssues {ps : Entries Value} :
    (secretIssues ps).filter (Issue.hasCode Issue.missingCode) = [] := by
  have hcodes : ∀ i ∈ secretIssues ps, i.code ∈ ["security"] := by
    intro i hi
    simp [(of_mem_secretIssues hi).2.2]
  exact Issue.filter_hasCode_eq_nil hcodes (by decide)

/-! ## The missing values in a report -/

/-- The findings with the code of missing values are those of the two checks. -/
theorem missing_namedFindings :
    (c.namedFindings profile visible).filter (Issue.hasCode Issue.missingCode) =
      c.askedIssues visible ++ c.demanded profile.policy := by
  let missing := Issue.hasCode Issue.missingCode
  have hrequired : (requiredIssues c.parameters visible).filter missing =
      requiredIssues c.parameters visible := by
    refine List.filter_eq_self.2 ?_
    intro i hi
    rcases mem_requiredIssues_iff.1 hi with ⟨p, -, -, -, -, rfl⟩
    rfl
  have htypes : (if profile.policy.checkTypes then typeIssues c.parameters [] visible
      else []).filter missing = [] := by
    split
    · exact missing_typeIssues
    · rfl
  -- The checks beside the rules look at values that are there.
  have hrules : (Outcome.whenever profile.policy.runRules (Rules.run c.type c.parameters ++
      { issues := unusedIssues c.properties visible c.parameters ++ secretIssues c.parameters }
      )).issues.filter missing =
        if profile.policy.runRules then Rules.demanded c.type c.parameters else [] := by
    cases profile.policy.runRules with
    | false => rfl
    | true =>
      have hbeside : (unusedIssues c.properties visible c.parameters ++
          secretIssues c.parameters).filter missing = [] := by
        rw [List.filter_append, missing_unusedIssues, missing_secretIssues, List.append_nil]
      rw [Outcome.whenever, if_pos rfl, if_pos rfl, Outcome.issues_append, List.filter_append]
      rw [hbeside, List.append_nil]
      rfl
  have hissues : (findings profile.policy c visible).issues.filter missing =
      requiredIssues c.parameters visible ++
        if profile.policy.runRules then Rules.demanded c.type c.parameters else [] := by
    rw [findings, Outcome.issues_append, List.filter_append, hrules]
    rw [List.filter_append, List.filter_append, missing_malformedIssues, hrequired, htypes]
    simp only [List.nil_append, List.append_nil]
  have hdemanded : (if profile.policy.runRules then Rules.demanded c.type c.parameters
      else []).map (fun i => { i with nodeName := c.nodeName }) = c.demanded profile.policy := by
    unfold demanded
    split
    · rfl
    · rfl
  calc
    (c.namedFindings profile visible).filter missing
        = ((findings profile.policy c visible).issues.filter missing).map
            fun i => { i with nodeName := c.nodeName } := by
          rw [namedFindings, List.filter_map]
          rfl
    _ = (requiredIssues c.parameters visible).map (fun i => { i with nodeName := c.nodeName }) ++
          (if profile.policy.runRules then Rules.demanded c.type c.parameters
            else []).map fun i => { i with nodeName := c.nodeName } := by
          rw [hissues, List.map_append]
    _ = c.askedIssues visible ++ c.demanded profile.policy := by
          rw [map_requiredIssues, hdemanded]

/-- The missing values in a report are the first ones of each path and code. -/
theorem missing_reportOf_eq_firstBy :
    (reportOf profile c visible).errors.filter (Issue.hasCode Issue.missingCode) =
      Issue.distinct (c.askedIssues visible ++ c.demanded profile.policy) := by
  let missing := Issue.hasCode Issue.missingCode
  let found := c.namedFindings profile visible
  let tells (k : Option String × String) : Bool := Issue.missingCode.contains k.2
  -- The code is a part of what makes findings repetitions, so that the choice may come first.
  have htells : ∀ i ∈ profile.policy.errors found, missing i = tells (i.path, i.code) := by
    intro i _
    rfl
  have herrors : ∀ i ∈ c.askedIssues visible ++ c.demanded profile.policy,
      i.isError = true ∧ i.category ≠ .style := by
    intro i hi
    rcases List.mem_append.1 hi with hasked | hdemanded
    · exact (isError_of_mem_askedIssues hasked).1
    · exact (of_mem_demanded hdemanded).1
  calc
    (reportOf profile c visible).errors.filter missing
        = (Issue.distinct (profile.policy.errors found)).filter missing := by
          rw [errors_reportOf]
    _ = Issue.distinct ((profile.policy.errors found).filter missing) :=
        (Issue.firstBy_filter htells fun _ _ => Iff.rfl).symm
    _ = Issue.distinct
          (profile.policy.errors (c.askedIssues visible ++ c.demanded profile.policy)) := by
        rw [← Policy.errors_filter_hasCode, missing_namedFindings]
    _ = Issue.distinct (c.askedIssues visible ++ c.demanded profile.policy) := by
        rw [Policy.errors_eq_self herrors]

/-- The missing values in a report are those that properties ask for, and behind them the one that
only a rule demands. -/
theorem missing_reportOf :
    (reportOf profile c visible).errors.filter (Issue.hasCode Issue.missingCode) =
      c.asked visible ++ c.unasked visible profile.policy := by
  rw [missing_reportOf_eq_firstBy, unasked]
  rcases demanded_cases (c := c) profile.policy with hnone | hsome
  · rw [hnone, List.append_nil, List.filter_nil, List.append_nil]
    rfl
  · rcases hsome with ⟨field, message, hone⟩
    let key : Issue → Option String × String := fun i => (i.path, i.code)
    let last : Issue := { Rules.demand field message with nodeName := c.nodeName }
    -- All codes are the same, so that the paths decide.
    have hkeys : (c.asked visible).any (fun a => key a == key last) =
        (c.asked visible).any fun a => a.path == last.path := by
      rw [Bool.eq_iff_iff, List.any_eq_true, List.any_eq_true]
      refine exists_congr fun a => and_congr_right ?_
      intro ha
      have hcode : a.code = last.code :=
        (isError_of_mem_askedIssues ((Issue.firstBy_sublist _ _).subset ha)).2.2
      simp [key, hcode]
    have hlast : Issue.distinct (c.askedIssues visible ++ [last]) = c.asked visible ++
        if (c.asked visible).any (fun a => a.path == last.path) then [] else [last] := by
      have hkept := Issue.firstBy_concat key [] (c.askedIssues visible) last
      change Issue.distinct (c.askedIssues visible ++ [last]) = c.asked visible ++
        (if (false || (c.asked visible).any fun a => key a == key last) then [] else [last])
        at hkept
      rw [hkept, Bool.false_or, hkeys]
    rw [hone, hlast]
    cases htaken : (c.asked visible).any fun a => a.path == last.path with
    | true => simp [last, htaken]
    | false => simp [last, htaken]

end NodeConfig

end Workflows
