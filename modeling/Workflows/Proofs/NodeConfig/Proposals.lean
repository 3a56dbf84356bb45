import Workflows.Proofs.NodeConfig.Layouts

/-!
# Proposals — what the rules would set, and what they find when it is set

Three rules propose a value for a parameter: the path of a trigger loses the slashes at its front, a
request that should send a body is told to do so, and an object of an older layout is replaced. All
other rules only report.

When what was proposed is set, the rules propose nothing more. What they find then they found
before, with two exceptions. The text of a body is only looked at when a body is sent. And a path
that consists of slashes is gone without them, so that it is missed.

Main definitions:

* `Rules.Proposal` — the proposals, each with the parameters that call for it;
* `Rules.autofix_run_cases` — nothing is proposed, or one of these;
* `Rules.Proposal.autofix_run_put`, `Rules.Proposal.issues_run_put` — once it is set.
-/

namespace Workflows

@[simp] theorem Entries.merge_nil {α : Type} (es : Entries α) : es.merge [] = es := rfl

namespace Outcome

theorem issues_append (o o' : Outcome) : (o ++ o').issues = o.issues ++ o'.issues := rfl

theorem issues_join (os : List Outcome) : (join os).issues = os.flatMap issues := by
  have hfold : ∀ acc : Outcome, (os.foldl append acc).issues = acc.issues ++ os.flatMap issues := by
    induction os with
    | nil => simp
    | cons o rest ih =>
      intro acc
      change (rest.foldl append (acc ++ o)).issues = _
      rw [ih, issues_append, List.flatMap_cons, List.append_assoc]
  exact hfold none

/-- Where only the first outcome proposes something, that is what is proposed. -/
theorem autofix_join_cons {o : Outcome} {os : List Outcome} (h : ∀ o' ∈ os, o'.autofix = []) :
    (join (o :: os)).autofix = Entries.merge [] o.autofix := by
  have hfold : ∀ acc : Outcome, (os.foldl append acc).autofix = acc.autofix := by
    induction os with
    | nil => exact fun _ => rfl
    | cons o' rest ih =>
      intro acc
      rcases List.forall_mem_cons.1 h with ⟨ho', hrest⟩
      calc
        (rest.foldl append (acc ++ o')).autofix = (acc ++ o').autofix := ih hrest (acc ++ o')
        _ = acc.autofix := by rw [autofix_append, ho', Entries.merge_nil]
  exact hfold (none ++ o)

@[simp] theorem autofix_none : none.autofix = [] := rfl

@[simp] theorem autofix_ofIssue (i : Issue) : (ofIssue i).autofix = [] := rfl

@[simp] theorem autofix_whenever (condition : Bool) (o : Outcome) :
    (whenever condition o).autofix = if condition then o.autofix else [] := by
  cases condition <;> rfl

theorem mem_issues_whenever_iff {condition : Bool} {o : Outcome} {i : Issue} :
    i ∈ (whenever condition o).issues ↔ condition = true ∧ i ∈ o.issues := by
  cases condition <;> simp [whenever, none]

end Outcome

/-! ## Rules that only report -/

section Reporting

variable (ps : Entries Value)

theorem Code.autofix_check : (Code.check ps).autofix = [] := by
  unfold Code.check
  extract_lets language indented field other
  split
  · rfl
  · split
    · split <;> rfl
    · rfl

theorem Sql.autofix_check : (Sql.check ps).autofix = [] := by
  unfold Sql.check
  split
  · rfl
  · dsimp only
    split
    · rfl
    · simp [Outcome.autofix_append]

theorem Web.autofix_checkResponse : (Web.checkResponse ps).autofix = [] := by
  simp [Web.checkResponse]

theorem Web.autofix_unreadable (key text : String) : (Web.unreadable key text).autofix = [] := by
  unfold Web.unreadable
  split <;> rfl

theorem Web.autofix_checkAddress (url : String) : (Web.checkAddress url).autofix = [] := by
  simp [Web.checkAddress, Outcome.autofix_append]

theorem Web.autofix_checkJsonBody : (Web.checkJsonBody ps).autofix = [] := by
  unfold Web.checkJsonBody
  split
  · rfl
  · simp [Web.autofix_unreadable]

theorem Routing.autofix_checkSet : (Routing.checkSet ps).autofix = [] := by
  unfold Routing.checkSet
  split
  · split
    · rfl
    · simp [Web.autofix_unreadable]
  · simp

end Reporting

/-! ## Rules that propose -/

section Proposing

variable {ps : Entries Value}

/-- The rule for requests looks at the address by itself, and proposes nothing for it. -/
theorem Web.exists_checkRequest_eq (ps : Entries Value) :
    ∃ address : Outcome, address.autofix = [] ∧
      ∀ ps' : Entries Value, ps'.get? "url" = ps.get? "url" →
        Web.checkRequest ps' = address ++ Web.checkBody ps' ++ Web.checkJsonBody ps' := by
  have hsame : ∀ ps' : Entries Value, ps'.get? "url" = ps.get? "url" →
      Parameters.text? "url" ps' = Parameters.text? "url" ps := by
    intro ps' hurl
    rw [Parameters.text?, Parameters.text?, hurl]
  cases htext : Parameters.text? "url" ps with
  | none =>
    refine ⟨.none, rfl, ?_⟩
    intro ps' hurl
    rw [Web.checkRequest, hsame ps' hurl, htext]
  | some url =>
    refine ⟨.whenever (url != "" && !Parameters.isExpressionText url) (Web.checkAddress url), ?_,
      ?_⟩
    · simp [Web.autofix_checkAddress]
    · intro ps' hurl
      rw [Web.checkRequest, hsame ps' hurl, htext]

theorem Web.checkBody_of_isSet (h : Parameters.isSet "sendBody" ps = true) :
    Web.checkBody ps = .none := by
  unfold Web.checkBody
  split
  · simp [h, Outcome.whenever]
  · rfl

/-- To send a body is proposed only where that is not set. -/
theorem Web.autofix_checkBody_cases (ps : Entries Value) :
    (Web.checkBody ps).autofix = [] ∨
      Parameters.isSet "sendBody" ps = false ∧
        (Web.checkBody ps).autofix = [("sendBody", .bool true)] := by
  cases hset : Parameters.isSet "sendBody" ps with
  | true => exact .inl (by rw [Web.checkBody_of_isSet hset, Outcome.autofix_none])
  | false =>
    unfold Web.checkBody
    split
    · rename_i method _
      cases Web.bodyMethods.contains method <;> simp [hset]
    · exact .inl rfl

theorem Web.autofix_checkRequest : (Web.checkRequest ps).autofix = (Web.checkBody ps).autofix := by
  rcases Web.exists_checkRequest_eq ps with ⟨address, hnone, hparts⟩
  have hbody : (Web.checkRequest ps).autofix = Entries.merge [] (Web.checkBody ps).autofix := by
    rw [hparts ps rfl, Outcome.autofix_append, Outcome.autofix_append, hnone,
      Web.autofix_checkJsonBody, Entries.merge_nil]
  rw [hbody]
  rcases Web.autofix_checkBody_cases ps with hnothing | ⟨-, hsend⟩
  · rw [hnothing]
    rfl
  · rw [hsend]
    rfl

theorem Web.startsWith_withoutLeadingSlashes (s : String) :
    Text.startsWith "/" (Web.withoutLeadingSlashes s) = false := by
  have hslash : "/".toList = ['/'] := rfl
  unfold Text.startsWith Web.withoutLeadingSlashes
  rw [hslash, String.toList_ofList]
  cases hrest : s.toList.dropWhile (· == '/') with
  | nil => rfl
  | cons c rest =>
    have hc : (c == '/') = false := by
      have hhead := List.head?_dropWhile_not (· == '/') s.toList
      simpa [hrest] using hhead
    have hne : ('/' == c) = false := by
      rw [beq_eq_false_iff_ne] at hc ⊢
      exact hc.symm
    simp [List.isPrefixOf, hne]

/-- A path that begins with no slash is left as it is. -/
theorem Web.autofix_checkTriggerPath_of_not {s : String} (hpath : ps.get? "path" = some (.str s))
    (hslash : Text.startsWith "/" s = false) : (Web.checkTriggerPath ps).autofix = [] := by
  have htext : Parameters.text? "path" ps = some s := by simp [Parameters.text?, hpath, Value.str?]
  unfold Web.checkTriggerPath
  split
  · rfl
  · simp only [htext, hslash]
    split
    · rfl
    · simp [Outcome.autofix_append]

/-- A path is proposed only for a text, without the slashes at its front. -/
theorem Web.autofix_checkTriggerPath_cases (ps : Entries Value) :
    (Web.checkTriggerPath ps).autofix = [] ∨
      ∃ s, ps.get? "path" = some (.str s) ∧ Parameters.isExpressionText s = false ∧
        (Web.checkTriggerPath ps).autofix = [("path", .str (Web.withoutLeadingSlashes s))] := by
  unfold Web.checkTriggerPath
  split
  · exact .inl rfl
  · split
    · exact .inl rfl
    · rename_i s htext
      have hpath : ps.get? "path" = some (.str s) := by
        rcases Option.bind_eq_some_iff.1 htext with ⟨v, hv, hstr⟩
        cases v <;> simp_all [Value.str?]
      split
      · exact .inl rfl
      · rename_i hplain
        cases Text.startsWith "/" s with
        | false => exact .inl (by simp [Outcome.autofix_append])
        | true =>
          refine .inr ⟨s, hpath, by simpa using hplain, ?_⟩
          simp [Outcome.autofix_append, Web.leadingSlash]

/-- The corrected object no longer has the older key. -/
theorem Routing.inner?_put_corrected {short : String} {l : Routing.Layout}
    (htype : Routing.Layout.ofType? short = some l) (ps : Entries Value) (v : Value) :
    Routing.inner? l.parameter l.older (ps.put l.parameter (.obj (l.corrected v))) = none := by
  have hgone : (l.corrected v).get? l.older = none :=
    Routing.Layout.of_ofType? (p := fun _ l => (l.corrected v).get? l.older = none) htype rfl rfl rfl
  unfold Routing.inner?
  rw [Entries.get?_put_self]
  exact hgone

/-- What is found about a path that is a text: slashes at its front and spaces, unless it is an
expression. -/
theorem Web.mem_issues_checkTriggerPath_iff {s : String} (hpath : ps.get? "path" = some (.str s))
    (hfilled : s ≠ "") {i : Issue} :
    i ∈ (Web.checkTriggerPath ps).issues ↔
      Parameters.isExpressionText s = false ∧
        (Text.startsWith "/" s = true ∧ i ∈ (Web.leadingSlash s).issues ∨
          ' ' ∈ s.toList ∧ i = Outcome.error "path" "Webhook path must not contain spaces") := by
  have htext : Parameters.text? "path" ps = some s := by simp [Parameters.text?, hpath, Value.str?]
  have hset : Parameters.isSet "path" ps = true := by
    simp [Parameters.isSet, hpath, Value.isPresent, hfilled]
  simp only [Web.checkTriggerPath, hset, htext]
  cases Parameters.isExpressionText s with
  | true => simp [Outcome.none]
  | false =>
    simp [Outcome.issues_append, Outcome.mem_issues_whenever_iff, Outcome.ofIssue]

/-- Without the slashes at its front nothing is wrong with a path that was not wrong with it before,
unless it is empty. -/
theorem Web.mem_issues_of_withoutLeadingSlashes {s : String}
    (hpath : ps.get? "path" = some (.str s)) (hplain : Parameters.isExpressionText s = false)
    (hleft : Web.withoutLeadingSlashes s ≠ "") {i : Issue}
    (hi : i ∈ (Web.checkTriggerPath
      (ps.put "path" (.str (Web.withoutLeadingSlashes s)))).issues) :
    i ∈ (Web.checkTriggerPath ps).issues := by
  have hfilled : s ≠ "" := by
    rintro rfl
    exact hleft rfl
  rw [Web.mem_issues_checkTriggerPath_iff (Entries.get?_put_self _ _ _) hleft,
    Web.startsWith_withoutLeadingSlashes] at hi
  rcases hi with ⟨-, ⟨hslash, -⟩ | ⟨hspace, rfl⟩⟩
  · simp at hslash
  · refine (Web.mem_issues_checkTriggerPath_iff hpath hfilled).2 ⟨hplain, .inr ⟨?_, rfl⟩⟩
    rw [Web.withoutLeadingSlashes, String.toList_ofList] at hspace
    exact (List.dropWhile_sublist _).subset hspace

theorem Web.of_mem_issues_checkJsonBody {i : Issue} (hi : i ∈ (Web.checkJsonBody ps).issues) :
    i.path = some "jsonBody" ∧ i.code = "invalid_value" ∧ ps.has "jsonBody" = true := by
  unfold Web.checkJsonBody at hi
  split at hi
  · exact absurd hi List.not_mem_nil
  · rename_i body htext
    have hhas : ps.has "jsonBody" = true := by
      rcases Option.bind_eq_some_iff.1 htext with ⟨v, hv, -⟩
      rw [Entries.has, hv]
      rfl
    have hunreadable := (Outcome.mem_issues_whenever_iff.1 hi).2
    unfold Web.unreadable at hunreadable
    split at hunreadable
    · exact absurd hunreadable List.not_mem_nil
    · rw [List.mem_singleton.1 hunreadable]
      exact ⟨rfl, rfl, hhas⟩

/-- When a body is sent, nothing is wrong with a request that was not wrong before but for the text
of the body. -/
theorem Web.mem_issues_of_sendBody {i : Issue}
    (hi : i ∈ (Web.checkRequest (ps.put "sendBody" (.bool true))).issues) :
    i ∈ (Web.checkRequest ps).issues ∨
      i.path = some "jsonBody" ∧ i.code = "invalid_value" ∧ ps.has "jsonBody" = true := by
  rcases Web.exists_checkRequest_eq ps with ⟨address, -, hparts⟩
  have hset : Parameters.isSet "sendBody" (ps.put "sendBody" (.bool true)) = true := by
    simp [Parameters.isSet, Value.isPresent]
  rw [hparts _ (Entries.get?_put_of_ne _ _ (by decide)), Web.checkBody_of_isSet hset,
    Outcome.issues_append, Outcome.issues_append] at hi
  rw [hparts ps rfl, Outcome.issues_append, Outcome.issues_append]
  rcases List.mem_append.1 hi with hi | hi
  · rcases List.mem_append.1 hi with hi | hi
    · exact .inl (List.mem_append_left _ (List.mem_append_left _ hi))
    · exact absurd hi List.not_mem_nil
  · rcases Web.of_mem_issues_checkJsonBody hi with ⟨hpath, hcode, hhas⟩
    rw [Entries.has, Entries.get?_put_of_ne _ _ (by decide)] at hhas
    exact .inr ⟨hpath, hcode, hhas⟩

end Proposing

namespace Rules

/-- What is proposed for the parameters of a type, given by its short name. -/
inductive Proposal (short : String) (ps : Entries Value) : String → Value → Prop
  /-- The path of a trigger without the slashes at its front. -/
  | path {s : String} (htype : short = "webhook" ∨ short = "formTrigger")
      (hpath : ps.get? "path" = some (.str s)) (hplain : Parameters.isExpressionText s = false) :
      Proposal short ps "path" (.str (Web.withoutLeadingSlashes s))
  /-- That a request sends a body. -/
  | body (htype : short = "httpRequest") (hunset : Parameters.isSet "sendBody" ps = false) :
      Proposal short ps "sendBody" (.bool true)
  /-- An object of the current layout. -/
  | layout {l : Routing.Layout} {old : Entries Value} {v : Value}
      (htype : Routing.Layout.ofType? short = some l)
      (hold : ps.get? l.parameter = some (.obj old)) (hv : old.get? l.older = some v) :
      Proposal short ps l.parameter (.obj (l.corrected v))

/-- Only the first rule of a list may propose something, and that is listed for the type. -/
def Led (short : String) (rules : List Rule) : Prop :=
  ∃ first others, rules = first :: others ∧ (∀ rule ∈ others, ∀ ps, (rule ps).autofix = []) ∧
    ∀ ps, (first ps).autofix = [] ∨
      ∃ key value, Proposal short ps key value ∧ (first ps).autofix = [(key, value)]

section Led

variable {short : String}

theorem led_of_silent {rule : Rule} (h : ∀ ps, (rule ps).autofix = []) : Led short [rule] :=
  ⟨rule, [], rfl, by simp, fun ps => .inl (h ps)⟩

theorem led_checkTriggerPath (htype : short = "webhook" ∨ short = "formTrigger")
    {others : List Rule} (hothers : ∀ rule ∈ others, ∀ ps, (rule ps).autofix = []) :
    Led short (Web.checkTriggerPath :: others) := by
  refine ⟨_, others, rfl, hothers, ?_⟩
  intro ps
  rcases Web.autofix_checkTriggerPath_cases ps with hnone | ⟨s, hpath, hplain, hautofix⟩
  · exact .inl hnone
  · exact .inr ⟨_, _, .path htype hpath hplain, hautofix⟩

theorem led_checkRequest : Led "httpRequest" [Web.checkRequest] := by
  refine ⟨_, [], rfl, by simp, ?_⟩
  intro ps
  rw [Web.autofix_checkRequest]
  rcases Web.autofix_checkBody_cases ps with hnone | ⟨hunset, hautofix⟩
  · exact .inl hnone
  · exact .inr ⟨_, _, .body rfl hunset, hautofix⟩

theorem led_of_layout (short : String) {l : Routing.Layout}
    (htype : Routing.Layout.ofType? short = some l) :
    Led short (forType short) := by
  rcases Routing.exists_rule_of_layout htype with ⟨rule, hrule, hfound⟩
  refine ⟨rule, [], hrule, by simp, ?_⟩
  intro ps
  cases hinner : Routing.inner? l.parameter l.older ps with
  | none => exact .inl (by rw [(hfound ps).1 hinner, Outcome.autofix_none])
  | some v =>
    rcases Routing.inner?_eq_some_iff.1 hinner with ⟨old, hold, hv⟩
    exact .inr ⟨_, _, .layout htype hold hv, (hfound ps).2 v hinner⟩

theorem forType_cases (short : String) : forType short = [] ∨ Led short (forType short) := by
  unfold forType
  split
  · exact .inr (led_of_silent Code.autofix_check)
  · exact .inr (led_checkTriggerPath (.inl rfl) (by simp [Web.autofix_checkResponse]))
  · exact .inr (led_checkTriggerPath (.inr rfl) (by simp))
  · exact .inr led_checkRequest
  · exact .inr (led_of_silent Sql.autofix_check)
  · exact .inr (led_of_silent Sql.autofix_check)
  · exact .inr (led_of_silent Sql.autofix_check)
  · exact .inr (led_of_layout "switch" rfl)
  · exact .inr (led_of_layout "if" rfl)
  · exact .inr (led_of_layout "filter" rfl)
  · exact .inr (led_of_silent Routing.autofix_checkSet)
  · exact .inl rfl

end Led

variable {type : String} {ps : Entries Value} {key : String} {value : Value}

theorem mem_issues_run_iff {i : Issue} :
    i ∈ (run type ps).issues ↔ ∃ rule ∈ forType (TypeName.short type), i ∈ (rule ps).issues := by
  rw [run, Outcome.issues_join]
  simp only [List.mem_flatMap, List.mem_map, exists_exists_and_eq_and]

/-- The rules propose nothing, or one of the listed proposals. -/
theorem autofix_run_cases (type : String) (ps : Entries Value) :
    (run type ps).autofix = [] ∨
      ∃ key value, Proposal (TypeName.short type) ps key value ∧
        (run type ps).autofix = [(key, value)] := by
  rcases forType_cases (TypeName.short type) with hnone | ⟨first, others, hrules, hothers, hfirst⟩
  · rw [run, hnone]
    exact .inl rfl
  · have hautofix : (run type ps).autofix = Entries.merge [] (first ps).autofix := by
      rw [run, hrules, List.map_cons]
      refine Outcome.autofix_join_cons ?_
      intro o ho
      rcases List.mem_map.1 ho with ⟨rule, hrule, rfl⟩
      exact hothers rule hrule ps
    rw [hautofix]
    rcases hfirst ps with hnone | ⟨key, value, hproposal, hone⟩
    · rw [hnone]
      exact .inl rfl
    · rw [hone]
      exact .inr ⟨key, value, hproposal, rfl⟩

theorem forType_of_trigger {short : String} (h : short = "webhook" ∨ short = "formTrigger") :
    ∃ others, forType short = Web.checkTriggerPath :: others ∧
      ∀ rule ∈ others, ∀ ps, (rule ps).autofix = [] ∧ (rule ps).issues = [] := by
  have hresponse : ∀ ps, (Web.checkResponse ps).issues = [] := by
    intro ps
    unfold Web.checkResponse Outcome.whenever
    split <;> rfl
  rcases h with rfl | rfl
  · exact ⟨[Web.checkResponse], rfl, by simp [Web.autofix_checkResponse, hresponse]⟩
  · exact ⟨[], rfl, by simp⟩

namespace Proposal

/-- A text is proposed for a path only. -/
theorem key_eq_path {short : String} {s : String} (h : Proposal short ps key (.str s)) :
    key = "path" := by
  generalize htext : Value.str s = text at h
  cases h with
  | path htype hpath hplain => rfl
  | body htype hunset => simp at htext
  | layout htype hold hv => simp at htext

/-- To send a body is proposed for requests only. -/
theorem httpRequest_of_sendBody {short : String} (h : Proposal short ps "sendBody" value) :
    short = "httpRequest" := by
  generalize hkey : "sendBody" = key at h
  cases h with
  | path htype hpath hplain => simp at hkey
  | body htype hunset => exact htype
  | layout htype hold hv =>
    have hother := Routing.Layout.of_ofType? (p := fun _ l => "sendBody" ≠ l.parameter) htype
      (by decide) (by decide) (by decide)
    exact absurd hkey hother

/-- When what is proposed is set, the rules propose nothing more. -/
theorem autofix_run_put (h : Proposal (TypeName.short type) ps key value) :
    (run type (ps.put key value)).autofix = [] := by
  generalize hshort : TypeName.short type = short at h
  cases h with
  | @path s htype hpath hplain =>
    rcases forType_of_trigger htype with ⟨others, hrules, hothers⟩
    have hnone := Web.autofix_checkTriggerPath_of_not
      (Entries.get?_put_self "path" (Value.str (Web.withoutLeadingSlashes s)) ps)
      (Web.startsWith_withoutLeadingSlashes s)
    rw [run, hshort, hrules, List.map_cons, Outcome.autofix_join_cons, hnone]
    · rfl
    · intro o ho
      rcases List.mem_map.1 ho with ⟨rule, hrule, rfl⟩
      exact (hothers rule hrule _).1
  | body htype hunset =>
    have hset : Parameters.isSet "sendBody" (ps.put "sendBody" (.bool true)) = true := by
      simp [Parameters.isSet, Value.isPresent]
    have hrules : forType (TypeName.short type) = [Web.checkRequest] := by
      rw [hshort, htype]
      rfl
    rw [autofix_run_of_rule hrules, Web.autofix_checkRequest, Web.checkBody_of_isSet hset]
    rfl
  | @layout l old v htype hold hv =>
    rcases Routing.exists_rule_of_layout htype with ⟨rule, hrule, hfound⟩
    rw [autofix_run_of_rule (hshort ▸ hrule), (hfound _).1 (Routing.inner?_put_corrected htype ps v)]
    rfl

/-- When what is proposed is set, the rules find nothing new, unless a path is left empty or the text
of a body is looked at for the first time. -/
theorem issues_run_put (h : Proposal (TypeName.short type) ps key value) (hfilled : value ≠ .str "")
    {i : Issue} (hi : i ∈ (run type (ps.put key value)).issues) :
    i ∈ (run type ps).issues ∨
      key = "sendBody" ∧ i.path = some "jsonBody" ∧ i.code = "invalid_value" ∧
        ps.has "jsonBody" = true := by
  rw [mem_issues_run_iff] at hi ⊢
  generalize TypeName.short type = short at h hi ⊢
  rcases hi with ⟨rule, hrule, hi⟩
  -- A path that has lost its slashes, a body that is sent, and a layout that has been replaced.
  cases h with
  | @path s htype hpath hplain =>
    rcases forType_of_trigger htype with ⟨others, hrules, hothers⟩
    rw [hrules] at hrule ⊢
    rcases List.mem_cons.1 hrule with rfl | hrule
    · have hleft : Web.withoutLeadingSlashes s ≠ "" := fun heq => hfilled (congrArg Value.str heq)
      exact .inl ⟨_, List.mem_cons_self, Web.mem_issues_of_withoutLeadingSlashes hpath hplain hleft hi⟩
    · rw [(hothers rule hrule _).2] at hi
      exact absurd hi List.not_mem_nil
  | body htype hunset =>
    subst htype
    have hone : rule = Web.checkRequest := List.mem_singleton.1 hrule
    subst hone
    rcases Web.mem_issues_of_sendBody hi with hi | hjson
    · exact .inl ⟨_, List.mem_singleton.2 rfl, hi⟩
    · exact .inr ⟨rfl, hjson⟩
  | @layout l old v htype hold hv =>
    rcases Routing.exists_rule_of_layout htype with ⟨only, honly, hfound⟩
    rw [honly] at hrule
    rw [List.mem_singleton.1 hrule, (hfound _).1 (Routing.inner?_put_corrected htype ps v)] at hi
    exact absurd hi List.not_mem_nil

end Proposal

end Rules

end Workflows
