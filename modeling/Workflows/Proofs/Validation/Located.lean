import Workflows.Proofs.Expression.Origins
import Workflows.Proofs.Validation.Filed
import Workflows.Proofs.Validation.Reported

/-!
# Located — paths and categories of the findings about expressions

The check of expressions writes its findings as lines, and the report reads their paths and
categories off these lines: the path is what stands before the first colon and blank, and two words
mark an anomaly. The path that is read is that of the text or place that the finding comes from,
unless the keys on the way to it, or the name of a variable, hold one of these marks themselves or
the path is empty.

Main definitions:

* `Origin.path`, `Origin.category` — what a finding ought to be located by;
* `Origin.Plain` — the origins whose lines can be read again;
* `Origin.located_iff` — the lines of these, and of no others, are read as they were written;
* `Validator.expressions_located` — all findings about expressions in a report.
-/

namespace Workflows

/-- A path that can be told from what is written behind it. -/
structure Separable (path : String) : Prop where
  filled : path ≠ ""
  unmarked : Text.contains ": " path = false

/-! ## Reading a line -/

namespace Scene

variable {path message : String} {c : Char}

/-- The path is what was put in front of the message, if it does not contain what separates the
two. -/
theorem pathOf_append :
    pathOf (path ++ ": " ++ message) = path ↔ Text.contains ": " path = false := by
  have hline : (path ++ ": " ++ message).toList = path.toList ++ ':' :: ' ' :: message.toList := by
    simp
  have hfree : Text.contains ": " path = false ↔ ¬ ": ".toList <:+: path.toList := by
    rw [Bool.eq_false_iff, ne_eq, Text.contains_iff]
  rw [hfree, pathOf, hline, ← String.toList_inj, String.toList_ofList]
  exact Text.beforeMark_eq_iff

/-- Something is read in any case of a message that does not begin with a colon. -/
theorem pathOf_ne_empty (hhead : message.toList.head? = some c) (hc : c ≠ ':') :
    pathOf message ≠ "" := by
  rcases List.head?_eq_some_iff.1 hhead with ⟨rest, hrest⟩
  have hfront : Text.beforeMark [':', ' '] message.toList ≠ [] := by
    rw [hrest]
    simp [Text.beforeMark, hc.symm]
  intro hempty
  rw [pathOf, ← String.toList_inj, String.toList_ofList] at hempty
  exact hfront hempty

/-- The path of a located text is read back exactly if it can be told from the message. -/
theorem pathOf_locatedText (hhead : message.toList.head? = some c) (hc : c ≠ ':') :
    pathOf (Expression.locatedText path message) = path ↔ Separable path := by
  unfold Expression.locatedText
  by_cases hempty : path = ""
  · rw [if_pos hempty, hempty]
    exact iff_of_false (pathOf_ne_empty hhead hc) fun h => h.filled rfl
  · rw [if_neg hempty, pathOf_append]
    constructor
    · intro hmark
      exact ⟨hempty, hmark⟩
    · intro h
      exact h.unmarked

def NamesAnomaly (message : String) : Prop :=
  Text.contains "depth" message = true ∨ Text.contains "Circular reference" message = true

/-- A warning with the words of an anomaly is filed as one. -/
theorem category_of_namesAnomaly (n : Node) (h : NamesAnomaly message) :
    (expressionWarning n message).category = .anomaly :=
  if_pos (Bool.or_eq_true_iff.2 h)

/-- A warning without the words of an anomaly is filed under expressions. -/
theorem category_of_not_namesAnomaly (n : Node) (h : ¬NamesAnomaly message) :
    (expressionWarning n message).category = .expression :=
  if_neg fun hor => h (Bool.or_eq_true_iff.1 hor)

end Scene

/-- No message of an error begins with what separates it from a path. -/
theorem ExpressionError.exists_head?_message (e : ExpressionError) :
    ∃ c, e.message.toList.head? = some c ∧ c ≠ ':' := by
  cases e with
  | scan fault =>
    cases fault with
    | nested => exact ⟨'N', by decide, by decide⟩
    | unmatchedClose position => exact ⟨'U', Text.head?_append (by decide), by decide⟩
    | unclosed => exact ⟨'U', by decide, by decide⟩
  | empty => exact ⟨'E', by decide, by decide⟩
  | unknownNode name =>
    exact ⟨'R', Text.head?_append (Text.head?_append (by decide)), by decide⟩
  | noInput => exact ⟨'$', by decide, by decide⟩
  | templateLiteral => exact ⟨'T', by decide, by decide⟩

/-- No message of a warning begins with what separates it from a path. -/
theorem ExpressionWarning.exists_head?_message (w : ExpressionWarning) :
    ∃ c, w.message.toList.head? = some c ∧ c ≠ ':' := by
  cases w with
  | unknownVariable name => exact ⟨'U', Text.head?_append (by decide), by decide⟩
  | missingDollar word =>
    refine ⟨'P', ?_, by decide⟩
    exact Text.head?_append (Text.head?_append (Text.head?_append (by decide)))
  | bracketKey => exact ⟨'B', by decide, by decide⟩
  | optionalChaining => exact ⟨'O', by decide, by decide⟩

/-! ## What a finding ought to be located by -/

namespace Origin

/-- The path of a place at which a walk stops: the whole tree has a name of its own. -/
def stopPath (place : Place) : String :=
  if place = [] then "<root>" else place.fieldPath

/-- The path of the text or place. -/
def path : Origin → String
  | error place _ => place.fieldPath
  | warning place _ => place.fieldPath
  | tooDeep place _ => stopPath place
  | circular place => stopPath place

def category : Origin → Category
  | error _ _ => .expression
  | warning _ _ => .expression
  | tooDeep _ _ => .anomaly
  | circular _ => .anomaly

def issue (n : Node) (o : Origin) : Issue :=
  if o.isError then Scene.expressionError n o.text else Scene.expressionWarning n o.text

/-- The origins whose lines can be read again. -/
def Plain : Origin → Prop
  | error place _ => Separable place.fieldPath
  | warning place w =>
    Separable place.fieldPath ∧ Text.contains "depth" place.fieldPath = false ∧
      Text.contains "Circular reference" place.fieldPath = false ∧ w.namesDepth = false
  | tooDeep place _ => place = [] ∨ Separable place.fieldPath
  | circular place => place = [] ∨ Separable place.fieldPath

variable {limits : WalkLimits} {ctx : ExpressionContext} {tree : Value} {o : Origin}

/-- The path of an anomaly is read back exactly if it is empty or can be told from the message. -/
theorem pathOf_anomaly {a : Anomaly} {place : Place} (hpath : a.path = place.fieldPath) :
    Scene.pathOf a.text = stopPath place ↔ place = [] ∨ Separable place.fieldPath := by
  unfold Anomaly.text stopPath
  rw [hpath]
  have hroot : Scene.pathOf ("<root>" ++ ": " ++ a.message) = "<root>" :=
    Scene.pathOf_append.2 (by decide)
  by_cases hplace : place = []
  · have hempty : Place.fieldPath [] = "" := rfl
    rw [hplace, hempty, if_pos rfl, if_pos rfl, Scene.pathOf_append]
    exact iff_of_true (by decide) (.inl rfl)
  · rw [if_neg hplace, or_iff_right hplace]
    by_cases hempty : place.fieldPath = ""
    · -- Below empty keys a place has an empty path, but the name of the root is written for it.
      rw [hempty, if_pos rfl, hroot]
      exact iff_of_false (by decide) fun h => h.filled rfl
    · rw [if_neg hempty, Scene.pathOf_append]
      constructor
      · intro hmark
        exact ⟨hempty, hmark⟩
      · intro h
        exact h.unmarked

/-- The words that mark an anomaly are found in the line of a warning about a text if they are in
the path, or in the name of a variable. -/
theorem category_of_warning {text path : String} {w : ExpressionWarning} (n : Node)
    (hfound : w ∈ (Expression.check ctx text).warnings) (hfilled : path ≠ "") :
    (Scene.expressionWarning n (Expression.locatedText path w.message)).category = .expression ↔
      Text.contains "depth" path = false ∧ Text.contains "Circular reference" path = false ∧
        w.namesDepth = false := by
  have hdepth : Text.contains "depth" (path ++ ": " ++ w.message) = true ↔
      Text.contains "depth" path = true ∨ Text.contains "depth" w.message = true :=
    Text.contains_located (c := 'd') (by decide) (by decide) (by decide)
  have hcircular : Text.contains "Circular reference" (path ++ ": " ++ w.message) = true ↔
      Text.contains "Circular reference" path = true ∨
        Text.contains "Circular reference" w.message = true :=
    Text.contains_located (c := 'C') (by decide) (by decide) (by decide)
  -- The message itself has the one word only in the name of a variable, and never the others.
  have hnames : Scene.NamesAnomaly (Expression.locatedText path w.message) ↔
      (Text.contains "depth" path = true ∨ w.namesDepth = true) ∨
        Text.contains "Circular reference" path = true := by
    rcases Expression.wording_of_mem_warnings hfound with ⟨hname, hnone⟩
    rw [hname] at hdepth
    rw [hnone, or_iff_left Bool.false_ne_true] at hcircular
    rw [Scene.NamesAnomaly, Expression.locatedText, if_neg hfilled, hdepth, hcircular]
  have hplain : ¬ Scene.NamesAnomaly (Expression.locatedText path w.message) ↔
      Text.contains "depth" path = false ∧ Text.contains "Circular reference" path = false ∧
        w.namesDepth = false := by
    rw [hnames, not_or, not_or, Bool.not_eq_true, Bool.not_eq_true, Bool.not_eq_true]
    constructor
    · rintro ⟨⟨hdepth, hname⟩, hcircular⟩
      exact ⟨hdepth, hcircular, hname⟩
    · rintro ⟨hdepth, hcircular, hname⟩
      exact ⟨⟨hdepth, hname⟩, hcircular⟩
  rw [← hplain]
  constructor
  · intro hcategory hanomaly
    rw [Scene.category_of_namesAnomaly n hanomaly] at hcategory
    cases hcategory
  · exact Scene.category_of_not_namesAnomaly n

/-- An anomaly is known by one of the words in its message. -/
theorem category_of_anomaly (n : Node) (a : Anomaly) :
    (Scene.expressionWarning n a.text).category = .anomaly := by
  refine Scene.category_of_namesAnomaly n ?_
  cases a with
  | tooDeep path limit =>
    refine .inl ((Text.contains_located (c := 'd') (by decide) (by decide) (by decide)).2 (.inr ?_))
    exact Text.contains_append_left (Text.contains_append_left (by decide))
  | circular path =>
    refine .inr ((Text.contains_located (c := 'C') (by decide) (by decide) (by decide)).2 (.inr ?_))
    have hmessage : ∀ path, (Anomaly.circular path).message =
        "Circular reference detected; value skipped" := fun _ => rfl
    rw [hmessage]
    decide

/-- What comes from a tree is reported under its own path and category exactly if its line can be
read again. -/
theorem located_iff (hfrom : From limits ctx tree o) (n : Node) :
    ((o.issue n).path = some o.path ∧ (o.issue n).category = o.category) ↔ o.Plain := by
  cases hfrom with
  | @error place s e _ _ _ _ =>
    rcases e.exists_head?_message with ⟨c, hhead, hc⟩
    have hpath : Scene.pathOf (Expression.locatedText place.fieldPath e.message) =
        place.fieldPath ↔ Separable place.fieldPath := Scene.pathOf_locatedText hhead hc
    constructor
    · intro h
      exact hpath.1 (Option.some.inj h.1)
    · intro h
      exact ⟨congrArg some (hpath.2 h), rfl⟩
  -- A warning may be filed under another category because of the words in its line.
  | @warning place s w _ _ _ hfound =>
    rcases w.exists_head?_message with ⟨c, hhead, hc⟩
    have hpath : Scene.pathOf (Expression.locatedText place.fieldPath w.message) =
        place.fieldPath ↔ Separable place.fieldPath := Scene.pathOf_locatedText hhead hc
    constructor
    · intro hboth
      rcases hboth with ⟨hsame, hcategory⟩
      have hseparable := hpath.1 (Option.some.inj hsame)
      exact ⟨hseparable, (category_of_warning n hfound hseparable.filled).1 hcategory⟩
    · intro hboth
      rcases hboth with ⟨hseparable, hwords⟩
      exact ⟨congrArg some (hpath.2 hseparable),
        (category_of_warning n hfound hseparable.filled).2 hwords⟩
  -- Anomalies have their category in any case, so that the path alone decides.
  | @tooDeep place v _ _ _ =>
    have hpath : Scene.pathOf (Anomaly.tooDeep place.fieldPath limits.depth).text = stopPath place ↔
        place = [] ∨ Separable place.fieldPath := pathOf_anomaly rfl
    constructor
    · intro h
      exact hpath.1 (Option.some.inj h.1)
    · intro h
      exact ⟨congrArg some (hpath.2 h), category_of_anomaly n _⟩
  | @circular place levels _ _ =>
    have hpath : Scene.pathOf (Anomaly.circular place.fieldPath).text = stopPath place ↔
        place = [] ∨ Separable place.fieldPath := pathOf_anomaly rfl
    constructor
    · intro h
      exact hpath.1 (Option.some.inj h.1)
    · intro h
      exact ⟨congrArg some (hpath.2 h), category_of_anomaly n _⟩

/-- The findings about expressions are no matters of style, and errors or warnings. -/
theorem category_issue_ne_style (n : Node) (o : Origin) : (o.issue n).category ≠ .style := by
  unfold issue
  split
  · simp [Scene.expressionError, Issue.onNode, Issue.atPath, Issue.error]
  · by_cases hwords : Scene.NamesAnomaly o.text
    · rw [Scene.category_of_namesAnomaly n hwords]
      simp
    · rw [Scene.category_of_not_namesAnomaly n hwords]
      simp

/-- The issue of an error is an error, and that of a warning is a warning. -/
theorem severity_issue (n : Node) (o : Origin) :
    (o.issue n).severity = if o.isError then .error else .warning := by
  unfold issue
  split <;> rfl

theorem isError_issue_iff {n : Node} (o : Origin) :
    (o.issue n).isError = true ↔ o.isError = true := by
  rw [Issue.isError, severity_issue]
  cases o.isError <;> simp

/-- Issues on expressions have one of two codes. -/
theorem code_issue (n : Node) (o : Origin) :
    (o.issue n).code ∈ ["expression_error", "expression_warning"] := by
  unfold issue
  split <;> simp [Scene.expressionError, Scene.expressionWarning]

end Origin

/-! ## All findings of a report -/

namespace Policy

variable {p : Policy} {issues : List Issue} {i : Issue}

/-- What a policy reports of findings that are no matters of style: the errors, and if it keeps
warnings those as well. -/
theorem mem_reported_iff (h : ∀ i ∈ issues, i.category ≠ .style ∧ i.severity ≠ .info) :
    i ∈ p.errors issues ∨ i ∈ p.warnings issues ↔
      i ∈ issues ∧ (i.isError = true ∨ p.keepWarnings = true) := by
  have happly : ∀ i ∈ issues, p.apply i = p.keep i := by
    intro i hi
    exact if_neg (h i hi).1
  have hmem : i ∈ issues.filterMap p.apply ↔
      i ∈ issues ∧ (i.isError = true ∨ p.keepWarnings = true) := by
    rw [List.filterMap_congr happly, List.mem_filterMap]
    constructor
    · intro hexists
      rcases hexists with ⟨j, hj, hkeep⟩
      obtain rfl := keep_eq_some hkeep
      refine ⟨hj, ?_⟩
      by_contra hdropped
      simp [keep, not_or.1 hdropped] at hkeep
    · intro hboth
      rcases hboth with ⟨hi, hkept⟩
      refine ⟨i, hi, if_neg ?_⟩
      rcases hkept with herror | hwarnings
      · simp [herror]
      · simp [hwarnings]
  -- What a policy lets through is filed by its severity, as an error or as a warning.
  have hfiled : i ∈ p.errors issues ∨ i ∈ p.warnings issues ↔
      i ∈ issues.filterMap p.apply ∧ (i.isError = true ∨ (i.severity == .warning) = true) := by
    rw [errors, warnings, List.mem_filter, List.mem_filter, and_or_left]
  rw [hfiled, hmem]
  refine and_iff_left_of_imp ?_
  intro hi
  have hsevere := (h i hi.1).2
  unfold Issue.isError
  cases hseverity : i.severity with
  | error => exact .inl rfl
  | warning => exact .inr rfl
  | info => exact absurd hseverity hsevere

end Policy

namespace Scene

variable {s : Scene} {n : Node} {ns : List Node} {depth : Number} {w : Wiring} {f : TextFindings}
  {i : Issue}

/-- The codes of findings about expressions, apart from their written form. -/
def expressionCodes : List String :=
  ["expression_error", "expression_warning"]

/-- The findings about the expressions of a node are those that come from its parameters. -/
theorem mem_expressionFindings_iff :
    i ∈ (s.expressionFindings depth w n).issues ↔
      ∃ o : Origin, o.From { depth := depth } (s.expressionContext w n) (.obj n.parameters) ∧
        i = o.issue n := by
  rw [expressionFindings, List.mem_append, List.mem_map, List.mem_map]
  constructor
  · intro h
    rcases h with ⟨line, hline, rfl⟩ | ⟨line, hline, rfl⟩
    · rcases Expression.mem_errorTexts_iff.1 hline with ⟨o, hfrom, herror, rfl⟩
      have hissue : o.issue n = Scene.expressionError n o.text := if_pos herror
      exact ⟨o, hfrom, hissue.symm⟩
    · rcases Expression.mem_warningTexts_iff.1 hline with ⟨o, hfrom, hwarning, rfl⟩
      have hissue : o.issue n = Scene.expressionWarning n o.text := if_neg (by simp [hwarning])
      exact ⟨o, hfrom, hissue.symm⟩
  · intro h
    rcases h with ⟨o, hfrom, rfl⟩
    unfold Origin.issue
    split
    case isTrue herror =>
      have hline := Expression.mem_errorTexts_iff.2 ⟨o, hfrom, herror, rfl⟩
      exact .inl ⟨o.text, hline, rfl⟩
    case isFalse herror =>
      rw [Bool.not_eq_true] at herror
      have hline := Expression.mem_warningTexts_iff.2 ⟨o, hfrom, herror, rfl⟩
      exact .inr ⟨o.text, hline, rfl⟩

/-- The written form of expressions has codes of its own. -/
theorem code_formatIssues {issues : List Issue} (h : s.formatIssues depth n = .ok issues) :
    ∀ i ∈ issues, i.code ∉ expressionCodes := by
  have hword : ∀ kind : FormatKind, kind.word ∉ expressionCodes := by
    intro kind
    cases kind <;> decide
  rcases exists_map_formatIssue h with ⟨found, rfl⟩
  exact List.forall_mem_map.2 fun f _ => hword f.kind

/-- The issues on expressions of some nodes are those of one of them. -/
theorem mem_textFindingsOf_iff (h : s.textFindingsOf depth w ns = .ok f) :
    i ∈ f.issues.filter (Issue.hasCode expressionCodes) ↔
      ∃ n ∈ ns, i ∈ (s.expressionFindings depth w n).issues := by
  induction ns generalizing f with
  | nil =>
    rw [← Except.ok.inj h]
    simp
  | cons n rest ih =>
    rcases of_textFindingsOf_cons h with ⟨found, more, hfound, hmore, rfl⟩
    rcases nodeTextFindings_eq_ok.1 hfound with ⟨issues, hissues, rfl⟩
    have hown : (s.expressionFindings depth w n).issues.filter (Issue.hasCode expressionCodes) =
        (s.expressionFindings depth w n).issues := by
      refine List.filter_eq_self.2 fun i hi => Issue.hasCode_iff.2 ?_
      rcases mem_expressionFindings_iff.1 hi with ⟨o, -, rfl⟩
      exact o.code_issue n
    have hformat : issues.filter (Issue.hasCode expressionCodes) = [] :=
      List.filter_eq_nil_iff.2 fun i hi hcode =>
        code_formatIssues hissues i hi (Issue.hasCode_iff.1 hcode)
    simp only [TextFindings.issues_append, List.filter_append, hown, hformat, List.append_nil]
    rw [List.mem_append, ih hmore, List.exists_mem_cons_iff]

end Scene

namespace Validator

variable {v : Validator} {d : Document} {profile : Profile} {r : Report} {i : Issue}

/-- What a finding about the expressions of a node comes from. -/
def IsOrigin (v : Validator) (d : Document) (n : Node) (o : Origin) : Prop :=
  o.From { depth := v.settings.maxExpressionDepth }
    ((v.scene d).expressionContext (v.scene d).wiring n) (.obj n.parameters)

/-- The findings about expressions in a report come from the parameters of nodes that execute, and
none is missing but the warnings under a profile that drops them. -/
theorem mem_expression_issues_iff (h : v.report profile d = .ok r) :
    (i ∈ r.errors ∨ i ∈ r.warnings) ∧ i.code ∈ Scene.expressionCodes ↔
      ∃ n ∈ (v.scene d).executing, ∃ o, v.IsOrigin d n o ∧
        (o.isError = true ∨ profile.policy.keepWarnings = true) ∧ i = o.issue n := by
  by_cases hnodes : d.nodes = []
  · -- Without nodes the checks do not run, and there are no expressions either.
    have hnone : (v.scene d).executing = [] := by
      simp [Scene.executing, Scene.nodes, scene, hnodes]
    have hempty : ∀ i ∈ [emptyWorkflow], i.category ≠ .style ∧ i.severity ≠ .info := by
      simp [emptyWorkflow, Issue.warning]
    rcases issues_of_empty hnodes h with ⟨herrors, hwarnings⟩
    rw [herrors, hwarnings, Policy.mem_reported_iff hempty, hnone, List.mem_singleton]
    refine iff_of_false ?_ (by simp)
    intro hexists
    rcases hexists with ⟨⟨rfl, -⟩, hcode⟩
    exact absurd hcode (by decide)
  · rcases (report_eq_ok_iff hnodes).1 h with ⟨nodes, texts, hfound, htexts, rfl⟩
    have hmem : ∀ {i : Issue}, i ∈ texts.issues.filter (Issue.hasCode Scene.expressionCodes) ↔
        ∃ n ∈ (v.scene d).executing, ∃ o, v.IsOrigin d n o ∧ i = o.issue n := by
      intro i
      rw [Scene.mem_textFindingsOf_iff htexts]
      exact exists_congr fun n => and_congr_right fun _ => Scene.mem_expressionFindings_iff
    have hkinds : ∀ i ∈ texts.issues.filter (Issue.hasCode Scene.expressionCodes),
        i.category ≠ .style ∧ i.severity ≠ .info := by
      intro i hi
      rcases hmem.1 hi with ⟨n, -, o, -, rfl⟩
      refine ⟨o.category_issue_ne_style n, ?_⟩
      rw [o.severity_issue n]
      split <;> simp
    -- Of all findings only those about texts have the codes.
    have herrors : (reportOf profile v.settings (v.scene d) nodes texts).errors.filter
        (Issue.hasCode Scene.expressionCodes) =
          profile.policy.errors (texts.issues.filter (Issue.hasCode Scene.expressionCodes)) := by
      rw [errors_reportOf, ← Policy.errors_filter_hasCode]
      rw [Scene.allIssues_filter_textCodes hfound (by decide)]
    have hwarnings : (reportOf profile v.settings (v.scene d) nodes texts).warnings.filter
        (Issue.hasCode Scene.expressionCodes) =
          profile.policy.warnings (texts.issues.filter (Issue.hasCode Scene.expressionCodes)) := by
      rw [warnings_reportOf, ← Policy.warnings_filter_hasCode]
      rw [Scene.allIssues_filter_textCodes hfound (by decide)]
    rw [or_and_right, ← Issue.hasCode_iff, ← List.mem_filter, ← List.mem_filter]
    rw [herrors, hwarnings, Policy.mem_reported_iff hkinds, hmem]
    constructor
    · intro hexists
      rcases hexists with ⟨⟨n, hn, o, ho, rfl⟩, hkept⟩
      exact ⟨n, hn, o, ho, hkept.imp_left o.isError_issue_iff.1, rfl⟩
    · intro hexists
      rcases hexists with ⟨n, hn, o, ho, hkept, rfl⟩
      exact ⟨⟨n, hn, o, ho, rfl⟩, hkept.imp_left o.isError_issue_iff.2⟩

/-- The findings about expressions in a report are those that come from the parameters of the nodes
that execute: from the texts in them, and from the places at which the walk through them stops.
Each has the path of this text or place and the category of findings about texts, or of anomalies,
exactly if the line that was written for it can be read again. -/
theorem expressions_located (h : v.report profile d = .ok r) :
    (∀ i, (i ∈ r.errors ∨ i ∈ r.warnings) ∧
        i.code ∈ ["expression_error", "expression_warning"] ↔
      ∃ n ∈ (v.scene d).executing, ∃ o, v.IsOrigin d n o ∧
        (o.isError = true ∨ profile.policy.keepWarnings = true) ∧ i = o.issue n) ∧
    ∀ n ∈ (v.scene d).executing, ∀ o, v.IsOrigin d n o →
      (((o.issue n).path = some o.path ∧ (o.issue n).category = o.category) ↔ o.Plain) :=
  ⟨fun _ => mem_expression_issues_iff h, fun n _ _ horigin => Origin.located_iff horigin n⟩

/-- One of the keys holds a colon and a blank. -/
def labelNode : Node where
  id := "1"
  name := "A"
  type := "x.set"
  parameters := [("text", .str "=\x7b\x7b $x \x7d\x7d"), ("a: b", .str "=\x7b\x7b\x7d\x7d")]

def labels : Document where
  nodes := [labelNode]

def labelTypes : Validator where
  catalog := .ofTypes "1" [{ name := "x.set" }]

theorem exists_labels_report (profile : Profile) :
    ∃ r, labelTypes.report profile labels = .ok r := by
  have hplain : ∀ type t, labelTypes.catalog.find? type = some t → t.isPlain = true := by
    intro type t ht
    rw [List.mem_singleton.1 (Catalog.mem_of_find?_ofTypes ht)]
    rfl
  have hreadable : ∀ w ∈ Walk.visits { depth := .int 100, skipPrivate := true } ""
      (.obj labelNode.parameters), Format.isUnreadable w.value = false := by
    decide
  refine exists_report_of_readable profile hplain ?_
  intro n hn
  obtain rfl : n = labelNode := List.mem_singleton.1 (List.mem_filter.1 hn).1
  exact Format.readable_iff.2 hreadable

theorem labelNode_executing : labelNode ∈ (labelTypes.scene labels).executing := by
  have hexecutes : (labelTypes.scene labels).executes labelNode = true := by
    decide +kernel
  exact List.mem_filter.2 ⟨List.mem_cons_self, hexecutes⟩

theorem text_located :
    ∃ r, labelTypes.report .runtime labels = .ok r ∧ ∃ i, (i ∈ r.errors ∨ i ∈ r.warnings) ∧
      i.message = "text: Unknown variable $x" ∧ i.path = some "text" ∧ i.category = .expression := by
  rcases exists_labels_report .runtime with ⟨r, hr⟩
  rcases expressions_located hr with ⟨hreported, hlocated⟩
  let o : Origin := .warning [.key "text"] (.unknownVariable "$x")
  have horigin : labelTypes.IsOrigin labels labelNode o := by
    refine .warning (s := "=\x7b\x7b $x \x7d\x7d") ⟨by decide, by decide⟩
      (.within (.field (by simp [labelNode])) .here) (by decide) ?_
    decide +kernel
  have hplain : o.Plain := ⟨⟨by decide, by decide⟩, by decide, by decide, by decide⟩
  rcases (hlocated labelNode labelNode_executing o horigin).2 hplain with ⟨hpath, hcategory⟩
  rcases (hreported (o.issue labelNode)).2
    ⟨labelNode, labelNode_executing, o, horigin, .inr rfl, rfl⟩ with ⟨hmem, -⟩
  exact ⟨r, hr, o.issue labelNode, hmem, rfl, hpath, hcategory⟩

/-- What is found in the text under the other key is reported under another path. -/
theorem colon_in_key_astray :
    ∃ r, labelTypes.report .runtime labels = .ok r ∧
      ¬∀ i, i ∈ r.errors ∨ i ∈ r.warnings → ∀ n ∈ (labelTypes.scene labels).executing, ∀ o,
        labelTypes.IsOrigin labels n o → i = o.issue n →
          i.path = some o.path ∧ i.category = o.category := by
  rcases exists_labels_report .runtime with ⟨r, hr⟩
  let o : Origin := .error [.key "a: b"] .empty
  have horigin : labelTypes.IsOrigin labels labelNode o := by
    refine .error (s := "=\x7b\x7b\x7d\x7d") ⟨by decide, by decide⟩
      (.within (.field (by simp [labelNode])) .here) (by decide) ?_
    decide +kernel
  have hmem := (mem_expression_issues_iff (i := o.issue labelNode) hr).2
    ⟨labelNode, labelNode_executing, o, horigin, .inl rfl, rfl⟩
  refine ⟨r, hr, ?_⟩
  intro hall
  have hright := (hall _ hmem.1 labelNode labelNode_executing o horigin rfl).1
  have hwrong : (o.issue labelNode).path ≠ some o.path := by decide
  exact hwrong hright

end Validator
end Workflows
