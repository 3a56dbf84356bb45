import Mathlib.Data.List.Sigma
import Workflows.Proofs.Catalog.Coherence
import Workflows.Proofs.Profile.Monotone

/-!
# Skipped — what malformed properties add to the findings on a node

Properties of a type that cannot be read are skipped, each with a warning. Apart from these warnings
the findings on a node are those under the type that has the other properties only. Nothing else is
reported at the place of a malformed property, so its warning neither hides another finding nor is
hidden by one; but what a report says of the next steps counts it.

Main definitions:

* `NodeConfig.readable` — without the properties that cannot be read;
* `NodeConfig.skipped` — the warnings about these;
* `NodeConfig.check_eq` — the outcome for a node from that without malformed properties;
* `Scene.knownNodeFindings_eq` — the same for all findings on a node.
-/

namespace Workflows

/-! ## The first finding of each key -/

namespace Issue

variable {κ : Type} [BEq κ] [LawfulBEq κ] {key : Issue → κ}

/-- A key that no finding has need not be remembered. -/
theorem firstBy_cons_seen {issues : List Issue} {k : κ} (h : ∀ i ∈ issues, key i ≠ k)
    (seen : List κ) : firstBy key (k :: seen) issues = firstBy key seen issues := by
  let tells : κ → Bool := fun k' => k' != k
  have htells : ∀ i ∈ issues, true = tells (key i) := by
    intro i hi
    simp [tells, h i hi]
  have hfilter : firstBy key (k :: seen) (issues.filter fun _ => true) =
      (firstBy key seen issues).filter fun _ => true := by
    refine firstBy_filter htells ?_
    intro k' hk'
    have hne : k' ≠ k := by simpa [tells] using hk'
    simp [hne]
  simpa using hfilter

/-- Findings that have keys of their own are all kept, and hide none. -/
theorem firstBy_append_of_apart {front back : List Issue} {seen : List κ}
    (hfront : (front.map key).Nodup) (hseen : ∀ i ∈ front, key i ∉ seen)
    (hback : ∀ i ∈ front, ∀ j ∈ back, key j ≠ key i) :
    firstBy key seen (front ++ back) = front ++ firstBy key seen back := by
  induction front generalizing seen with
  | nil => rfl
  | cons i rest ih =>
    rw [List.map_cons, List.nodup_cons] at hfront
    have hnew : seen.contains (key i) = false := by
      simpa using hseen i List.mem_cons_self
    have hrest : ∀ j ∈ rest, key j ∉ key i :: seen := by
      intro j hj hmem
      rcases List.mem_cons.1 hmem with heq | hmem
      · exact hfront.1 (heq ▸ List.mem_map_of_mem hj)
      · exact hseen j (List.mem_cons_of_mem i hj) hmem
    have hlater : ∀ j ∈ rest, ∀ k ∈ back, key k ≠ key j := by
      intro j hj
      exact hback j (List.mem_cons_of_mem i hj)
    have hstep : ∀ is, firstBy key seen (i :: is) = i :: firstBy key (key i :: seen) is := by
      intro is
      rw [firstBy, hnew]
      rfl
    calc firstBy key seen (i :: rest ++ back)
        = i :: firstBy key (key i :: seen) (rest ++ back) := by rw [List.cons_append, hstep]
      _ = i :: (rest ++ firstBy key (key i :: seen) back) := by rw [ih hfront.2 hrest hlater]
      _ = i :: rest ++ firstBy key seen back := by
        rw [firstBy_cons_seen (hback i List.mem_cons_self), List.cons_append]

end Issue

/-! ## The parameters of a node -/

namespace NodeConfig

def isReadable (v : Value) : Bool :=
  (Property.decode v).value?.isSome

def readable (c : NodeConfig) : NodeConfig :=
  { c with schema := c.schema.filter isReadable }

variable (c : NodeConfig) (visible : List Property)

/-- The properties are the same without the entries that cannot be read. -/
theorem properties_readable : c.readable.properties = c.properties := by
  have hnone : ∀ v : Value, isReadable v = false → (Property.decode v).value? = none := by
    intro v hv
    simpa [isReadable] using hv
  change (c.schema.filter isReadable).filterMap (fun v => (Property.decode v).value?) =
    c.schema.filterMap fun v => (Property.decode v).value?
  rw [List.filterMap_filter]
  refine List.filterMap_congr ?_
  intro v _
  cases hv : isReadable v with
  | false => simp [hnone v hv]
  | true => simp

/-- There is a warning for each property that cannot be read, with its number. -/
theorem malformedIssues_eq :
    c.malformedIssues =
      (c.schema.zipIdx.filter fun p => !isReadable p.1).map fun p => malformed c.type p.2 := by
  rw [malformedIssues, ← List.filterMap_eq_map, List.filterMap_filter]
  refine List.filterMap_congr ?_
  intro p _
  cases hdecode : Property.decode p.1 <;> simp [isReadable, hdecode, Decoded.value?]

/-- Nothing is malformed among the readable entries. -/
theorem malformedIssues_readable : c.readable.malformedIssues = [] := by
  rw [malformedIssues_eq, List.map_eq_nil_iff, List.filter_eq_nil_iff]
  intro h hv
  rcases h with ⟨v, i⟩
  have hread : isReadable v = true :=
    (List.mem_filter.1 (List.fst_mem_of_mem_zipIdx hv)).2
  simp [hread]

/-- The warnings about malformed properties come before all other findings. -/
theorem findings_eq (policy : Policy) :
    (c.findings policy visible).issues =
        c.malformedIssues ++ (c.readable.findings policy visible).issues ∧
      (c.findings policy visible).autofix = (c.readable.findings policy visible).autofix ∧
      (c.findings policy visible).suggestions =
        (c.readable.findings policy visible).suggestions := by
  have hissues : ∀ a b : Outcome, (a ++ b).issues = a.issues ++ b.issues := fun _ _ => rfl
  have hparameters : c.readable.parameters = c.parameters := rfl
  have htype : c.readable.type = c.type := rfl
  refine ⟨?_, ?_, ?_⟩
  · simp only [findings, hissues, properties_readable, malformedIssues_readable, hparameters,
      htype, List.nil_append, List.append_assoc]
  · simp only [findings, properties_readable, malformedIssues_readable, hparameters, htype]
    rfl
  · simp only [findings, properties_readable, malformedIssues_readable, hparameters, htype]
    rfl

/-- The warnings about malformed properties, as far as they are kept. -/
def skipped (policy : Policy) (c : NodeConfig) : List Issue :=
  if policy.keepWarnings then c.malformedIssues.map fun i => { i with nodeName := c.nodeName }
  else []

/-- The place of a warning tells which property it is about. -/
theorem nodup_malformedIssues : (c.malformedIssues.map Issue.path).Nodup := by
  have hpath : Function.Injective fun i => (malformed c.type i).path := by
    intro i j h
    have hchars := congrArg String.toList (Option.some.inj h)
    simp only [String.toList_append, List.append_cancel_left_eq, List.append_cancel_right_eq,
      Nat.toString_eq_repr, Nat.toList_repr] at hchars
    exact Catalog.toDigits_inj hchars
  have hnumbers : ((c.schema.zipIdx.filter fun p => !isReadable p.1).map Prod.snd).Nodup :=
    (List.nodup_zipIdx_map_snd c.schema).sublist (List.filter_sublist.map _)
  have hpaths : c.malformedIssues.map Issue.path =
      ((c.schema.zipIdx.filter fun p => !isReadable p.1).map Prod.snd).map
        fun i => (malformed c.type i).path := by
    rw [malformedIssues_eq, List.map_map, List.map_map]
    rfl
  rw [hpaths]
  exact hnumbers.map hpath

/-! ## The outcome for a node -/

end NodeConfig

/-- The outcome with more warnings in front, and what to do next after these. -/
def ConfigReport.withWarnings (policy : Policy) (more : List Issue) (r : ConfigReport) :
    ConfigReport :=
  let longer := { r with warnings := more ++ r.warnings }
  if policy.includeGuidance then { longer with nextSteps := NodeConfig.nextSteps longer }
  else longer

namespace NodeConfig

variable (c : NodeConfig) (visible : List Property)

section Named

variable (profile : Profile)

/-- Without the properties that cannot be read everything else is found that is found with them. -/
theorem namedFindings_eq :
    c.namedFindings profile visible =
      (c.malformedIssues.map fun i => { i with nodeName := c.nodeName }) ++
        c.readable.namedFindings profile visible := by
  rw [namedFindings, (c.findings_eq visible profile.policy).1, List.map_append]
  rfl

/-- A finding on a malformed entry is reported as the policy says, under the name of the node. -/
theorem reported_malformedIssues (policy : Policy) :
    ((c.malformedIssues.map fun i => { i with nodeName := c.nodeName }).filterMap policy.apply) =
      skipped policy c := by
  have happly : ∀ i ∈ c.malformedIssues.map fun i => { i with nodeName := c.nodeName },
      policy.apply i = if policy.keepWarnings then some i else none := by
    intro i hi
    rcases List.mem_map.1 hi with ⟨j, hj, rfl⟩
    rcases of_mem_malformedIssues hj with ⟨hseverity, hcategory, -⟩
    cases hkeep : policy.keepWarnings <;>
      simp [Policy.apply, Policy.keep, Issue.isError, hseverity, hcategory, hkeep]
  rw [List.filterMap_congr happly, skipped]
  split
  · exact List.filterMap_some
  · exact List.filterMap_none _

/-- What is said of an entry that cannot be read is a warning, and an anomaly. -/
theorem of_mem_skipped {policy : Policy} {i : Issue} (h : i ∈ skipped policy c) :
    i.severity = .warning ∧ i.category = .anomaly ∧ i.code = "malformed_schema" := by
  unfold skipped at h
  split at h
  · rcases List.mem_map.1 h with ⟨j, hj, rfl⟩
    have hmalformed := of_mem_malformedIssues hj
    exact hmalformed
  · simp at h

/-- The errors are the same without the entries that cannot be read. -/
theorem errors_reportOf_readable :
    (reportOf profile c visible).errors = (reportOf profile c.readable visible).errors := by
  have hnone : (skipped profile.policy c).filter Issue.isError = [] := by
    refine List.filter_eq_nil_iff.2 ?_
    intro i hi
    simp [Issue.isError, (c.of_mem_skipped hi).1]
  rw [errors_reportOf, errors_reportOf, namedFindings_eq, Policy.errors_append]
  conv_lhs => rw [Policy.errors, reported_malformedIssues, hnone, List.nil_append]

/-- A warning about a malformed property hides no other, and is hidden by none. -/
theorem warnings_reportOf_readable :
    (reportOf profile c visible).warnings =
      skipped profile.policy c ++ (reportOf profile c.readable visible).warnings := by
  let key : Issue → Option String × String × String := fun i => (i.path, i.code, i.message)
  have hmild : (skipped profile.policy c).filter (fun i => !i.isError) =
      skipped profile.policy c := by
    refine List.filter_eq_self.2 ?_
    intro i hi
    simp [Issue.isError, (c.of_mem_skipped hi).1]
  -- Each malformed property is named by a path of its own, so none is dropped as a repetition.
  have hfront : ((skipped profile.policy c).map key).Nodup := by
    have hpaths : ((skipped profile.policy c).map Issue.path).Nodup := by
      unfold skipped
      split
      · rw [List.map_map]
        exact c.nodup_malformedIssues
      · exact List.nodup_nil
    refine List.Nodup.of_map Prod.fst ?_
    rw [List.map_map]
    exact hpaths
  -- No other finding has their code, so none is dropped because of them.
  have hback : ∀ i ∈ skipped profile.policy c,
      ∀ j ∈ ((c.readable.namedFindings profile visible).filterMap profile.policy.apply).filter
        fun i => !i.isError, key j ≠ key i := by
    intro i hi j hj heq
    have hcode : j.code = "malformed_schema" := by
      rw [← (c.of_mem_skipped hi).2.2]
      exact congrArg (fun k => k.2.1) heq
    rcases List.mem_filterMap.1 (List.mem_filter.1 hj).1 with ⟨named, hnamed, happly⟩
    rcases List.mem_map.1 hnamed with ⟨found, hfound, rfl⟩
    rcases c.readable.listed_findings profile.policy visible found hfound with hfound | hlisted
    · rw [malformedIssues_readable] at hfound
      exact absurd hfound List.not_mem_nil
    · have hkinds : ∀ kind ∈ Issue.parameterKinds, kind.2 ≠ "malformed_schema" := by decide
      refine hlisted.of_kinds (p := fun _ code => code ≠ "malformed_schema") hkinds ?_
      rw [← hcode]
      exact (Policy.category_apply happly).2.symm
  have hfound : ((c.namedFindings profile visible).filterMap profile.policy.apply).filter
      (fun i => !i.isError) = skipped profile.policy c ++
        ((c.readable.namedFindings profile visible).filterMap profile.policy.apply).filter
          fun i => !i.isError := by
    rw [namedFindings_eq, List.filterMap_append, List.filter_append, reported_malformedIssues,
      hmild]
  rw [warnings_reportOf, warnings_reportOf, hfound]
  exact Issue.firstBy_append_of_apart hfront (fun _ _ => List.not_mem_nil) hback

def outcome (errors warnings : List Issue) : ConfigReport :=
  let found := findings profile.policy c visible
  let shown := (visible.map (·.name)).eraseDups
  let base : ConfigReport :=
    { errors := errors
      warnings := warnings
      suggestions := found.suggestions
      visible := shown
      hidden := ((c.properties.map (·.name)).eraseDups).filter fun n => !shown.contains n
      autofix := found.autofix
      profile := profile }
  if profile.policy.includeGuidance then
    { base with nextSteps := nextSteps base, examples := Rules.examples c.type }
  else base

/-- What a report tells apart from errors and warnings follows from them. -/
theorem reportOf_eq_outcome :
    reportOf profile c visible =
      c.outcome visible profile (reportOf profile c visible).errors
        (reportOf profile c visible).warnings := by
  cases profile <;> rfl

/-- More warnings come in front of the others. -/
theorem outcome_append (errors more warnings : List Issue) :
    c.outcome visible profile errors (more ++ warnings) =
      (c.outcome visible profile errors warnings).withWarnings profile.policy more := by
  cases profile <;> rfl

theorem outcome_readable : c.readable.outcome visible profile = c.outcome visible profile := by
  rcases c.findings_eq visible profile.policy with ⟨-, hautofix, hsuggestions⟩
  have htype : c.readable.type = c.type := rfl
  funext errors warnings
  simp only [outcome, hautofix, hsuggestions, properties_readable, htype]

/-- A report is that on the readable entries, with the warnings on those that cannot be read. -/
theorem reportOf_eq :
    reportOf profile c visible =
      (reportOf profile c.readable visible).withWarnings profile.policy
        (skipped profile.policy c) := by
  have hreadable : c.outcome visible profile (reportOf profile c.readable visible).errors
      (reportOf profile c.readable visible).warnings = reportOf profile c.readable visible := by
    rw [← outcome_readable, ← reportOf_eq_outcome]
  rw [reportOf_eq_outcome, errors_reportOf_readable, warnings_reportOf_readable, outcome_append,
    hreadable]

/-- Malformed properties change nothing in the outcome but the warnings, and what these add to the
next steps. -/
theorem check_eq :
    c.check profile =
      (c.readable.check profile).map
        (ConfigReport.withWarnings profile.policy (skipped profile.policy c)) := by
  have hresolver : c.readable.resolver = c.resolver := by
    rw [resolver, resolver, properties_readable]
    rfl
  rw [check, check, hresolver]
  cases (c.resolver.visibleProperties.run {}).1 with
  | error e => rfl
  | ok visible => exact congrArg Except.ok (c.reportOf_eq visible profile)

end Named

/-- Without malformed properties the package of the type makes no difference. -/
theorem check_of_short (profile : Profile) {type : String} (hnone : c.malformedIssues = [])
    (hshort : TypeName.short type = TypeName.short c.type) :
    ({ c with type := type } : NodeConfig).check profile = c.check profile := by
  have hnone' : ({ c with type := type } : NodeConfig).malformedIssues = [] := by
    rw [malformedIssues_eq, List.map_eq_nil_iff] at hnone ⊢
    exact hnone
  have hrules : Rules.run type c.parameters = Rules.run c.type c.parameters := by
    rw [Rules.run, Rules.run, hshort]
  have hexamples : Rules.examples type = Rules.examples c.type := by
    rw [Rules.examples, Rules.examples, hshort]
  have hfindings : ∀ visible, findings profile.policy { c with type := type } visible =
      findings profile.policy c visible := by
    intro visible
    simp only [findings, hnone, hnone', hrules]
    rfl
  have hreport : ∀ visible, reportOf profile { c with type := type } visible =
      reportOf profile c visible := by
    intro visible
    simp only [reportOf, hfindings, hexamples]
    rfl
  simp only [check, hreport]
  rfl

end NodeConfig

namespace Scene

variable (profile : Profile) (n : Node) (t : NodeType)

/-- The findings for a node of a known type, from the outcome for its parameters. -/
def nodeFindingsFrom (r : ConfigReport) : NodeFindings :=
  { issues := versionIssues n t ++ (if profile.policy.runRules then settingIssues n else []) }
    ++ configFindings profile n r
    ++ { suggestions :=
          if profile.policy.runRules && lacksErrorHandling n t then
            [n.name ++ ": add error handling (onError or retryOnFail) for external calls"]
          else [] }

/-- Of the properties that cannot be read only the warnings about them get into the findings. -/
theorem knownNodeFindings_eq :
    knownNodeFindings profile n t =
      ((config n t).readable.check profile).map fun r =>
        nodeFindingsFrom profile n t
          (r.withWarnings profile.policy ((config n t).skipped profile.policy)) := by
  rw [knownNodeFindings, NodeConfig.check_eq]
  cases (config n t).readable.check profile <;> rfl

/-- The warnings that are put in stand between the errors and the other warnings. -/
theorem issues_nodeFindingsFrom (more : List Issue) (r : ConfigReport) :
    (nodeFindingsFrom profile n t (r.withWarnings profile.policy more)).issues =
      (versionIssues n t ++ (if profile.policy.runRules then settingIssues n else []) ++
          r.errors.map fun i => { i with nodeId := some n.id }) ++
        (more.map fun i => { i with nodeId := some n.id }) ++
        r.warnings.map fun i => { i with nodeId := some n.id } := by
  have herrors : (r.withWarnings profile.policy more).errors = r.errors := by
    cases profile <;> rfl
  have hwarnings : (r.withWarnings profile.policy more).warnings = more ++ r.warnings := by
    cases profile <;> rfl
  simp only [nodeFindingsFrom, issues_append, configFindings, herrors, hwarnings, List.map_append,
    List.append_nil, List.append_assoc]

end Scene
end Workflows
