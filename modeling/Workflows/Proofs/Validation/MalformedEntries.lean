import Workflows.Proofs.Validation.Essentials
import Workflows.Proofs.Validation.Locators

/-!
# MalformedEntries — entries of a type that cannot be read

Entries that cannot be read, put among the properties of types at any places, are skipped by the
checks of parameters, with a warning for each. The check of the form of expressions does not skip
them: it looks for the names of resource locators in all entries alike. So a report stays the same,
up to the warnings and what notes say of their number, exactly if no such entry makes a resource
locator of a parameter with an expression in it, or bears a name that cannot be one. That there is
no other way to get the same report is seen from the number of errors that ask for a locator.

Main definitions:

* `Property.Padded`, `Catalog.Padded` — properties with entries put in that cannot be read;
* `Report.Recounted` — reports that are the same up to warnings about such entries;
* `Validator.recounted_iff` — when the report stays the same.
-/

namespace Workflows

/-! ## Entries that are put in -/

/-- A list of properties with entries put in, anywhere, that cannot be read. -/
inductive Property.Padded : List Value → List Value → Prop
  | nil : Padded [] []
  | keep (v : Value) {vs vs' : List Value} : Padded vs vs' → Padded (v :: vs) (v :: vs')
  | insert {v : Value} {vs vs' : List Value} :
      NodeConfig.isReadable v = false → Padded vs vs' → Padded vs (v :: vs')

namespace Property.Padded

variable {vs vs' : List Value}

theorem refl (vs : List Value) : Padded vs vs := by
  induction vs with
  | nil => exact nil
  | cons v rest ih => exact ih.keep v

/-- The entries that can be read are the same. -/
theorem filter_isReadable (h : Padded vs vs') :
    vs'.filter NodeConfig.isReadable = vs.filter NodeConfig.isReadable := by
  induction h with
  | nil => rfl
  | keep v _ ih => rw [List.filter_cons, List.filter_cons, ih]
  | insert hv _ ih => rw [List.filter_cons_of_neg (by simp [hv]), ih]

/-- The locators of a list of properties are among those with more entries. -/
theorem exists_declaredLocatorsIn (h : Padded vs vs') {new : List String}
    (hnew : Scene.declaredLocatorsIn vs' = .ok new) :
    ∃ old, Scene.declaredLocatorsIn vs = .ok old ∧ old ⊆ new := by
  induction h generalizing new with
  | nil => exact ⟨new, hnew, List.Subset.refl new⟩
  | keep v _ ih =>
    rcases Scene.of_declaredLocatorsIn_cons hnew with ⟨name, more, hname, hmore, rfl⟩
    rcases ih hmore with ⟨old, hold, hsub⟩
    refine ⟨name.toList ++ old, by simp [Scene.declaredLocatorsIn, hname, hold, Except.map], ?_⟩
    intro key hkey
    exact List.mem_append.2 ((List.mem_append.1 hkey).imp_right fun h => hsub h)
  | insert _ _ ih =>
    rcases Scene.of_declaredLocatorsIn_cons hnew with ⟨name, more, -, hmore, rfl⟩
    rcases ih hmore with ⟨old, hold, hsub⟩
    exact ⟨old, hold, List.subset_append_of_subset_right _ hsub⟩

end Property.Padded

/-- A type with entries put in among its properties that cannot be read. -/
def NodeType.Padded (t t' : NodeType) : Prop :=
  ∃ vs, Property.Padded t.properties vs ∧ t' = { t with properties := vs }

def Catalog.Padded (c c' : Catalog) : Prop :=
  c.Related NodeType.Padded c'

/-- A type keeps its essentials when entries that cannot be read come in. -/
theorem NodeType.Padded.essentials {t t' : NodeType} (h : t.Padded t') :
    t'.essentials = t.essentials := by
  rcases h with ⟨vs, hvs, rfl⟩
  simp only [NodeType.essentials, hvs.filter_isReadable]
  rfl

namespace Catalog.Padded

variable {c c' : Catalog}

/-- A catalog keeps its essentials when entries that cannot be read come in. -/
theorem essentials (h : c.Padded c') : c'.essentials = c.essentials :=
  Related.essentials h fun _ _ ht => ht.essentials

/-- A type is found in both catalogs or in none. -/
theorem find? (h : c.Padded c') (type : String) :
    Option.Rel NodeType.Padded (c.find? type) (c'.find? type) :=
  Related.find? h type

/-- Types that have such entries put in make a catalog that has. -/
theorem ofTypes {types types' : List NodeType} (h : List.Forall₂ NodeType.Padded types types')
    (version : String) : (Catalog.ofTypes version types).Padded (.ofTypes version types') := by
  refine Related.ofTypes h ?_ version version
  intro t t' ht
  rcases ht with ⟨vs, -, rfl⟩
  rfl

end Catalog.Padded

/-! ## Findings up to warnings about such entries -/

namespace Issue

/-- Whether a finding is the warning about a property that cannot be read. -/
def isMalformed (i : Issue) : Bool :=
  i.severity == .warning && i.category == .anomaly && i.code == "malformed_schema"

end Issue

namespace Policy

variable {p : Policy} {xs ys : List Issue}

/-- A policy keeps a finding on a malformed entry as one, and makes none of any other. -/
theorem isMalformed_apply {i j : Issue} (h : p.apply i = some j) :
    (!j.isMalformed) = !i.isMalformed := by
  refine congrArg not (test_apply_of_not_style ?_ h)
  intro i hstyle
  simp only [Issue.isMalformed, hstyle, Bool.and_eq_false_iff]
  exact .inl (.inr (by decide))

/-- What is reported beside such warnings comes from the findings beside them. -/
theorem filter_reported_of_isMalformed {test : Issue → Bool}
    (htest : ∀ i, test i = true → i.isMalformed = false)
    (h : ys.filter (fun i => !i.isMalformed) = xs.filter fun i => !i.isMalformed) :
    (ys.filterMap p.apply).filter test = (xs.filterMap p.apply).filter test := by
  have hbeside : ∀ zs : List Issue, (zs.filterMap p.apply).filter test =
      ((zs.filter fun i => !i.isMalformed).filterMap p.apply).filter test := by
    intro zs
    rw [filterMap_apply_filter (fun _ _ happly => isMalformed_apply happly), List.filter_filter]
    refine List.filter_congr ?_
    intro i _
    cases hi : test i with
    | true => simp [htest i hi]
    | false => rfl
  rw [hbeside ys, hbeside xs, h]

end Policy

/-! ## What notes say of the number of warnings -/

namespace NodeConfig

/-- The last of the next steps: to review the warnings if there are any. Without warnings there is
no such step, but if there are no others either, the configuration is said to look valid. -/
def closingSteps (others : List String) (warnings : Nat) : List String :=
  if warnings = 0 then
    if others.isEmpty then ["Configuration looks valid; validate the whole workflow next"] else []
  else ["Review " ++ toString warnings ++ " warning(s)"]

/-- Only the last of the next steps depends on the warnings, and only on their number. -/
theorem exists_nextSteps :
    ∃ others : ConfigReport → List String,
      (∀ r warnings, others { r with warnings := warnings } = others r) ∧
        ∀ r, nextSteps r = others r ++ closingSteps (others r) r.warnings.length := by
  have hclosing : ∀ (others : List String) (warnings : List Issue),
      (if (others ++ (if warnings.isEmpty then []
            else ["Review " ++ toString warnings.length ++ " warning(s)"])).isEmpty then
          ["Configuration looks valid; validate the whole workflow next"]
        else others ++ (if warnings.isEmpty then []
            else ["Review " ++ toString warnings.length ++ " warning(s)"])) =
        others ++ closingSteps others warnings.length := by
    intro others warnings
    cases warnings with
    | nil => cases others <;> simp [closingSteps]
    | cons i rest => simp [closingSteps]
  refine ⟨_, ?_, fun r => hclosing _ r.warnings⟩
  intro _ _
  exact rfl

end NodeConfig

/-- Lists of notes that are the same up to what they say of numbers of warnings. -/
inductive RecountedNotes : List String → List String → Prop
  | nil : RecountedNotes [] []
  | keep (note : String) {ns ns' : List String} :
      RecountedNotes ns ns' → RecountedNotes (note :: ns) (note :: ns')
  | recount (name : String) (others : List String) (k k' : Nat) {ns ns' : List String} :
      RecountedNotes ns ns' →
        RecountedNotes
          ((NodeConfig.closingSteps others k).map (fun step => name ++ ": " ++ step) ++ ns)
          ((NodeConfig.closingSteps others k').map (fun step => name ++ ": " ++ step) ++ ns')

namespace RecountedNotes

variable {xs xs' ys ys' : List String}

theorem refl (ns : List String) : RecountedNotes ns ns := by
  induction ns with
  | nil => exact nil
  | cons note rest ih => exact ih.keep note

/-- Notes are recounted if the parts of them are. -/
theorem append (h : RecountedNotes xs xs') (h' : RecountedNotes ys ys') :
    RecountedNotes (xs ++ ys) (xs' ++ ys') := by
  induction h with
  | nil => exact h'
  | keep note _ ih => exact ih.keep note
  | recount name others k k' _ ih =>
    rw [List.append_assoc, List.append_assoc]
    exact ih.recount name others k k'

end RecountedNotes

/-- Findings that are the same up to warnings about properties that cannot be read. -/
structure NodeFindings.Recounted (f f' : NodeFindings) : Prop where
  issues : f'.issues.filter (fun i => !i.isMalformed) = f.issues.filter fun i => !i.isMalformed
  suggestions : f'.suggestions = f.suggestions
  notes : RecountedNotes f.notes f'.notes

namespace NodeFindings.Recounted

variable {f f' g g' : NodeFindings}

theorem refl (f : NodeFindings) : f.Recounted f :=
  ⟨rfl, rfl, .refl f.notes⟩

theorem append (h : f.Recounted f') (h' : g.Recounted g') : (f ++ g).Recounted (f' ++ g') where
  issues := by
    rw [Scene.issues_append, Scene.issues_append, List.filter_append, List.filter_append,
      h.issues, h'.issues]
  suggestions := congrArg₂ (· ++ ·) h.suggestions h'.suggestions
  notes := h.notes.append h'.notes

end NodeFindings.Recounted

/-! ## Nodes -/

namespace Scene

section Known

variable (profile : Profile) (n : Node) (t : NodeType) (more : List Issue) (r : ConfigReport)

/-- What notes say of the next steps, with the warnings that are put in. -/
theorem notes_nodeFindingsFrom :
    (nodeFindingsFrom profile n t (r.withWarnings profile.policy more)).notes =
      if profile.policy.includeGuidance then
        (NodeConfig.nextSteps { r with warnings := more ++ r.warnings } ++ example? r).map
          fun step => n.name ++ ": " ++ step
      else [] := by
  cases profile with
  | aiFriendly => exact List.append_nil _
  | _ => rfl

variable {more} {more' : List Issue}

/-- Whichever of these warnings are put in, the findings are the same up to them. -/
theorem recounted_nodeFindingsFrom (hmore : ∀ i ∈ more, i.isMalformed = true)
    (hmore' : ∀ i ∈ more', i.isMalformed = true) :
    (nodeFindingsFrom profile n t (r.withWarnings profile.policy more)).Recounted
      (nodeFindingsFrom profile n t (r.withWarnings profile.policy more')) where
  issues := by
    have hnone : ∀ more : List Issue, (∀ i ∈ more, i.isMalformed = true) →
        (more.map fun i => { i with nodeId := some n.id }).filter (fun i => !i.isMalformed) =
          [] := by
      intro more hmore
      refine List.filter_eq_nil_iff.2 ?_
      intro i hi
      rcases List.mem_map.1 hi with ⟨j, hj, rfl⟩
      have hmalformed : Issue.isMalformed { j with nodeId := some n.id } = true := hmore j hj
      simp [hmalformed]
    simp only [issues_nodeFindingsFrom, List.filter_append, hnone more hmore, hnone more' hmore']
  suggestions := by cases profile <;> rfl
  notes := by
    rw [notes_nodeFindingsFrom, notes_nodeFindingsFrom]
    split
    · rcases NodeConfig.exists_nextSteps with ⟨others, hothers, hsteps⟩
      simp only [hsteps, hothers, List.map_append, List.append_assoc]
      exact (RecountedNotes.refl _).append
        ((RecountedNotes.refl _).recount n.name (others r) _ _)
    · exact .nil

end Known

structure Padded (s s' : Scene) : Prop where
  document : s'.document = s.document
  catalog : s.catalog.Padded s'.catalog

namespace Padded

variable {s s' : Scene} (h : s.Padded s')

include h

/-- The scenes have the same essentials. -/
theorem essentials : s'.essentials = s.essentials := by
  rw [Scene.essentials, Scene.essentials, h.document, h.catalog.essentials]

/-- The types of a node are the same but for entries that cannot be read. -/
theorem typeOf (n : Node) : Option.Rel NodeType.Padded (s.typeOf n) (s'.typeOf n) :=
  h.catalog.find? n.type

/-- The same nodes execute, as the names of types stay the same. -/
theorem executing : s'.executing = s.executing := by
  have hnodes : s'.nodes = s.nodes := by
    unfold nodes
    rw [h.document]
  rw [Scene.executing, Scene.executing, hnodes]
  refine List.filter_congr ?_
  intro n _
  have htype := h.typeOf n
  unfold executes
  generalize s.typeOf n = found at htype ⊢
  generalize s'.typeOf n = found' at htype ⊢
  cases htype with
  | none => rfl
  | some hpadded =>
    rcases hpadded with ⟨vs, -, rfl⟩
    rfl

/-- The names that were declared before are declared still. -/
theorem exists_declaredLocators {n : Node} {new : List String}
    (hnew : s'.declaredLocators n = .ok new) :
    ∃ old, s.declaredLocators n = .ok old ∧ old ⊆ new := by
  have htype := h.typeOf n
  unfold declaredLocators at hnew ⊢
  generalize s.typeOf n = found at htype ⊢
  generalize s'.typeOf n = found' at htype hnew
  cases htype with
  | none => exact ⟨new, hnew, List.Subset.refl new⟩
  | some hpadded =>
    rcases hpadded with ⟨vs, hvs, rfl⟩
    exact hvs.exists_declaredLocatorsIn hnew

/-- The locators of a type are among those with more entries. -/
theorem declaredLocators_subset {n : Node} {old new : List String}
    (hold : s.declaredLocators n = .ok old) (hnew : s'.declaredLocators n = .ok new) :
    old ⊆ new := by
  rcases h.exists_declaredLocators hnew with ⟨old', hold', hsub⟩
  obtain rfl : old = old' := Except.ok.inj (hold.symm.trans hold')
  exact hsub

/-- The findings on nodes are recounted, or there are none in both scenes. -/
theorem agree_allNodeFindings (profile : Profile) :
    Agree NodeFindings.Recounted (s.allNodeFindings profile) (s'.allNodeFindings profile) := by
  have hskipped : ∀ n t, ∀ i ∈ (config n t).skipped profile.policy, i.isMalformed = true := by
    intro n t i hi
    rcases NodeConfig.of_mem_skipped _ hi with ⟨hseverity, hcategory, hcode⟩
    simp only [Issue.isMalformed, hseverity, hcategory, hcode]
    decide
  have hnodes : s'.nodes = s.nodes := by
    unfold nodes
    rw [h.document]
  rw [allNodeFindings, allNodeFindings, hnodes]
  refine agree_findingsOf (.refl {}) (fun f f' g g' hf hg => hf.append hg) ?_
  intro n _
  refine agree_nodeFindings h.essentials .refl ?_
  intro t t' _ _ r
  exact recounted_nodeFindingsFrom profile n t r (hskipped n t) (hskipped n t')

end Padded

end Scene

/-! ## Reports -/

/-- Reports that are the same up to warnings about properties that cannot be read, and to what notes
say of numbers of warnings. -/
structure Report.Recounted (r r' : Report) : Prop where
  valid : r'.valid = r.valid
  profile : r'.profile = r.profile
  errors : r'.errors = r.errors
  warnings :
    r'.warnings.filter (fun i => !i.isMalformed) = r.warnings.filter fun i => !i.isMalformed
  notes : RecountedNotes r.notes r'.notes
  suggestions : r'.suggestions = r.suggestions
  statistics : r'.statistics = r.statistics

theorem Report.Recounted.refl (r : Report) : r.Recounted r :=
  ⟨rfl, rfl, rfl, rfl, .refl r.notes, rfl, rfl⟩

namespace Validator

section ReportOf

variable {profile : Profile} {settings : Settings} {s s' : Scene} {nodes nodes' : NodeFindings}
  {texts : TextFindings}

/-- A report is recounted if the findings on nodes are. -/
theorem recounted_reportOf (h : s.Padded s') (hnodes : nodes.Recounted nodes') :
    (reportOf profile settings s nodes texts).Recounted
      (reportOf profile settings s' nodes' texts) := by
  have hissues : (s'.allIssues settings nodes' texts).filter (fun i => !i.isMalformed) =
      (s.allIssues settings nodes texts).filter fun i => !i.isMalformed := by
    simp only [Scene.allIssues, Scene.wiring_of_essentials h.essentials,
      Scene.structureIssues_of_essentials h.essentials h.executing,
      Scene.shapeIssues_of_essentials h.essentials h.executing, List.filter_append, hnodes.issues]
  -- What is reported as an error or as a note is not about a malformed entry.
  have hother : ∀ severity : Severity, severity ≠ .warning → ∀ i : Issue,
      (i.severity == severity) = true → i.isMalformed = false := by
    intro severity hne i hi
    have hseverity : i.severity ≠ .warning := by
      rw [eq_of_beq hi]
      exact hne
    simp [Issue.isMalformed, hseverity]
  have herrors : profile.policy.errors (s'.allIssues settings nodes' texts) =
      profile.policy.errors (s.allIssues settings nodes texts) :=
    Policy.filter_reported_of_isMalformed (hother .error (by decide)) hissues
  have hinfos := Policy.filter_reported_of_isMalformed (p := profile.policy)
    (hother .info (by decide)) hissues
  constructor
  · rw [valid_reportOf, valid_reportOf, herrors]
  · simp only [reportOf, fileIssues, Report.profile_addAll]
  · rw [errors_reportOf, errors_reportOf, herrors]
  · simp only [warnings_reportOf, Policy.warnings, List.filter_filter]
    refine Policy.filter_reported_of_isMalformed ?_ hissues
    intro i hi
    simpa using (Bool.and_eq_true_iff.1 hi).1
  · rw [notes_reportOf, notes_reportOf, hinfos]
    exact hnodes.notes.append (.refl _)
  · simp only [reportOf, fileIssues, Report.suggestions_addAll, hnodes.suggestions]
  · rw [statistics_reportOf, statistics_reportOf, Scene.wiring_of_essentials h.essentials,
      Scene.statistics_of_essentials h.essentials h.executing]

/-- How often the errors of a report ask for a locator. -/
theorem count_errors_reportOf (hnodes : s.allNodeFindings profile = .ok nodes) :
    (reportOf profile settings s nodes texts).errors.countP Issue.asksLocator =
      texts.issues.countP Issue.asksLocator := by
  have hcount : (s.allIssues settings nodes texts).countP Issue.asksLocator =
      texts.issues.countP Issue.asksLocator := by
    simp only [Scene.allIssues, List.countP_append]
    rw [Issue.count_asksLocator_eq_zero (Scene.code_structureIssues s) (by decide),
      Issue.count_asksLocator_eq_zero (Scene.code_findingsOf hnodes) (by decide),
      Issue.count_asksLocator_eq_zero (Scene.code_wiring s) (by decide),
      Issue.count_asksLocator_eq_zero (Scene.code_shapeIssues s settings s.wiring) (by decide)]
    simp only [Nat.zero_add]
  rw [errors_reportOf, Policy.count_asksLocator, hcount]

end ReportOf

section Padded

variable {v v' : Validator} {profile : Profile} {d : Document} {r r' : Report}
  (h : (v.scene d).Padded (v'.scene d)) (hsettings : v'.settings = v.settings)
  (hfilled : d.nodes ≠ [])

include h hsettings hfilled

/-- There is a report after entries have come in, and it is recounted, if the locators are kept. -/
theorem exists_recounted (hr : v.report profile d = .ok r)
    (hkeeps : ∀ n ∈ (v.scene d).executing,
      (v.scene d).KeepsLocators (v'.scene d) v.settings.maxExpressionDepth n) :
    ∃ r', v'.report profile d = .ok r' ∧ r.Recounted r' := by
  rcases (report_eq_ok_iff hfilled).1 hr with ⟨nodes, texts, hnodes, htexts, rfl⟩
  rcases (h.agree_allNodeFindings profile).exists_of_ok hnodes with ⟨nodes', hnodes', hsame⟩
  have htexts' := Scene.textFindings_of_keepsLocators h.document h.executing
    (fun n _ _ _ hold hnew => h.declaredLocators_subset hold hnew) htexts hkeeps
  rw [← Scene.wiring_of_essentials h.essentials, ← hsettings] at htexts'
  refine ⟨_, (report_eq_ok_iff hfilled).2 ⟨nodes', texts, hnodes', htexts', rfl⟩, ?_⟩
  rw [hsettings]
  exact recounted_reportOf h hsame

/-- With more locators there are more errors that ask for one, unless nothing changes. -/
theorem keepsLocators_of_recounted (hr : v.report profile d = .ok r)
    (hr' : v'.report profile d = .ok r') (hsame : r.Recounted r') :
    ∀ n ∈ (v.scene d).executing,
      (v.scene d).KeepsLocators (v'.scene d) v.settings.maxExpressionDepth n := by
  rcases (report_eq_ok_iff hfilled).1 hr with ⟨nodes, texts, hnodes, htexts, rfl⟩
  rcases (report_eq_ok_iff hfilled).1 hr' with ⟨nodes', texts', hnodes', htexts', rfl⟩
  have hcount : texts'.issues.countP Issue.asksLocator = texts.issues.countP Issue.asksLocator := by
    have herrors := congrArg (List.countP Issue.asksLocator) hsame.errors
    rw [count_errors_reportOf hnodes, count_errors_reportOf hnodes'] at herrors
    exact herrors
  rw [Scene.textFindings, h.executing, hsettings] at htexts'
  refine (Scene.count_textFindingsOf_le ?_ htexts htexts').2 (le_of_eq hcount)
  intro n _ _ _ hold hnew
  exact h.declaredLocators_subset hold hnew

/-- There was a report before entries have come in if there is one afterwards. -/
theorem exists_report_of_padded (hr' : v'.report profile d = .ok r') :
    ∃ r, v.report profile d = .ok r := by
  rcases (report_eq_ok_iff hfilled).1 hr' with ⟨nodes', texts', hnodes', htexts', -⟩
  have hfewer : ∀ n ∈ (v.scene d).executing, ∀ new, (v'.scene d).declaredLocators n = .ok new →
      ∃ old, (v.scene d).declaredLocators n = .ok old := by
    intro n _ new hnew
    rcases h.exists_declaredLocators hnew with ⟨old, hold, -⟩
    exact ⟨old, hold⟩
  rw [Scene.wiring_of_essentials h.essentials, hsettings] at htexts'
  rcases Scene.exists_textFindings_of_fewer h.executing hfewer htexts' with ⟨texts, htexts⟩
  have hagree := h.agree_allNodeFindings profile
  cases hnodes : (v.scene d).allNodeFindings profile with
  | error e => simp [hnodes, hnodes', Agree] at hagree
  | ok nodes => exact ⟨_, (report_eq_ok_iff hfilled).2 ⟨nodes, texts, hnodes, htexts, rfl⟩⟩

end Padded

/-- Where entries that cannot be read are put in, there is a report only if there is one without
them, and it says the same up to warnings about such entries exactly if these make no resource
locators of parameters with expressions in them. -/
theorem recounted_iff {c c' : Catalog} (h : c.Padded c') (settings : Settings) (profile : Profile)
    (d : Document) :
    (∀ r, report ⟨c, settings⟩ profile d = .ok r →
        ((∃ r', report ⟨c', settings⟩ profile d = .ok r' ∧ r.Recounted r') ↔
          ∀ n ∈ (scene ⟨c, settings⟩ d).executing,
            (scene ⟨c, settings⟩ d).KeepsLocators (scene ⟨c', settings⟩ d)
              settings.maxExpressionDepth n)) ∧
      ∀ r', report ⟨c', settings⟩ profile d = .ok r' →
        ∃ r, report ⟨c, settings⟩ profile d = .ok r := by
  have hscene : (scene ⟨c, settings⟩ d).Padded (scene ⟨c', settings⟩ d) := ⟨rfl, h⟩
  by_cases hfilled : d.nodes = []
  · -- Without nodes the catalog is not looked at.
    have hreport : ∀ v : Validator, v.report profile d =
        .ok (fileIssues profile [emptyWorkflow] { profile := profile.word }) := by
      intro v
      simp only [report, hfilled, List.isEmpty_nil, if_true]
    have hnone : (scene ⟨c, settings⟩ d).executing = [] := by
      have hnodes : (scene ⟨c, settings⟩ d).nodes = [] := hfilled
      rw [Scene.executing, hnodes]
      rfl
    refine ⟨fun r hr => ⟨?_, ?_⟩, fun _ _ => ⟨_, hreport _⟩⟩
    · intro _
      rw [hnone]
      simp
    · intro _
      exact ⟨r, by rw [← hr, hreport, hreport], .refl r⟩
  · refine ⟨fun r hr => ⟨?_, exists_recounted hscene rfl hfilled hr⟩, fun r' hr' =>
      exists_report_of_padded hscene rfl hfilled hr'⟩
    intro hexists
    rcases hexists with ⟨r', hr', hsame⟩
    exact keepsLocators_of_recounted hscene rfl hfilled hr hr' hsame

def chatType (others : List Value) : NodeType where
  name := "nodes-base.chat"
  properties := others ++ [.obj [("name", .str "channel"), ("type", .str "string")]]

/-- An entry for a resource locator that cannot be read, as it does not say if it is required. -/
def unreadLocator (name : String) : Value :=
  .obj
    [("name", .str name), ("type", .str "resourceLocator"), ("required", .str "maybe")]

/-- A node whose channel is an expression. -/
def chatDocument : Document where
  nodes :=
    [{ id := "1", name := "A", type := "n8n-nodes-base.chat"
       parameters := [("channel", .str "=\x7b\x7b $json.c \x7d\x7d")] }]

theorem padded_chatType {other : Value} (h : NodeConfig.isReadable other = false) :
    (Catalog.ofTypes "" [chatType []]).Padded (.ofTypes "" [chatType [other]]) := by
  refine Catalog.Padded.ofTypes (.cons ⟨_, ?_, rfl⟩ .nil) ""
  exact .insert h (.refl _)

/-- A locator that cannot be read makes no difference under the name of no parameter. -/
theorem chat_recounted :
    (Catalog.ofTypes "" [chatType []]).Padded (.ofTypes "" [chatType [unreadLocator "user"]]) ∧
      ∃ r, report ⟨.ofTypes "" [chatType []], {}⟩ .aiFriendly chatDocument = .ok r ∧
        ∃ r', report ⟨.ofTypes "" [chatType [unreadLocator "user"]], {}⟩ .aiFriendly
          chatDocument = .ok r' ∧ r.Recounted r' := by
  have hunread : NodeConfig.isReadable (unreadLocator "user") = false := by decide
  have hpadded := padded_chatType hunread
  have hkeys : ∀ n ∈ chatDocument.nodes,
      ∀ key ∈ Format.expressionKeys (.int 100) (.obj n.parameters), key ∉ ["user"] := by
    decide +kernel
  have hany : ((report ⟨.ofTypes "" [chatType []], {}⟩ .aiFriendly chatDocument).toOption.any
      fun r => r.errors.isEmpty) = true := by decide +kernel
  rcases exists_report hany with ⟨r, hr, -⟩
  refine ⟨hpadded, r, hr, ((recounted_iff hpadded {} .aiFriendly chatDocument).1 r hr).2 ?_⟩
  intro n hn old _
  have hnode : n ∈ chatDocument.nodes := hn
  refine ⟨["user"], ?_, fun key hkey hmem => absurd hmem (hkeys n hnode key hkey)⟩
  rw [List.mem_singleton.1 hnode]
  rfl

/-- Under the name of the channel it makes the expression there an error. -/
theorem chat_not_recounted :
    (Catalog.ofTypes "" [chatType []]).Padded
        (.ofTypes "" [chatType [unreadLocator "channel"]]) ∧
      ∃ r, report ⟨.ofTypes "" [chatType []], {}⟩ .runtime chatDocument = .ok r ∧
        ¬∃ r', report ⟨.ofTypes "" [chatType [unreadLocator "channel"]], {}⟩ .runtime
          chatDocument = .ok r' ∧ r.Recounted r' := by
  have hcodes : ((report ⟨.ofTypes "" [chatType []], {}⟩ .runtime chatDocument).toOption.any
        fun r => r.errors.isEmpty) = true ∧
      ((report ⟨.ofTypes "" [chatType [unreadLocator "channel"]], {}⟩ .runtime
        chatDocument).toOption.map fun r => r.errors.map Issue.code) =
          some ["needs-resource-locator"] := by
    decide +kernel
  rcases exists_report hcodes.1 with ⟨r, hr, hempty⟩
  refine ⟨padded_chatType (by decide), r, hr, ?_⟩
  intro h
  rcases h with ⟨r', hr', hsame⟩
  simp [hr', Except.toOption, hsame.errors, List.isEmpty_iff.1 hempty] at hcodes

end Validator
end Workflows
