import Workflows.Proofs.TypeName
import Workflows.Proofs.Validation.Essentials
import Workflows.Proofs.Validation.Filed
import Workflows.Proofs.Validation.Reported

/-!
# ShortNames — catalogs that give their types under full names

A catalog finds a type under its short name, whichever name the type was given under, and the checks
go by the part of the name that both forms have in common. There is one exception: a type is known
for a note to the reader by its short name only. Nodes of that type are executed when the catalog
gives it under its full name. Where no such node occurs, a catalog and the one with the short names
give the same reports, up to the words of messages.

Main definitions:

* `NodeType.normalized` — a type under its short name;
* `NodeType.IsUnseenNote` — a type of notes that is not known for one;
* `Report.Resembles` — the same validity, statistics and codes;
* `Validator.report_normalized_iff` — when the reports resemble each other.
-/

namespace Workflows

/-! ## Types -/

namespace NodeType

def normalized (t : NodeType) : NodeType :=
  { t with name := TypeName.normalize t.name }

/-- A type is meant for notes by its short name, but given under another one. -/
def IsUnseenNote (t : NodeType) : Prop :=
  TypeName.normalize t.name ∈ Scene.passiveTypes ∧ t.name ∉ Scene.passiveTypes

instance (t : NodeType) : Decidable t.IsUnseenNote :=
  inferInstanceAs (Decidable (_ ∧ _))

/-- A short name changes nothing that the checks read of a type. -/
theorem essentials_normalized (t : NodeType) : t.normalized.essentials = t.essentials := by
  simp only [essentials, normalized, shortName, TypeName.short_normalize]

/-- Other types are notes under both names or under none. -/
theorem name_normalized_mem_iff {t : NodeType} (h : ¬ t.IsUnseenNote) :
    t.normalized.name ∈ Scene.passiveTypes ↔ t.name ∈ Scene.passiveTypes := by
  have hshort : ∀ type ∈ Scene.passiveTypes, TypeName.normalize type = type := by decide
  constructor
  · intro hmem
    by_contra hname
    exact h ⟨hmem, hname⟩
  · intro hmem
    have hsame : t.normalized.name = t.name := hshort t.name hmem
    rw [hsame]
    exact hmem

end NodeType

namespace Catalog

def NormalizedFrom (c c' : Catalog) : Prop :=
  c.Related (fun t t' => t' = t.normalized) c'

variable {c c' : Catalog}

/-- What is found in the catalog with short names is the type under its short name. -/
theorem NormalizedFrom.find? (h : c.NormalizedFrom c') (type : String) :
    c'.find? type = (c.find? type).map NodeType.normalized := by
  have hfound := Related.find? h type
  generalize c.find? type = found at hfound ⊢
  generalize c'.find? type = found' at hfound ⊢
  cases hfound with
  | none => rfl
  | some heq => rw [heq, Option.map_some]

/-- Catalogs that differ in the form of names have the same essentials. -/
theorem NormalizedFrom.essentials (h : c.NormalizedFrom c') : c'.essentials = c.essentials := by
  refine Related.essentials h ?_
  intro t t' heq
  rw [heq, NodeType.essentials_normalized]

/-- Types are stored in the same places under either name. -/
theorem normalizedFrom_ofTypes (version version' : String) (types : List NodeType) :
    (ofTypes version types).NormalizedFrom (ofTypes version' (types.map NodeType.normalized)) := by
  refine Related.ofTypes ?_ ?_ version version'
  · exact List.forall₂_map_right_iff.2 (List.forall₂_same.2 fun _ _ => rfl)
  · intro t t' heq
    rw [heq]
    exact TypeName.normalize_normalize t.name

/-- Where the short names are distinct, every type is found under both of its names. -/
theorem find?_ofTypes {version type : String} {types : List NodeType} {t : NodeType}
    (hdistinct : (types.map fun t => TypeName.normalize t.name).Nodup) (ht : t ∈ types)
    (htype : TypeName.normalize type = TypeName.normalize t.name) :
    (ofTypes version types).find? type = some t := by
  have hlater : ∀ (later : List NodeType) (c : Catalog),
      (∀ t' ∈ later, TypeName.normalize t'.name ≠ TypeName.normalize type) →
        (later.foldl (fun c t => c.store t) c).find? type = c.find? type := by
    intro later
    induction later with
    | nil =>
      intro c _
      rfl
    | cons first rest ih =>
      intro c hother
      rcases List.forall_mem_cons.1 hother with ⟨hfirst, hrest⟩
      calc
        ((first :: rest).foldl (fun c t => c.store t) c).find? type
            = (c.store first).find? type := ih (c.store first) hrest
        _ = c.find? type := Entries.get?_put_of_ne first c.types (Ne.symm hfirst)
  rcases List.append_of_mem ht with ⟨front, back, rfl⟩
  have hback : ∀ t' ∈ back, TypeName.normalize t'.name ≠ TypeName.normalize type := by
    rw [List.map_append, List.map_cons] at hdistinct
    have hnew := (List.nodup_cons.1 (List.nodup_append.1 hdistinct).2.1).1
    intro t' ht' heq
    rw [← htype, ← heq] at hnew
    exact hnew (List.mem_map_of_mem ht')
  let before := front.foldl (fun c t => c.store t) ({ baseVersion := version } : Catalog)
  calc
    (ofTypes version (front ++ t :: back)).find? type
        = (back.foldl (fun c t => c.store t) (before.store t)).find? type := by
          rw [ofTypes, List.foldl_append, List.foldl_cons]
    _ = (before.store t).find? type := hlater back (before.store t) hback
    _ = some t := by
          rw [find?, htype]
          exact Entries.get?_put_self _ t _

end Catalog

/-! ## Findings up to their words -/

namespace Issue

def unworded (i : Issue) : Issue :=
  { i with message := "" }

end Issue

namespace Policy

variable {p : Policy} {xs ys : List Issue}

/-- A policy does not look at the wording of an issue. -/
theorem map_unworded_filterMap (xs : List Issue) :
    (xs.filterMap p.apply).map Issue.unworded =
      (xs.map Issue.unworded).filterMap p.apply := by
  rw [List.map_filterMap, List.filterMap_map]
  refine List.filterMap_congr ?_
  intro i _
  exact (apply_comm (f := Issue.unworded) (fun _ => rfl) (fun _ => rfl) (fun _ => rfl) i).symm

/-- A policy does not look at the words of messages. -/
theorem code_filterMap_apply (h : xs.map Issue.unworded = ys.map Issue.unworded)
    {test : Issue → Bool} (htest : ∀ i, test i.unworded = test i) :
    ((xs.filterMap p.apply).filter test).map Issue.code =
      ((ys.filterMap p.apply).filter test).map Issue.code := by
  have hcode : Issue.code ∘ Issue.unworded = Issue.code := rfl
  have htests : test ∘ Issue.unworded = test := funext htest
  -- The codes can be told without the words of the messages.
  have hfilter : ∀ zs : List Issue, ((zs.filterMap p.apply).filter test).map Issue.code =
      (((zs.map Issue.unworded).filterMap p.apply).filter test).map Issue.code := by
    intro zs
    symm
    calc
      (((zs.map Issue.unworded).filterMap p.apply).filter test).map Issue.code
          = (((zs.filterMap p.apply).map Issue.unworded).filter test).map Issue.code := by
            rw [map_unworded_filterMap]
      _ = (((zs.filterMap p.apply).filter test).map Issue.unworded).map Issue.code := by
            rw [List.filter_map, htests]
      _ = ((zs.filterMap p.apply).filter test).map Issue.code := by
            rw [List.map_map, hcode]
  rw [hfilter xs, hfilter ys, h]

end Policy

/-- Reports with the same validity, the same statistics and the same sequence of codes. -/
structure Report.Resembles (r r' : Report) : Prop where
  valid : r'.valid = r.valid
  statistics : r'.statistics = r.statistics
  errors : r'.errors.map Issue.code = r.errors.map Issue.code
  warnings : r'.warnings.map Issue.code = r.warnings.map Issue.code

/-- A report resembles itself. -/
theorem Report.Resembles.refl (r : Report) : r.Resembles r :=
  ⟨rfl, rfl, rfl, rfl⟩

/-! ## Scenes -/

namespace Scene

variable {s s' : Scene} (hdocument : s'.document = s.document)
  (hcatalog : s.catalog.NormalizedFrom s'.catalog)

include hdocument hcatalog

/-- Scenes with such catalogs have the same essentials. -/
theorem essentials_of_normalizedFrom : s'.essentials = s.essentials := by
  rw [essentials, essentials, hdocument, hcatalog.essentials]

/-- The names of the types matter to nodes of notes alone. -/
theorem executing_of_normalizedFrom
    (hnotes : ∀ n ∈ s.nodes, n.disabled = false → ∀ t, s.typeOf n = some t → ¬ t.IsUnseenNote) :
    s'.executing = s.executing := by
  have hnodes : s'.nodes = s.nodes := by
    simp only [nodes, hdocument]
  have hexecutes : ∀ n ∈ s.nodes, s'.executes n = s.executes n := by
    intro n hn
    have htype : s'.typeOf n = (s.typeOf n).map NodeType.normalized := hcatalog.find? n.type
    simp only [executes, htype]
    cases hdisabled : n.disabled with
    | true => rfl
    | false =>
      cases ht : s.typeOf n with
      | none => rfl
      | some t =>
        simpa using NodeType.name_normalized_mem_iff (hnotes n hn hdisabled t ht)
  simp only [executing, hnodes]
  exact List.filter_congr hexecutes

/-- The findings on expressions are the same if the same nodes execute. -/
theorem textFindings_of_normalizedFrom (hexecuting : s'.executing = s.executing)
    (settings : Settings) (w : Wiring) :
    s'.textFindings settings w = s.textFindings settings w := by
  refine textFindings_of_declaredLocators hdocument hexecuting ?_ settings w
  intro n _
  have htype : s'.typeOf n = (s.typeOf n).map NodeType.normalized := hcatalog.find? n.type
  rw [declaredLocators, declaredLocators, htype]
  cases s.typeOf n <;> rfl

/-- The full name stands in the messages about malformed properties alone. -/
theorem agree_allNodeFindings_of_normalizedFrom (profile : Profile) :
    Agree (fun f f' => f.issues.map Issue.unworded = f'.issues.map Issue.unworded)
      (s.allNodeFindings profile) (s'.allNodeFindings profile) := by
  have hskipped : ∀ n t, ((config n t).skipped profile.policy).map Issue.unworded =
      ((config n t.normalized).skipped profile.policy).map Issue.unworded := by
    intro n t
    unfold NodeConfig.skipped
    split
    · rw [NodeConfig.malformedIssues_eq, NodeConfig.malformedIssues_eq]
      simp only [List.map_map]
      rfl
    · rfl
  have hid : ∀ (n : Node) (issues : List Issue),
      (issues.map fun i => { i with nodeId := some n.id }).map Issue.unworded =
        (issues.map Issue.unworded).map fun i => { i with nodeId := some n.id } := by
    intro n issues
    simp only [List.map_map]
    rfl
  have hnodes : s'.nodes = s.nodes := by
    simp only [nodes, hdocument]
  simp only [allNodeFindings, hnodes]
  refine agree_findingsOf ?_ ?_ ?_
  · rfl
  · intro f f' g g' h h'
    simp only [issues_append, List.map_append, h, h']
  · intro n _
    refine agree_nodeFindings (essentials_of_normalizedFrom hdocument hcatalog)
      (fun _ => rfl) ?_
    intro t t' ht ht' r
    have htype : s'.typeOf n = (s.typeOf n).map NodeType.normalized := hcatalog.find? n.type
    obtain rfl : t.normalized = t' := by simpa [ht, ht'] using htype.symm
    simp only [issues_nodeFindingsFrom, List.map_append, hid, hskipped n t]

end Scene

/-! ## Reports -/

namespace Validator

section ReportOf

variable {profile : Profile} {settings : Settings} {s s' : Scene} {nodes nodes' : NodeFindings}
  {texts : TextFindings}

/-- Reports resemble each other if the findings on nodes do but for the wording. -/
theorem resembles_reportOf (h : s'.essentials = s.essentials)
    (hexecuting : s'.executing = s.executing)
    (hnodes : nodes.issues.map Issue.unworded = nodes'.issues.map Issue.unworded) :
    (reportOf profile settings s nodes texts).Resembles
      (reportOf profile settings s' nodes' texts) := by
  have hissues : (s.allIssues settings nodes texts).map Issue.unworded =
      (s'.allIssues settings nodes' texts).map Issue.unworded := by
    simp only [Scene.allIssues, Scene.wiring_of_essentials h,
      Scene.structureIssues_of_essentials h hexecuting,
      Scene.shapeIssues_of_essentials h hexecuting, List.map_append, hnodes]
  have herrors : (reportOf profile settings s' nodes' texts).errors.map Issue.code =
      (reportOf profile settings s nodes texts).errors.map Issue.code := by
    rw [errors_reportOf, errors_reportOf]
    exact (Policy.code_filterMap_apply hissues fun _ => rfl).symm
  have hwarnings : (reportOf profile settings s' nodes' texts).warnings.map Issue.code =
      (reportOf profile settings s nodes texts).warnings.map Issue.code := by
    rw [warnings_reportOf, warnings_reportOf]
    exact (Policy.code_filterMap_apply hissues fun _ => rfl).symm
  have hvalid : (reportOf profile settings s' nodes' texts).valid =
      (reportOf profile settings s nodes texts).valid := by
    -- A report is valid if there are no errors, so the number of their codes tells.
    have hempty := congrArg List.isEmpty herrors
    simp only [List.isEmpty_map, errors_reportOf] at hempty
    simp only [valid_reportOf, hempty]
  have hstatistics : (reportOf profile settings s' nodes' texts).statistics =
      (reportOf profile settings s nodes texts).statistics := by
    simp only [statistics_reportOf, Scene.wiring_of_essentials h,
      Scene.statistics_of_essentials h hexecuting]
  exact ⟨hvalid, hstatistics, herrors, hwarnings⟩

end ReportOf

variable {v v' : Validator} {profile : Profile} {d : Document}

/-- Reports resemble each other where no enabled node is a note that is not known for one. -/
theorem resembles_of_normalizedFrom (hcatalog : v.catalog.NormalizedFrom v'.catalog)
    (hsettings : v'.settings = v.settings)
    (hnotes : ∀ n ∈ d.nodes, n.disabled = false →
      ∀ t, v.catalog.find? n.type = some t → ¬ t.IsUnseenNote) :
    Agree Report.Resembles (v.report profile d) (v'.report profile d) := by
  have hdocument : (v'.scene d).document = (v.scene d).document := rfl
  have hcatalog' : (v.scene d).catalog.NormalizedFrom (v'.scene d).catalog := hcatalog
  -- The names of the types are seen in the findings on nodes alone, where they only change
  -- wording.
  have hessentials := Scene.essentials_of_normalizedFrom hdocument hcatalog'
  have hexecuting := Scene.executing_of_normalizedFrom hdocument hcatalog' hnotes
  have htexts := Scene.textFindings_of_normalizedFrom hdocument hcatalog' hexecuting
  have hnodes := Scene.agree_allNodeFindings_of_normalizedFrom hdocument hcatalog' profile
  unfold report
  split
  · exact Report.Resembles.refl _
  · dsimp only
    rw [Scene.wiring_of_essentials hessentials, htexts, hsettings]
    cases hf : (v.scene d).allNodeFindings profile with
    | error e =>
      cases hf' : (v'.scene d).allNodeFindings profile with
      | error e' => simpa [hf, hf', Agree] using hnodes
      | ok nodes' => simp [hf, hf', Agree] at hnodes
    | ok nodes =>
      rcases hnodes.exists_of_ok hf with ⟨nodes', hf', hsame⟩
      rw [hf']
      dsimp only
      cases (v.scene d).textFindings v.settings (v.scene d).wiring with
      | error e => rfl
      | ok texts => exact resembles_reportOf hessentials hexecuting hsame

/-- A note with an expression in it, which nobody evaluates. -/
def note : Node where
  id := "1"
  name := "A"
  type := "nodes-base.stickyNote"
  parameters := [("content", .str "=\x7b\x7b $json.a \x7d\x7d")]

def noteDocument : Document where
  nodes := [note]

section Note

variable {t : NodeType} (hfound : v.catalog.find? note.type = some t)

include hfound

/-- Whether its expression is looked at depends on the name of its type. -/
theorem executing_noteDocument :
    (v.scene noteDocument).executing = if t.name ∈ Scene.passiveTypes then [] else [note] := by
  have hexecutes : (v.scene noteDocument).executes note =
      !Scene.passiveTypes.contains t.name := by
    have htype : (v.scene noteDocument).typeOf note = some t := hfound
    simp only [Scene.executes, htype]
    rfl
  have hnodes : (v.scene noteDocument).nodes = [note] := rfl
  simp [Scene.executing, hnodes, List.filter_singleton, hexecutes]

/-- There is a report in any case where the note is known for one. -/
theorem exists_report_noteDocument (h : t.name ∈ Scene.passiveTypes) (profile : Profile) :
    ∃ r, v.report profile noteDocument = .ok r ∧ r.statistics.expressionsValidated = 0 := by
  have hnone : (v.scene noteDocument).executing = [] := by
    rw [executing_noteDocument hfound, if_pos h]
  have htexts : (v.scene noteDocument).textFindings v.settings (v.scene noteDocument).wiring =
      .ok {} := by
    rw [Scene.textFindings, hnone]
    rfl
  have hnodes : (v.scene noteDocument).allNodeFindings profile =
      .ok ({ issues := [Scene.shortTypeIssue note] } ++ {}) := rfl
  refine ⟨_, (report_eq_ok_iff (by decide)).2 ⟨_, _, hnodes, htexts, rfl⟩, ?_⟩
  rw [statistics_reportOf]
  rfl

theorem expressionsValidated_noteDocument (h : t.name ∉ Scene.passiveTypes) {r : Report}
    (hsettings : v.settings.maxExpressionDepth = .int 100)
    (hr : v.report profile noteDocument = .ok r) : r.statistics.expressionsValidated = 1 := by
  have hone : (v.scene noteDocument).executing = [note] := by
    rw [executing_noteDocument hfound, if_neg h]
  rcases (report_eq_ok_iff (by decide)).1 hr with ⟨nodes, texts, -, htexts, rfl⟩
  rw [Scene.textFindings, hone] at htexts
  rcases Scene.of_textFindingsOf_cons htexts with ⟨found, more, hfound, hmore, rfl⟩
  rcases Scene.nodeTextFindings_eq_ok.1 hfound with ⟨issues, -, rfl⟩
  obtain rfl : {} = more := Except.ok.inj hmore
  have hcount : ((v.scene noteDocument).expressionFindings v.settings.maxExpressionDepth
      (v.scene noteDocument).wiring note).count = 1 := by
    have hcontext : (v.scene noteDocument).expressionContext (v.scene noteDocument).wiring note =
        { availableNodes := some ["A"], currentNode := some "A", hasInput := false } := rfl
    rw [Scene.expressionFindings, hcontext, hsettings]
    decide +kernel
  rw [statistics_reportOf]
  exact congrArg (fun k : Nat => (k : Int)) hcount

end Note

section OfTypes

variable {version version' : String} {types : List NodeType}

/-- The reports on every document resemble each other only if no type of notes is given under its
full name. -/
theorem not_isUnseenNote_of_resembles
    (hdistinct : (types.map fun t => TypeName.normalize t.name).Nodup)
    (h : Agree Report.Resembles
      (report ⟨.ofTypes version types, {}⟩ .runtime noteDocument)
      (report ⟨.ofTypes version' (types.map NodeType.normalized), {}⟩ .runtime noteDocument)) :
    ∀ t ∈ types, ¬ t.IsUnseenNote := by
  intro t ht hboth
  rcases hboth with ⟨hshort, hname⟩
  have htype : TypeName.normalize note.type = TypeName.normalize t.name := by
    have hnote : ∀ type ∈ Scene.passiveTypes, TypeName.normalize note.type = type := by decide
    exact hnote _ hshort
  have hfound : (Catalog.ofTypes version types).find? note.type = some t :=
    Catalog.find?_ofTypes hdistinct ht htype
  have hfound' := (Catalog.normalizedFrom_ofTypes version version' types).find? note.type
  rw [hfound, Option.map_some] at hfound'
  have hreport' := exists_report_noteDocument
    (v := ⟨.ofTypes version' (types.map NodeType.normalized), {}⟩) hfound' hshort .runtime
  rcases hreport' with ⟨r', hr', hzero⟩
  -- On one side there is a report in which no expression is counted.
  rw [hr'] at h
  cases hr : report ⟨.ofTypes version types, {}⟩ .runtime noteDocument with
  | error e => simp [hr, Agree] at h
  | ok r =>
    rw [hr] at h
    have hone : r.statistics.expressionsValidated = 1 :=
      expressionsValidated_noteDocument hfound hname rfl hr
    rw [← h.statistics, hzero] at hone
    exact absurd hone (by decide)

/-- A catalog and the one with its types under short names give reports that resemble each other on
every document without notes that are not known for such; on all documents exactly if the catalog
has no type of such notes. -/
theorem report_normalized_iff
    (hdistinct : (types.map fun t => TypeName.normalize t.name).Nodup) :
    (∀ settings profile d,
        (∀ n ∈ d.nodes, n.disabled = false →
          ∀ t, (Catalog.ofTypes version types).find? n.type = some t → ¬ t.IsUnseenNote) →
        Agree Report.Resembles (report ⟨.ofTypes version types, settings⟩ profile d)
          (report ⟨.ofTypes version' (types.map NodeType.normalized), settings⟩ profile d)) ∧
      ((∀ settings profile d,
          Agree Report.Resembles (report ⟨.ofTypes version types, settings⟩ profile d)
            (report ⟨.ofTypes version' (types.map NodeType.normalized), settings⟩ profile d)) ↔
        ∀ t ∈ types, ¬ t.IsUnseenNote) := by
  have hresembles : ∀ settings profile d,
      (∀ n ∈ d.nodes, n.disabled = false →
        ∀ t, (Catalog.ofTypes version types).find? n.type = some t → ¬ t.IsUnseenNote) →
      Agree Report.Resembles (report ⟨.ofTypes version types, settings⟩ profile d)
        (report ⟨.ofTypes version' (types.map NodeType.normalized), settings⟩ profile d) :=
    fun _ _ _ hnotes =>
      resembles_of_normalizedFrom (Catalog.normalizedFrom_ofTypes version version' types) rfl hnotes
  refine ⟨hresembles, ?_, ?_⟩
  · intro h
    exact not_isUnseenNote_of_resembles hdistinct (h {} .runtime noteDocument)
  · intro h settings profile d
    refine hresembles settings profile d ?_
    intro n _ _ t ht
    exact h t (Catalog.mem_of_find?_ofTypes ht)

end OfTypes

def fullTypes : List NodeType :=
  [{ name := "n8n-nodes-base.set" }, { name := "n8n-nodes-base.stickyNote" }]

def linked : Document where
  nodes :=
    [{ id := "1", name := "A", type := "n8n-nodes-base.set" },
      { id := "2", name := "B", type := "n8n-nodes-base.set" }]
  connections := [("A", [("main", [some [⟨"B", "main", 0⟩]])])]

/-- Of nodes that are no notes the reports say the same. -/
theorem linked_resembles :
    (fullTypes.map fun t => TypeName.normalize t.name).Nodup ∧
      Agree Report.Resembles (report ⟨.ofTypes "" fullTypes, {}⟩ .runtime linked)
        (report ⟨.ofTypes "" (fullTypes.map NodeType.normalized), {}⟩ .runtime linked) := by
  refine ⟨by decide, (report_normalized_iff (by decide)).1 {} .runtime linked ?_⟩
  intro n hn _ t ht
  have hset : ∀ n ∈ linked.nodes, n.type = "n8n-nodes-base.set" := by decide
  have hfound : (Catalog.ofTypes "" fullTypes).find? "n8n-nodes-base.set" =
      some { name := "n8n-nodes-base.set" } :=
    Catalog.find?_ofTypes (by decide) List.mem_cons_self rfl
  rw [hset n hn, hfound] at ht
  rw [← Option.some.inj ht]
  decide

def annotated : Document :=
  { linked with
    nodes := linked.nodes ++ [{ id := "3", name := "N", type := "n8n-nodes-base.stickyNote" }] }

/-- Under the full name of its type the note is warned of as one that nothing is linked to. -/
theorem annotated_not_resembles :
    (fullTypes.map fun t => TypeName.normalize t.name).Nodup ∧
      ¬ Agree Report.Resembles (report ⟨.ofTypes "" fullTypes, {}⟩ .runtime annotated)
        (report ⟨.ofTypes "" (fullTypes.map NodeType.normalized), {}⟩ .runtime annotated) := by
  have hcodes : ((report ⟨.ofTypes "" fullTypes, {}⟩ .runtime annotated).toOption.map
        fun r => r.warnings.map Issue.code) = some ["no_trigger", "orphaned_node"] ∧
      ((report ⟨.ofTypes "" (fullTypes.map NodeType.normalized), {}⟩ .runtime
        annotated).toOption.map fun r => r.warnings.map Issue.code) = some ["no_trigger"] := by
    decide +kernel
  refine ⟨by decide, ?_⟩
  intro h
  cases hr : report ⟨.ofTypes "" fullTypes, {}⟩ .runtime annotated with
  | error e => simp [hr, Except.toOption] at hcodes
  | ok r =>
    rcases h.exists_of_ok hr with ⟨r', hr', hsame⟩
    have hwarnings := hsame.warnings
    simp only [hr, hr', Except.toOption, Option.map_some, Option.some.injEq] at hcodes
    rw [hcodes.1, hcodes.2] at hwarnings
    exact absurd hwarnings (by decide)

end Validator
end Workflows
