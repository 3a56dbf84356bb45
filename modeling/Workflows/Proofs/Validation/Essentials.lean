import Workflows.Proofs.Entries
import Workflows.Proofs.Validation.NodeByNode
import Workflows.Proofs.Validation.Skipped

/-!
# Essentials — what the checks read of node types

Of the type of a node the checks read neither its full name nor the properties that cannot be read,
with three exceptions. A type is a note to the reader if it has a certain name; properties that
cannot be read are warned of; and they too can make parameters resource locators. Two catalogs that
are the same otherwise have the same findings, as far as these three are the same.

Main definitions:

* `NodeType.essentials`, `Catalog.essentials`, `Scene.essentials` — what the checks read otherwise;
* `Catalog.Related` — catalogs with related types under the same names;
* `Scene.wiring_of_essentials`, `Scene.shapeIssues_of_essentials` — equal findings;
* `Agree`, `Scene.agree_nodeFindings` — related findings on nodes, or the same failure.
-/

namespace Workflows

/-! ## Outcomes that agree -/

/-- Outcomes agree: the same failure, or related results. -/
def Agree {ε α β : Type} (rel : α → β → Prop) : Except ε α → Except ε β → Prop
  | .ok a, .ok b => rel a b
  | .error e, .error e' => e = e'
  | _, _ => False

namespace Agree

variable {ε α β γ δ : Type} {rel : α → β → Prop} {rel' : γ → δ → Prop}

theorem of_eq {rel : α → α → Prop} (hrefl : ∀ a, rel a a) {x y : Except ε α} (h : x = y) :
    Agree rel x y := by
  subst h
  cases x with
  | ok a => exact hrefl a
  | error e => rfl

/-- What agrees still agrees after a change that keeps what is related. -/
theorem map {x : Except ε α} {y : Except ε β} {f : α → γ} {g : β → δ} (h : Agree rel x y)
    (himp : ∀ a b, rel a b → rel' (f a) (g b)) : Agree rel' (x.map f) (y.map g) := by
  cases x <;> cases y
  · exact h
  · exact h
  · exact h
  · exact himp _ _ h

/-- What agrees with a result is a result. -/
theorem exists_of_ok {x : Except ε α} {y : Except ε β} {a : α} (h : Agree rel x y)
    (hx : x = .ok a) : ∃ b, y = .ok b ∧ rel a b := by
  subst hx
  cases y with
  | ok b => exact ⟨b, rfl, h⟩
  | error e => exact h.elim

end Agree

/-! ## Types and catalogs -/

/-- What the checks read of a type: of its name the part within its package, and of its properties
those that can be read. -/
def NodeType.essentials (t : NodeType) : NodeType :=
  { t with
    name := t.shortName
    properties := t.properties.filter NodeConfig.isReadable }

/-- The types by their names, as far as the checks read them. -/
def Catalog.essentials (c : Catalog) : Catalog where
  baseVersion := ""
  types := c.types.map fun e => (e.1, e.2.essentials)

namespace Catalog

/-- What is found among the essentials are the essentials of what is found. -/
theorem find?_essentials (type : String) (c : Catalog) :
    c.essentials.find? type = (c.find? type).map NodeType.essentials :=
  Entries.get?_map NodeType.essentials _ c.types

/-- Suggestions go by the names alone. -/
theorem suggest_essentials (limit : Nat) (type : String) (c : Catalog) :
    c.essentials.suggest limit type = c.suggest limit type := by
  have hnames : c.essentials.names = c.names := by
    rw [names, names]
    exact congrArg (NameSet.insertAll · []) (Entries.keys_map NodeType.essentials c.types)
  simp only [suggest, bySearchKey, hnames]

/-- The same names in the same order, with related types. -/
def Related (rel : NodeType → NodeType → Prop) (c c' : Catalog) : Prop :=
  c.types.Related rel c'.types

namespace Related

variable {rel : NodeType → NodeType → Prop} {c c' : Catalog}

/-- What is found in related catalogs is related. -/
theorem find? (h : c.Related rel c') (type : String) :
    Option.Rel rel (c.find? type) (c'.find? type) :=
  h.get? (TypeName.normalize type)

theorem essentials (h : c.Related rel c') (hrel : ∀ t t', rel t t' → t'.essentials = t.essentials) :
    c'.essentials = c.essentials := by
  rw [Catalog.essentials, Catalog.essentials, h.map_eq hrel]

/-- Related types are related in the catalogs that are made of them, if they are stored under the
same names. -/
theorem ofTypes {types types' : List NodeType} (h : List.Forall₂ rel types types')
    (hname : ∀ t t', rel t t' → TypeName.normalize t'.name = TypeName.normalize t.name)
    (version version' : String) :
    (Catalog.ofTypes version types).Related rel (.ofTypes version' types') := by
  have hstore : ∀ c c' : Catalog, c.Related rel c' →
      (types.foldl (fun c t => c.store t) c).Related rel
        (types'.foldl (fun c t => c.store t) c') := by
    induction h with
    | nil => exact fun c c' hc => hc
    | @cons t t' _ _ ht _ ih =>
      intro c c' hc
      have hput : (c.types.put (TypeName.normalize t.name) t).Related rel
          (c'.types.put (TypeName.normalize t'.name) t') := by
        rw [hname t t' ht]
        exact hc.put _ ht
      exact ih _ _ hput
  exact hstore _ _ .nil

end Related

end Catalog

namespace Scene

def essentials (s : Scene) : Scene :=
  ⟨s.document, s.catalog.essentials⟩

variable (s : Scene) (n : Node)

theorem typeOf_essentials : s.essentials.typeOf n = (s.typeOf n).map NodeType.essentials :=
  s.catalog.find?_essentials n.type

/-- Whether a node starts the workflow is essential to its type. -/
theorem isTrigger_essentials : s.essentials.isTrigger n = s.isTrigger n := by
  rw [isTrigger, isTrigger, typeOf_essentials]
  cases s.typeOf n <;> rfl

theorem isLoopCapable_essentials : s.essentials.isLoopCapable n = s.isLoopCapable n := by
  rw [isLoopCapable, isLoopCapable, typeOf_essentials]
  cases s.typeOf n <;> rfl

/-! ## Links -/

/-- The number of outputs is essential to a type. -/
theorem declaredOutputs?_essentials : s.essentials.declaredOutputs? n = s.declaredOutputs? n := by
  rw [declaredOutputs?, declaredOutputs?, typeOf_essentials]
  cases s.typeOf n <;> rfl

theorem hasOutput_essentials : s.essentials.hasOutput n = s.hasOutput n := by
  funext output slot
  rw [hasOutput, hasOutput, declaredOutputs?_essentials]

theorem outputIssue_essentials : s.essentials.outputIssue n = s.outputIssue n := by
  funext output slot
  rw [outputIssue, outputIssue, declaredOutputs?_essentials, typeOf_essentials]
  cases s.typeOf n <;> rfl

theorem targetIssues_essentials : s.essentials.targetIssues n = s.targetIssues n := by
  funext t
  rw [targetIssues, targetIssues, isLoopCapable_essentials]
  rfl

/-- The wiring of a slot reads only what is essential. -/
theorem slotWiring_essentials : s.essentials.slotWiring n = s.slotWiring n := by
  have hvalid : s.essentials.isValidLink n = s.isValidLink n := by
    funext l
    rw [isValidLink, isValidLink, hasOutput_essentials]
    rfl
  funext output slot targets
  unfold slotWiring
  rw [hvalid, hasOutput_essentials, outputIssue_essentials, targetIssues_essentials]

theorem errorOutputIssues_essentials :
    s.essentials.errorOutputIssues n = s.errorOutputIssues n := by
  funext os
  rw [errorOutputIssues, errorOutputIssues, typeOf_essentials]
  cases s.typeOf n <;> rfl

/-- The wiring of a document reads only what is essential. -/
theorem wiring_essentials : s.essentials.wiring = s.wiring := by
  have hsource : s.essentials.sourceWiring = s.sourceWiring := by
    funext n os
    rw [sourceWiring, sourceWiring, slotWiring_essentials, errorOutputIssues_essentials]
  rw [wiring, wiring, hsource]
  rfl

/-! ## The graph -/

/-- The check of cycles reads only what is essential. -/
theorem cycleIssues_essentials (g : Graph) : s.essentials.cycleIssues g = s.cycleIssues g := by
  have hloop : s.essentials.lacksLoopNode = s.lacksLoopNode := by
    funext cycle
    have hcapable : s.essentials.isLoopCapable = s.isLoopCapable :=
      funext (isLoopCapable_essentials s)
    rw [lacksLoopNode, lacksLoopNode, hcapable]
    rfl
  simp only [cycleIssues, harmfulCycleIssues, hloop]

/-- The check of loop nodes reads only what is essential. -/
theorem loopIssues_essentials (settings : Settings) (g : Graph) :
    s.essentials.loopIssues settings g = s.loopIssues settings g := by
  rw [loopIssues, loopIssues]
  refine List.flatMap_congr ?_
  intro n _
  rw [typeOf_essentials]
  cases s.typeOf n <;> rfl

/-! ## Scenes with the same essentials -/

section Same

variable {s} {s' : Scene} (h : s'.essentials = s.essentials)

include h

theorem document_of_essentials : s'.document = s.document := by
  have hdocument : s'.essentials.document = s.essentials.document := congrArg Scene.document h
  exact hdocument

theorem wiring_of_essentials : s'.wiring = s.wiring := by
  rw [← wiring_essentials s', h, wiring_essentials]

theorem mainGraph_of_essentials (w : Wiring) : s'.mainGraph w = s.mainGraph w := by
  simp only [mainGraph, names, document_of_essentials h]

variable (hexecuting : s'.executing = s.executing)

include hexecuting

/-- The same nodes start the workflow if the same nodes execute. -/
theorem triggers_of_essentials : s'.triggers = s.triggers := by
  have htrigger : s'.isTrigger = s.isTrigger := by
    funext n
    rw [← isTrigger_essentials s', h, isTrigger_essentials]
  rw [triggers, triggers, hexecuting, htrigger]

/-- The findings on the structure are the same if the same nodes execute. -/
theorem structureIssues_of_essentials : s'.structureIssues = s.structureIssues := by
  simp only [structureIssues, nodes, document_of_essentials h, hexecuting,
    triggers_of_essentials h hexecuting]

/-- The findings on the graph are the same if the same nodes execute. -/
theorem shapeIssues_of_essentials (settings : Settings) (w : Wiring) :
    s'.shapeIssues settings w = s.shapeIssues settings w := by
  have hcycles : s'.cycleIssues = s.cycleIssues := by
    funext g
    rw [← cycleIssues_essentials s', h, cycleIssues_essentials]
  have hloops : s'.loopIssues = s.loopIssues := by
    funext settings g
    rw [← loopIssues_essentials s', h, loopIssues_essentials]
  have horphans : s'.orphanIssues = s.orphanIssues := by
    funext w
    rw [orphanIssues, orphanIssues, hexecuting]
  unfold shapeIssues
  rw [mainGraph_of_essentials h, hcycles, hloops, horphans]

/-- The statistics are the same if the same nodes execute. -/
theorem statistics_of_essentials (w : Wiring) (texts : TextFindings) :
    Validator.statistics s' w texts = Validator.statistics s w texts := by
  simp only [Validator.statistics, nodes, document_of_essentials h,
    triggers_of_essentials h hexecuting]

end Same

/-! ## Nodes -/

section Nodes

variable {s} {n} {t t' : NodeType} {profile : Profile}

/-- What is found of a node of a known type, apart from properties that cannot be read. -/
theorem nodeFindingsFrom_of_essentials (h : t'.essentials = t.essentials) (r : ConfigReport) :
    nodeFindingsFrom profile n t' r = nodeFindingsFrom profile n t r := by
  have hread : versionIssues n t'.essentials = versionIssues n t.essentials :=
    congrArg (versionIssues n) h
  have hversions : versionIssues n t' = versionIssues n t := hread
  have hshort : t'.shortName = t.shortName := congrArg NodeType.name h
  have hlacks : lacksErrorHandling n t' = lacksErrorHandling n t := by
    rw [lacksErrorHandling, lacksErrorHandling, hshort]
  rw [nodeFindingsFrom, nodeFindingsFrom, hversions, hlacks]

/-- Types with the same essentials check the readable part of the parameters alike. -/
theorem check_of_essentials (h : t'.essentials = t.essentials) :
    (config n t').readable.check profile = (config n t).readable.check profile := by
  have hshort : TypeName.short t'.name = TypeName.short t.name := congrArg NodeType.name h
  have hproperties : t'.properties.filter NodeConfig.isReadable =
      t.properties.filter NodeConfig.isReadable := congrArg NodeType.properties h
  have hconfig : (config n t').readable = { (config n t).readable with type := t'.name } := by
    simp only [NodeConfig.readable, config, hproperties]
  rw [hconfig]
  exact NodeConfig.check_of_short _ profile (NodeConfig.malformedIssues_readable _) hshort

/-- Findings on a node agree if they do so whatever the outcome for its parameters is, once the
warnings about properties that cannot be read are put in. -/
theorem agree_nodeFindings {s' : Scene} (h : s'.essentials = s.essentials)
    {rel : NodeFindings → NodeFindings → Prop} (hrefl : ∀ f, rel f f)
    (hknown : ∀ t t', s.typeOf n = some t → s'.typeOf n = some t' → ∀ r : ConfigReport,
      rel (nodeFindingsFrom profile n t
          (r.withWarnings profile.policy ((config n t).skipped profile.policy)))
        (nodeFindingsFrom profile n t
          (r.withWarnings profile.policy ((config n t').skipped profile.policy)))) :
    Agree rel (s.nodeFindings profile n) (s'.nodeFindings profile n) := by
  have htypes : (s'.typeOf n).map NodeType.essentials = (s.typeOf n).map NodeType.essentials := by
    rw [← typeOf_essentials s', h, typeOf_essentials]
  have hunknown : s'.unknownTypeIssue n = s.unknownTypeIssue n := by
    have hsuggest : s'.catalog.suggest 3 n.type = s.catalog.suggest 3 n.type := by
      have hcatalog : s'.catalog.essentials = s.catalog.essentials := congrArg Scene.catalog h
      rw [← Catalog.suggest_essentials, hcatalog, Catalog.suggest_essentials]
    simp only [unknownTypeIssue, hsuggest]
  -- Whether a type is known depends on the essentials, and the findings do up to what is skipped.
  unfold nodeFindings
  split
  · exact hrefl _
  · split
    · exact hrefl _
    · cases htype : s.typeOf n with
      | none =>
        have hnone : s'.typeOf n = none := by simpa [htype] using htypes
        rw [hnone, hunknown]
        exact hrefl _
      | some t =>
        cases htype' : s'.typeOf n with
        | none => simp [htype, htype'] at htypes
        | some t' =>
          have hsame : t'.essentials = t.essentials := by simpa [htype, htype'] using htypes
          dsimp only
          rw [knownNodeFindings_eq, knownNodeFindings_eq, check_of_essentials hsame]
          refine (Agree.of_eq (fun _ => rfl) rfl).map ?_
          rintro r r' rfl
          rw [nodeFindingsFrom_of_essentials hsame]
          exact hknown t t' htype htype' r

/-- Findings on nodes agree if those on every single node do. -/
theorem agree_findingsOf {s' : Scene} {rel : NodeFindings → NodeFindings → Prop}
    (hnone : rel {} {}) (happend : ∀ f f' g g', rel f g → rel f' g' → rel (f ++ f') (g ++ g'))
    {ns : List Node}
    (hnodes : ∀ n ∈ ns, Agree rel (s.nodeFindings profile n) (s'.nodeFindings profile n)) :
    Agree rel (s.findingsOf profile ns) (s'.findingsOf profile ns) := by
  induction ns with
  | nil => exact hnone
  | cons n rest ih =>
    rcases List.forall_mem_cons.1 hnodes with ⟨hn, hrest⟩
    unfold findingsOf
    cases hf : s.nodeFindings profile n with
    | error e =>
      cases hg : s'.nodeFindings profile n with
      | error e' => simpa [hf, hg, Agree] using hn
      | ok g => simp [hf, hg, Agree] at hn
    | ok f =>
      rcases hn.exists_of_ok hf with ⟨g, hg, hrel⟩
      rw [hg]
      exact (ih hrest).map fun f' g' hrel' => happend f f' g g' hrel hrel'

end Nodes

/-! ## Expressions -/

/-- The findings about expressions are the same where the same resource locators are declared. -/
theorem textFindings_of_declaredLocators {s s' : Scene} (hdocument : s'.document = s.document)
    (hexecuting : s'.executing = s.executing)
    (hdeclared : ∀ n ∈ s.executing, s'.declaredLocators n = s.declaredLocators n)
    (settings : Settings) (w : Wiring) :
    s'.textFindings settings w = s.textFindings settings w := by
  rw [textFindings, textFindings, hexecuting]
  refine textFindingsOf_congr (List.forall₂_same.2 ?_)
  intro n hn
  have hnames : s'.names = s.names := by rw [names, names, hdocument]
  simp only [nodeTextFindings, formatIssues, hdeclared n hn, expressionFindings,
    expressionContext, hnames]

end Scene
end Workflows
