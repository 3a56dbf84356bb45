import Workflows.Proofs.Visibility.Plain
import Workflows.Proofs.Validation.Wiring
import Workflows.Proofs.Walk

/-!
# Reported — the values on which there is a report

A value that is no document gets a report on its faults. On a document two questions can go
unanswered: which properties apply, and whether the mode of a resource locator is a known one. The
types of the bundled catalog have plain conditions, so the first always has an answer; the second
has none for a mode that is a list or an object, and such a locator prevents the whole report.

Main definitions:

* `Format.Readable` — no locator with such a mode stands where it is looked at;
* `NodeType.isPlain`, `Catalog.isPlain_of_find?_bundled` — types all of whose questions have answers;
* `Validator.reported_iff` — when there is a report under the bundled catalog.
-/

namespace Workflows

/-! ## Locators -/

namespace Format

/-- Lists, objects and references to them cannot be looked up. -/
def isContainer : Value → Bool
  | .arr _ | .obj _ | .up _ => true
  | _ => false

/-- A resource locator with a value, whose mode is a list or an object. -/
def isUnreadable : Value → Bool
  | .obj fields =>
    isLocator fields && (Entries.get? "value" fields).isSome &&
      (Entries.get? "mode" fields).any isContainer
  | _ => false

/-- No unreadable locator stands in a tree where the check of written forms comes by. -/
def Readable (maxDepth : Number) (tree : Value) : Prop :=
  ∀ place v, Walk.Open { depth := maxDepth, skipPrivate := true } 0 place → v.At place tree →
    isUnreadable v = false

section Locators

variable {fields : Entries Value} {mode : Value} (path : String)

/-- A mode that is a list or an object cannot be looked up. -/
theorem knownMode_of_isContainer (h : isContainer mode = true) :
    knownMode mode = .error .locatorMode := by
  cases mode <;> simp_all [isContainer, knownMode]

/-- Any other mode is looked up. -/
theorem exists_knownMode (h : isContainer mode = false) :
    ∃ known, knownMode mode = .ok known := by
  cases mode <;> simp_all [isContainer, knownMode]

/-- A locator without a mode is looked up with null, which is no container. -/
theorem isContainer_getD_null (mode : Option Value) :
    isContainer (mode.getD .null) = mode.any isContainer := by
  cases mode <;> rfl

/-- A locator with such a mode is not checked. -/
theorem checkLocator_of_isContainer {inner : Value} (hinner : fields.get? "value" = some inner)
    (h : (fields.get? "mode").any isContainer = true) :
    checkLocator path fields = .error .locatorMode := by
  have hmode : knownMode ((fields.get? "mode").getD .null) = .error .locatorMode :=
    knownMode_of_isContainer (by rw [isContainer_getD_null, h])
  simp [checkLocator, hinner, hmode]

/-- A locator with any other mode is checked. -/
theorem exists_checkLocator
    (h : (fields.get? "value").isSome = true → (fields.get? "mode").any isContainer = false) :
    ∃ found, checkLocator path fields = .ok found := by
  cases hinner : fields.get? "value" with
  | none => simp [checkLocator, hinner]
  | some inner =>
    have hplain : isContainer ((fields.get? "mode").getD .null) = false := by
      rw [isContainer_getD_null]
      exact h (by rw [hinner]; rfl)
    rcases exists_knownMode hplain with ⟨known, hknown⟩
    cases known with
    | false => simp [checkLocator, hinner, hknown]
    | true =>
      simp only [checkLocator, hinner, hknown]
      split
      · split <;> exact ⟨_, rfl⟩
      · exact ⟨_, rfl⟩

end Locators

section Visits

variable (locators : List String) {v : Visit} {vs : List Visit}

/-- A visit that cannot be read has no answer. -/
theorem checkVisit_of_unreadable (h : isUnreadable v.value = true) :
    checkVisit locators v = .error .locatorMode := by
  cases hvalue : v.value with
  | obj fields =>
    simp only [hvalue, isUnreadable, Bool.and_eq_true, Option.isSome_iff_exists] at h
    rcases h with ⟨⟨hlocator, inner, hinner⟩, hmode⟩
    simp [checkVisit, hvalue, hlocator, checkLocator_of_isContainer v.path hinner hmode]
  | _ => simp [hvalue, isUnreadable] at h

/-- A visit that can be read has an answer. -/
theorem exists_checkVisit (h : isUnreadable v.value = false) :
    ∃ found, checkVisit locators v = .ok found := by
  cases hvalue : v.value with
  | obj fields =>
    cases hlocator : isLocator fields with
    | false => simp [checkVisit, hvalue, hlocator]
    | true =>
      have hmode : (Entries.get? "value" fields).isSome = true →
          (Entries.get? "mode" fields).any isContainer = false := by
        intro hinner
        simpa only [hvalue, isUnreadable, hlocator, hinner, Bool.true_and] using h
      rcases exists_checkLocator v.path hmode with ⟨found, hfound⟩
      exact ⟨found, by simp [checkVisit, hvalue, hlocator, hfound]⟩
  | str s =>
    simp only [checkVisit, hvalue]
    split <;> exact ⟨_, rfl⟩
  | _ => simp [checkVisit, hvalue]

/-- Visits that can be read have answers. -/
theorem exists_checkVisits (h : ∀ v ∈ vs, isUnreadable v.value = false) :
    ∃ issues, checkVisits locators vs = .ok issues := by
  induction vs with
  | nil => exact ⟨[], rfl⟩
  | cons v rest ih =>
    rcases List.forall_mem_cons.1 h with ⟨hv, hrest⟩
    rcases exists_checkVisit locators hv with ⟨found, hfound⟩
    rcases ih hrest with ⟨more, hmore⟩
    exact ⟨found.toList ++ more, by simp [checkVisits, hfound, hmore]⟩

/-- Visits one of which cannot be read have no answer. -/
theorem checkVisits_of_unreadable (h : ∃ v ∈ vs, isUnreadable v.value = true) :
    checkVisits locators vs = .error .locatorMode := by
  induction vs with
  | nil => simp at h
  | cons v rest ih =>
    cases hv : isUnreadable v.value with
    | true => simp [checkVisits, checkVisit_of_unreadable locators hv]
    | false =>
      rcases exists_checkVisit locators hv with ⟨found, hfound⟩
      have hrest : ∃ w ∈ rest, isUnreadable w.value = true := by simpa [hv] using h
      simp [checkVisits, hfound, ih hrest]

end Visits

section Trees

variable {maxDepth : Number} (locators : List String) {tree : Value}

/-- A tree is readable if all that is visited in it is. -/
theorem readable_iff :
    Readable maxDepth tree ↔
      ∀ w ∈ Walk.visits { depth := maxDepth, skipPrivate := true } "" tree,
        isUnreadable w.value = false := by
  constructor
  · intro h w hw
    rcases Walk.mem_visits_iff.1 hw with ⟨place, hopen, hvisit⟩
    exact h place w.value hopen hvisit.stands
  · intro h place v hopen hv
    cases hback : v with
    | up levels => rfl
    | _ =>
      -- What stands at an open place and is no back-reference is visited.
      rw [← hback]
      let w : Visit := ⟨place.foldl Place.extend "", place.getLast?.or none, v⟩
      exact h w (Walk.mem_visits_iff.2 ⟨place, hopen, hv, rfl, rfl, by simp [w, hback]⟩)

/-- A readable tree is checked. -/
theorem exists_checkTree (h : Readable maxDepth tree) :
    ∃ found, checkTree maxDepth locators tree = .ok found := by
  rcases exists_checkVisits locators (readable_iff.1 h) with ⟨issues, hissues⟩
  simp [checkTree, hissues]

/-- A tree that is not readable is not checked. -/
theorem checkTree_of_not_readable (h : ¬Readable maxDepth tree) :
    checkTree maxDepth locators tree = .error .locatorMode := by
  have hvisit : ∃ w ∈ Walk.visits { depth := maxDepth, skipPrivate := true } "" tree,
      isUnreadable w.value = true := by
    rw [readable_iff] at h
    simpa using h
  simp [checkTree, checkVisits_of_unreadable locators hvisit]

end Trees

end Format

/-! ## Types -/

/-- Whether every question that the properties of a type can ask has an answer: conditions are
plain, and the names of resource locators are no lists or objects. -/
def NodeType.isPlain (t : NodeType) : Bool :=
  t.properties.all fun v =>
    (Property.decode v).value?.all Property.isPlain && (Scene.declaredLocator v).toOption.isSome

namespace Catalog

/-- What is found in a catalog is one of the types that it was made of. -/
theorem mem_of_find?_ofTypes {version type : String} {types : List NodeType} {t : NodeType}
    (h : (ofTypes version types).find? type = some t) : t ∈ types := by
  -- Storing types one after the other adds no others than these.
  have hstored : ∀ (types : List NodeType) (c : Catalog), ∀ e ∈ (types.foldl (fun c t =>
      c.store t) c).types, e.2 ∈ types ∨ e ∈ c.types := by
    intro types
    induction types with
    | nil => exact fun c e he => .inr he
    | cons first rest ih =>
      intro c e he
      rcases ih _ e he with he | he
      · exact .inl (List.mem_cons_of_mem _ he)
      · rcases Entries.mem_put he with rfl | he
        · exact .inl List.mem_cons_self
        · exact .inr he
  rcases hstored types { baseVersion := version } _ (Entries.mem_of_get? h) with hmem | hmem
  · exact hmem
  · simp at hmem

/-- The bundled types are plain. -/
theorem isPlain_of_find?_bundled {type : String} {t : NodeType}
    (h : bundled.find? type = some t) : t.isPlain = true := by
  have hall : Bundled.types.all NodeType.isPlain = true := by decide +kernel
  exact List.all_eq_true.1 hall t (mem_of_find?_ofTypes h)

end Catalog

/-! ## Nodes -/

namespace Scene

section Node

variable {n : Node} {t : NodeType} {profile : Profile}

/-- The names that are declared can be read if each entry can. -/
theorem exists_declaredLocatorsIn {vs : List Value}
    (h : ∀ v ∈ vs, (declaredLocator v).toOption.isSome = true) :
    ∃ names, declaredLocatorsIn vs = .ok names := by
  induction vs with
  | nil => exact ⟨[], rfl⟩
  | cons v rest ih =>
    rcases List.forall_mem_cons.1 h with ⟨hv, hrest⟩
    rcases ih hrest with ⟨names, hnames⟩
    cases hname : declaredLocator v with
    | error e => simp [hname, Except.toOption] at hv
    | ok name => simp [declaredLocatorsIn, hname, hnames, Except.map]

/-- A node of a plain type is checked. -/
theorem exists_knownNodeFindings (ht : t.isPlain = true) :
    ∃ found, knownNodeFindings profile n t = .ok found := by
  have hplain : ∀ p ∈ (config n t).resolver.properties, p.isPlain = true := by
    intro p hp
    rcases List.mem_filterMap.1 hp with ⟨v, hv, hdecode⟩
    have hall := List.all_eq_true.1 ht v hv
    rw [Bool.and_eq_true, hdecode] at hall
    exact hall.1
  rcases Resolver.exists_visibleProperties hplain with ⟨visible, hvisible⟩
  simp [knownNodeFindings, NodeConfig.check, hvisible]

end Node

section Plain

variable {s : Scene} (hplain : ∀ type t, s.catalog.find? type = some t → t.isPlain = true)

include hplain

/-- All nodes are checked if the types are plain. -/
theorem exists_allNodeFindings (profile : Profile) :
    ∃ found, s.allNodeFindings profile = .ok found := by
  have hnode : ∀ n, ∃ found, s.nodeFindings profile n = .ok found := by
    intro n
    unfold nodeFindings
    split
    · exact ⟨_, rfl⟩
    · split
      · exact ⟨_, rfl⟩
      · cases htype : s.typeOf n with
        | none => exact ⟨_, rfl⟩
        | some t => exact exists_knownNodeFindings (hplain _ t htype)
  unfold allNodeFindings
  induction s.nodes with
  | nil => exact ⟨_, rfl⟩
  | cons n rest ih =>
    rcases hnode n with ⟨found, hfound⟩
    rcases ih with ⟨more, hmore⟩
    exact ⟨found ++ more, by simp [findingsOf, hfound, hmore, Except.map]⟩

/-- The locators that a plain type declares can be read. -/
theorem exists_declaredLocators (n : Node) : ∃ names, s.declaredLocators n = .ok names := by
  unfold declaredLocators
  cases htype : s.typeOf n with
  | none => exact ⟨[], rfl⟩
  | some t =>
    refine exists_declaredLocatorsIn ?_
    intro v hv
    have hall := List.all_eq_true.1 (hplain _ t htype) v hv
    rw [Bool.and_eq_true] at hall
    exact hall.2

/-- The expressions of a node are checked if its parameters are readable. -/
theorem exists_nodeTextFindings {depth : Number} {w : Wiring} {n : Node}
    (h : Format.Readable depth (.obj n.parameters)) :
    ∃ found, s.nodeTextFindings depth w n = .ok found := by
  rcases exists_declaredLocators hplain n with ⟨names, hnames⟩
  rcases Format.exists_checkTree (Format.locatorFields n.type names) h with ⟨f, hf⟩
  simp [nodeTextFindings, formatIssues, hnames, hf, Except.map]

/-- The expressions of a node are not checked if its parameters are not readable. -/
theorem nodeTextFindings_of_not_readable {depth : Number} {w : Wiring} {n : Node}
    (h : ¬Format.Readable depth (.obj n.parameters)) :
    s.nodeTextFindings depth w n = .error .locatorMode := by
  rcases exists_declaredLocators hplain n with ⟨names, hnames⟩
  have hmode := Format.checkTree_of_not_readable (Format.locatorFields n.type names) h
  simp [nodeTextFindings, formatIssues, hnames, hmode, Except.map]

/-- The expressions of all nodes are checked if their parameters are readable. -/
theorem exists_textFindingsOf {depth : Number} {w : Wiring} {ns : List Node}
    (h : ∀ n ∈ ns, Format.Readable depth (.obj n.parameters)) :
    ∃ found, s.textFindingsOf depth w ns = .ok found := by
  induction ns with
  | nil => exact ⟨_, rfl⟩
  | cons n rest ih =>
    rcases List.forall_mem_cons.1 h with ⟨hn, hrest⟩
    rcases exists_nodeTextFindings (w := w) hplain hn with ⟨found, hfound⟩
    rcases ih hrest with ⟨more, hmore⟩
    exact ⟨found ++ more, by simp [textFindingsOf, hfound, hmore, Except.map]⟩

/-- The expressions are not checked if the parameters of one node are not readable. -/
theorem textFindingsOf_of_not_readable {depth : Number} {w : Wiring} {ns : List Node}
    (h : ¬∀ n ∈ ns, Format.Readable depth (.obj n.parameters)) :
    s.textFindingsOf depth w ns = .error .locatorMode := by
  induction ns with
  | nil => simp at h
  | cons n rest ih =>
    unfold textFindingsOf
    by_cases hn : Format.Readable depth (.obj n.parameters)
    · rcases exists_nodeTextFindings (w := w) hplain hn with ⟨found, hfound⟩
      have hrest : ¬∀ n ∈ rest, Format.Readable depth (.obj n.parameters) :=
        fun hrest => h (List.forall_mem_cons.2 ⟨hn, hrest⟩)
      rw [hfound, ih hrest]
      rfl
    · rw [nodeTextFindings_of_not_readable hplain hn]

end Plain

end Scene

/-! ## Reports -/

namespace Validator

variable {v : Validator} {wanted value : Value} {profile : Profile} {d : Document}

/-- The locators of all nodes that execute can be read, as deep as parameters are searched. -/
def Readable (v : Validator) (d : Document) : Prop :=
  ∀ n ∈ (v.scene d).executing, Format.Readable v.settings.maxExpressionDepth (.obj n.parameters)

/-- There is a report on a readable document, if the types are plain. -/
theorem exists_report_of_readable (profile : Profile)
    (hplain : ∀ type t, v.catalog.find? type = some t → t.isPlain = true) (h : v.Readable d) :
    ∃ r, v.report profile d = .ok r := by
  rcases (v.scene d).exists_allNodeFindings hplain profile with ⟨nodes, hnodes⟩
  have htexts : ∃ texts, (v.scene d).textFindings v.settings (v.scene d).wiring = .ok texts :=
    (v.scene d).exists_textFindingsOf hplain h
  rcases htexts with ⟨texts, htexts⟩
  by_cases hempty : d.nodes.isEmpty
  · simp [report, hempty]
  · simp [report, hempty, hnodes, htexts]

/-- Nodes without parameters have nothing that a report could stumble over. -/
theorem exists_report_of_bare (profile : Profile)
    (hplain : ∀ type t, v.catalog.find? type = some t → t.isPlain = true)
    (h : (d.nodes.all fun n => n.parameters.isEmpty) = true) :
    ∃ r, v.report profile d = .ok r := by
  refine exists_report_of_readable profile hplain ?_
  intro n hn place value _ hplace
  have hnode : n ∈ d.nodes := (List.mem_filter.1 hn).1
  have hnone : n.parameters = [] := by simpa using List.all_eq_true.1 h n hnode
  rw [hnone] at hplace
  cases hplace with
  | here => rfl
  | within hholds _ =>
    cases hholds with
    | field hmem => cases hmem

/-- There is no report on a document that is not readable. -/
theorem report_of_not_readable
    (hplain : ∀ type t, v.catalog.find? type = some t → t.isPlain = true) (h : ¬v.Readable d) :
    v.report profile d = .error .locatorMode := by
  rcases (v.scene d).exists_allNodeFindings hplain profile with ⟨nodes, hnodes⟩
  have htexts : (v.scene d).textFindings v.settings (v.scene d).wiring = .error .locatorMode :=
    (v.scene d).textFindingsOf_of_not_readable hplain h
  -- Without nodes there would be nothing to read.
  have hfilled : ¬d.nodes.isEmpty := by
    intro hempty
    have hnone : (v.scene d).nodes = [] := List.isEmpty_iff.1 hempty
    exact h (by simp [Readable, Scene.executing, hnone])
  simp [report, hfilled, hnodes, htexts]

section Checks

variable (hplain : ∀ type t, v.catalog.find? type = some t → t.isPlain = true)
  (hprofile : v.chosenProfile wanted = .ok profile)

include hprofile

/-- A value that is no document is answered with its faults. -/
theorem check_of_faulty {first : Fault} {more : List Fault}
    (hvalue : Document.decode value = .faulty first more) :
    v.check wanted value =
      .ok (Report.ofShapeIssues profile.word ((first :: more).map Fault.shapeIssue)) := by
  simp [check, hprofile, hvalue]

include hplain

/-- A readable document is answered with a report. -/
theorem exists_check_of_readable (hvalue : Document.decode value = .ok d) (h : v.Readable d) :
    ∃ r, v.check wanted value = .ok r := by
  rcases exists_report_of_readable profile hplain h with ⟨r, hr⟩
  exact ⟨r, by simp [check, hprofile, hvalue, hr, Except.mapError]⟩

/-- A document that is not readable is not answered. -/
theorem check_of_not_readable (hvalue : Document.decode value = .ok d) (h : ¬v.Readable d) :
    v.check wanted value = .error (.unanswerable .locatorMode) := by
  have hnone : v.report profile d = .error .locatorMode := report_of_not_readable hplain h
  simp [check, hprofile, hvalue, hnone, Except.mapError]

end Checks

/-- The errors in the report of a value that is no document are its faults. -/
theorem errors_ofShapeIssues (word : String) (issues : List ShapeIssue) :
    (Report.ofShapeIssues word issues).errors = issues.map Report.shapeError := by
  have hall : (issues.map Report.shapeError).filter Issue.isError =
      issues.map Report.shapeError := by
    refine List.filter_eq_self.2 ?_
    intro i hi
    rcases List.mem_map.1 hi with ⟨issue, -, rfl⟩
    rfl
  rw [Report.ofShapeIssues, Report.errors_addAll, hall]
  rfl

/-- Under the bundled catalog there is a report on every value but a document with an unreadable
locator. A value that is no document is reported with one error for each of its faults. -/
theorem reported_iff (value : Value) (hcatalog : v.catalog = Catalog.bundled)
    (hprofile : v.chosenProfile wanted = .ok profile) :
    ((∃ r, v.check wanted value = .ok r) ↔
        ∀ d, Document.decode value = .ok d → v.Readable d) ∧
      (∀ failure, v.check wanted value = .error failure → failure = .unanswerable .locatorMode) ∧
      ∀ first more, Document.decode value = .faulty first more →
        ∃ r, v.check wanted value = .ok r ∧
          r.errors = (first :: more).map (fun f => Report.shapeError f.shapeIssue) ∧
          ∀ i ∈ r.errors, i.code = "invalid_document" := by
  have hplain : ∀ type t, v.catalog.find? type = some t → t.isPlain = true := by
    intro type t ht
    exact Catalog.isPlain_of_find?_bundled (hcatalog ▸ ht)
  -- A value with the shape of a document is checked, any other one only described by its faults.
  cases hvalue : Document.decode value with
  | ok d =>
    by_cases h : v.Readable d
    · rcases exists_check_of_readable hplain hprofile hvalue h with ⟨r, hr⟩
      refine ⟨⟨?_, fun _ => ⟨r, hr⟩⟩, ?_, by simp⟩
      · intro _ d' hd
        obtain rfl : d = d' := by simpa using hd
        exact h
      · intro failure hf
        rw [hr] at hf
        simp at hf
    · have hnone := check_of_not_readable hplain hprofile hvalue h
      refine ⟨⟨?_, fun hall => absurd (hall d rfl) h⟩, ?_, by simp⟩
      · intro hexists
        rcases hexists with ⟨r, hr⟩
        rw [hnone] at hr
        simp at hr
      · intro failure hf
        rw [hnone] at hf
        exact (Except.error.inj hf).symm
  | faulty first more =>
    have hfaults := check_of_faulty hprofile hvalue
    refine ⟨⟨by simp, fun _ => ⟨_, hfaults⟩⟩, ?_, ?_⟩
    · intro failure hf
      rw [hfaults] at hf
      simp at hf
    · intro first' more' heq
      obtain ⟨rfl, rfl⟩ : first = first' ∧ more = more' := by simpa using heq
      have herrors := errors_ofShapeIssues profile.word ((first :: more).map Fault.shapeIssue)
      rw [List.map_map] at herrors
      refine ⟨_, hfaults, herrors, ?_⟩
      intro i hi
      rw [herrors] at hi
      rcases List.mem_map.1 hi with ⟨f, -, rfl⟩
      rfl

/-- The locator of a channel, with a mode. -/
def channelLocator (mode : Value) : Value :=
  .obj [("__rl", .bool true), ("value", .str "C1"), ("mode", mode)]

def messageNode (mode : Value) : Node where
  id := "1"
  name := "A"
  type := "n8n-nodes-base.slack"
  parameters := [("channelId", channelLocator mode)]

def channelBy (mode : Value) : Value :=
  .obj
    [("nodes", .arr
      [.obj
        [("id", .str "1"), ("name", .str "A"), ("type", .str "n8n-nodes-base.slack"),
          ("parameters", .obj [("channelId", channelLocator mode)])]]),
      ("connections", .obj [])]

theorem decode_channelBy (mode : Value) :
    Document.decode (channelBy mode) = .ok { nodes := [messageNode mode] } :=
  rfl

/-- A mode that is a number is reported, as it is none of the known ones. -/
theorem channel_by_number_reported :
    ∃ r, ({} : Validator).check .null (channelBy (.int 3)) = .ok r ∧
      (r.errors.any fun i => i.code == "invalid-rl-structure") = true ∧
      ∀ d, Document.decode (channelBy (.int 3)) = .ok d → ({} : Validator).Readable d := by
  have hany : ((({} : Validator).check .null (channelBy (.int 3))).toOption.any fun r =>
      r.errors.any fun i => i.code == "invalid-rl-structure") = true := by decide +kernel
  cases hcheck : ({} : Validator).check .null (channelBy (.int 3)) with
  | error e => simp [hcheck, Except.toOption] at hany
  | ok r =>
    have hprofile : ({} : Validator).chosenProfile .null = .ok .runtime := rfl
    have hiff := reported_iff (channelBy (.int 3)) (v := {}) rfl hprofile
    refine ⟨r, rfl, ?_, hiff.1.1 ⟨r, hcheck⟩⟩
    simpa [hcheck, Except.toOption] using hany

/-- A mode that is a list leaves the document without a report. -/
theorem channel_by_list_unreported :
    ({} : Validator).chosenProfile .null = .ok .runtime ∧
      ¬∃ r, ({} : Validator).check .null (channelBy (.arr [])) = .ok r := by
  have hprofile : ({} : Validator).chosenProfile .null = .ok .runtime := rfl
  let d : Document := { nodes := [messageNode (.arr [])] }
  have hnode : messageNode (.arr []) ∈ (({} : Validator).scene d).executing := by
    have hexecutes : (({} : Validator).scene d).executes (messageNode (.arr [])) = true := by
      decide +kernel
    exact List.mem_filter.2 ⟨List.mem_cons_self, hexecutes⟩
  have hunreadable : ¬({} : Validator).Readable d := by
    intro h
    have hopen : Walk.Open { depth := .int 100, skipPrivate := true } 0 [.key "channelId"] :=
      ⟨by decide, by decide⟩
    have hstands : (channelLocator (.arr [])).At [.key "channelId"]
        (.obj (messageNode (.arr [])).parameters) :=
      .within (.field List.mem_cons_self) .here
    have hreadable := h _ hnode [.key "channelId"] _ hopen hstands
    have hbad : Format.isUnreadable (channelLocator (.arr [])) = true := by decide
    rw [hbad] at hreadable
    cases hreadable
  refine ⟨hprofile, ?_⟩
  intro hexists
  rcases hexists with ⟨r, hr⟩
  have hnone := check_of_not_readable (fun _ _ => Catalog.isPlain_of_find?_bundled) hprofile
    (decode_channelBy (.arr [])) hunreadable
  cases hr.symm.trans hnone

end Validator

end Workflows
