import Workflows.Proofs.Document.RoundTrip

/-!
# Reread — nodes that are written down and read again

A node to be added is accepted, written down with its id, and read as a node. What it has been
written with fits, but a field that was left open has been left out, and then its other spelling is
looked up. Under that the node may hold a value that nobody has checked: it was not read the first
time, because the field was given as null.

Main definitions:

* `Decoded.Passes` — a check without faults;
* `NodeBody.openFields`, `NewNode.Rereads` — what is looked up again, and when it fits;
* `NewNode.passes_written_iff` — when an accepted node can be read again.
-/

namespace Workflows

namespace Decoded

variable {α β : Type}

def Passes (d : Decoded α) : Prop :=
  ∃ a, d = .ok a

@[simp] theorem passes_ok (a : α) : (ok a).Passes :=
  ⟨a, rfl⟩

@[simp] theorem not_passes_faulty (e : Fault) (more : List Fault) :
    ¬ (faulty e more : Decoded α).Passes := by
  intro hexists
  rcases hexists with ⟨a, h⟩
  simp at h

@[simp] theorem passes_map {f : α → β} {d : Decoded α} : (f <$> d).Passes ↔ d.Passes := by
  simp only [Passes, map_eq_ok]
  constructor
  · rintro ⟨_, a, h, -⟩
    exact ⟨a, h⟩
  · rintro ⟨a, h⟩
    exact ⟨f a, a, h, rfl⟩

@[simp] theorem passes_seq {f : Decoded (α → β)} {d : Decoded α} :
    (f <*> d).Passes ↔ f.Passes ∧ d.Passes := by
  simp only [Passes, seq_eq_ok]
  constructor
  · rintro ⟨_, g, hg, a, ha, -⟩
    exact ⟨⟨g, hg⟩, a, ha⟩
  · rintro ⟨⟨g, hg⟩, a, ha⟩
    exact ⟨g a, g, hg, a, ha, rfl⟩

@[simp] theorem passes_under {step : PlaceStep} {d : Decoded α} :
    (d.under step).Passes ↔ d.Passes := by
  simp [Passes]

end Decoded

namespace Shape

variable {α : Type} {kind : Value → Decoded α} {es : Entries Value} {f : FieldName} {v : Value}

theorem passes_required (hv : es.get? f.wire = some v) (h : (kind v).Passes) :
    (required f kind es).Passes := by
  simpa [required, FieldName.find?, hv] using h

theorem passes_optional {absent : α} (hv : es.get? f.wire = some v) (h : (kind v).Passes) :
    (optional f absent kind es).Passes := by
  simpa [optional, FieldName.find?, hv] using h

/-- A field that an object lacks in one spelling may be there in the other. -/
theorem passes_optional_iff {absent : α} (hwire : es.get? f.wire = none) :
    (optional f absent kind es).Passes ↔ ∀ v, es.get? f.plain = some v → (kind v).Passes := by
  unfold optional FieldName.find?
  rw [hwire]
  cases es.get? f.plain <;> simp

theorem passes_nullable (hv : v.isNull = false) : (nullable kind v).Passes ↔ (kind v).Passes := by
  cases v <;> simp_all [nullable, Value.isNull]

/-- A field that has been set passes; one that has not may be there in its other spelling. -/
theorem passes_optional_set {o : Option α} {toValue : α → Value}
    (hread : ∀ a, kind (toValue a) = .ok a) (hnull : ∀ a, (toValue a).isNull = false)
    (hwire : es.get? f.wire = o.map toValue) :
    (optional f none (nullable kind) es).Passes ↔
      (o.isSome = false → ∀ v, es.get? f.plain = some v → (nullable kind v).Passes) := by
  cases o with
  | none => simpa using passes_optional_iff hwire
  | some a =>
    have hkind : (kind (toValue a)).Passes := ⟨a, hread a⟩
    simpa using passes_optional hwire ((passes_nullable (hnull a)).2 hkind)

end Shape

/-! ## Written nodes -/

namespace NodeBody

/-- A field that may be left open and has two spellings: the second of them, whether the field is
set, and the values it may have. -/
structure OpenField where
  plain : String
  isSet : Bool
  fits : Value → Bool

def isTruth : Value → Bool
  | .bool _ => true
  | _ => false

def isText : Value → Bool
  | .str _ => true
  | _ => false

def isWhole : Value → Bool
  | .num (.int _) => true
  | _ => false

/-- The type version is none of them: a node that is written down has one. -/
def openFields (b : NodeBody) : List OpenField :=
  [⟨"notes_in_flow", b.notesInFlow.isSome, isTruth⟩, ⟨"on_error", b.onError.isSome, isText⟩,
    ⟨"continue_on_fail", b.continueOnFail.isSome, isTruth⟩,
    ⟨"retry_on_fail", b.retryOnFail.isSome, isTruth⟩, ⟨"max_tries", b.maxTries.isSome, isWhole⟩,
    ⟨"wait_between_tries", b.waitBetweenTries.isSome, isWhole⟩,
    ⟨"always_output_data", b.alwaysOutputData.isSome, isTruth⟩,
    ⟨"execute_once", b.executeOnce.isSome, isTruth⟩]

/-- The fields that are written down as the node has them; an id and a type version are added to a
node without them. -/
def keptNames : List FieldName :=
  fieldNames.filter fun f => f.wire != "id" && f.wire != "typeVersion"

theorem names_of_kept : ∀ f ∈ keptNames, f ∈ fieldNames ∧
    (f.wire ≠ "id" ∧ f.wire ≠ "typeVersion") ∧ f.plain ≠ "id" ∧ f.plain ≠ "typeVersion" := by
  decide

end NodeBody

namespace NewNode

/-- A node to be added that fits once more: where a field is left open, what is held beside the
fields under its other spelling fits, if it is anything but null. -/
def Rereads (n : NewNode) : Prop :=
  ∀ f ∈ n.openFields, f.isSet = false →
    ∀ v, n.extra.withoutNulls.get? f.plain = some v → f.fits v = true

/-- A node to be added as it is written down, with an id that it gets unless it has its own. -/
def written (n : NewNode) (id : String) : Entries Value :=
  (n.toEntries.putNew "id" (.str id)).putNew "typeVersion" (.int 1)

def ownEntries (n : NewNode) : Entries Value :=
  NodeBody.toAllEntries n.idValue { n.toNodeBody with extra := [] }

theorem get?_toEntries (n : NewNode) (key : String) :
    n.toEntries.get? key =
      ((n.ownEntries.get? key).filter fun v => !v.isNull).or (n.extra.withoutNulls.get? key) :=
  NodeBody.get?_written n.idValue n.toNodeBody key

theorem get?_written (n : NewNode) (id : String) {key : String} (hid : key ≠ "id")
    (hversion : key ≠ "typeVersion") : (n.written id).get? key = n.toEntries.get? key := by
  simp [written, Entries.get?_putNew, hid.symm, hversion.symm]

theorem get?_written_of_some (n : NewNode) (id : String) {key : String} {v : Value}
    (hown : n.ownEntries.get? key = some v) (hv : v.isNull = false) (hid : key ≠ "id")
    (hversion : key ≠ "typeVersion") : (n.written id).get? key = some v := by
  rw [get?_written n id hid hversion]
  exact NodeBody.get?_written_of_some hown hv

section Accepted

variable {n : NewNode} (hextra : ∀ f ∈ NodeBody.fieldNames, n.extra.get? f.wire = none)
  {f : FieldName} {α : Type} {o : Option α} {toValue : α → Value}

include hextra

/-- Under its first spelling a field is written down if it has been set. -/
theorem get?_toEntries_wire (hf : f ∈ NodeBody.fieldNames)
    (hnull : ∀ a, (toValue a).isNull = false)
    (hown : n.ownEntries.get? f.wire = some ((o.map toValue).getD .null)) :
    n.toEntries.get? f.wire = o.map toValue :=
  NodeBody.get?_written_wire (hextra f hf) hnull hown

theorem exists_written_id (id : String) : ∃ s, (n.written id).get? "id" = some (.str s) := by
  have hwire : n.toEntries.get? "id" = n.id.map .str :=
    get?_toEntries_wire hextra (f := .single "id") (by decide) (fun _ => rfl) rfl
  refine ⟨n.id.getD id, ?_⟩
  cases hid : n.id <;> simp [written, Entries.get?_putNew, hwire, hid]

theorem exists_written_version (id : String) :
    ∃ x, (n.written id).get? "typeVersion" = some (.num x) := by
  have hwire : n.toEntries.get? "typeVersion" = n.typeVersion.map .num :=
    get?_toEntries_wire hextra (f := ⟨"typeVersion", "type_version"⟩) (by decide)
      (fun _ => rfl) rfl
  refine ⟨n.typeVersion.getD (.int 1), ?_⟩
  cases hversion : n.typeVersion <;>
    simp [written, Entries.get?_putNew, hwire, hversion, Value.int]

variable (id : String) {kind : Value → Decoded α} (hf : f ∈ NodeBody.keptNames)
  (hread : ∀ a, kind (toValue a) = .ok a) (hnull : ∀ a, (toValue a).isNull = false)
  (hown : n.ownEntries.get? f.wire = some ((o.map toValue).getD .null))

include hf hread hnull hown

/-- What has been set passes; what has not may be there in another spelling. -/
theorem passes_kept_iff :
    (Shape.optional f none (Shape.nullable kind) (n.written id)).Passes ↔
      (o.isSome = false → ∀ v, n.toEntries.get? f.plain = some v →
        (Shape.nullable kind v).Passes) := by
  rcases NodeBody.names_of_kept f hf with ⟨hmem, ⟨hid, hversion⟩, hid', hversion'⟩
  have hwire := get?_toEntries_wire hextra hmem hnull hown
  rw [← get?_written n id hid hversion] at hwire
  rw [Shape.passes_optional_set hread hnull hwire, get?_written n id hid' hversion']

/-- A field with one spelling that may be left open is read again. -/
theorem passes_closed (hplain : f.plain = f.wire) :
    (Shape.optional f none (Shape.nullable kind) (n.written id)).Passes := by
  have hwire := get?_toEntries_wire hextra (NodeBody.names_of_kept f hf).1 hnull hown
  refine (passes_kept_iff hextra id hf hread hnull hown).2 ?_
  intro hopen v hv
  have hnone : o = none := by simpa using hopen
  simp [hplain, hwire, hnone] at hv

/-- A field with two spellings that may be left open is read again if it has been set, or if what
is held under the second spelling fits. -/
theorem passes_open_iff {fits : Value → Bool} (hfits : ∀ v, (kind v).Passes ↔ fits v = true)
    (hplain : n.ownEntries.get? f.plain = none) :
    (Shape.optional f none (Shape.nullable kind) (n.written id)).Passes ↔
      (o.isSome = false →
        ∀ v, n.extra.withoutNulls.get? f.plain = some v → fits v = true) := by
  rw [passes_kept_iff hextra id hf hread hnull hown, get?_toEntries, hplain]
  simp only [Option.filter_none, Option.none_or]
  refine forall_congr' fun _ => forall_congr' fun v => forall_congr' ?_
  intro hv
  -- Nulls have been left out.
  have hv' : v.isNull = false := by
    simpa using (List.mem_filter.1 (Entries.mem_of_get? hv)).2
  rw [Shape.passes_nullable hv', hfits]

end Accepted

section Kinds

variable {n : NewNode} (hextra : ∀ f ∈ NodeBody.fieldNames, n.extra.get? f.wire = none)
  (id : String) {f : FieldName} (hf : f ∈ NodeBody.keptNames)

include hextra hf

theorem passes_truth_iff {o : Option Bool}
    (hown : n.ownEntries.get? f.wire = some ((o.map .bool).getD .null))
    (hplain : n.ownEntries.get? f.plain = none) :
    (Shape.optional f none (Shape.nullable Shape.boolean) (n.written id)).Passes ↔
      (o.isSome = false →
        ∀ v, n.extra.withoutNulls.get? f.plain = some v → NodeBody.isTruth v = true) := by
  have hread : ∀ b, Shape.boolean (.bool b) = .ok b := fun _ => rfl
  refine passes_open_iff hextra id hf hread (fun _ => rfl) hown ?_ hplain
  intro v
  cases v <;> simp [Shape.boolean, NodeBody.isTruth, Decoded.fail]

theorem passes_text_iff {o : Option String}
    (hown : n.ownEntries.get? f.wire = some ((o.map .str).getD .null))
    (hplain : n.ownEntries.get? f.plain = none) :
    (Shape.optional f none (Shape.nullable Shape.string) (n.written id)).Passes ↔
      (o.isSome = false →
        ∀ v, n.extra.withoutNulls.get? f.plain = some v → NodeBody.isText v = true) := by
  have hread : ∀ t, Shape.string (.str t) = .ok t := fun _ => rfl
  refine passes_open_iff hextra id hf hread (fun _ => rfl) hown ?_ hplain
  intro v
  cases v <;> simp [Shape.string, NodeBody.isText, Decoded.fail]

theorem passes_whole_iff {o : Option Int}
    (hown : n.ownEntries.get? f.wire = some ((o.map .int).getD .null))
    (hplain : n.ownEntries.get? f.plain = none) :
    (Shape.optional f none (Shape.nullable Shape.integer) (n.written id)).Passes ↔
      (o.isSome = false →
        ∀ v, n.extra.withoutNulls.get? f.plain = some v → NodeBody.isWhole v = true) := by
  have hread : ∀ i, Shape.integer (.int i) = .ok i := fun _ => rfl
  refine passes_open_iff hextra id hf hread (fun _ => rfl) hown ?_ hplain
  intro v
  unfold Shape.integer NodeBody.isWhole
  split <;> simp [Decoded.fail]

end Kinds

/-- An accepted node is read again without faults exactly if it fits once more. -/
theorem passes_written_iff {v : Value} {n : NewNode} (h : NewNode.decode v = .ok n) (id : String) :
    (Node.ofEntries (n.written id)).Passes ↔ n.Rereads := by
  rcases of_decode h with ⟨hname, hextra⟩
  have hset {key : String} {v : Value} (hown : n.ownEntries.get? key = some v)
      (hv : v.isNull = false) (hid : key ≠ "id") (hversion : key ≠ "typeVersion") :
      (n.written id).get? key = some v :=
    get?_written_of_some n id hown hv hid hversion
  rcases exists_written_id hextra id with ⟨i, hi⟩
  rcases exists_written_version hextra id with ⟨x, hx⟩
  -- What has one spelling only, and the type version, which is always written, passes.
  have hid : (Shape.required (.single "id") Shape.string (n.written id)).Passes :=
    Shape.passes_required hi ⟨i, rfl⟩
  have hname' : (Shape.required (.single "name") NodeBody.decodeName (n.written id)).Passes :=
    Shape.passes_required (hset rfl rfl (by decide) (by decide)) ⟨n.name, hname⟩
  have htype : (Shape.required (.single "type") Shape.string (n.written id)).Passes :=
    Shape.passes_required (hset rfl rfl (by decide) (by decide)) ⟨n.type, rfl⟩
  have hversion : (Shape.optional ⟨"typeVersion", "type_version"⟩ none
      (Shape.nullable Shape.number) (n.written id)).Passes :=
    Shape.passes_optional hx ⟨some x, rfl⟩
  have hposition : (Shape.optional (.single "position") ⟨.int 0, .int 0⟩ NodeBody.decodePosition
      (n.written id)).Passes :=
    Shape.passes_optional (hset rfl rfl (by decide) (by decide)) ⟨n.position, rfl⟩
  have hparameters : (Shape.optional (.single "parameters") [] Shape.object
      (n.written id)).Passes :=
    Shape.passes_optional (hset rfl rfl (by decide) (by decide)) ⟨n.parameters, rfl⟩
  have hcredentials : (Shape.optional (.single "credentials") none
      (Shape.nullable Shape.object) (n.written id)).Passes :=
    passes_closed hextra id (by decide) (fun _ => rfl) (fun _ => rfl) rfl rfl
  have hdisabled : (Shape.optional (.single "disabled") false Shape.boolean
      (n.written id)).Passes :=
    Shape.passes_optional (hset rfl rfl (by decide) (by decide)) ⟨n.disabled, rfl⟩
  have hnotes : (Shape.optional (.single "notes") none (Shape.nullable Shape.string)
      (n.written id)).Passes :=
    passes_closed hextra id (by decide) (fun _ => rfl) (fun _ => rfl) rfl rfl
  -- The others pass or do not, by what is held under their second spelling.
  have hnotesInFlow := passes_truth_iff hextra id (f := ⟨"notesInFlow", "notes_in_flow"⟩)
    (by decide) rfl rfl
  have honError := passes_text_iff hextra id (f := ⟨"onError", "on_error"⟩) (by decide) rfl rfl
  have hcontinueOnFail := passes_truth_iff hextra id
    (f := ⟨"continueOnFail", "continue_on_fail"⟩) (by decide) rfl rfl
  have hretryOnFail := passes_truth_iff hextra id (f := ⟨"retryOnFail", "retry_on_fail"⟩)
    (by decide) rfl rfl
  have hmaxTries := passes_whole_iff hextra id (f := ⟨"maxTries", "max_tries"⟩) (by decide)
    rfl rfl
  have hwaitBetweenTries := passes_whole_iff hextra id
    (f := ⟨"waitBetweenTries", "wait_between_tries"⟩) (by decide) rfl rfl
  have halwaysOutputData := passes_truth_iff hextra id
    (f := ⟨"alwaysOutputData", "always_output_data"⟩) (by decide) rfl rfl
  have hexecuteOnce := passes_truth_iff hextra id (f := ⟨"executeOnce", "execute_once"⟩)
    (by decide) rfl rfl
  simp only [Node.ofEntries, NodeBody.decode, Decoded.passes_seq, Decoded.passes_map,
    Decoded.passes_ok, and_true, hid, hname', htype, hversion, hposition, hparameters,
    hcredentials, hdisabled, hnotes, true_and, hnotesInFlow, honError, hcontinueOnFail,
    hretryOnFail, hmaxTries, hwaitBetweenTries, halwaysOutputData, hexecuteOnce]
  simp only [Rereads, NodeBody.openFields, List.forall_mem_cons, List.not_mem_nil, false_imp_iff,
    implies_true, and_true, and_assoc]

end NewNode

end Workflows
