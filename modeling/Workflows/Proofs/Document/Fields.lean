import Workflows.Proofs.Edit.Reread

/-!
# Fields — what each field of a node is read from

A node is read field by field. So that it is read means that every field is read by itself, and
each field of the node is what it was read as.

Main definitions:

* `NodeBody.Reads`, `Node.ofEntries_eq_ok_iff` — the fields of a node, one by one.
-/

namespace Workflows
namespace NodeBody

variable {position : Entries Value → Decoded Position} {es : Entries Value} {b : NodeBody}

/-- Every field of the node is what the entries give for it. -/
structure Reads (position : Entries Value → Decoded Position) (es : Entries Value) (b : NodeBody) :
    Prop where
  name : Shape.required (.single "name") decodeName es = .ok b.name
  type : Shape.required (.single "type") Shape.string es = .ok b.type
  typeVersion :
    Shape.optional ⟨"typeVersion", "type_version"⟩ none (Shape.nullable Shape.number) es =
      .ok b.typeVersion
  position : position es = .ok b.position
  parameters : Shape.optional (.single "parameters") [] Shape.object es = .ok b.parameters
  credentials :
    Shape.optional (.single "credentials") none (Shape.nullable Shape.object) es =
      .ok b.credentials
  disabled : Shape.optional (.single "disabled") false Shape.boolean es = .ok b.disabled
  notes : Shape.optional (.single "notes") none (Shape.nullable Shape.string) es = .ok b.notes
  notesInFlow :
    Shape.optional ⟨"notesInFlow", "notes_in_flow"⟩ none (Shape.nullable Shape.boolean) es =
      .ok b.notesInFlow
  onError :
    Shape.optional ⟨"onError", "on_error"⟩ none (Shape.nullable Shape.string) es = .ok b.onError
  continueOnFail :
    Shape.optional ⟨"continueOnFail", "continue_on_fail"⟩ none (Shape.nullable Shape.boolean) es =
      .ok b.continueOnFail
  retryOnFail :
    Shape.optional ⟨"retryOnFail", "retry_on_fail"⟩ none (Shape.nullable Shape.boolean) es =
      .ok b.retryOnFail
  maxTries :
    Shape.optional ⟨"maxTries", "max_tries"⟩ none (Shape.nullable Shape.integer) es =
      .ok b.maxTries
  waitBetweenTries :
    Shape.optional ⟨"waitBetweenTries", "wait_between_tries"⟩ none (Shape.nullable Shape.integer)
      es = .ok b.waitBetweenTries
  alwaysOutputData :
    Shape.optional ⟨"alwaysOutputData", "always_output_data"⟩ none (Shape.nullable Shape.boolean)
      es = .ok b.alwaysOutputData
  executeOnce :
    Shape.optional ⟨"executeOnce", "execute_once"⟩ none (Shape.nullable Shape.boolean) es =
      .ok b.executeOnce
  extra : b.extra = Shape.leftovers fieldNames es

theorem decode_eq_ok_iff : decode position es = .ok b ↔ Reads position es b := by
  constructor
  · intro h
    simp only [decode, Decoded.seq_eq_ok, Decoded.map_eq_ok] at h
    obtain ⟨_, ⟨_, ⟨_, ⟨_, ⟨_, ⟨_, ⟨_, ⟨_, ⟨_, ⟨_, ⟨_, ⟨_, ⟨_, ⟨_, ⟨_, ⟨_, ⟨_, h₁, rfl⟩, _, h₂,
      rfl⟩, _, h₃, rfl⟩, _, h₄, rfl⟩, _, h₅, rfl⟩, _, h₆, rfl⟩, _, h₇, rfl⟩, _, h₈, rfl⟩, _, h₉,
      rfl⟩, _, h₁₀, rfl⟩, _, h₁₁, rfl⟩, _, h₁₂, rfl⟩, _, h₁₃, rfl⟩, _, h₁₄, rfl⟩, _, h₁₅, rfl⟩, _,
      h₁₆, rfl⟩, _, h₁₇, rfl⟩ := h
    exact ⟨h₁, h₂, h₃, h₄, h₅, h₆, h₇, h₈, h₉, h₁₀, h₁₁, h₁₂, h₁₃, h₁₄, h₁₅, h₁₆,
      (Decoded.ok.inj h₁₇).symm⟩
  · intro h
    simp only [decode, h.name, h.type, h.typeVersion, h.position, h.parameters, h.credentials,
      h.disabled, h.notes, h.notesInFlow, h.onError, h.continueOnFail, h.retryOnFail, h.maxTries,
      h.waitBetweenTries, h.alwaysOutputData, h.executeOnce, ← h.extra]
    rfl

end NodeBody

namespace Node

variable {es : Entries Value} {n : Node}

/-- How a node reads its position, which may be left out. -/
def readPosition (es : Entries Value) : Decoded Position :=
  Shape.optional (.single "position") ⟨.int 0, .int 0⟩ NodeBody.decodePosition es

theorem ofEntries_eq_ok_iff :
    ofEntries es = .ok n ↔
      Shape.required (.single "id") Shape.string es = .ok n.id ∧
        NodeBody.Reads readPosition es n.toNodeBody := by
  unfold ofEntries
  rw [Decoded.seq_eq_ok]
  constructor
  · intro h
    rcases h with ⟨_, hfields, b, hbody, rfl⟩
    rcases Decoded.map_eq_ok.1 hfields with ⟨id, hid, rfl⟩
    exact ⟨hid, NodeBody.decode_eq_ok_iff.1 hbody⟩
  · intro h
    rcases h with ⟨hid, hbody⟩
    exact ⟨_, Decoded.map_eq_ok.2 ⟨n.id, hid, rfl⟩, _, NodeBody.decode_eq_ok_iff.2 hbody, rfl⟩

theorem type_of_ofEntries (h : ofEntries es = .ok n) : es.get? "type" = some (.str n.type) := by
  rcases Shape.required_eq_ok.1 (ofEntries_eq_ok_iff.1 h).2.type with ⟨v, hv, hread⟩
  rw [hv, Shape.string_eq_ok.1 hread]

/-- A node that is read where the id, the name and the type of another one are written has them
too. -/
theorem kept_of_written {n after : Node}
    (hkept : ∀ key ∈ ["id", "name", "type"], es.get? key = n.toEntries.get? key)
    (h : ofEntries es = .ok after) :
    after.id = n.id ∧ after.name = n.name ∧ after.type = n.type := by
  have hwritten : ∀ key s, key ∈ ["id", "name", "type"] →
      (n.ownEntries (.str n.id)).get? key = some (.str s) → es.get? key = some (.str s) := by
    intro key s hkey hown
    rw [hkept key hkey]
    exact NodeBody.get?_written_of_some hown rfl
  rcases of_ofEntries h with ⟨hid, hname⟩
  have htype := type_of_ofEntries h
  rw [hwritten "id" n.id (by simp) rfl] at hid
  rw [hwritten "name" n.name (by simp) rfl] at hname
  rw [hwritten "type" n.type (by simp) rfl] at htype
  simp_all

end Node

/-! ## What is found for a field -/

def FieldName.found (f : FieldName) (es : Entries Value) : Option Value :=
  (f.find? es).map Prod.snd

namespace Shape

variable {α : Type} {kind : Value → Decoded α} {es : Entries Value} {f : FieldName}

/-- What is found for a field that has to be given. -/
def Needs (kind : Value → Decoded α) (o : Option Value) : Prop :=
  ∃ v, o = some v ∧ (kind v).Passes

/-- What is found for a field that may be left out. -/
def May (kind : Value → Decoded α) (o : Option Value) : Prop :=
  ∀ v, o = some v → (kind v).Passes

theorem passes_required_iff : (required f kind es).Passes ↔ Needs kind (f.found es) := by
  unfold required Needs FieldName.found
  cases f.find? es <;> simp

theorem passes_optional_found_iff {absent : α} :
    (optional f absent kind es).Passes ↔ May kind (f.found es) := by
  unfold optional May FieldName.found
  cases f.find? es <;> simp

end Shape

namespace Node

open Shape

/-- The fields of a node with what may be found for them. -/
def judged : List (FieldName × (Option Value → Prop)) :=
  [(.single "id", Needs Shape.string), (.single "name", Needs NodeBody.decodeName),
    (.single "type", Needs Shape.string),
    (⟨"typeVersion", "type_version"⟩, May (nullable number)),
    (.single "position", May NodeBody.decodePosition), (.single "parameters", May object),
    (.single "credentials", May (nullable object)), (.single "disabled", May boolean),
    (.single "notes", May (nullable Shape.string)),
    (⟨"notesInFlow", "notes_in_flow"⟩, May (nullable boolean)),
    (⟨"onError", "on_error"⟩, May (nullable Shape.string)),
    (⟨"continueOnFail", "continue_on_fail"⟩, May (nullable boolean)),
    (⟨"retryOnFail", "retry_on_fail"⟩, May (nullable boolean)),
    (⟨"maxTries", "max_tries"⟩, May (nullable integer)),
    (⟨"waitBetweenTries", "wait_between_tries"⟩, May (nullable integer)),
    (⟨"alwaysOutputData", "always_output_data"⟩, May (nullable boolean)),
    (⟨"executeOnce", "execute_once"⟩, May (nullable boolean))]

theorem map_fst_judged : judged.map Prod.fst = NodeBody.fieldNames := rfl

/-- A node can be read if what is found for its fields fits, each by itself. -/
theorem passes_ofEntries_iff {es : Entries Value} :
    (ofEntries es).Passes ↔ ∀ c ∈ judged, c.2 (c.1.found es) := by
  simp [ofEntries, NodeBody.decode, judged, passes_required_iff, passes_optional_found_iff,
    and_assoc]

end Node
end Workflows
