import Workflows.Proofs.Edit.Run
import Workflows.Proofs.Profile.Monotone
import Workflows.Proofs.Validation.Unread

/-!
# Metadata — edits that no check takes notice of

Where a node is placed, and the name, the settings and the tags of a document, are not what a report
is about. An edit of these leaves the core of a document as it is, which is all that a report
depends on, and so does a batch of such edits in any order.

Main definitions:

* `Action.isMetadata` — moves, and edits of name, settings and tags;
* `Draft.Run.core_eq` — what such edits keep;
* `Editor.report_after_metadata` — the report is the old one.
-/

namespace Workflows

/-- Whether an action changes no more than where a node is placed, or the settings, the name or the
tags of the document. -/
def Action.isMetadata : Action → Bool
  | .moveNode _ _ | .updateSettings _ | .updateName _ | .addTag _ | .removeTag _ => true
  | _ => false

namespace Draft

variable {catalog : Option Catalog}

/-- Moving a node keeps the core: its position is no part of it. -/
theorem core_moveNode {d d' : Document} {reference : String} {position : Position}
    (h : changeNode d reference (fun n => { n with position := position }) = .ok d') :
    d'.core = d.core := by
  rcases changeNode_eq_ok h with ⟨n, hn, rfl⟩
  rcases Document.picks_of_resolve hn with ⟨front, back, hpicks⟩
  rw [hpicks.map_answering]
  have hmoved : Node.core { n with position := position } = n.core := rfl
  simp only [Document.core, hpicks.nodes, List.map_append, List.map_cons, hmoved]

theorem core_carryOutOn {d d' : Document} {a : Action} (ha : a.isMetadata = true)
    (h : carryOutOn catalog d a = .ok d') : d'.core = d.core := by
  cases a with
  | moveNode r position => exact core_moveNode h
  | updateSettings settings =>
    cases h
    rfl
  | updateName name =>
    cases h
    rfl
  | addTag tag =>
    -- A tag that is there already is not added again.
    simp only [carryOutOn, Except.ok.injEq] at h
    rw [← h]
    split <;> rfl
  | removeTag tag =>
    cases h
    rfl
  | _ => simp [Action.isMetadata] at ha

theorem core_carryOut {s s' : Draft} {a : Action} (ha : a.isMetadata = true)
    (h : s.carryOut catalog a = .ok s') : s'.document.core = s.document.core := by
  have hne : ∀ n, a ≠ .addNode n := by
    rintro n rfl
    simp [Action.isMetadata] at ha
  rcases (carryOut_eq_ok_iff hne).1 h with ⟨d, hd, rfl⟩
  exact core_carryOutOn ha hd

theorem Run.core_eq {s s' : Draft} {as : List Action} (h : Run catalog s as s')
    (has : ∀ a ∈ as, a.isMetadata = true) : s'.document.core = s.document.core := by
  refine h.inv (P := fun t => t.document.core = s.document.core) rfl ?_
  intro front a back t t' heq _ hstep ht
  have ha : a.isMetadata = true := has a (by simp [heq])
  calc t'.document.core = t.document.core := core_carryOut ha hstep
    _ = s.document.core := ht

end Draft

namespace Editor

variable {e : Editor} {ids : IdSupply} {nextId : Nat} {d d' : Document} {batch : List Value}

/-- A batch of moves and of edits of name, settings and tags leaves the report as it was, whatever
catalog and settings it goes by, under every profile. -/
theorem report_after_metadata (v : Validator) (wanted : Value)
    (h : e.Accepts ids nextId d batch d') (hbatch : ∀ a ∈ actions batch, a.isMetadata = true) :
    v.reportUnder wanted d' = v.reportUnder wanted d := by
  rcases run_of_accepts h with ⟨s, hrun, rfl⟩
  exact v.reportUnder_eq wanted (hrun.core_eq hbatch)

def metadataBatch : List Value :=
  [.obj [("type", .str "moveNode"), ("nodeName", .str "B"),
      ("position", .arr [.int 120, .int (-40)])],
    .obj [("type", .str "updateSettings"), ("settings", .obj [("timezone", .str "UTC")])],
    .obj [("type", .str "updateName"), ("name", .str "Nightly")],
    .obj [("type", .str "addTag"), ("tag", .str "ops")],
    .obj [("type", .str "addTag"), ("tag", .str "ops")],
    .obj [("type", .str "removeTag"), ("tag", .str "ops")]]

/-- The errors of a document are still the same two after it has been moved about and named. -/
theorem flawed_after_metadata :
    ∃ d' r, Accepts {} (fun _ => "3") 1 Validator.flawed metadataBatch d' ∧ d'.name = "Nightly" ∧
      Validator.setTypes.reportUnder (.str "runtime") d' = .ok r ∧ r.errors.length = 2 := by
  have haccepts : ∃ d', Accepts {} (fun _ => "3") 1 Validator.flawed metadataBatch d' ∧
      (d'.name == "Nightly") = true := exists_accepts (by decide +kernel)
  have hbatch : ∀ a ∈ actions metadataBatch, a.isMetadata = true := by decide +kernel
  have hreport : ∃ r, Validator.setTypes.report .runtime Validator.flawed = .ok r ∧
      (r.errors.length == 2) = true := Validator.exists_report (by decide +kernel)
  rcases haccepts with ⟨d', h, hname⟩
  rcases hreport with ⟨r, hr, hlength⟩
  refine ⟨d', r, h, by simpa using hname, ?_, by simpa using hlength⟩
  calc Validator.setTypes.reportUnder (.str "runtime") d'
      = Validator.setTypes.reportUnder (.str "runtime") Validator.flawed :=
        report_after_metadata _ _ h hbatch
    _ = .ok r := by
        have hchosen : Validator.setTypes.chosenProfile (.str "runtime") = .ok .runtime := rfl
        simp [Validator.reportUnder, hchosen, hr, Except.mapError]

end Editor
end Workflows
