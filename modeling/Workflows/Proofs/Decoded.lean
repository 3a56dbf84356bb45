import Workflows.Edit
import Workflows.Proofs.Entries

/-!
# Decoded — what a value held when it was accepted

A check that ends well tells of the value that was checked: both sides of a combination ended well,
a required field was there, and what is left over has none of the fields. For nodes that gives the
name and the id, and for nodes to be added that what they hold beside their fields is no id.

Main statements:

* `Decoded.seq_eq_ok`, `Shape.required_eq_ok`, `Shape.get?_leftovers`;
* `Node.of_ofEntries`, `NewNode.of_decode` — the entries a node was read from;
* `Operation.readFrom_of_parse` — where an operation has the node or the changes that it brings.
-/

namespace Workflows
namespace Decoded

variable {α β : Type}

/-- A result that is changed afterwards comes from a result. -/
theorem map_eq_ok {f : α → β} {x : Decoded α} {b : β} :
    f <$> x = .ok b ↔ ∃ a, x = .ok a ∧ f a = b := by
  change Decoded.map f x = .ok b ↔ _
  cases x <;> simp [Decoded.map]

/-- A function and its argument give a result if both are results. -/
theorem seq_eq_ok {f : Decoded (α → β)} {x : Decoded α} {b : β} :
    f <*> x = .ok b ↔ ∃ g, f = .ok g ∧ ∃ a, x = .ok a ∧ g a = b := by
  change Decoded.apply f x = .ok b ↔ _
  cases f <;> cases x <;> simp [Decoded.apply]

/-- What depends on a result is a result if both are. -/
theorem bind_eq_ok {x : Decoded α} {f : α → Decoded β} {b : β} :
    x.bind f = .ok b ↔ ∃ a, x = .ok a ∧ f a = .ok b := by
  cases x <;> simp [Decoded.bind]

/-- To move the faults of a part into the whole makes no difference to results. -/
@[simp] theorem under_eq_ok {step : PlaceStep} {x : Decoded α} {a : α} :
    x.under step = .ok a ↔ x = .ok a := by
  cases x <;> simp [Decoded.under]

end Decoded

namespace Shape

variable {α : Type}

theorem string_eq_ok {v : Value} {s : String} : string v = .ok s ↔ v = .str s := by
  cases v <;> simp [string, Decoded.fail]

/-- A record is read from an object only. -/
theorem model_eq_ok {name : String} {fields : Entries Value → Decoded α} {v : Value} {a : α} :
    model name fields v = .ok a ↔ ∃ es, v = .obj es ∧ fields es = .ok a := by
  cases v <;> simp [model, Decoded.fail]

theorem find?_single (name : String) (es : Entries Value) :
    (FieldName.single name).find? es = (es.get? name).map fun v => (name, v) := by
  unfold FieldName.find? FieldName.single
  cases Entries.get? name es <;> rfl

/-- A required field has been read from the entry of its name. -/
theorem required_eq_ok {name : String} {kind : Value → Decoded α} {es : Entries Value} {a : α} :
    required (.single name) kind es = .ok a ↔ ∃ v, es.get? name = some v ∧ kind v = .ok a := by
  unfold required
  rw [find?_single]
  cases Entries.get? name es <;> simp

/-- A field does not occur in what is left over under the spelling that is looked up first. -/
theorem get?_leftovers {f : FieldName} {fields : List FieldName} (h : f ∈ fields)
    (es : Entries Value) : (leftovers fields es).get? f.wire = none := by
  unfold leftovers
  cases hwire : es.get? f.wire with
  | none => exact Entries.get?_eq_none_of_sublist List.filter_sublist hwire
  | some v =>
    rw [Entries.get?_eq_none_iff]
    intro hkey
    rcases List.mem_map.1 hkey with ⟨e, he, heq⟩
    have hused : e.1 ∈ fields.filterMap fun f => (f.find? es).map Prod.fst :=
      List.mem_filterMap.2 ⟨f, h, by simp [FieldName.find?, hwire, heq]⟩
    have hkept := (List.mem_filter.1 he).2
    simp only [List.contains_iff_mem.2 hused, Bool.not_true] at hkept
    exact Bool.false_ne_true hkept

end Shape

/-! ## Nodes -/

namespace NodeBody

variable {position : Entries Value → Decoded Position} {es : Entries Value} {b : NodeBody}

/-- A name is read as it stands. -/
theorem decodeName_eq_ok {v : Value} {s : String} (h : decodeName v = .ok s) : v = .str s := by
  rcases Decoded.bind_eq_ok.1 h with ⟨s', hs, hok⟩
  by_cases hblank : Text.allBlank s'.toList
  · simp [hblank, Decoded.fail] at hok
  · have heq : s' = s := by simpa [hblank] using hok
    exact heq ▸ Shape.string_eq_ok.1 hs

/-- The name that was read is that of the entry, and what is left over belongs to no field. -/
theorem of_decode (h : decode position es = .ok b) :
    es.get? "name" = some (.str b.name) ∧ decodeName (.str b.name) = .ok b.name ∧
      b.extra = Shape.leftovers fieldNames es := by
  unfold decode at h
  rw [Decoded.seq_eq_ok] at h
  rcases h with ⟨_, h, extra, hextra, rfl⟩
  -- Every field between the first and the last stands in one application.
  iterate 15
    rw [Decoded.seq_eq_ok] at h
    rcases h with ⟨_, h, _, -, rfl⟩
  rw [Decoded.map_eq_ok] at h
  rcases h with ⟨name, hname, rfl⟩
  rcases Shape.required_eq_ok.1 hname with ⟨v, hv, hread⟩
  have htext := decodeName_eq_ok hread
  refine ⟨?_, ?_, ?_⟩
  · rw [hv, htext]
  · rw [← htext]
    exact hread
  · cases hextra
    rfl

end NodeBody

/-- The id and the name of a node are those of its entries. -/
theorem Node.of_ofEntries {es : Entries Value} {n : Node} (h : Node.ofEntries es = .ok n) :
    es.get? "id" = some (.str n.id) ∧ es.get? "name" = some (.str n.name) := by
  unfold Node.ofEntries at h
  rw [Decoded.seq_eq_ok] at h
  rcases h with ⟨_, hfields, b, hbody, rfl⟩
  rcases Decoded.map_eq_ok.1 hfields with ⟨id, hid, rfl⟩
  rcases Shape.required_eq_ok.1 hid with ⟨v, hv, hread⟩
  exact ⟨by rw [hv, Shape.string_eq_ok.1 hread], (NodeBody.of_decode hbody).1⟩

/-- The name of a new node is one that nodes may have, and what is left over belongs to no field. -/
theorem NewNode.of_ofEntries {es : Entries Value} {n : NewNode}
    (h : NewNode.ofEntries es = .ok n) :
    NodeBody.decodeName (.str n.name) = .ok n.name ∧
      n.extra = Shape.leftovers NodeBody.fieldNames es := by
  unfold NewNode.ofEntries at h
  rw [Decoded.seq_eq_ok] at h
  rcases h with ⟨_, hid, b, hbody, rfl⟩
  rcases Decoded.map_eq_ok.1 hid with ⟨id, -, rfl⟩
  exact (NodeBody.of_decode hbody).2

/-- A node to be added has a name that fits, and what it holds beside its fields is none of them in
the spelling for texts. -/
theorem NewNode.of_decode {v : Value} {n : NewNode} (h : NewNode.decode v = .ok n) :
    NodeBody.decodeName (.str n.name) = .ok n.name ∧
      ∀ f ∈ NodeBody.fieldNames, n.extra.get? f.wire = none := by
  rcases Shape.model_eq_ok.1 h with ⟨es, -, h⟩
  rcases NewNode.of_ofEntries h with ⟨hname, hextra⟩
  refine ⟨hname, ?_⟩
  intro f hf
  rw [hextra]
  exact Shape.get?_leftovers hf es

/-- What a node to be added holds beside its fields is no id. -/
theorem NewNode.extra_of_decode {v : Value} {n : NewNode} (h : NewNode.decode v = .ok n) :
    n.extra.get? "id" = none :=
  (NewNode.of_decode h).2 (.single "id") (by simp [NodeBody.fieldNames])

/-! ## Operations -/

/-- An action that may have been read, as far as it brings a node. -/
def Action.Readable : Action → Prop
  | .addNode n => ∃ v, NewNode.decode v = .ok n
  | _ => True

/-- The entries an action was read from, as far as it brings a node or assigns inside one. -/
def Action.ReadFrom (es : Entries Value) : Action → Prop
  | .addNode n =>
    es.get? "type" = some (.str "addNode") ∧
      ∃ v, es.get? "node" = some v ∧ NewNode.decode v = .ok n
  | .updateNode _ changes =>
    es.get? "type" = some (.str "updateNode") ∧ es.get? "changes" = some (.obj changes)
  | _ => True

namespace Operation

variable {es : Entries Value} {o : Operation} {fields : List FieldName}

/-- The fields that are common to all operations are read apart from the action. -/
theorem action_of_withFields {action : Entries Value → Decoded Action}
    (h : withFields fields action es = .ok o) : action es = .ok o.action := by
  unfold withFields at h
  rw [Decoded.seq_eq_ok] at h
  rcases h with ⟨_, h, _, -, rfl⟩
  rw [Decoded.seq_eq_ok] at h
  rcases h with ⟨_, h, a, ha, rfl⟩
  rw [Decoded.map_eq_ok] at h
  rcases h with ⟨_, -, rfl⟩
  exact ha

/-- An action on a node is what it is on the node that is referred to. -/
theorem action_of_onNode {action : Entries Value → Decoded (NodeRef → Action)}
    (h : onNode fields action es = .ok o) : ∃ f r, action es = .ok f ∧ o.action = f r := by
  unfold onNode at h
  rcases Decoded.bind_eq_ok.1 h with ⟨⟨description, id, name, f⟩, hchecked, hgiven⟩
  have hf : action es = .ok f := by
    rw [Decoded.seq_eq_ok] at hchecked
    rcases hchecked with ⟨_, hchecked, _, -, heq⟩
    rw [Decoded.seq_eq_ok] at hchecked
    rcases hchecked with ⟨_, hchecked, f', hf', rfl⟩
    rw [Decoded.seq_eq_ok] at hchecked
    rcases hchecked with ⟨_, hchecked, _, -, rfl⟩
    rw [Decoded.seq_eq_ok] at hchecked
    rcases hchecked with ⟨_, hchecked, _, -, rfl⟩
    rw [Decoded.map_eq_ok] at hchecked
    rcases hchecked with ⟨_, -, rfl⟩
    simp only [Prod.mk.injEq] at heq
    exact heq.2.2.2 ▸ hf'
  by_cases given : id.isSome ∨ name.isSome
  · simp only [given, dite_true, Decoded.ok.injEq] at hgiven
    exact ⟨f, _, hf, by rw [← hgiven]⟩
  · simp [given, Decoded.fail] at hgiven

theorem filledObject_eq_ok {v : Value} (h : filledObject v = .ok es) : v = .obj es := by
  rcases Decoded.bind_eq_ok.1 h with ⟨es', hobject, hok⟩
  split at hok
  · simp [Decoded.fail] at hok
  · cases hok
    cases v <;> simp_all [Shape.object, Decoded.fail]

/-- If all actions of a kind are read from the entries, the one that was decoded is. -/
theorem readFrom_of_map {α : Type} {f : α → Action} (hf : ∀ x, (f x).ReadFrom es) {d : Decoded α}
    {a : Action} (h : f <$> d = .ok a) : a.ReadFrom es := by
  rw [Decoded.map_eq_ok] at h
  rcases h with ⟨x, -, rfl⟩
  exact hf x

/-- What is done with a node has been read if the reference to the node has. -/
theorem readFrom_of_node {f : NodeRef → Action} (hf : ∀ r, (f r).ReadFrom es)
    (h : onNode fields (fun _ => .ok f) es = .ok o) : o.action.ReadFrom es := by
  rcases action_of_onNode h with ⟨g, r, hg, heq⟩
  cases hg
  exact heq ▸ hf r

/-- Each reader of operations reads the action from the entries that it is given. -/
theorem readFrom_of_reader {word : String} {read : Entries Value → Decoded Operation}
    (hword : es.get? "type" = some (.str word)) (hread : reader? word = some read)
    (h : read es = .ok o) : o.action.ReadFrom es := by
  unfold reader? at hread
  split at hread <;> cases hread
  -- Only the first kind of operation brings a node, and only the third one assigns inside one.
  · rcases Decoded.map_eq_ok.1 (action_of_withFields h) with ⟨n, hn, heq⟩
    rw [← heq]
    exact ⟨hword, Shape.required_eq_ok.1 hn⟩
  · refine readFrom_of_node ?_ h
    intro _
    trivial
  · rcases action_of_onNode h with ⟨f, r, hf, heq⟩
    rcases Decoded.map_eq_ok.1 hf with ⟨changes, hchanges, rfl⟩
    rcases Shape.required_eq_ok.1 hchanges with ⟨v, hv, hfilled⟩
    rw [heq]
    exact ⟨hword, filledObject_eq_ok hfilled ▸ hv⟩
  · rcases action_of_onNode h with ⟨f, r, hf, heq⟩
    rcases Decoded.map_eq_ok.1 hf with ⟨_, -, rfl⟩
    rw [heq]
    trivial
  · refine readFrom_of_node ?_ h
    intro _
    trivial
  · refine readFrom_of_node ?_ h
    intro _
    trivial
  all_goals
    refine readFrom_of_map ?_ (action_of_withFields h)
    intro _
    trivial

/-- An operation was read by the reader for the kind that the value names. -/
theorem exists_reader_of_parse {index : Nat} {v : Value} (h : parse index v = .ok o) :
    ∃ (es : Entries Value) (word : String) (read : Entries Value → Decoded Operation),
      v = .obj es ∧ es.get? "type" = some (.str word) ∧ reader? word = some read ∧
        read es = .ok o := by
  unfold parse at h
  split at h
  · rename_i es
    cases hes : ofEntries es with
    | faulty e more => simp [hes] at h
    | ok o' =>
      have heq : o' = o := by simpa [hes] using h
      subst heq
      unfold ofEntries at hes
      split at hes
      · simp [Decoded.fail] at hes
      · rename_i word hword
        cases hread : reader? word with
        | none => simp [hread, Decoded.fail] at hes
        | some read =>
          rw [hread, Decoded.under_eq_ok] at hes
          exact ⟨es, word, read, rfl, hword, hread, hes⟩
      · simp [Decoded.fail] at hes
  · simp at h

/-- An operation that was parsed has been read from the entries of an object. -/
theorem readFrom_of_parse {index : Nat} {v : Value} (h : parse index v = .ok o) :
    ∃ es, v = .obj es ∧ o.action.ReadFrom es := by
  obtain ⟨es, word, read, rfl, hword, hread, hes⟩ := exists_reader_of_parse h
  exact ⟨es, rfl, readFrom_of_reader hword hread hes⟩

/-- The actions of parsed operations are readable. -/
theorem readable_of_parse {index : Nat} {v : Value} (h : parse index v = .ok o) :
    o.action.Readable := by
  rcases readFrom_of_parse h with ⟨es, -, hread⟩
  cases ha : o.action with
  | addNode n =>
    rw [ha] at hread
    rcases hread with ⟨-, w, -, hdecode⟩
    exact ⟨w, hdecode⟩
  | _ => trivial

/-- All operations of a batch without malformed ones are readable. -/
theorem readable_of_parseFrom {index : Nat} {vs : List Value} {os : List Operation}
    {errors : List EditError} (h : parseFrom index vs = (os, errors)) :
    ∀ o ∈ os, o.action.Readable := by
  induction vs generalizing index os errors with
  | nil =>
    simp only [parseFrom, Prod.mk.injEq] at h
    simp [← h.1]
  | cons v rest ih =>
    simp only [parseFrom] at h
    have hrest : ∀ o ∈ (parseFrom (index + 1) rest).1, o.action.Readable := ih rfl
    cases hv : parse index v with
    | error e =>
      simp only [hv, Prod.mk.injEq] at h
      exact h.1 ▸ hrest
    | ok o =>
      simp only [hv, Prod.mk.injEq] at h
      intro o' ho'
      rw [← h.1] at ho'
      rcases List.mem_cons.1 ho' with rfl | hmem
      · exact readable_of_parse hv
      · exact hrest o' hmem

end Operation
end Workflows
