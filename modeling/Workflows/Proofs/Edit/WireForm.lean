import Mathlib.Tactic.MkIffOfInductiveProp
import Workflows.Proofs.Document.RoundTrip

/-!
# WireForm — operations that are written down and read again

The wire form of an operation writes out every field under its first spelling, null included where
nothing is given, and behind the fields of a node to be added whatever it holds beside them. Since
the first spelling of every field is there, nothing else can be taken for a field: not even an entry
beside the fields that bears a second spelling. So the wire form is read as the operation that was
written, and it comes to the same whether operations are carried out or their wire forms.

Main definitions:

* `Shape.leftovers_of_keys` — what is left over behind a full set of fields;
* `NewNode.Typed`, `Operation.Typed` — the operations that readers accept;
* `Operation.typed_of_parse`, `Operation.parse_toValue` — these are the ones that come back;
* `Editor.applyWith_toValue` — batches of operations and of their wire forms.
-/

namespace Workflows

/-! ## Fields that are all written -/

namespace Shape

variable {α : Type} {kind : Value → Decoded α} {es own extra : Entries Value} {f : FieldName}
  {fields : List FieldName}

theorem nullable_getD {toValue : α → Value} (hread : ∀ a, kind (toValue a) = .ok a)
    (hnull : ∀ a, (toValue a).isNull = false) (o : Option α) :
    nullable kind ((o.map toValue).getD .null) = .ok o := by
  cases o with
  | none => rfl
  | some a =>
    have hne : toValue a ≠ .null := fun heq => by simpa [heq, Value.isNull] using hnull a
    change nullable kind (toValue a) = .ok (some a)
    rw [nullable]
    · rw [hread, Decoded.map_ok]
    · exact hne

/-- A field that may be null is read as it was written. -/
theorem optional_of_getD {o absent : Option α} {toValue : α → Value}
    (hwire : es.get? f.wire = some ((o.map toValue).getD .null))
    (hread : ∀ a, kind (toValue a) = .ok a) (hnull : ∀ a, (toValue a).isNull = false) :
    optional f absent (nullable kind) es = .ok o :=
  optional_of_get? hwire (nullable_getD hread hnull o)

theorem text_of_getD {o : Option String}
    (hwire : es.get? f.wire = some ((o.map .str).getD .null)) :
    optional f none (nullable string) es = .ok o :=
  optional_of_getD hwire (fun _ => rfl) fun _ => rfl

theorem truth_of_getD {o : Option Bool}
    (hwire : es.get? f.wire = some ((o.map .bool).getD .null)) :
    optional f none (nullable boolean) es = .ok o :=
  optional_of_getD hwire (fun _ => rfl) fun _ => rfl

theorem whole_of_getD {o : Option Int}
    (hwire : es.get? f.wire = some ((o.map .int).getD .null)) :
    optional f none (nullable integer) es = .ok o :=
  optional_of_getD hwire (fun _ => rfl) fun _ => rfl

/-- Behind a full set of fields everything is left over that bears no first spelling. -/
theorem leftovers_of_keys (hkeys : own.keys.Perm (fields.map (·.wire)))
    (hextra : ∀ f ∈ fields, extra.get? f.wire = none) :
    leftovers fields (own ++ extra) = extra := by
  -- Every field is found under its first spelling, which is a key of the first part.
  have hused : (fields.filterMap fun f => (f.find? (own ++ extra)).map Prod.fst) =
      fields.map (·.wire) := by
    rw [← List.filterMap_eq_map]
    refine List.filterMap_congr ?_
    intro f hf
    have hkey : f.wire ∈ (own ++ extra : Entries Value).keys := by
      rw [Entries.keys, List.map_append]
      exact List.mem_append_left _ (hkeys.symm.subset (List.mem_map_of_mem hf))
    cases hv : (own ++ extra : Entries Value).get? f.wire with
    | none => exact absurd hkey (Entries.get?_eq_none_iff.1 hv)
    | some v => simp [find?_of_wire hv]
  have hown : own.filter (fun e => !(fields.map (·.wire)).contains e.1) = [] := by
    refine List.filter_eq_nil_iff.2 ?_
    intro e he
    have hmem : e.1 ∈ fields.map (·.wire) := hkeys.subset (Entries.key_mem_keys he)
    simpa using hmem
  have hfree : extra.filter (fun e => !(fields.map (·.wire)).contains e.1) = extra := by
    refine List.filter_eq_self.2 ?_
    intro e he
    have hnot : e.1 ∉ fields.map (·.wire) := by
      intro hmem
      rcases List.mem_map.1 hmem with ⟨f, hf, heq⟩
      exact Entries.get?_eq_none_iff.1 (hextra f hf) (heq ▸ Entries.key_mem_keys he)
    simpa using hnot
  rw [leftovers, hused, List.filter_append, hown, hfree, List.nil_append]

theorem noLeftovers_of_keys (hkeys : own.keys.Perm (fields.map (·.wire))) :
    noLeftovers fields own = .ok () := by
  have hnone : leftovers fields (own ++ []) = [] := leftovers_of_keys hkeys fun _ _ => rfl
  rw [List.append_nil] at hnone
  rw [noLeftovers, hnone]
  rfl

end Shape

/-! ## Nodes to be added -/

namespace NewNode

/-- A node to be added whose name fits and that holds nothing beside its fields under the first
spelling of one. -/
@[mk_iff]
structure Typed (n : NewNode) : Prop where
  name : Text.allBlank n.name.toList = false
  extra : ∀ f ∈ NodeBody.fieldNames, n.extra.get? f.wire = none

instance (n : NewNode) : Decidable n.Typed :=
  decidable_of_iff _ (typed_iff n).symm

theorem decodeName_eq_ok_iff {s : String} :
    NodeBody.decodeName (.str s) = .ok s ↔ Text.allBlank s.toList = false := by
  cases hblank : Text.allBlank s.toList <;>
    simp [NodeBody.decodeName, Shape.string, Decoded.bind, Decoded.fail, hblank]

theorem typed_of_decode {v : Value} {n : NewNode} (h : NewNode.decode v = .ok n) : n.Typed := by
  rcases NewNode.of_decode h with ⟨hname, hextra⟩
  exact ⟨decodeName_eq_ok_iff.1 hname, hextra⟩

/-- A node to be added is read as it was written. -/
theorem decode_toAllEntries {n : NewNode} (h : n.Typed) :
    NewNode.decode (.obj (n.toAllEntries n.idValue)) = .ok n := by
  let es := n.toAllEntries n.idValue
  have hid : Shape.optional (.single "id") none (Shape.nullable Shape.string) es = .ok n.id :=
    Shape.text_of_getD rfl
  -- What every node has.
  have hname : Shape.required (.single "name") NodeBody.decodeName es = .ok n.name :=
    Shape.required_of_get? rfl (decodeName_eq_ok_iff.2 h.name)
  have htype : Shape.required (.single "type") Shape.string es = .ok n.type :=
    Shape.required_of_get? rfl rfl
  have hposition : Shape.required (.single "position") NodeBody.decodePosition es =
      .ok n.position :=
    Shape.required_of_get? rfl rfl
  have hparameters : Shape.optional (.single "parameters") [] Shape.object es =
      .ok n.parameters :=
    Shape.optional_of_get? rfl rfl
  have hdisabled : Shape.optional (.single "disabled") false Shape.boolean es = .ok n.disabled :=
    Shape.optional_of_get? rfl rfl
  -- What is written as null where it is not set.
  have hversion : Shape.optional ⟨"typeVersion", "type_version"⟩ none
      (Shape.nullable Shape.number) es = .ok n.typeVersion :=
    Shape.optional_of_getD rfl (fun _ => rfl) fun _ => rfl
  have hcredentials : Shape.optional (.single "credentials") none
      (Shape.nullable Shape.object) es = .ok n.credentials :=
    Shape.optional_of_getD rfl (fun _ => rfl) fun _ => rfl
  have hnotes : Shape.optional (.single "notes") none (Shape.nullable Shape.string) es =
      .ok n.notes :=
    Shape.text_of_getD rfl
  have hnotesInFlow : Shape.optional ⟨"notesInFlow", "notes_in_flow"⟩ none
      (Shape.nullable Shape.boolean) es = .ok n.notesInFlow :=
    Shape.truth_of_getD rfl
  have honError : Shape.optional ⟨"onError", "on_error"⟩ none (Shape.nullable Shape.string) es =
      .ok n.onError :=
    Shape.text_of_getD rfl
  have hcontinueOnFail : Shape.optional ⟨"continueOnFail", "continue_on_fail"⟩ none
      (Shape.nullable Shape.boolean) es = .ok n.continueOnFail :=
    Shape.truth_of_getD rfl
  have hretryOnFail : Shape.optional ⟨"retryOnFail", "retry_on_fail"⟩ none
      (Shape.nullable Shape.boolean) es = .ok n.retryOnFail :=
    Shape.truth_of_getD rfl
  have hmaxTries : Shape.optional ⟨"maxTries", "max_tries"⟩ none
      (Shape.nullable Shape.integer) es = .ok n.maxTries :=
    Shape.whole_of_getD rfl
  have hwaitBetweenTries : Shape.optional ⟨"waitBetweenTries", "wait_between_tries"⟩ none
      (Shape.nullable Shape.integer) es = .ok n.waitBetweenTries :=
    Shape.whole_of_getD rfl
  have halwaysOutputData : Shape.optional ⟨"alwaysOutputData", "always_output_data"⟩ none
      (Shape.nullable Shape.boolean) es = .ok n.alwaysOutputData :=
    Shape.truth_of_getD rfl
  have hexecuteOnce : Shape.optional ⟨"executeOnce", "execute_once"⟩ none
      (Shape.nullable Shape.boolean) es = .ok n.executeOnce :=
    Shape.truth_of_getD rfl
  have hleftovers : Shape.leftovers NodeBody.fieldNames es = n.extra := by
    change Shape.leftovers NodeBody.fieldNames (n.toAllEntries n.idValue) = n.extra
    rw [NodeBody.toAllEntries_eq]
    refine Shape.leftovers_of_keys ?_ h.extra
    rw [NodeBody.keys_ownEntries]
  change NewNode.ofEntries es = .ok n
  rw [NewNode.ofEntries, NodeBody.decode, hid, hname, htype, hversion, hposition, hparameters,
    hcredentials, hdisabled, hnotes, hnotesInFlow, honError, hcontinueOnFail, hretryOnFail,
    hmaxTries, hwaitBetweenTries, halwaysOutputData, hexecuteOnce, hleftovers]
  rfl

end NewNode

/-! ## Operations -/

/-- An action that a reader accepts: its node fits, and neither its changes nor the text that it
brings is empty. -/
def Action.Typed : Action → Prop
  | .addNode n => n.Typed
  | .updateNode _ changes => changes ≠ []
  | .updateName text | .addTag text | .removeTag text => text ≠ ""
  | _ => True

instance (a : Action) : Decidable a.Typed :=
  match a with
  | .addNode n => inferInstanceAs (Decidable n.Typed)
  | .updateNode _ changes => inferInstanceAs (Decidable (changes ≠ []))
  | .updateName text | .addTag text | .removeTag text => inferInstanceAs (Decidable (text ≠ ""))
  | .removeNode _ | .moveNode _ _ | .enableNode _ | .disableNode _ | .addConnection _
  | .removeConnection _ | .updateConnection _ | .updateSettings _ =>
    inferInstanceAs (Decidable True)

namespace Operation

def Typed (o : Operation) : Prop :=
  o.action.Typed

instance (o : Operation) : Decidable o.Typed :=
  inferInstanceAs (Decidable o.action.Typed)

/-! ### Accepted operations -/

theorem filledObject_ne_nil {v : Value} {es : Entries Value} (h : filledObject v = .ok es) :
    es ≠ [] := by
  rcases Decoded.bind_eq_ok.1 h with ⟨es', -, hok⟩
  split at hok
  · simp [Decoded.fail] at hok
  · rename_i hfilled
    cases hok
    simpa using hfilled

theorem filledString_ne_empty {v : Value} {s : String} (h : Shape.filledString v = .ok s) :
    s ≠ "" := by
  cases v with
  | str t =>
    by_cases ht : t = ""
    · simp [Shape.filledString, ht, Decoded.fail] at h
    · have hsame : t = s := by simpa [Shape.filledString, ht] using h
      exact hsame ▸ ht
  | _ => simp [Shape.filledString, Decoded.fail] at h

section Typed

variable {α : Type} {es : Entries Value} {o : Operation} {fields : List FieldName}

theorem typed_of_map {f : α → Action} {read : Entries Value → Decoded α}
    (hf : ∀ a, read es = .ok a → (f a).Typed)
    (h : withFields fields (fun es => f <$> read es) es = .ok o) : o.Typed := by
  rcases Decoded.map_eq_ok.1 (action_of_withFields h) with ⟨a, ha, heq⟩
  rw [Typed, ← heq]
  exact hf a ha

theorem typed_of_node {action : Entries Value → Decoded (NodeRef → Action)}
    (hf : ∀ f, action es = .ok f → ∀ r, (f r).Typed) (h : onNode fields action es = .ok o) :
    o.Typed := by
  rcases action_of_onNode h with ⟨f, r, hread, heq⟩
  rw [Typed, heq]
  exact hf f hread r

theorem typed_of_reader {word : String} {read : Entries Value → Decoded Operation}
    (hread : reader? word = some read) (h : read es = .ok o) : o.Typed := by
  unfold reader? at hread
  split at hread <;> cases hread
  -- The cases are the kinds of operations, in the order of their words.
  case h_1 =>
    refine typed_of_map ?_ h
    intro n hn
    rcases Shape.required_eq_ok.1 hn with ⟨v, -, hdecode⟩
    exact NewNode.typed_of_decode hdecode
  case h_3 =>
    refine typed_of_node ?_ h
    intro f hf r
    rcases Decoded.map_eq_ok.1 hf with ⟨changes, hchanges, rfl⟩
    rcases Shape.required_eq_ok.1 hchanges with ⟨v, -, hfilled⟩
    exact filledObject_ne_nil hfilled
  case h_11 | h_12 | h_13 =>
    refine typed_of_map ?_ h
    intro text htext
    rcases Shape.required_eq_ok.1 htext with ⟨v, -, hfilled⟩
    exact filledString_ne_empty hfilled
  case h_4 =>
    refine typed_of_node ?_ h
    intro f hf r
    rcases Decoded.map_eq_ok.1 hf with ⟨position, -, rfl⟩
    trivial
  case h_2 | h_5 | h_6 =>
    refine typed_of_node ?_ h
    intro f hf r
    cases hf
    trivial
  -- Links and settings are only read field by field.
  case h_7 | h_8 | h_9 | h_10 =>
    refine typed_of_map ?_ h
    intro _ _
    trivial

theorem typed_of_parse {index : Nat} {v : Value} (h : parse index v = .ok o) : o.Typed := by
  obtain ⟨es, word, read, -, -, hread, hes⟩ := exists_reader_of_parse h
  exact typed_of_reader hread hes

end Typed

/-! ### Written operations -/

/-- The fields of every operation, with those of its kind behind them. -/
def written (description : Option String) (word : String) (own : Entries Value) : Entries Value :=
  [("description", textOrNull description), ("type", .str word)] ++ own

section Written

variable {description : Option String} {word : String} {own : Entries Value}
  {fields : List FieldName}

theorem ofEntries_of_reader {es : Entries Value} {o : Operation}
    {read : Entries Value → Decoded Operation} (hword : es.get? "type" = some (.str word))
    (hread : reader? word = some read) (h : read es = .ok o) : ofEntries es = .ok o := by
  simp only [ofEntries, hword, hread, h, Decoded.under]

theorem withFields_written {action : Entries Value → Decoded Action} {a : Action}
    (hkeys : own.keys = fields.map (·.wire))
    (haction : action (written description word own) = .ok a) :
    withFields fields action (written description word own) = .ok ⟨description, a⟩ := by
  have hdescription : maybe descriptionField Shape.string (written description word own) =
      .ok description :=
    Shape.text_of_getD rfl
  have hrest : Shape.noLeftovers (descriptionField :: typeField :: fields)
      (written description word own) = .ok () := by
    refine Shape.noLeftovers_of_keys (List.Perm.of_eq ?_)
    change "description" :: "type" :: own.keys = _
    rw [hkeys]
    rfl
  rw [withFields, hdescription, haction, hrest]
  rfl

theorem onNode_written {action : Entries Value → Decoded (NodeRef → Action)}
    {f : NodeRef → Action} {r : NodeRef} (hkeys : own.keys = fields.map (·.wire))
    (haction : action (written description word (refEntries r ++ own)) = .ok f) :
    onNode fields action (written description word (refEntries r ++ own)) =
      .ok ⟨description, f r⟩ := by
  let es := written description word (refEntries r ++ own)
  have hdescription : maybe descriptionField Shape.string es = .ok description :=
    Shape.text_of_getD rfl
  have hid : maybe nodeIdField Shape.string es = .ok r.id := Shape.text_of_getD rfl
  have hname : maybe nodeNameField Shape.string es = .ok r.name := Shape.text_of_getD rfl
  have hrest : Shape.noLeftovers
      (descriptionField :: nodeIdField :: nodeNameField :: typeField :: fields) es = .ok () := by
    refine Shape.noLeftovers_of_keys ?_
    -- The kind is written second and listed last.
    change (["description", "type", "nodeId", "nodeName"] ++ own.keys).Perm _
    rw [hkeys]
    have hfirst : ["description", "type", "nodeId", "nodeName"].Perm
        ["description", "nodeId", "nodeName", "type"] := by decide
    exact hfirst.append_right (fields.map (·.wire))
  change onNode fields action es = _
  rw [onNode, hdescription, hid, hname, show action es = .ok f from haction, hrest]
  exact dif_pos r.given

end Written

theorem filledString_of_ne {s : String} (h : s ≠ "") : Shape.filledString (.str s) = .ok s := by
  simp [Shape.filledString, h]

theorem filledObject_of_ne {es : Entries Value} (h : es ≠ []) :
    filledObject (.obj es) = .ok es := by
  simp [filledObject, Shape.object, Decoded.bind, h]

theorem decodeLinkChanges_value (c : LinkChanges) :
    decodeLinkChanges (linkChangesValue c) = .ok c := by
  let es : Entries Value :=
    [("sourceOutput", textOrNull c.output), ("targetInput", textOrNull c.input),
      ("sourceIndex", wholeOrNull c.sourceIndex), ("targetIndex", wholeOrNull c.targetIndex)]
  have houtput : maybe sourceOutputField Shape.string es = .ok c.output := Shape.text_of_getD rfl
  have hinput : maybe targetInputField Shape.string es = .ok c.input := Shape.text_of_getD rfl
  have hslot : maybe sourceIndexField Shape.integer es = .ok c.sourceIndex :=
    Shape.whole_of_getD rfl
  have hindex : maybe targetIndexField Shape.integer es = .ok c.targetIndex :=
    Shape.whole_of_getD rfl
  have hrest : Shape.noLeftovers
      [sourceOutputField, targetInputField, sourceIndexField, targetIndexField] es = .ok () :=
    Shape.noLeftovers_of_keys (List.Perm.refl _)
  change Shape.model "ConnectionChanges" _ (.obj es) = _
  simp only [Shape.model, houtput, hinput, hslot, hindex, hrest, Decoded.map_ok, Decoded.seq_ok]

/-- The wire form of a typed operation is read as the operation. -/
theorem ofEntries_written (description : Option String) {a : Action} (h : a.Typed) :
    ofEntries (written description a.word (actionEntries a)) = .ok ⟨description, a⟩ := by
  -- Each kind of action is found by its word, and the reader of its fields finds what was
  -- written.
  cases a with
  | addNode n =>
    refine ofEntries_of_reader rfl rfl (withFields_written rfl ?_)
    rw [Shape.required_of_get? rfl (NewNode.decode_toAllEntries h), Decoded.map_ok]
  | removeNode r => exact ofEntries_of_reader rfl rfl (onNode_written rfl rfl)
  | updateNode r changes =>
    refine ofEntries_of_reader rfl rfl
      (onNode_written (f := fun r => .updateNode r changes) (r := r) rfl ?_)
    rw [Shape.required_of_get? rfl (filledObject_of_ne h), Decoded.map_ok]
  | moveNode r position =>
    exact ofEntries_of_reader rfl rfl
      (onNode_written (f := fun r => .moveNode r position) (r := r) rfl rfl)
  | enableNode r => exact ofEntries_of_reader rfl rfl (onNode_written rfl rfl)
  | disableNode r => exact ofEntries_of_reader rfl rfl (onNode_written rfl rfl)
  | addConnection l => exact ofEntries_of_reader rfl rfl (withFields_written rfl rfl)
  | removeConnection l =>
    refine ofEntries_of_reader rfl rfl (withFields_written rfl ?_)
    have hslot : maybe sourceIndexField Shape.integer (written description
        (Action.removeConnection l).word (actionEntries (.removeConnection l))) =
          .ok l.sourceIndex :=
      Shape.whole_of_getD rfl
    rw [decodeRemovedLinks, hslot]
    rfl
  | updateConnection l =>
    refine ofEntries_of_reader rfl rfl (withFields_written rfl ?_)
    have hslot : maybe sourceIndexField Shape.integer (written description
        (Action.updateConnection l).word (actionEntries (.updateConnection l))) =
          .ok l.sourceIndex :=
      Shape.whole_of_getD rfl
    rw [decodeChangedLink, hslot, Shape.required_of_get? rfl (decodeLinkChanges_value l.changes)]
    rfl
  | updateSettings settings => exact ofEntries_of_reader rfl rfl (withFields_written rfl rfl)
  | updateName name =>
    refine ofEntries_of_reader rfl rfl (withFields_written rfl ?_)
    rw [Shape.required_of_get? rfl (filledString_of_ne h), Decoded.map_ok]
  | addTag tag =>
    refine ofEntries_of_reader rfl rfl (withFields_written rfl ?_)
    rw [Shape.required_of_get? rfl (filledString_of_ne h), Decoded.map_ok]
  | removeTag tag =>
    refine ofEntries_of_reader rfl rfl (withFields_written rfl ?_)
    rw [Shape.required_of_get? rfl (filledString_of_ne h), Decoded.map_ok]

theorem parse_toValue {o : Operation} (h : o.Typed) (index : Nat) :
    parse index o.toValue = .ok o := by
  have hread := ofEntries_written o.description h
  change parse index (.obj (written o.description o.action.word (actionEntries o.action))) = .ok o
  rw [parse, hread]

/-- Typed operations are those that some value is read as. -/
theorem typed_iff {o : Operation} : o.Typed ↔ ∃ index v, parse index v = .ok o := by
  constructor
  · intro h
    exact ⟨0, o.toValue, parse_toValue h 0⟩
  · intro hexists
    rcases hexists with ⟨index, v, h⟩
    exact typed_of_parse h

theorem parseFrom_toValue {os : List Operation} (h : ∀ o ∈ os, o.Typed) (index : Nat) :
    parseFrom index (os.map toValue) = (os, []) := by
  induction os generalizing index with
  | nil => rfl
  | cons o rest ih =>
    have hrest : ∀ o ∈ rest, o.Typed := fun o ho => h o (List.mem_cons_of_mem _ ho)
    rw [List.map_cons, parseFrom, ih hrest, parse_toValue (h o List.mem_cons_self)]

end Operation

namespace Editor

/-- The wire forms of typed operations are read without an error as these operations, so a batch of
them comes to the same as the batch of the operations. Operations are values here: that two places
of a batch hold one and the same object, and change together, cannot be said of them. -/
theorem applyWith_toValue {os : List Operation} (h : ∀ o ∈ os, o.Typed) :
    Operation.parseAll (os.map Operation.toValue) = (os, []) ∧
      ∀ (e : Editor) (ids : IdSupply) (dryRun : Bool) (nextId : Nat) (d : Document),
        e.applyWith ids dryRun nextId d (os.map Operation.toValue) =
          e.applyOperations ids dryRun nextId d os := by
  have hparse : Operation.parseAll (os.map Operation.toValue) = (os, []) :=
    Operation.parseFrom_toValue h 0
  refine ⟨hparse, ?_⟩
  intro e ids dryRun nextId d
  rw [applyWith, hparse]

/-- A name is enough for a reference. -/
theorem isSome_name (name : String) : (none : Option String).isSome ∨ (some name).isSome :=
  Or.inr rfl

/-- An operation of every kind. The node that is added holds an entry under the second spelling of a
field that it leaves open. -/
def everyKind : List Operation :=
  let r : NodeRef := ⟨none, some "A", isSome_name "A"⟩
  let n : NodeBody :=
    { name := "A", type := "n8n-nodes-base.set", extra := [("type_version", .int 2)] }
  [.addNode ⟨n, none⟩, .removeNode r, .updateNode r [("parameters.url", .null)],
    .moveNode r ⟨.int 0, .int 1⟩, .enableNode r, .disableNode r,
    .addConnection ⟨"A", "A", "main", "main", 0, 0⟩,
    .removeConnection ⟨"A", "A", "main", "main", none⟩,
    .updateConnection ⟨"A", "A", "main", some 1, ⟨none, some "", none, some 2⟩⟩,
    .updateSettings [], .updateName "B", .addTag "t", .removeTag "t"].map fun a => ⟨some "", a⟩

theorem every_kind_read_back :
    everyKind.map (·.action.word) = Action.words ∧ (∀ o ∈ everyKind, o.Typed) ∧
      Operation.parseAll (everyKind.map Operation.toValue) = (everyKind, []) := by
  have htyped : ∀ o ∈ everyKind, o.Typed := by decide
  exact ⟨rfl, htyped, (applyWith_toValue htyped).1⟩

end Editor
end Workflows
