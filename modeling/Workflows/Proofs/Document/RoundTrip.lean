import Workflows.Proofs.Decoded

/-!
# RoundTrip — documents that are written down and read again

A document is written down without the fields of its nodes that are not set, and without what is
null beside the fields. When it is read again, each field is looked up under both spellings, so it
is read as it was unless something else stands under one of them. A document that was read from a
value has nothing but second spellings there; without these, it comes back without its nulls, and
is written down the same way once more.

Main definitions:

* `Node.Storable`, `Document.Storable` — what is held beside the fields has none of their names;
* `Node.stripped`, `Document.stripped` — nodes and documents without the nulls beside the fields;
* `Document.decode_toValue` — a document that is read again is the stripped one;
* `Document.storable_of_decode` — documents that were read from values.
-/

namespace Workflows

/-! ## Checks that find what was written -/

namespace Decoded

variable {α β : Type}

@[simp] theorem map_ok (f : α → β) (a : α) : f <$> (ok a : Decoded α) = ok (f a) := rfl

@[simp] theorem seq_ok (f : α → β) (a : α) : (ok f : Decoded (α → β)) <*> ok a = ok (f a) := rfl

end Decoded

namespace Shape

variable {α β : Type} {kind : Value → Decoded α} {es : Entries Value} {f : FieldName} {a : α}

theorem find?_of_wire {v : Value} (hv : es.get? f.wire = some v) :
    f.find? es = some (f.wire, v) := by
  simp [FieldName.find?, hv]

theorem required_of_get? {v : Value} (hv : es.get? f.wire = some v) (h : kind v = .ok a) :
    required f kind es = .ok a := by
  simp [required, find?_of_wire hv, h, Decoded.under]

theorem optional_of_get? {absent : α} {v : Value} (hv : es.get? f.wire = some v)
    (h : kind v = .ok a) : optional f absent kind es = .ok a := by
  simp [optional, find?_of_wire hv, h, Decoded.under]

/-- A field that may be left open is read as it was written if it is not there in another
spelling. -/
theorem optional_of_map {o : Option α} {toValue : α → Value}
    (hread : ∀ a, kind (toValue a) = .ok a) (hnull : ∀ a, (toValue a).isNull = false)
    (hwire : es.get? f.wire = o.map toValue) (hplain : o = none → es.get? f.plain = none) :
    optional f none (nullable kind) es = .ok o := by
  cases o with
  | none => simp [optional, FieldName.find?, show es.get? f.wire = none from hwire, hplain rfl]
  | some a =>
    refine optional_of_get? hwire ?_
    have hne : toValue a ≠ .null := fun heq => by simpa [heq, Value.isNull] using hnull a
    rw [nullable]
    · rw [hread, Decoded.map_ok]
    · exact hne

theorem itemsFrom_map {toValue : β → Value} {g : β → α} {bs : List β}
    (h : ∀ b ∈ bs, kind (toValue b) = .ok (g b)) (index : Nat) :
    itemsFrom kind index (bs.map toValue) = .ok (bs.map g) := by
  induction bs generalizing index with
  | nil => rfl
  | cons b rest ih =>
    have hrest : ∀ b ∈ rest, kind (toValue b) = .ok (g b) :=
      fun b hb => h b (List.mem_cons_of_mem _ hb)
    simp [itemsFrom, h b List.mem_cons_self, ih hrest, Decoded.under]

/-- The items of a list that was written are read one by one. -/
theorem list_map {toValue : β → Value} {g : β → α} {bs : List β}
    (h : ∀ b ∈ bs, kind (toValue b) = .ok (g b)) :
    list kind (.arr (bs.map toValue)) = .ok (bs.map g) :=
  itemsFrom_map h 0

theorem list_map_self {toValue : α → Value} (h : ∀ a, kind (toValue a) = .ok a) (as : List α) :
    list kind (.arr (as.map toValue)) = .ok as := by
  rw [list_map fun a _ => h a, List.map_id']

theorem mapping_map_self {toValue : α → Value} (h : ∀ a, kind (toValue a) = .ok a)
    (as : Entries α) :
    mapping kind (.obj (as.map fun (key, a) => (key, toValue a))) = .ok as := by
  rw [mapping]
  induction as with
  | nil => rfl
  | cons e rest ih =>
    rcases e with ⟨key, a⟩
    rw [List.map_cons, entriesOf, h, ih]
    rfl

/-- Behind entries for the fields, all of which are read, the others are left over. -/
theorem leftovers_append {fields : List FieldName} {own extra : Entries Value}
    (hown : ∀ e ∈ own, ∃ f ∈ fields, e.1 = f.wire)
    (hextra : ∀ f ∈ fields, extra.get? f.wire = none ∧ extra.get? f.plain = none) :
    leftovers fields (own ++ extra) = extra := by
  let used := fields.filterMap fun f => (f.find? (own ++ extra)).map Prod.fst
  -- The keys that are found are those of the first part, and none of the second.
  have hown : own.filter (fun e => !used.contains e.1) = [] := by
    refine List.filter_eq_nil_iff.2 ?_
    intro e he
    rcases hown e he with ⟨f, hf, heq⟩
    have hkey : f.wire ∈ (own ++ extra : Entries Value).keys :=
      heq ▸ Entries.key_mem_keys (List.mem_append_left _ he)
    have hused : e.1 ∈ used := by
      cases hv : (own ++ extra : Entries Value).get? f.wire with
      | none => exact absurd hkey (Entries.get?_eq_none_iff.1 hv)
      | some v => exact List.mem_filterMap.2 ⟨f, hf, by simp [find?_of_wire hv, heq]⟩
    simpa using hused
  have hfree : extra.filter (fun e => !used.contains e.1) = extra := by
    refine List.filter_eq_self.2 ?_
    intro e he
    have hkey : e.1 ∈ extra.keys := Entries.key_mem_keys he
    have hunused : e.1 ∉ used := by
      intro hmem
      rcases List.mem_filterMap.1 hmem with ⟨f, hf, heq⟩
      rcases hextra f hf with ⟨hwire, hplain⟩
      rw [Entries.get?_eq_none_iff] at hwire hplain
      -- Whichever spelling is found, it is the name of a field.
      unfold FieldName.find? at heq
      split at heq
      · have h : f.wire = e.1 := by simpa using heq
        exact hwire (h ▸ hkey)
      · have h : f.plain = e.1 := by
          rcases Option.map_eq_some_iff.1 heq with ⟨p, hp, hp'⟩
          rcases Option.map_eq_some_iff.1 hp with ⟨v, -, rfl⟩
          exact hp'
        exact hplain (h ▸ hkey)
    simpa using hunused
  change (own ++ extra).filter (fun e => !used.contains e.1) = extra
  rw [List.filter_append, hown, hfree, List.nil_append]

end Shape

/-! ## Entries without nulls -/

namespace Entries

/-- Where each key occurs once, it is looked up among the values that are not null as among all. -/
theorem get?_withoutNulls {es : Entries Value} (hes : es.Distinct) (key : String) :
    es.withoutNulls.get? key = (es.get? key).filter fun v => !v.isNull := by
  induction es with
  | nil => rfl
  | cons e rest ih =>
    rcases e with ⟨k, v⟩
    rcases List.nodup_cons.1 hes with ⟨hnew, hrest⟩
    have ih := ih hrest
    unfold withoutNulls at ih ⊢
    by_cases hk : k = key
    · subst hk
      cases hv : v.isNull with
      | false => simp [get?, hv, Option.filter]
      | true =>
        -- The entry is left out, and no other one has its key.
        have hnone : get? k rest = none := get?_eq_none_iff.2 hnew
        simp [get?, hv, ih, hnone, Option.filter]
    · cases hv : v.isNull <;> simp [get?, hv, hk, ih]

theorem get?_withoutNulls_eq_none {es : Entries Value} {key : String} (h : es.get? key = none) :
    es.withoutNulls.get? key = none :=
  get?_eq_none_of_sublist List.filter_sublist h

@[simp] theorem withoutNulls_withoutNulls (es : Entries Value) :
    es.withoutNulls.withoutNulls = es.withoutNulls := by
  simp [withoutNulls, List.filter_filter]

end Entries

/-! ## Written nodes -/

namespace NodeBody

def ownEntries (id : Value) (b : NodeBody) : Entries Value :=
  toAllEntries id { b with extra := [] }

theorem toAllEntries_eq (id : Value) (b : NodeBody) :
    b.toAllEntries id = b.ownEntries id ++ b.extra := by
  simp [ownEntries, toAllEntries]

theorem written_eq (id : Value) (b : NodeBody) :
    (b.toAllEntries id).withoutNulls = (b.ownEntries id).withoutNulls ++ b.extra.withoutNulls := by
  rw [toAllEntries_eq]
  exact List.filter_append _ _

theorem keys_ownEntries (id : Value) (b : NodeBody) :
    (b.ownEntries id).keys = fieldNames.map (·.wire) := rfl

theorem distinct_ownEntries (id : Value) (b : NodeBody) : (b.ownEntries id).Distinct := by
  rw [Entries.Distinct, keys_ownEntries]
  decide

theorem get?_written (id : Value) (b : NodeBody) (key : String) :
    (b.toAllEntries id).withoutNulls.get? key =
      (((b.ownEntries id).get? key).filter fun v => !v.isNull).or
        (b.extra.withoutNulls.get? key) := by
  rw [written_eq, Entries.get?_append, Entries.get?_withoutNulls (distinct_ownEntries id b)]

theorem get?_written_of_some {id : Value} {b : NodeBody} {key : String} {v : Value}
    (hown : (b.ownEntries id).get? key = some v) (hv : v.isNull = false) :
    (b.toAllEntries id).withoutNulls.get? key = some v := by
  rw [get?_written, hown]
  simp [Option.filter, hv]

/-- Under its first spelling stands a field, if it has been set. -/
theorem get?_written_wire {id : Value} {b : NodeBody} {key : String} {α : Type} {o : Option α}
    {toValue : α → Value} (hextra : b.extra.get? key = none)
    (hnull : ∀ a, (toValue a).isNull = false)
    (hown : (b.ownEntries id).get? key = some ((o.map toValue).getD .null)) :
    (b.toAllEntries id).withoutNulls.get? key = o.map toValue := by
  rw [get?_written, hown, Entries.get?_withoutNulls_eq_none hextra]
  cases o with
  | none => rfl
  | some a => simp [Option.filter, hnull a]

/-- The second spellings of the fields that have two. -/
def secondSpellings : List String :=
  (fieldNames.filter fun f => f.plain != f.wire).map (·.plain)

def FirstSpelled (es : Entries Value) : Prop :=
  ∀ key ∈ secondSpellings, es.get? key = none

instance (es : Entries Value) : Decidable (FirstSpelled es) :=
  inferInstanceAs (Decidable (∀ key ∈ secondSpellings, es.get? key = none))

theorem mem_secondSpellings {f : FieldName} (hf : f ∈ fieldNames) (hne : f.plain ≠ f.wire) :
    f.plain ∈ secondSpellings :=
  List.mem_map.2 ⟨f, List.mem_filter.2 ⟨hf, by simpa using hne⟩, rfl⟩

theorem FirstSpelled.sublist {es fs : Entries Value} (h : FirstSpelled es)
    (hsub : fs.Sublist es) : FirstSpelled fs :=
  fun key hkey => Entries.get?_eq_none_of_sublist hsub (h key hkey)

theorem second_not_first : ∀ key ∈ secondSpellings, key ∉ fieldNames.map (·.wire) := by
  decide

end NodeBody

namespace Node

/-- A node whose name fits and that holds nothing beside its fields that has a name of one. -/
structure Storable (n : Node) : Prop where
  name : NodeBody.decodeName (.str n.name) = .ok n.name
  extra : ∀ f ∈ NodeBody.fieldNames, n.extra.get? f.wire = none ∧ n.extra.get? f.plain = none

def stripped (n : Node) : Node :=
  { n with extra := n.extra.withoutNulls }

theorem toEntries_stripped (n : Node) : n.stripped.toEntries = n.toEntries := by
  have hown : n.stripped.ownEntries (.str n.id) = n.ownEntries (.str n.id) := rfl
  change (n.stripped.toAllEntries (.str n.id)).withoutNulls =
    (n.toAllEntries (.str n.id)).withoutNulls
  rw [NodeBody.written_eq, NodeBody.written_eq, hown]
  exact congrArg _ (Entries.withoutNulls_withoutNulls n.extra)

section Written

variable {n : Node} {f : FieldName} {α : Type} {kind : Value → Decoded α} {v : Value} {a : α}

theorem required_toEntries (hown : (n.ownEntries (.str n.id)).get? f.wire = some v)
    (hv : v.isNull = false) (hread : kind v = .ok a) :
    Shape.required f kind n.toEntries = .ok a :=
  Shape.required_of_get? (NodeBody.get?_written_of_some hown hv) hread

theorem optional_toEntries {absent : α}
    (hown : (n.ownEntries (.str n.id)).get? f.wire = some v) (hv : v.isNull = false)
    (hread : kind v = .ok a) : Shape.optional f absent kind n.toEntries = .ok a :=
  Shape.optional_of_get? (NodeBody.get?_written_of_some hown hv) hread

variable (h : n.Storable) (hf : f ∈ NodeBody.fieldNames)

include h hf

/-- Under a second spelling stands nothing. -/
theorem Storable.get?_plain (hne : f.plain ≠ f.wire) : n.toEntries.get? f.plain = none := by
  have hown : (n.ownEntries (.str n.id)).get? f.plain = none := by
    rw [Entries.get?_eq_none_iff, NodeBody.keys_ownEntries]
    exact NodeBody.second_not_first f.plain (NodeBody.mem_secondSpellings hf hne)
  rw [toEntries, NodeBody.get?_written, hown,
    Entries.get?_withoutNulls_eq_none (h.extra f hf).2]
  rfl

/-- A field that may be left open is read as it is. -/
theorem Storable.nullable_toEntries {o : Option α} {toValue : α → Value}
    (hread : ∀ a, kind (toValue a) = .ok a) (hnull : ∀ a, (toValue a).isNull = false)
    (hown : (n.ownEntries (.str n.id)).get? f.wire = some ((o.map toValue).getD .null)) :
    Shape.optional f none (Shape.nullable kind) n.toEntries = .ok o := by
  have hwire : n.toEntries.get? f.wire = o.map toValue :=
    NodeBody.get?_written_wire (h.extra f hf).1 hnull hown
  refine Shape.optional_of_map hread hnull hwire ?_
  intro hopen
  by_cases hne : f.plain = f.wire
  · rw [hne, hwire, hopen, Option.map_none]
  · exact h.get?_plain hf hne

theorem Storable.truth_toEntries {o : Option Bool}
    (hown : (n.ownEntries (.str n.id)).get? f.wire = some ((o.map .bool).getD .null)) :
    Shape.optional f none (Shape.nullable Shape.boolean) n.toEntries = .ok o :=
  h.nullable_toEntries hf (fun _ => rfl) (fun _ => rfl) hown

theorem Storable.text_toEntries {o : Option String}
    (hown : (n.ownEntries (.str n.id)).get? f.wire = some ((o.map .str).getD .null)) :
    Shape.optional f none (Shape.nullable Shape.string) n.toEntries = .ok o :=
  h.nullable_toEntries hf (fun _ => rfl) (fun _ => rfl) hown

theorem Storable.whole_toEntries {o : Option Int}
    (hown : (n.ownEntries (.str n.id)).get? f.wire = some ((o.map .int).getD .null)) :
    Shape.optional f none (Shape.nullable Shape.integer) n.toEntries = .ok o :=
  h.nullable_toEntries hf (fun _ => rfl) (fun _ => rfl) hown

end Written

theorem Storable.leftovers {n : Node} (h : n.Storable) :
    Shape.leftovers NodeBody.fieldNames n.toEntries = n.extra.withoutNulls := by
  rw [toEntries, NodeBody.written_eq]
  refine Shape.leftovers_append ?_ ?_
  · intro e he
    have hkey : e.1 ∈ (n.ownEntries (.str n.id)).keys :=
      Entries.key_mem_keys (List.mem_filter.1 he).1
    rw [NodeBody.keys_ownEntries] at hkey
    rcases List.mem_map.1 hkey with ⟨f, hf, heq⟩
    exact ⟨f, hf, heq.symm⟩
  · intro f hf
    exact (h.extra f hf).imp Entries.get?_withoutNulls_eq_none Entries.get?_withoutNulls_eq_none

/-- A node that is written down and read again has lost the nulls beside its fields. -/
theorem ofEntries_toEntries {n : Node} (h : n.Storable) :
    Node.ofEntries n.toEntries = .ok n.stripped := by
  -- What a node always has is always written.
  have hid : Shape.required (.single "id") Shape.string n.toEntries = .ok n.id :=
    required_toEntries rfl rfl rfl
  have hname : Shape.required (.single "name") NodeBody.decodeName n.toEntries = .ok n.name :=
    required_toEntries rfl rfl h.name
  have htype : Shape.required (.single "type") Shape.string n.toEntries = .ok n.type :=
    required_toEntries rfl rfl rfl
  have hposition : Shape.optional (.single "position") ⟨.int 0, .int 0⟩ NodeBody.decodePosition
      n.toEntries = .ok n.position :=
    optional_toEntries rfl rfl rfl
  have hparameters : Shape.optional (.single "parameters") [] Shape.object n.toEntries =
      .ok n.parameters :=
    optional_toEntries rfl rfl rfl
  have hdisabled : Shape.optional (.single "disabled") false Shape.boolean n.toEntries =
      .ok n.disabled :=
    optional_toEntries rfl rfl rfl
  -- What it may lack is found under neither spelling then.
  have hversion : Shape.optional ⟨"typeVersion", "type_version"⟩ none
      (Shape.nullable Shape.number) n.toEntries = .ok n.typeVersion :=
    h.nullable_toEntries (by decide) (fun _ => rfl) (fun _ => rfl) rfl
  have hcredentials : Shape.optional (.single "credentials") none
      (Shape.nullable Shape.object) n.toEntries = .ok n.credentials :=
    h.nullable_toEntries (by decide) (fun _ => rfl) (fun _ => rfl) rfl
  have hnotes := h.text_toEntries (f := .single "notes") (o := n.notes) (by decide) rfl
  have hnotesInFlow := h.truth_toEntries (f := ⟨"notesInFlow", "notes_in_flow"⟩)
    (o := n.notesInFlow) (by decide) rfl
  have honError := h.text_toEntries (f := ⟨"onError", "on_error"⟩) (o := n.onError)
    (by decide) rfl
  have hcontinueOnFail := h.truth_toEntries (f := ⟨"continueOnFail", "continue_on_fail"⟩)
    (o := n.continueOnFail) (by decide) rfl
  have hretryOnFail := h.truth_toEntries (f := ⟨"retryOnFail", "retry_on_fail"⟩)
    (o := n.retryOnFail) (by decide) rfl
  have hmaxTries := h.whole_toEntries (f := ⟨"maxTries", "max_tries"⟩) (o := n.maxTries)
    (by decide) rfl
  have hwaitBetweenTries := h.whole_toEntries
    (f := ⟨"waitBetweenTries", "wait_between_tries"⟩) (o := n.waitBetweenTries) (by decide) rfl
  have halwaysOutputData := h.truth_toEntries
    (f := ⟨"alwaysOutputData", "always_output_data"⟩) (o := n.alwaysOutputData) (by decide) rfl
  have hexecuteOnce := h.truth_toEntries (f := ⟨"executeOnce", "execute_once"⟩)
    (o := n.executeOnce) (by decide) rfl
  rw [Node.ofEntries, NodeBody.decode, hid, hname, htype, hversion, hposition, hparameters,
    hcredentials, hdisabled, hnotes, hnotesInFlow, honError, hcontinueOnFail, hretryOnFail,
    hmaxTries, hwaitBetweenTries, halwaysOutputData, hexecuteOnce, h.leftovers]
  rfl

/-- A node that was read from entries without second spellings is storable. -/
theorem storable_of_ofEntries {es : Entries Value} {n : Node} (h : Node.ofEntries es = .ok n)
    (hes : NodeBody.FirstSpelled es) : n.Storable := by
  unfold Node.ofEntries at h
  rw [Decoded.seq_eq_ok] at h
  rcases h with ⟨_, hid, b, hbody, rfl⟩
  rcases Decoded.map_eq_ok.1 hid with ⟨id, -, rfl⟩
  rcases NodeBody.of_decode hbody with ⟨-, hname, hextra⟩
  refine ⟨hname, ?_⟩
  intro f hf
  have hwire : b.extra.get? f.wire = none := by
    rw [hextra]
    exact Shape.get?_leftovers hf es
  refine ⟨hwire, ?_⟩
  by_cases hne : f.plain = f.wire
  · rw [hne]
    exact hwire
  · rw [hextra]
    exact hes.sublist List.filter_sublist f.plain (NodeBody.mem_secondSpellings hf hne)

end Node

/-! ## Written connections -/

namespace Connections

theorem decodeTarget_targetValue (t : Target) : decodeTarget (targetValue t) = .ok t := rfl

theorem decode_slotValue (s : Slot) :
    Shape.nullable (Shape.list decodeTarget) (slotValue s) = .ok s := by
  cases s with
  | none => rfl
  | some ts =>
    change some <$> Shape.list decodeTarget (.arr (ts.map targetValue)) = .ok (some ts)
    rw [Shape.list_map_self decodeTarget_targetValue, Decoded.map_ok]

/-- Connections are read as they were written, slots that are null included. -/
theorem decode_toValue (cs : Connections) : decode cs.toValue = .ok cs :=
  Shape.mapping_map_self (fun os => Shape.mapping_map_self
    (fun slots => Shape.list_map_self decode_slotValue slots) os) cs

end Connections

/-! ## Written documents -/

namespace Document

/-- A document of storable nodes that holds nothing beside its fields that has a name of one. -/
structure Storable (d : Document) : Prop where
  nodes : ∀ n ∈ d.nodes, n.Storable
  extra : ∀ f ∈ fieldNames, d.extra.get? f.wire = none

def stripped (d : Document) : Document :=
  { d with nodes := d.nodes.map Node.stripped, extra := d.extra.withoutNulls }

theorem toValue_stripped (d : Document) : d.stripped.toValue = d.toValue := by
  have hnodes : d.stripped.nodes.map (fun n => Value.obj n.toEntries) =
      d.nodes.map fun n => .obj n.toEntries := by
    have hmap : d.stripped.nodes = d.nodes.map Node.stripped := rfl
    rw [hmap, List.map_map]
    refine List.map_congr_left ?_
    intro n _
    exact congrArg Value.obj n.toEntries_stripped
  have hextra : d.stripped.extra.withoutNulls = d.extra.withoutNulls :=
    Entries.withoutNulls_withoutNulls d.extra
  unfold toValue toEntries
  rw [hnodes, hextra]
  rfl

theorem Storable.leftovers {d : Document} (h : d.Storable) :
    Shape.leftovers fieldNames d.toEntries = d.extra.withoutNulls := by
  rw [toEntries]
  refine Shape.leftovers_append ?_ ?_
  · intro e he
    have hkey : e.1 ∈ fieldNames.map (·.wire) := List.mem_map_of_mem he
    rcases List.mem_map.1 hkey with ⟨f, hf, heq⟩
    exact ⟨f, hf, heq.symm⟩
  · intro f hf
    have hwire := Entries.get?_withoutNulls_eq_none (h.extra f hf)
    have hsingle : ∀ f ∈ fieldNames, f.plain = f.wire := by decide
    rw [hsingle f hf]
    exact ⟨hwire, hwire⟩

/-- A document that is written down and read again has lost the nulls beside the fields. -/
theorem decode_toValue {d : Document} (h : d.Storable) : decode d.toValue = .ok d.stripped := by
  have hname : Shape.optional (.single "name") "" Shape.string d.toEntries = .ok d.name :=
    Shape.optional_of_get? rfl rfl
  have hnodes : Shape.required (.single "nodes") (Shape.list Node.decode) d.toEntries =
      .ok (d.nodes.map Node.stripped) :=
    Shape.required_of_get? rfl
      (Shape.list_map fun n hn => Node.ofEntries_toEntries (h.nodes n hn))
  have hconnections : Shape.optional (.single "connections") [] Connections.decode d.toEntries =
      .ok d.connections :=
    Shape.optional_of_get? rfl (Connections.decode_toValue d.connections)
  have hsettings : Shape.optional (.single "settings") [] Shape.object d.toEntries =
      .ok d.settings :=
    Shape.optional_of_get? rfl rfl
  have hstring : ∀ s, Shape.string (.str s) = .ok s := fun _ => rfl
  have htags : Shape.optional (.single "tags") [] (Shape.list Shape.string) d.toEntries =
      .ok d.tags :=
    Shape.optional_of_get? rfl (Shape.list_map_self hstring d.tags)
  rw [toValue, decode, ofEntries, hname, hnodes, hconnections, hsettings, htags, h.leftovers]
  rfl

def nodeValues : Value → List Value
  | .obj es =>
    match Entries.get? "nodes" es with
    | some (.arr items) => items
    | _ => []
  | _ => []

def FirstSpelled (v : Value) : Prop :=
  ∀ node ∈ nodeValues v, NodeBody.FirstSpelled (node.obj?.getD [])

instance (v : Value) : Decidable (FirstSpelled v) :=
  inferInstanceAs (Decidable (∀ node ∈ nodeValues v, NodeBody.FirstSpelled (node.obj?.getD [])))

end Document

theorem Shape.exists_of_itemsFrom {α : Type} {kind : Value → Decoded α} {index : Nat}
    {items : List Value} {as : List α} (h : itemsFrom kind index items = .ok as) :
    ∀ a ∈ as, ∃ v ∈ items, kind v = .ok a := by
  induction items generalizing index as with
  | nil =>
    cases h
    simp
  | cons v rest ih =>
    rcases Decoded.seq_eq_ok.1 h with ⟨_, hfirst, more, hmore, rfl⟩
    rcases Decoded.map_eq_ok.1 hfirst with ⟨a, ha, rfl⟩
    rw [Decoded.under_eq_ok] at ha
    intro b hb
    rcases List.mem_cons.1 hb with rfl | hb
    · exact ⟨v, List.mem_cons_self, ha⟩
    · rcases ih hmore b hb with ⟨w, hw, hread⟩
      exact ⟨w, List.mem_cons_of_mem v hw, hread⟩

namespace Document

theorem of_ofEntries {es : Entries Value} {d : Document} (h : ofEntries es = .ok d) :
    (∀ n ∈ d.nodes, ∃ v ∈ nodeValues (.obj es), Node.decode v = .ok n) ∧
      d.extra = Shape.leftovers fieldNames es := by
  unfold ofEntries at h
  rw [Decoded.seq_eq_ok] at h
  rcases h with ⟨_, h, extra, hextra, rfl⟩
  -- The fields behind the nodes.
  iterate 3
    rw [Decoded.seq_eq_ok] at h
    rcases h with ⟨_, h, _, -, rfl⟩
  rw [Decoded.seq_eq_ok] at h
  rcases h with ⟨_, h, nodes, hnodes, rfl⟩
  rw [Decoded.map_eq_ok] at h
  rcases h with ⟨_, -, rfl⟩
  rcases Shape.required_eq_ok.1 hnodes with ⟨v, hv, hlist⟩
  cases hextra
  refine ⟨?_, rfl⟩
  cases v with
  | arr items =>
    have hitems : nodeValues (.obj es) = items := by simp [nodeValues, hv]
    rw [hitems]
    exact Shape.exists_of_itemsFrom hlist
  | _ => simp [Shape.list, Decoded.fail] at hlist

/-- A document that was read from a value without second spellings is storable. -/
theorem storable_of_decode {v : Value} {d : Document} (h : decode v = .ok d)
    (hv : FirstSpelled v) : d.Storable := by
  cases v with
  | obj es =>
    rcases of_ofEntries h with ⟨hnodes, hextra⟩
    constructor
    · intro n hn
      rcases hnodes n hn with ⟨w, hw, hread⟩
      rcases Shape.model_eq_ok.1 hread with ⟨fields, rfl, hfields⟩
      exact Node.storable_of_ofEntries hfields (hv _ hw)
    · intro f hf
      rw [hextra]
      exact Shape.get?_leftovers hf es
  | _ => simp [decode, Decoded.fail] at h

end Document
end Workflows
