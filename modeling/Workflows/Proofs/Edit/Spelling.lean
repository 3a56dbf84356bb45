import Workflows.Proofs.Document.Fields
import Workflows.Proofs.Edit.InOrder

/-!
# Spelling — updates of a field under either of its spellings

Fields of nodes may have two spellings, and both are read. An update writes under the spelling that
it is given, beside what the node has under the first one, and the first one is read when it is
there. So the second spelling does what the first one does as long as the field is not set. Once it
is, an update under the second spelling leaves the field as it was, and adds an entry that is none
of the fields.

Main definitions:

* `NodeBody.twoSpellings`, `Node.field` — the fields with two spellings, and what a node has there;
* `Draft.fieldAfter`, `Draft.fieldAfter_eq_some_iff` — what a node has there after an update;
* `Draft.spellings_agree_iff` — when both spellings do the same.
-/

namespace Workflows

namespace NodeBody

def twoSpellings : List FieldName :=
  fieldNames.filter fun f => f.plain != f.wire

theorem twoSpellings_eq :
    twoSpellings =
      [⟨"typeVersion", "type_version"⟩, ⟨"notesInFlow", "notes_in_flow"⟩, ⟨"onError", "on_error"⟩,
        ⟨"continueOnFail", "continue_on_fail"⟩, ⟨"retryOnFail", "retry_on_fail"⟩,
        ⟨"maxTries", "max_tries"⟩, ⟨"waitBetweenTries", "wait_between_tries"⟩,
        ⟨"alwaysOutputData", "always_output_data"⟩, ⟨"executeOnce", "execute_once"⟩] := by
  decide

/-- No spelling of a field with two of them is one of another field. -/
theorem spellings_apart : ∀ f ∈ twoSpellings, ∀ g ∈ fieldNames, g ≠ f →
    (g.wire ≠ f.wire ∧ g.plain ≠ f.wire) ∧ g.wire ≠ f.plain ∧ g.plain ≠ f.plain := by
  decide

/-- The spellings are single keys, and none of those by which nodes are told apart. -/
theorem spellings_simple : ∀ f ∈ twoSpellings, f.plain ≠ f.wire ∧ ∀ key ∈ [f.wire, f.plain],
    DottedPath.keys key = [key] ∧ key ∉ ["", "id", "name", "type"] := by
  decide

end NodeBody

namespace Node

variable {f : FieldName} {n : Node} {es es' : Entries Value} {v : Value}

/-- What a node has in a field, null if it is not set. -/
def field (f : FieldName) (n : Node) : Value :=
  ((n.ownEntries (.str n.id)).get? f.wire).getD .null

def Fits (f : FieldName) (v : Value) : Prop :=
  ∀ c ∈ judged, c.1 = f → c.2 (some v)

theorem nullable_of_ne {α : Type} {kind : Value → Decoded α} (hv : v ≠ .null) :
    Shape.nullable kind v = some <$> kind v := by
  cases v with
  | null => exact absurd rfl hv
  | _ => rfl

/-- What is read for a field that may be left open is what is found for it. -/
theorem found_of_nullable {α : Type} {kind : Value → Decoded α} {toValue : α → Value} {o : Option α}
    (hkind : ∀ v a, kind v = .ok a → v = toValue a)
    (h : Shape.optional f none (Shape.nullable kind) es = .ok o) :
    (o.map toValue).getD .null = (f.found es).getD .null := by
  unfold Shape.optional at h
  unfold FieldName.found
  cases hfind : f.find? es with
  | none =>
    simp only [hfind, Decoded.ok.injEq] at h
    simp [← h]
  | some p =>
    rcases p with ⟨key, v⟩
    simp only [hfind, Decoded.under_eq_ok] at h
    simp only [Option.map_some, Option.getD_some]
    by_cases hv : v = .null
    · subst hv
      cases h
      rfl
    · rw [nullable_of_ne hv] at h
      rcases Decoded.map_eq_ok.1 h with ⟨a, ha, rfl⟩
      rw [Option.map_some, Option.getD_some, hkind v a ha]

/-- A field with two spellings has, in a node that is read, what is found for it. -/
theorem field_of_ofEntries (hf : f ∈ NodeBody.twoSpellings) (h : ofEntries es = .ok n) :
    n.field f = (f.found es).getD .null := by
  have hreads := (ofEntries_eq_ok_iff.1 h).2
  have hnumber : ∀ v a, Shape.number v = .ok a → v = .num a := by
    intro v a hv
    cases v <;> simp_all [Shape.number]
  have hboolean : ∀ v a, Shape.boolean v = .ok a → v = .bool a := by
    intro v a hv
    cases v <;> simp_all [Shape.boolean, Decoded.fail]
  have hinteger : ∀ v a, Shape.integer v = .ok a → v = .int a := by
    intro v a hv
    cases v with
    | num x => cases x <;> simp_all [Shape.integer, Decoded.fail, Value.int]
    | _ => simp [Shape.integer, Decoded.fail] at hv
  -- Each of the fields is read from what is found under one of its spellings.
  rw [NodeBody.twoSpellings_eq] at hf
  simp only [List.mem_cons, List.not_mem_nil, or_false] at hf
  rcases hf with rfl | rfl | rfl | rfl | rfl | rfl | rfl | rfl | rfl
  · exact found_of_nullable hnumber hreads.typeVersion
  · exact found_of_nullable hboolean hreads.notesInFlow
  · exact found_of_nullable (fun _ _ => Shape.string_eq_ok.1) hreads.onError
  · exact found_of_nullable hboolean hreads.continueOnFail
  · exact found_of_nullable hboolean hreads.retryOnFail
  · exact found_of_nullable hinteger hreads.maxTries
  · exact found_of_nullable hinteger hreads.waitBetweenTries
  · exact found_of_nullable hboolean hreads.alwaysOutputData
  · exact found_of_nullable hboolean hreads.executeOnce

theorem fits_iff {test : Option Value → Prop} (h : (f, test) ∈ judged) :
    Fits f v ↔ test (some v) := by
  have hnodup : (judged.map Prod.fst).Nodup := by
    rw [map_fst_judged]
    decide
  constructor
  · intro hfits
    exact hfits (f, test) h rfl
  · intro htest c hc heq
    obtain rfl : c = (f, test) := List.inj_on_of_nodup_map hnodup hc h heq
    exact htest

theorem may_nullable {α : Type} {kind : Value → Decoded α} {toValue : α → Value}
    (hread : ∀ a, (Shape.nullable kind (toValue a)).Passes) (o : Option α) :
    Shape.May (Shape.nullable kind) (some ((o.map toValue).getD .null)) := by
  intro v hv
  obtain rfl := Option.some.inj hv
  cases o with
  | none => exact Decoded.passes_ok none
  | some a => exact hread a

/-- What a node has in a field with two spellings fits. -/
theorem fits_field (hf : f ∈ NodeBody.twoSpellings) (n : Node) : Fits f (n.field f) := by
  have hnumber : ∀ a, (Shape.nullable Shape.number (.num a)).Passes := fun a => ⟨some a, rfl⟩
  have hboolean : ∀ a, (Shape.nullable Shape.boolean (.bool a)).Passes := fun a => ⟨some a, rfl⟩
  have htext : ∀ a, (Shape.nullable Shape.string (.str a)).Passes := fun a => ⟨some a, rfl⟩
  have hinteger : ∀ a, (Shape.nullable Shape.integer (.int a)).Passes := fun a => ⟨some a, rfl⟩
  rw [NodeBody.twoSpellings_eq] at hf
  simp only [List.mem_cons, List.not_mem_nil, or_false] at hf
  rcases hf with rfl | rfl | rfl | rfl | rfl | rfl | rfl | rfl | rfl
  · exact (fits_iff (by simp [judged])).2 (may_nullable hnumber n.typeVersion)
  · exact (fits_iff (by simp [judged])).2 (may_nullable hboolean n.notesInFlow)
  · exact (fits_iff (by simp [judged])).2 (may_nullable htext n.onError)
  · exact (fits_iff (by simp [judged])).2 (may_nullable hboolean n.continueOnFail)
  · exact (fits_iff (by simp [judged])).2 (may_nullable hboolean n.retryOnFail)
  · exact (fits_iff (by simp [judged])).2 (may_nullable hinteger n.maxTries)
  · exact (fits_iff (by simp [judged])).2 (may_nullable hinteger n.waitBetweenTries)
  · exact (fits_iff (by simp [judged])).2 (may_nullable hboolean n.alwaysOutputData)
  · exact (fits_iff (by simp [judged])).2 (may_nullable hboolean n.executeOnce)

/-- Whether a node can be read depends on each field by itself. -/
theorem passes_of_found (hothers : ∀ g ∈ NodeBody.fieldNames, g ≠ f → g.found es = g.found es')
    (hfits : ∃ v, f.found es' = some v ∧ Fits f v) (h : (ofEntries es).Passes) :
    (ofEntries es').Passes := by
  rw [passes_ofEntries_iff] at h ⊢
  intro c hc
  by_cases heq : c.1 = f
  · rcases hfits with ⟨v, hv, hfits⟩
    rw [heq, hv]
    exact hfits c hc heq
  · have hmem : c.1 ∈ NodeBody.fieldNames := map_fst_judged ▸ List.mem_map_of_mem hc
    rw [← hothers c.1 hmem heq]
    exact h c hc

theorem fits_of_passes (hv : f.found es = some v) (h : (ofEntries es).Passes) : Fits f v := by
  intro c hc heq
  rw [← hv, ← heq]
  exact passes_ofEntries_iff.1 h c hc

end Node

namespace FieldName

variable {f g : FieldName} {es : Entries Value} {v : Value}

theorem found_put_wire (f : FieldName) (v : Value) (es : Entries Value) :
    f.found (es.put f.wire v) = some v := by
  simp [found, find?]

/-- Under the second spelling a value is found if there is none under the first one. -/
theorem found_put_plain (hne : f.plain ≠ f.wire) (v : Value) (es : Entries Value) :
    f.found (es.put f.plain v) = (es.get? f.wire).or (some v) := by
  rw [found, find?, Entries.get?_put_of_ne v es hne.symm]
  cases es.get? f.wire <;> simp

theorem found_put_other {key : String} (hwire : g.wire ≠ key) (hplain : g.plain ≠ key) :
    g.found (es.put key v) = g.found es := by
  have hget : (es.put key v).get? g.wire = es.get? g.wire := Entries.get?_put_of_ne v es hwire
  have hget' : (es.put key v).get? g.plain = es.get? g.plain := Entries.get?_put_of_ne v es hplain
  unfold found find?
  rw [hget, hget']

end FieldName

/-- Under the first spelling of a field stands what the node has there, if it is set. -/
theorem Node.get?_toEntries_field {f : FieldName} {n : Node} (hf : f ∈ NodeBody.twoSpellings)
    (hextra : n.extra.get? f.wire = none) :
    n.toEntries.get? f.wire = (some (n.field f)).filter fun v => !v.isNull := by
  have hmem : f.wire ∈ (n.ownEntries (.str n.id)).keys := by
    rw [NodeBody.keys_ownEntries]
    exact List.mem_map_of_mem (List.mem_filter.1 hf).1
  have hown : (n.ownEntries (.str n.id)).get? f.wire = some (n.field f) := by
    cases hget : (n.ownEntries (.str n.id)).get? f.wire with
    | none => exact absurd hmem (Entries.get?_eq_none_iff.1 hget)
    | some v => simp [field, hget]
  have hmore : n.extra.withoutNulls.get? f.wire = none := Entries.get?_withoutNulls_eq_none hextra
  rw [toEntries, NodeBody.get?_written, hown, hmore, Option.or_none]

namespace Draft

variable {catalog : Option Catalog} {s s' : Draft} {r : NodeRef} {n : Node} {f : FieldName}
  {key : String} {v x : Value}

/-- What the node that is meant has in a field, after an update under one key; nothing if the update
is refused. -/
def fieldAfter (catalog : Option Catalog) (s : Draft) (r : NodeRef) (key : String) (v : Value)
    (f : FieldName) : Option Value :=
  (s.carryOut catalog (.updateNode r [(key, v)])).toOption.bind fun s' =>
    (s'.document.resolve r.text).toOption.map (Node.field f)

theorem not_tangled_single (key : String) (v : Value) : ¬ TangledChanges [(key, v)] := by
  intro h
  rcases h with ⟨a, b, c, hsub, -⟩
  have hlength := hsub.length_le
  simp [ways_eq] at hlength

theorem assignAll_single {es data : Entries Value} (hkeys : DottedPath.keys key = [key])
    (hempty : key ≠ "") :
    DottedPath.assignAll [(key, v)] es = .ok data ↔ es.put key v = data := by
  have hassign : DottedPath.assign key v es = .ok (es.put key v) := by
    rw [DottedPath.assign_eq_ok_iff, hkeys]
    exact ⟨by simpa using hempty.symm, rfl⟩
  simp [DottedPath.assignAll, hassign]

theorem toOption_eq_some_iff {ε α : Type} {x : Except ε α} {a : α} :
    x.toOption = some a ↔ x = .ok a := by
  cases x <;> simp [Except.toOption]

section SingleKey

variable (hkeys : DottedPath.keys key = [key]) (hkey : key ∉ ["", "id", "name", "type"])
  (hn : s.document.resolve r.text = .ok n)

include hkey in
theorem kept_of_put {after : Node} (h : Node.ofEntries (n.toEntries.put key v) = .ok after) :
    after.id = n.id ∧ after.name = n.name ∧ after.type = n.type := by
  refine Node.kept_of_written (fun other hother => Entries.get?_put_of_ne v _ ?_) h
  rintro rfl
  exact hkey (List.mem_cons_of_mem "" hother)

include hkeys hkey hn

/-- An update under a single key, none of those by which nodes are told apart, puts a value into the
written form of the node, which then is found as before. -/
theorem resolve_of_updated (h : s.carryOut catalog (.updateNode r [(key, v)]) = .ok s') :
    ∃ after, Node.ofEntries (n.toEntries.put key v) = .ok after ∧
      s'.document.resolve r.text = .ok after := by
  have hempty : key ≠ "" := fun heq => hkey (by simp [heq])
  rcases (comesOutInOrder_of_not_tangled (not_tangled_single key v) catalog s r s').1 h with
    ⟨d', ⟨front, before, after, back, data, hpicks, hall, hread, -, rfl⟩, rfl⟩
  obtain rfl : before = n := Except.ok.inj (hpicks.resolve.symm.trans hn)
  obtain rfl := (assignAll_single hkeys hempty).1 hall
  rcases kept_of_put hkey hread with ⟨hid, hname, -⟩
  refine ⟨after, hread, Document.Picks.resolve ⟨rfl, ?_, hpicks.others⟩⟩
  rw [Node.answersTo, hid, hname]
  exact hpicks.answers

theorem exists_updated {after : Node} (h : Node.ofEntries (n.toEntries.put key v) = .ok after) :
    ∃ s', s.carryOut catalog (.updateNode r [(key, v)]) = .ok s' := by
  have hempty : key ≠ "" := fun heq => hkey (by simp [heq])
  rcases Document.picks_of_resolve hn with ⟨front, back, hpicks⟩
  rcases kept_of_put hkey h with ⟨hid, hname, htype⟩
  refine ⟨_, (comesOutInOrder_of_not_tangled (not_tangled_single key v) catalog s r _).2
    ⟨_, ⟨front, n, after, back, _, hpicks, ?_, h, ?_, rfl⟩, rfl⟩⟩
  · exact (assignAll_single hkeys hempty).2 rfl
  · exact ⟨Or.inl hname, Or.inl hid, Or.inl htype⟩

theorem fieldAfter_eq_some_iff :
    fieldAfter catalog s r key v f = some x ↔
      ∃ after, Node.ofEntries (n.toEntries.put key v) = .ok after ∧ after.field f = x := by
  unfold fieldAfter
  constructor
  · intro h
    rcases Option.bind_eq_some_iff.1 h with ⟨s', hs', hfield⟩
    rcases resolve_of_updated hkeys hkey hn (toOption_eq_some_iff.1 hs') with
      ⟨after, hread, hresolve⟩
    rw [hresolve] at hfield
    exact ⟨after, hread, Option.some.inj hfield⟩
  · intro hexists
    rcases hexists with ⟨after, hread, rfl⟩
    rcases exists_updated hkeys hkey hn hread with ⟨s', hs'⟩
    rcases resolve_of_updated hkeys hkey hn hs' with ⟨after', hread', hresolve⟩
    obtain rfl : after = after' := Decoded.ok.inj (hread.symm.trans hread')
    rw [hs', toOption_eq_some_iff.2 rfl, Option.bind_some, hresolve]
    rfl

end SingleKey

/-- What a field has after an update depends on what is found for it in what has been written. -/
theorem fieldAfter_iff_found (hf : f ∈ NodeBody.twoSpellings) (hkey : key ∈ [f.wire, f.plain])
    (hn : s.document.resolve r.text = .ok n) :
    fieldAfter catalog s r key v f = some x ↔
      (Node.ofEntries (n.toEntries.put key v)).Passes ∧
        (f.found (n.toEntries.put key v)).getD .null = x := by
  rcases (NodeBody.spellings_simple f hf).2 key hkey with ⟨hkeys, hnames⟩
  rw [fieldAfter_eq_some_iff hkeys hnames hn]
  constructor
  · intro h
    rcases h with ⟨after, hread, rfl⟩
    exact ⟨⟨after, hread⟩, (Node.field_of_ofEntries hf hread).symm⟩
  · intro h
    rcases h with ⟨⟨after, hread⟩, rfl⟩
    exact ⟨after, hread, Node.field_of_ofEntries hf hread⟩

/-- Values that are found for a field are exchanged without any effect on the other fields. -/
theorem passes_exchanged {es : Entries Value} {key key' : String} {v v' w : Value}
    (hf : f ∈ NodeBody.twoSpellings) (hkey : key ∈ [f.wire, f.plain])
    (hkey' : key' ∈ [f.wire, f.plain])
    (hfound : f.found (es.put key' v') = some w) (hfits : Node.Fits f w)
    (h : (Node.ofEntries (es.put key v)).Passes) : (Node.ofEntries (es.put key' v')).Passes := by
  have hother : ∀ k ∈ [f.wire, f.plain], ∀ u, ∀ g ∈ NodeBody.fieldNames, g ≠ f →
      g.found (es.put k u) = g.found es := by
    intro k hk u g hg hne
    rcases NodeBody.spellings_apart f hf g hg hne with ⟨hwire, hplain⟩
    simp only [List.mem_cons, List.not_mem_nil, or_false] at hk
    rcases hk with rfl | rfl
    · exact FieldName.found_put_other hwire.1 hwire.2
    · exact FieldName.found_put_other hplain.1 hplain.2
  refine Node.passes_of_found ?_ ⟨w, hfound, hfits⟩ h
  intro g hg hne
  rw [hother key hkey v g hg hne, hother key' hkey' v' g hg hne]

section Spellings

variable (hf : f ∈ NodeBody.twoSpellings) (hn : s.document.resolve r.text = .ok n)

include hf hn

/-- Under the first spelling an update sets the field, if the node can be read with the value. -/
theorem fieldAfter_wire_iff :
    fieldAfter catalog s r f.wire v f = some x ↔
      (Node.ofEntries (n.toEntries.put f.wire v)).Passes ∧ v = x := by
  have hmem : f.wire ∈ [f.wire, f.plain] := by simp
  rw [fieldAfter_iff_found hf hmem hn, FieldName.found_put_wire, Option.getD_some]

/-- Under the second spelling an update is one under the first spelling, to the value that is found
for the field. -/
theorem fieldAfter_plain {w : Value} (hfound : f.found (n.toEntries.put f.plain v) = some w) :
    fieldAfter catalog s r f.plain v f = fieldAfter catalog s r f.wire w f := by
  have hmem : f.wire ∈ [f.wire, f.plain] := by simp
  have hmem' : f.plain ∈ [f.wire, f.plain] := by simp
  have hfound' := FieldName.found_put_wire f w n.toEntries
  -- Under either spelling the same value is found, so the node is read alike.
  have hpasses : (Node.ofEntries (n.toEntries.put f.plain v)).Passes ↔
      (Node.ofEntries (n.toEntries.put f.wire w)).Passes := by
    constructor
    · intro h
      exact passes_exchanged hf hmem' hmem hfound' (Node.fits_of_passes hfound h) h
    · intro h
      exact passes_exchanged hf hmem hmem' hfound (Node.fits_of_passes hfound' h) h
  refine Option.ext ?_
  intro x
  rw [fieldAfter_iff_found hf hmem' hn, fieldAfter_wire_iff hf hn, hpasses, hfound,
    Option.getD_some]

/-- If an update under the first spelling is accepted, so is one to what the node has already. -/
theorem fieldAfter_current (h : fieldAfter catalog s r f.wire v f = some x) :
    fieldAfter catalog s r f.wire (n.field f) f = some (n.field f) := by
  have hmem : f.wire ∈ [f.wire, f.plain] := by simp
  have hpasses := ((fieldAfter_wire_iff hf hn).1 h).1
  refine (fieldAfter_wire_iff hf hn).2 ⟨?_, rfl⟩
  exact passes_exchanged hf hmem hmem (FieldName.found_put_wire f _ n.toEntries)
    (Node.fits_field hf n) hpasses

end Spellings

/-- The two spellings of a field do the same exactly if the field is not set, or set to that value
already, or the node is one that no update of the field can be made to. -/
theorem spellings_agree_iff (hf : f ∈ NodeBody.twoSpellings)
    (hn : s.document.resolve r.text = .ok n) (hextra : n.extra.get? f.wire = none) :
    fieldAfter catalog s r f.plain v f = fieldAfter catalog s r f.wire v f ↔
      n.field f = .null ∨ n.field f = v ∨ ∀ w, fieldAfter catalog s r f.wire w f = none := by
  have hne : f.plain ≠ f.wire := (NodeBody.spellings_simple f hf).1
  have hfound := FieldName.found_put_plain hne v n.toEntries
  rw [Node.get?_toEntries_field hf hextra] at hfound
  by_cases hnull : n.field f = .null
  · -- The field is not set, so that the value is found under either spelling.
    rw [hnull] at hfound
    exact iff_of_true (fieldAfter_plain hf hn hfound) (Or.inl hnull)
  · -- It is set, so that an update under the second spelling is one to what is there.
    have hset : (some (n.field f)).filter (fun v => !v.isNull) = some (n.field f) := by
      cases hu : n.field f with
      | null => exact absurd hu hnull
      | _ => rfl
    rw [hset, Option.some_or] at hfound
    rw [fieldAfter_plain hf hn hfound]
    constructor
    · intro heq
      refine Or.inr ?_
      cases hcurrent : fieldAfter catalog s r f.wire (n.field f) f with
      | none =>
        refine Or.inr fun w => Option.eq_none_iff_forall_ne_some.2 ?_
        intro x hx
        rw [fieldAfter_current hf hn hx] at hcurrent
        simp at hcurrent
      | some x =>
        obtain rfl := ((fieldAfter_wire_iff hf hn).1 hcurrent).2
        exact Or.inl ((fieldAfter_wire_iff hf hn).1 (heq ▸ hcurrent)).2.symm
    · intro h
      rcases h with hunset | rfl | hnone
      · exact absurd hunset hnull
      · rfl
      · rw [hnone, hnone]

def versionField : FieldName := ⟨"typeVersion", "type_version"⟩

def versioned (version : Option Number) : Draft where
  document := { nodes := [{ blank with typeVersion := version }] }

/-- As long as there is no type version, both spellings set one. -/
theorem unset_version_updated :
    fieldAfter none (versioned none) blankRef "type_version" (.int 2) versionField =
        fieldAfter none (versioned none) blankRef "typeVersion" (.int 2) versionField ∧
      fieldAfter none (versioned none) blankRef "typeVersion" (.int 2) versionField =
        some (.int 2) :=
  ⟨(spellings_agree_iff (f := versionField) (by decide) rfl rfl).2 (Or.inl rfl), rfl⟩

/-- Once there is one, an update under the second spelling is accepted and leaves it as it was. -/
theorem set_version_kept :
    fieldAfter none (versioned (some (.int 1))) blankRef "type_version" (.int 2) versionField =
        some (.int 1) ∧
      fieldAfter none (versioned (some (.int 1))) blankRef "typeVersion" (.int 2) versionField =
        some (.int 2) :=
  ⟨rfl, rfl⟩

end Draft
end Workflows
