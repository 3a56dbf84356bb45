import Workflows.Proofs.Edit.SecondRun

/-!
# InOrder — updates whose changes are made one after the other

An update of a node is to assign its changes one after the other to the written form of the node,
and to read what comes of them as a node. It is carried out twice, on trial and for good, and the
objects that it assigns are shared between the runs. What is accepted could have been accepted in
order. The other way round an update comes out in order unless its changes are tangled: an object is
assigned, then something deep inside of it, and then something on the way to there. Then the second
run meets what the first one has left in its way.

Main definitions:

* `Draft.InOrder` — what an update makes of a document when its changes are made in order;
* `Draft.TangledChanges`, `Draft.Nested` — updates and places for which it may come out otherwise;
* `Draft.ComesOutInOrder`, `Draft.updated_in_order` — when it comes out in order.
-/

namespace Workflows

open Value

namespace Text

/-- The pieces of a text tell which text it is. -/
theorem splitChars_injective (sep : Char) : Function.Injective (splitChars sep) := by
  intro cs ds h
  induction cs generalizing ds with
  | nil =>
    cases ds with
    | nil => rfl
    | cons d ds =>
      exfalso
      rcases hds : splitChars sep ds with _ | ⟨head, tail⟩
      · exact splitChars_ne_nil sep ds hds
      · by_cases hd : d = sep <;> simp [splitChars, hds, hd] at h
  | cons c cs ih =>
    rcases hcs : splitChars sep cs with _ | ⟨head, tail⟩
    · exact absurd hcs (splitChars_ne_nil sep cs)
    cases ds with
    | nil =>
      exfalso
      by_cases hc : c = sep <;> simp [splitChars, hcs, hc] at h
    | cons d ds =>
      rcases hds : splitChars sep ds with _ | ⟨head', tail'⟩
      · exact absurd hds (splitChars_ne_nil sep ds)
      -- The first piece tells whether a text begins with the separator, and with which character
      -- if not.
      have hsame : c = d ∧ splitChars sep cs = splitChars sep ds := by
        rw [hcs, hds]
        by_cases hc : c = sep <;> by_cases hd : d = sep <;>
          simp_all [splitChars]
      rw [hsame.1, ih hsame.2]

end Text

theorem DottedPath.keys_injective : Function.Injective DottedPath.keys := by
  intro p q h
  have hchars : Function.Injective String.ofList := fun a b hab => by
    simpa using congrArg String.toList hab
  exact String.toList_injective (Text.splitChars_injective '.' (List.map_injective_iff.2 hchars h))

namespace Document

variable {d : Document} {reference : String} {front back : List Node} {n : Node}

theorem Picks.resolve (h : d.Picks reference front n back) : d.resolve reference = .ok n := by
  have hnone : ∀ ms : List Node, (∀ m ∈ ms, m ∈ front ++ back) →
      ms.filter (Node.answersTo reference) = [] := by
    intro ms hms
    refine List.filter_eq_nil_iff.2 ?_
    intro m hm
    simp [h.others m (hms m hm)]
  have hfront : front.filter (Node.answersTo reference) = [] :=
    hnone front fun m hm => List.mem_append_left _ hm
  have hback : back.filter (Node.answersTo reference) = [] :=
    hnone back fun m hm => List.mem_append_right _ hm
  have hsingle : d.nodes.filter (Node.answersTo reference) = [n] := by
    rw [h.nodes, List.filter_append, List.filter_cons_of_pos h.answers, hfront, hback]
    rfl
  unfold Document.resolve
  rw [hsingle]

end Document

namespace Draft

variable {catalog : Option Catalog} {d d' : Document} {reference : String} {before after : Node}
  {changes : List (String × Value)}

/-- One node may take the place of another: a new name or id is that of no node, and a new type has
a form that documents may use. -/
structure Replaces (d : Document) (before after : Node) : Prop where
  name : after.name = before.name ∨ after.name ∉ d.nodeNames
  id : after.id = before.id ∨ after.id ∉ d.nodeIds
  type : after.type = before.type ∨ TypeName.formFault? after.type = none

theorem updateRefusal?_eq_none_iff :
    updateRefusal? d before after = none ↔ Replaces d before after := by
  have hid : (d.nodes.any fun n => n.id == after.id) = true ↔ after.id ∈ d.nodeIds := by
    simp [Document.nodeIds]
  have hname : (d.node? after.name).isSome = true ↔ after.name ∈ d.nodeNames := by
    rw [← not_iff_not, Bool.not_eq_true, Option.isSome_eq_false_iff, Option.isNone_iff_eq_none]
    exact Document.node?_eq_none_iff
  -- The refusals for the name, for the identifier and for the type are asked for in this order.
  unfold updateRefusal?
  constructor
  · intro h
    by_cases hnew : after.name ≠ before.name ∧ (d.node? after.name).isSome = true
    · simp [hnew] at h
    by_cases hnew' : after.id ≠ before.id ∧ (d.nodes.any fun n => n.id == after.id) = true
    · simp [hnew, hnew'] at h
    rw [if_neg hnew, if_neg hnew'] at h
    rw [hname] at hnew
    rw [hid] at hnew'
    refine ⟨by tauto, by tauto, ?_⟩
    by_cases htype : after.type = before.type
    · exact Or.inl htype
    · rw [if_pos htype] at h
      exact Or.inr (Option.map_eq_none_iff.1 h)
  · intro h
    have hfree : ¬ (after.name ≠ before.name ∧ (d.node? after.name).isSome = true) := by
      rw [hname]
      intro hnew
      exact h.name.elim hnew.1 fun hfree => hfree hnew.2
    have hfree' : ¬ (after.id ≠ before.id ∧ (d.nodes.any fun n => n.id == after.id) = true) := by
      rw [hid]
      intro hnew
      exact h.id.elim hnew.1 fun hfree => hfree hnew.2
    rw [if_neg hfree, if_neg hfree']
    rcases h.type with htype | htype
    · rw [if_neg (not_not_intro htype)]
    · rw [htype, Option.map_none, ite_self]

/-- What an update makes of a document when its changes are made one after the other: what they make
of the written form of the node that is meant is read as a node and takes its place, and its links
follow it to a new name. -/
def InOrder (d : Document) (reference : String) (changes : List (String × Value)) (d' : Document) :
    Prop :=
  ∃ front before after back data,
    d.Picks reference front before back ∧
    DottedPath.assignAll changes before.toEntries = .ok data ∧
    Node.ofEntries data = .ok after ∧
    Replaces d before after ∧
    d' = { d with
      nodes := front ++ after :: back
      connections :=
        if after.name = before.name then d.connections
        else d.connections.renameNode before.name after.name }

def ways (changes : List (String × Value)) : Assignments :=
  (Change.ofEntries changes).map Change.assignment

/-- An object is assigned, and then something within it that a later change makes up for. -/
def TangledChanges (changes : List (String × Value)) : Prop :=
  Tangled (ways changes)

theorem pairs_ofEntries (changes : List (String × Value)) :
    ChangeRun.pairs (Change.ofEntries changes) = changes := by
  rw [ChangeRun.pairs, Change.ofEntries, List.map_map]
  exact List.map_id changes

/-- One run does what the assignments do. -/
theorem run_ofEntries_iff {data es : Entries Value} :
    (∃ r, ChangeRun.run (Change.ofEntries changes) data = .ok r ∧ r.data = es) ↔
      DottedPath.assignAll changes data = .ok es := by
  rcases ChangeRun.firstRun_run (ChangeRun.holds_ofEntries changes) data with ⟨hruns, hall⟩
  rw [pairs_ofEntries] at hruns hall
  constructor
  · intro hexists
    rcases hexists with ⟨r, hrun, rfl⟩
    exact (hruns r hrun).2
  · intro h
    rcases hall es h with ⟨r, hrun⟩
    exact ⟨r, hrun, Except.ok.inj ((hruns r hrun).2.symm.trans h)⟩

theorem updated_eq_ok_iff {cs settled : List Change} :
    updated d before cs = .ok (after, settled) ↔
      ∃ r, ChangeRun.run cs before.toEntries = .ok r ∧ Node.ofEntries r.data = .ok after ∧
        updateRefusal? d before after = none ∧ r.changes = settled := by
  constructor
  · exact updated_eq_ok
  · intro h
    rcases h with ⟨r, hrun, hread, hfree, rfl⟩
    simp [updated, hrun, hread, hfree]

/-- An update puts a node into the place of the one that is meant. -/
theorem replaceNode_eq {front back : List Node} (h : d.Picks reference front before back) :
    replaceNode d reference before after =
      { d with
        nodes := front ++ after :: back
        connections :=
          if after.name = before.name then d.connections
          else d.connections.renameNode before.name after.name } := by
  rw [replaceNode, h.map_answering fun _ => after]

/-- What is accepted in two runs could have been accepted in one. -/
theorem inOrder_of_updateNode (h : updateNode d reference changes = .ok d') :
    ∃ d', InOrder d reference changes d' := by
  rcases updateNode_eq_ok.1 h with ⟨before, -, ⟨hn, trial, settled, -, htrial, -⟩, -⟩
  rcases Document.picks_of_resolve hn with ⟨front, back, hpicks⟩
  rcases updated_eq_ok_iff.1 htrial with ⟨r, hrun, hread, hfree, -⟩
  exact ⟨_, front, before, trial, back, r.data, hpicks, run_ofEntries_iff.1 ⟨r, hrun, rfl⟩, hread,
    updateRefusal?_eq_none_iff.1 hfree, rfl⟩

/-- An update whose changes are not tangled comes out in order. -/
theorem updateNode_iff_inOrder (h : ¬ TangledChanges changes) :
    updateNode d reference changes = .ok d' ↔ InOrder d reference changes d' := by
  -- Without tangled paths the second run of the changes comes out as the first one.
  have hfresh := ChangeRun.holds_ofEntries changes
  constructor
  · intro hupdate
    rcases updateNode_eq_ok.1 hupdate with
      ⟨before, after, ⟨hn, trial, settled, rest, htrial, hafter⟩, rfl⟩
    rcases Document.picks_of_resolve hn with ⟨front, back, hpicks⟩
    rcases updated_eq_ok_iff.1 htrial with ⟨r, hrun, hread, hfree, rfl⟩
    rcases updated_eq_ok_iff.1 hafter with ⟨r₂, hrun₂, hread₂, -, -⟩
    rcases ChangeRun.run_again hfresh h hrun with ⟨r', hrun', hdata⟩
    obtain rfl : r₂ = r' := Except.ok.inj (hrun₂.symm.trans hrun')
    obtain rfl : trial = after := by
      rw [hdata, hread] at hread₂
      exact Decoded.ok.inj hread₂
    exact ⟨front, before, trial, back, r.data, hpicks, run_ofEntries_iff.1 ⟨r, hrun, rfl⟩, hread,
      updateRefusal?_eq_none_iff.1 hfree, replaceNode_eq hpicks⟩
  · intro hexists
    rcases hexists with ⟨front, before, after, back, data, hpicks, hall, hread, hreplaces, rfl⟩
    rcases run_ofEntries_iff.2 hall with ⟨r, hrun, rfl⟩
    rcases ChangeRun.run_again hfresh h hrun with ⟨r', hrun', hdata⟩
    have hfree := updateRefusal?_eq_none_iff.2 hreplaces
    have htrial := updated_eq_ok_iff.2 ⟨r, hrun, hread, hfree, rfl⟩
    have hafter := updated_eq_ok_iff.2 ⟨r', hrun', hdata ▸ hread, hfree, rfl⟩
    exact updateNode_eq_ok.2 ⟨before, after,
      ⟨hpicks.resolve, after, r.changes, r'.changes, htrial, hafter⟩, replaceNode_eq hpicks⟩

/-! ## Places -/

/-- Three of some places lie within each other: one, one deep inside of it, and one on the way from
the first to the second. -/
def Nested (places : List String) : Prop :=
  ∃ a b c, [a, b, c].Sublist places ∧ DottedPath.keys a <+: DottedPath.keys c ∧
    DottedPath.keys c <+: DottedPath.keys b

theorem ways_eq (changes : List (String × Value)) :
    ways changes = changes.map fun p => (DottedPath.keys p.1, p.2) := by
  rw [ways, Change.ofEntries, List.map_map]
  rfl

/-- Changes are tangled at places that are nested. -/
theorem nested_of_tangled {places : List String} (h : TangledChanges changes)
    (hplaces : (Entries.keys changes).Sublist places) : Nested places := by
  rcases h with ⟨a, b, c, habc, -, hac, hcb⟩
  rw [ways_eq] at habc
  rcases List.sublist_map_iff.1 habc with ⟨l, hl, hmap⟩
  obtain ⟨a', b', c', rfl⟩ : ∃ a' b' c', l = [a', b', c'] := by
    have hlength := congrArg List.length hmap
    rw [List.length_map] at hlength
    exact List.length_eq_three.1 hlength.symm
  simp only [List.map_cons, List.map_nil, List.cons.injEq, and_true] at hmap
  rcases hmap with ⟨rfl, rfl, rfl⟩
  exact ⟨a'.1, b'.1, c'.1, (hl.map Prod.fst).trans hplaces, hac, hcb⟩

def blank : Node := { id := "1", name := "A", type := "n8n-nodes-base.set" }

def blankDocument : Document := { nodes := [blank] }

def byName (name : String) : NodeRef :=
  ⟨none, some name, Or.inr rfl⟩

def blankRef : NodeRef := byName "A"

/-- An object is assigned, a number deep inside of it, and another one on the way there. -/
def crossing (outer deep middle : String) : List (String × Value) :=
  [(outer, .obj []), (deep, .int 1), (middle, .int 5)]

/-- In an empty object everything can be assigned, and where there is nothing. -/
theorem exists_assignAt_empty (p : List String) (x : Value) {v : Value} (hv : v.fields? = some []) :
    ∃ v', assignAt p x v = some v' := by
  induction p generalizing v with
  | nil => exact ⟨x, rfl⟩
  | cons key rest ih =>
    rcases ih (v := .null) rfl with ⟨inner, hinner⟩
    exact ⟨_, assignAt_cons_eq_some.2 ⟨[], inner, hv, hinner, rfl⟩⟩

/-- Where an empty object stands, everything can be assigned within. -/
theorem exists_assignAt_within {q : List String} {v : Value} (hread : readAt q v = some (.obj []))
    (w : List String) (x : Value) : ∃ v', assignAt (q ++ w) x v = some v' := by
  rcases exists_assignAt_empty w x (v := .obj []) rfl with ⟨z, hz⟩
  rcases exists_assignAt hread z with ⟨v', hv'⟩
  exact ⟨v', by rw [assignAt_append hread, hz, Option.bind_some, hv']⟩

/-- What is assigned within the value under a key, once more, leaves an object there. -/
theorem exists_put_of_assignAt {key : String} {rest : List String} {es : Entries Value}
    {inner x v : Value} (hrest : rest ≠ [])
    (h : assignAt (key :: rest) x (.obj (es.put key inner)) = some v) :
    ∃ ps, v = .obj (es.put key (.obj ps)) := by
  rcases assignAt_cons_eq_some.1 h with ⟨es', inner', hes, hinner, rfl⟩
  obtain rfl := Option.some.inj hes
  cases rest with
  | nil => exact absurd rfl hrest
  | cons second rest =>
    rcases assignAt_cons_eq_some.1 hinner with ⟨ps, inner'', -, -, rfl⟩
    exact ⟨_, by rw [Entries.put_put]⟩

theorem picks_blank : blankDocument.Picks "A" [] blank [] where
  nodes := rfl
  answers := rfl
  others := by simp

theorem ofEntries_blank (ps : Entries Value) :
    Node.ofEntries (blank.toEntries.put "parameters" (.obj ps)) =
      .ok { blank with parameters := ps } := by
  have hwritten : blank.toEntries.put "parameters" (.obj ps) =
      Node.toEntries { blank with parameters := ps } := by
    rfl
  have hname : Text.allBlank ['A'] = false := by decide
  have hstorable : Node.Storable { blank with parameters := ps } :=
    ⟨by simp [blank, NodeBody.decodeName, Shape.string, Decoded.bind, hname], by simp [blank]⟩
  rw [hwritten, Node.ofEntries_toEntries hstorable]
  rfl

section Crossing

variable {outer deep middle : String} {p w u : List String}

/-- In order, everything can be assigned: the second number takes the place of what was there. -/
theorem assignAll_crossing (hempty : ∀ path ∈ [outer, deep, middle], "" ∉ DottedPath.keys path)
    (houter : DottedPath.keys outer = "parameters" :: p)
    (hmiddle : DottedPath.keys middle = DottedPath.keys outer ++ w)
    (hdeep : DottedPath.keys deep = DottedPath.keys middle ++ u) (hw : w ≠ []) :
    ∃ ps, DottedPath.assignAll (crossing outer deep middle) blank.toEntries =
      .ok (blank.toEntries.put "parameters" (.obj ps)) := by
  have hparameters : blank.toEntries.get? "parameters" = some (.obj []) := by rfl
  -- The object is assigned.
  rcases exists_assignAt_empty p (.obj []) (v := .obj []) rfl with ⟨inner, hinner⟩
  have houterAt : assignAt (DottedPath.keys outer) (.obj []) (.obj blank.toEntries) =
      some (.obj (blank.toEntries.put "parameters" inner)) := by
    rw [houter]
    exact assignAt_cons_eq_some.2 ⟨_, inner, rfl, by rw [hparameters]; exact hinner, rfl⟩
  have hread := readAt_assignAt_self houterAt
  -- A number is assigned deep inside of it, and the other number makes up for that.
  rcases exists_assignAt_within hread (w ++ u) (.int 1) with ⟨v, hv⟩
  rcases exists_assignAt_within hread w (.int 5) with ⟨v', hv'⟩
  rw [← List.append_assoc, ← hmiddle] at hv
  rw [← hmiddle] at hv'
  obtain ⟨ps, rfl⟩ : ∃ ps, v' = .obj (blank.toEntries.put "parameters" (.obj ps)) := by
    have hrest : p ++ w ≠ [] := by simp [hw]
    rw [hmiddle, houter, List.cons_append] at hv'
    exact exists_put_of_assignAt hrest hv'
  refine ⟨ps, ?_⟩
  rw [← pairs_ofEntries (crossing outer deep middle), ChangeRun.assignAll_pairs_iff]
  refine ⟨?_, ?_⟩
  · simpa [crossing, Change.ofEntries, Change.keys] using hempty
  · change assignAts [(DottedPath.keys outer, .obj []), (DottedPath.keys deep, .int 1),
      (DottedPath.keys middle, .int 5)] (.obj blank.toEntries) = _
    rw [assignAts, houterAt, Option.bind_some, assignAts, hdeep, hv, Option.bind_some, assignAts,
      assignAt_covered hv, hv']
    rfl

theorem not_prefix_append_self {q w : List String} (hw : w ≠ []) : ¬ q ++ w <+: q := by
  intro h
  have hlength := h.length_le
  rw [List.length_append] at hlength
  exact hw (List.length_eq_zero_iff.1 (by omega))

/-- The object is left with a number on the way to where the other number is assigned. -/
theorem readAt_settled_crossing {q : List String} (hw : w ≠ []) :
    readAt w (settled q (.obj []) [(q ++ (w ++ u), .int 1), (q ++ w, .int 5)]) = some (.int 5) := by
  have hwu : w ++ u ≠ [] := by simp [hw]
  rcases exists_assignAt_empty (w ++ u) (.int 1) (v := .obj []) rfl with ⟨z, hz⟩
  rcases exists_assignAt_empty w (.int 5) (v := .obj []) rfl with ⟨z', hz'⟩
  have hpair : inside q [(q ++ (w ++ u), .int 1), (q ++ w, .int 5)] =
      [(w ++ u, .int 1), (w, .int 5)] := by
    rw [inside_of_within (not_prefix_append_self hwu), inside_of_within (not_prefix_append_self hw),
      inside]
  -- What is assigned deep inside goes with the object that the number takes the place of.
  have hinside : assignAts (inside q [(q ++ (w ++ u), .int 1), (q ++ w, .int 5)]) (.obj []) =
      some z' := by
    rw [hpair, assignAts, hz, Option.bind_some, assignAts, assignAt_covered hz, hz']
    rfl
  have hobject : (Value.obj []).obj?.isSome = true := rfl
  have hsettled : settled q (.obj []) [(q ++ (w ++ u), .int 1), (q ++ w, .int 5)] = z' := by
    rw [settled, if_pos hobject, hinside, Option.getD_some]
  rw [hsettled]
  exact readAt_assignAt_self hz'

/-- In a second run the number that is left on the way keeps the other one from being assigned. -/
theorem run_crossing {r r' : ChangeRun} {data : Entries Value}
    (hmiddle : DottedPath.keys middle = DottedPath.keys outer ++ w)
    (hdeep : DottedPath.keys deep = DottedPath.keys middle ++ u) (hw : w ≠ []) (hu : u ≠ [])
    (h : ChangeRun.run (Change.ofEntries (crossing outer deep middle)) data = .ok r) :
    ChangeRun.run r.changes data ≠ .ok r' := by
  intro hagain
  rcases (ChangeRun.firstRun_run (ChangeRun.holds_ofEntries _) data).1 r h with ⟨hfirst, -⟩
  have hpaths : r.changes.map (·.path) = [outer, deep, middle] := hfirst.paths
  obtain ⟨c₀, c₁, c₂, hchanges⟩ : ∃ c₀ c₁ c₂, r.changes = [c₀, c₁, c₂] := by
    have hlength := congrArg List.length hpaths
    rw [List.length_map] at hlength
    exact List.length_eq_three.1 hlength
  have hassignments := hfirst.assignments
  rw [hchanges] at hpaths hassignments hagain
  simp only [List.map_cons, List.map_nil, List.cons.injEq, and_true] at hpaths
  have hobject : c₀.value = settled (DottedPath.keys outer) (.obj [])
      [(DottedPath.keys deep, .int 1), (DottedPath.keys middle, .int 5)] :=
    congrArg Prod.snd (List.cons.inj hassignments).1
  rw [hdeep, hmiddle, List.append_assoc] at hobject
  rcases ChangeRun.of_steps_succ rfl hagain with ⟨r₁, hstep, hagain⟩
  rcases ChangeRun.step_eq_ok hstep with ⟨hassign, hsame⟩
  rw [hpaths.1] at hassign
  have hread := readAt_assignAt_self (DottedPath.assign_eq_ok_iff.1 hassign).2
  -- In the second run the object already has the number on the way to the deeper place, and the
  -- path leads no further.
  have hblocked : readAt (DottedPath.keys middle) (.obj r₁.data) = some (.int 5) := by
    rw [hmiddle, readAt_append, hread, Option.bind_some, hobject]
    exact readAt_settled_crossing hw
  rcases ChangeRun.getElem?_of_paths hsame.symm (i := 1) (d := c₁) rfl with ⟨e, he, hpath⟩
  rcases ChangeRun.of_steps_succ he hagain with ⟨r₂, hstep', -⟩
  have hassign' := (ChangeRun.step_eq_ok hstep').1
  rw [← hpath, hpaths.2.1] at hassign'
  have hat := (DottedPath.assign_eq_ok_iff.1 hassign').2
  rw [hdeep, assignAt_append hblocked] at hat
  cases u with
  | nil => exact hu rfl
  | cons key rest => simp [assignAt, fields?, Value.int] at hat

end Crossing

/-- Where an update is accepted, the document that it leads to. -/
def ComesOutInOrder (changes : List (String × Value)) : Prop :=
  ∀ (catalog : Option Catalog) (s : Draft) (r : NodeRef) (s' : Draft),
    s.carryOut catalog (.updateNode r changes) = .ok s' ↔
      ∃ d', InOrder s.document r.text changes d' ∧ s' = { s with document := d' }

theorem carryOut_updateNode_iff {s s' : Draft} {r : NodeRef} :
    s.carryOut catalog (.updateNode r changes) = .ok s' ↔
      ∃ d', updateNode s.document r.text changes = .ok d' ∧ s' = { s with document := d' } := by
  have hne : ∀ n, Action.updateNode r changes ≠ .addNode n := fun _ => nofun
  exact carryOut_eq_ok_iff hne

theorem comesOutInOrder_of_not_tangled (h : ¬ TangledChanges changes) :
    ComesOutInOrder changes := by
  intro catalog s r s'
  rw [carryOut_updateNode_iff]
  exact exists_congr fun d' => and_congr_left fun _ => updateNode_iff_inOrder h

/-- At nested places there is an update that does not come out in order. -/
theorem not_comesOutInOrder {outer deep middle : String} {p w u : List String}
    (hempty : ∀ path ∈ [outer, deep, middle], "" ∉ DottedPath.keys path)
    (houter : DottedPath.keys outer = "parameters" :: p)
    (hmiddle : DottedPath.keys middle = DottedPath.keys outer ++ w)
    (hdeep : DottedPath.keys deep = DottedPath.keys middle ++ u) (hw : w ≠ []) (hu : u ≠ []) :
    ¬ ComesOutInOrder (crossing outer deep middle) := by
  intro h
  rcases assignAll_crossing hempty houter hmiddle hdeep hw with ⟨ps, hall⟩
  have hinOrder : InOrder blankDocument "A" (crossing outer deep middle)
      { blankDocument with nodes := [{ blank with parameters := ps }] } :=
    ⟨[], blank, { blank with parameters := ps }, [], _, picks_blank, hall, ofEntries_blank ps,
      ⟨Or.inl rfl, Or.inl rfl, Or.inl rfl⟩, rfl⟩
  let s : Draft := { document := blankDocument }
  have hcarried := (h none s blankRef _).2 ⟨_, hinOrder, rfl⟩
  rcases carryOut_updateNode_iff.1 hcarried with ⟨d', hd', -⟩
  rcases updateNode_eq_ok.1 hd' with ⟨before, after, ⟨-, trial, settled, rest, htrial, hafter⟩, -⟩
  rcases updated_eq_ok_iff.1 htrial with ⟨r, hrun, -, -, rfl⟩
  rcases updated_eq_ok_iff.1 hafter with ⟨r', hrun', -, -, -⟩
  exact run_crossing hmiddle hdeep hw hu hrun hrun'

/-- Of the updates that assign at some places within the parameters, in the order of these, all come
out in order exactly if the places are not nested. -/
theorem comesOutInOrder_at_iff {places : List String} (hnodup : places.Nodup)
    (hplaces : ∀ path ∈ places, "" ∉ DottedPath.keys path ∧
      (DottedPath.keys path).head? = some "parameters") :
    (∀ changes : List (String × Value), (Entries.keys changes).Sublist places →
      ComesOutInOrder changes) ↔ ¬ Nested places := by
  constructor
  · intro hall hexists
    rcases hexists with ⟨outer, deep, middle, hsub, ⟨w, hmiddle⟩, ⟨u, hdeep⟩⟩
    have hmem : ∀ path ∈ [outer, deep, middle], path ∈ places := fun path hpath =>
      hsub.subset hpath
    have hdifferent := hnodup.sublist hsub
    have hw : w ≠ [] := by
      rintro rfl
      have hsame : outer = middle :=
        DottedPath.keys_injective (by rw [← hmiddle, List.append_nil])
      simp [hsame] at hdifferent
    have hu : u ≠ [] := by
      rintro rfl
      have hsame : middle = deep :=
        DottedPath.keys_injective (by rw [← hdeep, List.append_nil])
      simp [hsame] at hdifferent
    obtain ⟨p, houter⟩ : ∃ p, DottedPath.keys outer = "parameters" :: p :=
      List.head?_eq_some_iff.1 (hplaces outer (hmem outer (by simp))).2
    exact not_comesOutInOrder (fun path hpath => (hplaces path (hmem path hpath)).1) houter
      hmiddle.symm hdeep.symm hw hu (hall _ hsub)
  · intro hnot changes hchanges
    exact comesOutInOrder_of_not_tangled fun h => hnot (nested_of_tangled h hchanges)

/-- An accepted update could have been accepted in order. Without tangled changes it comes out in
order; and of the updates that assign at some places within the parameters, in the order of these,
all come out in order exactly if the places are not nested. -/
theorem updated_in_order (catalog : Option Catalog) (s s' : Draft) (r : NodeRef)
    (changes : List (String × Value)) {places : List String} (hnodup : places.Nodup)
    (hplaces : ∀ path ∈ places, "" ∉ DottedPath.keys path ∧
      (DottedPath.keys path).head? = some "parameters") :
    (s.carryOut catalog (.updateNode r changes) = .ok s' →
        ∃ d', InOrder s.document r.text changes d') ∧
      (¬ TangledChanges changes →
        (s.carryOut catalog (.updateNode r changes) = .ok s' ↔
          ∃ d', InOrder s.document r.text changes d' ∧ s' = { s with document := d' })) ∧
      ((∀ changes : List (String × Value), (Entries.keys changes).Sublist places →
          ComesOutInOrder changes) ↔ ¬ Nested places) := by
  refine ⟨?_, ?_, comesOutInOrder_at_iff hnodup hplaces⟩
  · intro h
    rcases carryOut_updateNode_iff.1 h with ⟨d', hd', -⟩
    exact inOrder_of_updateNode hd'
  · intro h
    exact comesOutInOrder_of_not_tangled h catalog s r s'

/-- An object is assigned and filled, and the node is renamed. -/
def filling : List (String × Value) :=
  [("parameters.p", .obj []), ("parameters.p.q", .int 1), ("name", .str "B")]

def descending : List String :=
  ["parameters.p", "parameters.p.q", "parameters.p.q.r"]

theorem filling_in_order :
    ∃ s', Draft.carryOut none { document := blankDocument }
        (.updateNode blankRef filling) = .ok s' ∧
      s'.document.nodeNames = ["B"] ∧
      (∃ d', InOrder blankDocument "A" filling d' ∧ s' = { document := d' }) ∧
      ∀ changes : List (String × Value), (Entries.keys changes).Sublist descending →
        ComesOutInOrder changes := by
  have htangled : ¬ TangledChanges filling := by
    intro h
    rcases h with ⟨a, b, c, hsub, -, -, hcb⟩
    have heq := List.Sublist.eq_of_length hsub rfl
    simp only [filling, ways_eq, List.map_cons, List.map_nil, List.cons.injEq, and_true] at heq
    rcases heq with ⟨-, rfl, rfl⟩
    revert hcb
    decide
  have hnested : ¬ Nested descending := by
    intro h
    rcases h with ⟨a, b, c, hsub, -, hcb⟩
    have heq := List.Sublist.eq_of_length hsub rfl
    simp only [descending, List.cons.injEq, and_true] at heq
    rcases heq with ⟨-, rfl, rfl⟩
    revert hcb
    decide
  obtain ⟨s', hs', hname⟩ : ∃ s', Draft.carryOut none { document := blankDocument }
      (.updateNode blankRef filling) = .ok s' ∧ s'.document.nodeNames = ["B"] := ⟨_, rfl, rfl⟩
  have hnodup : descending.Nodup := by decide
  rcases updated_in_order none { document := blankDocument } s' blankRef filling hnodup (by decide)
    with ⟨-, hiff, hplaces⟩
  exact ⟨s', hs', hname, (hiff htangled).1 hs', hplaces.2 hnested⟩

/-- In order, the second number takes the place of the first. In two runs it is in the way of it. -/
theorem crossing_refused :
    InOrder blankDocument "A" (crossing "parameters.p" "parameters.p.q.r" "parameters.p.q")
        { blankDocument with
          nodes := [{ blank with parameters := [("p", .obj [("q", .int 5)])] }] } ∧
      Draft.carryOut none { document := blankDocument }
          (.updateNode blankRef (crossing "parameters.p" "parameters.p.q.r" "parameters.p.q")) =
        .error (.refused (.badPath (.blocked "parameters.p.q.r" "parameters.p.q"))) := by
  refine ⟨⟨[], blank, { blank with parameters := [("p", .obj [("q", .int 5)])] }, [], _,
    picks_blank, ?_, ofEntries_blank _, ⟨Or.inl rfl, Or.inl rfl, Or.inl rfl⟩, rfl⟩, ?_⟩
  · rfl
  · rfl

end Draft
end Workflows
