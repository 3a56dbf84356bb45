import Workflows.Proofs.Document.Fields
import Workflows.Proofs.Edit.Saved

/-!
# Commuting — operations on different nodes

An operation that moves a node, switches it on or off, or changes its parameters, puts another node
in its place that goes by the same id and the same name. Whatever else refers to nodes does so by
these, so it comes out the same before and after. Two such operations on different nodes can
therefore be carried out in either order, and so can one of them and an operation that changes links
or the document as a whole. Only a catalog would tell the orders apart: it knows the outputs of a
node by its parameters.

Main definitions:

* `Document.mapNodes`, `Document.KeepsRefs` — other nodes under the same ids and names;
* `Action.edited?`, `Action.isOutside` — operations within one node, and outside of all nodes;
* `Draft.Apart` — operations that are not about the same node;
* `Editor.outcome_swapped` — the two orders of a batch come out the same.
-/

namespace Workflows

/-! ## Paths into the parameters -/

namespace Text

/-- What stands before the first separator is the first piece. -/
theorem splitChars_append {sep : Char} {front : List Char} (h : sep ∉ front) (rest : List Char) :
    splitChars sep (front ++ sep :: rest) = front :: splitChars sep rest := by
  induction front with
  | nil =>
    cases hrest : splitChars sep rest with
    | nil => exact absurd hrest (splitChars_ne_nil sep rest)
    | cons head tail => simp [splitChars, hrest]
  | cons c front ih =>
    have hne : c ≠ sep := fun heq => h (heq ▸ List.mem_cons_self)
    have hfront : sep ∉ front := fun hmem => h (List.mem_cons_of_mem c hmem)
    simp [splitChars, ih hfront, hne]

end Text

namespace DottedPath

def entersParameters (path : String) : Bool :=
  Text.startsWith "parameters." path

theorem head?_keys {path : String} (h : entersParameters path = true) :
    (keys path).head? = some "parameters" := by
  rcases List.isPrefixOf_iff_prefix.1 h with ⟨rest, hrest⟩
  have hfront : '.' ∉ "parameters".toList := by decide
  have hpath : path.toList = "parameters".toList ++ '.' :: rest := hrest.symm
  have hpieces : Text.splitChars '.' path.toList =
      "parameters".toList :: Text.splitChars '.' rest := by
    rw [hpath]
    exact Text.splitChars_append hfront rest
  simp only [keys, Text.pieces, hpieces]
  rfl

end DottedPath

/-! ## Other nodes under the same ids and names -/

namespace Document

variable {d : Document} {g : Node → Node}

def mapNodes (d : Document) (g : Node → Node) : Document :=
  { d with nodes := d.nodes.map g }

/-- Every node of the document becomes one with the same id and the same name. -/
def KeepsRefs (d : Document) (g : Node → Node) : Prop :=
  ∀ n ∈ d.nodes, (g n).id = n.id ∧ (g n).name = n.name

/-- References mean the nodes in the same places. -/
theorem KeepsRefs.resolve (h : d.KeepsRefs g) (reference : String) :
    (d.mapNodes g).resolve reference = (d.resolve reference).map g := by
  have hsame : ∀ n ∈ d.nodes, (g n).answersTo reference = n.answersTo reference := by
    intro n hn
    rcases h n hn with ⟨hid, hname⟩
    simp only [Node.answersTo, hid, hname]
  have hfilter : (d.mapNodes g).nodes.filter (Node.answersTo reference) =
      (d.nodes.filter (Node.answersTo reference)).map g := by
    calc
      (d.mapNodes g).nodes.filter (Node.answersTo reference)
          = (d.nodes.filter (Node.answersTo reference ∘ g)).map g := List.filter_map
      _ = (d.nodes.filter (Node.answersTo reference)).map g :=
          congrArg _ (List.filter_congr hsame)
  unfold Document.resolve
  rw [hfilter]
  rcases d.nodes.filter (Node.answersTo reference) with _ | ⟨m, _ | ⟨n, rest⟩⟩
  · rfl
  · rfl
  · simp [Except.map]

end Document

namespace Draft

variable {d : Document} {g : Node → Node}

theorem endpoints_mapNodes (h : d.KeepsRefs g) (source target : String) :
    endpoints (d.mapNodes g) source target =
      (endpoints d source target).map fun (s, t) => (g s, g t) := by
  unfold endpoints
  rw [h.resolve, h.resolve]
  cases d.resolve source with
  | error f => rfl
  | ok s => cases d.resolve target <;> rfl

/-- A link is added as it would have been before. -/
theorem addConnection_mapNodes (h : d.KeepsRefs g) (l : AddedLink) :
    addConnection none (d.mapNodes g) l = (addConnection none d l).map (·.mapNodes g) := by
  unfold addConnection
  rw [endpoints_mapNodes h]
  cases hends : endpoints d l.source l.target with
  | error r => rfl
  | ok p =>
    rcases p with ⟨s, t⟩
    rcases endpoints_eq_ok.1 hends with ⟨hs, ht⟩
    have hsname : (g s).name = s.name := (h s (Document.mem_of_resolve hs)).2
    have htname : (g t).name = t.name := (h t (Document.mem_of_resolve ht)).2
    -- Without a catalog the nodes themselves are not looked at.
    have hrefusal : addLinkRefusal? none (d.mapNodes g) (g s) (g t) l =
        addLinkRefusal? none d s t l := by
      simp only [addLinkRefusal?, outputRefusal?, Document.mapNodes, hsname, htname]
    simp only [Except.map, hrefusal]
    cases addLinkRefusal? none d s t l with
    | some r => rfl
    | none => simp [Document.mapNodes, hsname, htname]

theorem removeConnection_mapNodes (h : d.KeepsRefs g) (l : RemovedLinks) :
    removeConnection (d.mapNodes g) l = (removeConnection d l).map (·.mapNodes g) := by
  unfold removeConnection
  rw [endpoints_mapNodes h]
  cases hends : endpoints d l.source l.target with
  | error r => rfl
  | ok p =>
    rcases p with ⟨s, t⟩
    rcases endpoints_eq_ok.1 hends with ⟨hs, ht⟩
    have hsname : (g s).name = s.name := (h s (Document.mem_of_resolve hs)).2
    have htname : (g t).name = t.name := (h t (Document.mem_of_resolve ht)).2
    simp only [Except.map, hsname, htname, Document.mapNodes]
    split <;> simp_all

theorem updateConnection_mapNodes (h : d.KeepsRefs g) (l : ChangedLink) :
    updateConnection none (d.mapNodes g) l = (updateConnection none d l).map (·.mapNodes g) := by
  unfold updateConnection
  rw [endpoints_mapNodes h]
  cases hends : endpoints d l.source l.target with
  | error r => rfl
  | ok p =>
    rcases p with ⟨s, t⟩
    rcases endpoints_eq_ok.1 hends with ⟨hs, ht⟩
    have hsname : (g s).name = s.name := (h s (Document.mem_of_resolve hs)).2
    have htname : (g t).name = t.name := (h t (Document.mem_of_resolve ht)).2
    have hslots : (d.mapNodes g).connections = d.connections := rfl
    simp only [Except.map, hsname, htname, hslots]
    rcases d.connections.matchingSlots s.name l.output (Connections.leadsTo t.name none)
      l.sourceIndex with _ | ⟨slot, _ | ⟨slot', rest⟩⟩
    · rfl
    · cases hfirst : (d.connections.slotTargets s.name l.output slot).find?
        (Connections.leadsTo t.name none) with
      | none => simp only [hfirst]
      | some existing =>
        have hreplacement : replacement (g s) (g t) l slot existing =
            replacement s t l slot existing := by
          simp only [replacement, hsname, htname]
        simp only [hfirst, hreplacement]
        -- The links are taken away before the new one is added, and the nodes stay.
        let without : Document :=
          { d with
            connections :=
              d.connections.removeTargets s.name l.output (Connections.leadsTo t.name none)
                l.sourceIndex }
        have hkeeps : without.KeepsRefs g := h
        exact addConnection_mapNodes hkeeps (replacement s t l slot existing)
    · rfl

/-! ## Operations outside of the nodes -/

end Draft

/-- Whether an action changes links, or the settings, the name or the tags of the document. -/
def Action.isOutside : Action → Bool
  | .addConnection _ | .removeConnection _ | .updateConnection _ | .updateSettings _
  | .updateName _ | .addTag _ | .removeTag _ => true
  | _ => false

namespace Draft

variable {a b : Action} {d d' d'' : Document} {g : Node → Node}

/-- An action outside of the nodes leaves the nodes as they are. -/
theorem nodes_of_outside {catalog : Option Catalog} (hb : b.isOutside = true)
    (h : carryOutOn catalog d b = .ok d') : d'.nodes = d.nodes := by
  cases b with
  | addConnection l =>
    rcases addable_of_addConnection h with ⟨s, t, -, -, -, rfl⟩
    rfl
  | removeConnection l =>
    rcases removeConnection_eq_ok h with ⟨s, t, -, -, -, rfl⟩
    rfl
  | updateConnection l =>
    rcases updateConnection_eq_ok h with ⟨s, t, slot, existing, d₁, -, -, -, -, rfl, -, rfl⟩
    rfl
  | updateSettings settings =>
    cases h
    rfl
  | updateName name =>
    cases h
    rfl
  | addTag tag =>
    simp only [carryOutOn, Except.ok.injEq] at h
    rw [← h]
    split <;> rfl
  | removeTag tag =>
    cases h
    rfl
  | _ => simp [Action.isOutside] at hb

/-- An action outside of the nodes comes out the same, refusals included, whatever the nodes are
besides their ids and names. -/
theorem carryOutOn_mapNodes (h : d.KeepsRefs g) (hb : b.isOutside = true) :
    carryOutOn none (d.mapNodes g) b = (carryOutOn none d b).map (·.mapNodes g) := by
  cases b with
  | addConnection l => exact addConnection_mapNodes h l
  | removeConnection l => exact removeConnection_mapNodes h l
  | updateConnection l => exact updateConnection_mapNodes h l
  | addTag tag =>
    have htags : (d.mapNodes g).tags = d.tags := rfl
    simp only [carryOutOn, Except.map, htags]
    split <;> rfl
  | updateSettings settings => rfl
  | updateName name => rfl
  | removeTag tag => rfl
  | _ => simp [Action.isOutside] at hb

end Draft

/-! ## Operations within a node -/

/-- The reference of an action that leaves a node its id and its name: one that moves it, switches
it on or off, or changes its parameters. -/
def Action.edited? : Action → Option NodeRef
  | .moveNode r _ | .enableNode r | .disableNode r => some r
  | .updateNode r changes =>
    if (Entries.keys changes).all DottedPath.entersParameters then some r else none
  | _ => none

namespace Draft

section Parameters

variable {d : Document} {n after : Node} {cs settled : List Change}
  (hpaths : ∀ path ∈ cs.map (·.path), DottedPath.entersParameters path = true)

include hpaths

/-- A node whose parameters are changed keeps its id, its name and its type. -/
theorem kept_of_parameters {r : ChangeRun} (hrun : ChangeRun.run cs n.toEntries = .ok r)
    (hread : Node.ofEntries r.data = .ok after) :
    after.id = n.id ∧ after.name = n.name ∧ after.type = n.type := by
  refine Node.kept_of_written ?_ hread
  intro key hkey
  refine ChangeRun.get?_of_run hrun fun path hpath => ?_
  rw [DottedPath.head?_keys (hpaths path hpath)]
  intro h
  cases h
  simp at hkey

/-- Whether the parameters of a node can be changed does not depend on the document. -/
theorem updated_of_parameters :
    updated d n cs = .ok (after, settled) ↔
      ∃ r, ChangeRun.run cs n.toEntries = .ok r ∧ Node.ofEntries r.data = .ok after ∧
        r.changes = settled := by
  constructor
  · intro h
    rcases updated_eq_ok h with ⟨r, hrun, hread, -, hsettled⟩
    exact ⟨r, hrun, hread, hsettled⟩
  · intro hexists
    rcases hexists with ⟨r, hrun, hread, rfl⟩
    rcases kept_of_parameters hpaths hrun hread with ⟨hid, hname, htype⟩
    simp [updated, hrun, hread, updateRefusal?, hid, hname, htype]

end Parameters

end Draft

/-- What an action within a node makes of the node. Changes of parameters are carried out twice, and
the second run starts from what the first one has left of the changes. -/
inductive Action.Edits : Action → Node → Node → Prop
  | moveNode {r : NodeRef} {position : Position} {n : Node} :
      Edits (.moveNode r position) n { n with position := position }
  | enableNode {r : NodeRef} {n : Node} : Edits (.enableNode r) n { n with disabled := false }
  | disableNode {r : NodeRef} {n : Node} : Edits (.disableNode r) n { n with disabled := true }
  | updateNode {r : NodeRef} {changes : List (String × Value)} {n trial after : Node}
      {first second : ChangeRun}
      (htrial : ChangeRun.run (Change.ofEntries changes) n.toEntries = .ok first)
      (hfits : Node.ofEntries first.data = .ok trial)
      (hrun : ChangeRun.run first.changes n.toEntries = .ok second)
      (hread : Node.ofEntries second.data = .ok after) :
      Edits (.updateNode r changes) n after

namespace Draft

variable {catalog : Option Catalog} {d d₁ d₂ : Document} {a b : Action} {r r' : NodeRef}
  {n m n' m' : Node}

def putting (reference : String) (m x : Node) : Node :=
  if x.answersTo reference then m else x

theorem parameters_of_edited {changes : List (String × Value)}
    (h : (Action.updateNode r' changes).edited? = some r) :
    r' = r ∧ ∀ path ∈ (Change.ofEntries changes).map (·.path),
      DottedPath.entersParameters path = true := by
  have hsame : (Change.ofEntries changes).map (·.path) = Entries.keys changes := by
    rw [Change.ofEntries, List.map_map]
    rfl
  rw [hsame]
  simpa [Action.edited?, and_comm] using h

/-- Only one node is changed, so what the others would become does not matter. -/
theorem changeNode_eq_ok_iff {reference : String} {f : Node → Node} :
    changeNode d reference f = .ok d₁ ↔
      ∃ n, d.resolve reference = .ok n ∧ d₁ = d.mapNodes (putting reference (f n)) := by
  have hmap : ∀ n, d.resolve reference = .ok n →
      (d.nodes.map fun x => if x.answersTo reference then f x else x) =
        d.nodes.map (putting reference (f n)) := by
    intro n hn
    rcases Document.picks_of_resolve hn with ⟨front, back, hpicks⟩
    rw [hpicks.map_answering f]
    exact (hpicks.map_answering fun _ => f n).symm
  constructor
  · intro h
    rcases changeNode_eq_ok h with ⟨n, hn, rfl⟩
    exact ⟨n, hn, by rw [hmap n hn, Document.mapNodes]⟩
  · intro hexists
    rcases hexists with ⟨n, hn, rfl⟩
    simp only [changeNode, resolve_eq_ok.2 hn, Except.map, hmap n hn, Document.mapNodes]

/-- Changes of the parameters put the node into its place that the second run leads to. -/
theorem updateNode_of_parameters {changes : List (String × Value)}
    (hpaths : ∀ path ∈ (Change.ofEntries changes).map (·.path),
      DottedPath.entersParameters path = true) :
    updateNode d r.text changes = .ok d₁ ↔
      ∃ n m, d.resolve r.text = .ok n ∧ (Action.updateNode r changes).Edits n m ∧
        d₁ = d.mapNodes (putting r.text m) := by
  -- The trial run may settle values, but it leaves the paths, so that the second run stays within
  -- the parameters as well.
  have hsettled : ∀ {n : Node} {first : ChangeRun},
      ChangeRun.run (Change.ofEntries changes) n.toEntries = .ok first →
        ∀ path ∈ first.changes.map (·.path), DottedPath.entersParameters path = true := by
    intro n first hrun
    rw [ChangeRun.map_path_run hrun]
    exact hpaths
  have hreplace : ∀ {n m : Node}, m.name = n.name →
      replaceNode d r.text n m = d.mapNodes (putting r.text m) := by
    intro n m hname
    simp only [replaceNode, hname, if_true]
    rfl
  rw [updateNode_eq_ok]
  constructor
  · intro h
    rcases h with ⟨n, m, ⟨hn, trial, settled, rest, htrial, hafter⟩, rfl⟩
    rcases (updated_of_parameters hpaths).1 htrial with ⟨first, hfirst, hfits, rfl⟩
    have hpaths' := hsettled hfirst
    rcases (updated_of_parameters hpaths').1 hafter with ⟨second, hsecond, hread, -⟩
    have hname : m.name = n.name := (kept_of_parameters hpaths' hsecond hread).2.1
    exact ⟨n, m, hn, .updateNode hfirst hfits hsecond hread, hreplace hname⟩
  · intro h
    rcases h with ⟨n, m, hn, hedits, rfl⟩
    cases hedits with
    | @updateNode _ _ _ trial _ first second htrial hfits hrun hread =>
      have hpaths' := hsettled htrial
      have hname : m.name = n.name := (kept_of_parameters hpaths' hrun hread).2.1
      have hfirst : updated d n (Change.ofEntries changes) = .ok (trial, first.changes) :=
        (updated_of_parameters hpaths).2 ⟨first, htrial, hfits, rfl⟩
      have hsecond : updated d n first.changes = .ok (m, second.changes) :=
        (updated_of_parameters hpaths').2 ⟨second, hrun, hread, rfl⟩
      refine ⟨n, m, ?_, hreplace hname⟩
      exact ⟨hn, trial, first.changes, second.changes, hfirst, hsecond⟩

/-- A change of one node puts the node that an action edits in its place, if the two agree. -/
theorem changeNode_edits_iff {f : Node → Node} (hedit : ∀ n, a.Edits n (f n))
    (honly : ∀ n m, a.Edits n m → m = f n) :
    changeNode d r.text f = .ok d₁ ↔
      ∃ n m, d.resolve r.text = .ok n ∧ a.Edits n m ∧ d₁ = d.mapNodes (putting r.text m) := by
  rw [changeNode_eq_ok_iff]
  constructor
  · rintro ⟨n, hn, rfl⟩
    exact ⟨n, f n, hn, hedit n, rfl⟩
  · rintro ⟨n, m, hn, hm, rfl⟩
    obtain rfl := honly n m hm
    exact ⟨n, hn, rfl⟩

/-- An action within a node puts another node into its place, by what it makes of that node. -/
theorem carryOutOn_edited_iff (ha : a.edited? = some r) :
    carryOutOn catalog d a = .ok d₁ ↔
      ∃ n m, d.resolve r.text = .ok n ∧ a.Edits n m ∧ d₁ = d.mapNodes (putting r.text m) := by
  cases a with
  | moveNode r' position =>
    obtain rfl : r' = r := Option.some.inj ha
    refine changeNode_edits_iff (fun _ => .moveNode) ?_
    rintro n m ⟨⟩
    rfl
  | enableNode r' =>
    obtain rfl : r' = r := Option.some.inj ha
    refine changeNode_edits_iff (fun _ => .enableNode) ?_
    rintro n m ⟨⟩
    rfl
  | disableNode r' =>
    obtain rfl : r' = r := Option.some.inj ha
    refine changeNode_edits_iff (fun _ => .disableNode) ?_
    rintro n m ⟨⟩
    rfl
  | updateNode r' changes =>
    rcases parameters_of_edited ha with ⟨rfl, hpaths⟩
    exact updateNode_of_parameters hpaths
  | _ => simp [Action.edited?] at ha

theorem kept_of_edits (h : a.Edits n m) (ha : a.edited? = some r) :
    m.id = n.id ∧ m.name = n.name := by
  cases h with
  | moveNode => exact ⟨rfl, rfl⟩
  | enableNode => exact ⟨rfl, rfl⟩
  | disableNode => exact ⟨rfl, rfl⟩
  | updateNode htrial hfits hrun hread =>
    have hpaths := (parameters_of_edited ha).2
    rw [← ChangeRun.map_path_run htrial] at hpaths
    rcases kept_of_parameters hpaths hrun hread with ⟨hid, hname, -⟩
    exact ⟨hid, hname⟩

/-- The node that is put in the place of another goes by the same id and name. -/
theorem keepsRefs_putting (hn : d.resolve r.text = .ok n) (hkept : m.id = n.id ∧ m.name = n.name) :
    d.KeepsRefs (putting r.text m) := by
  intro x hx
  unfold putting
  split
  · rename_i hanswers
    rw [← Document.eq_of_resolve hx hanswers hn]
    exact hkept
  · exact ⟨rfl, rfl⟩

/-! ## Two orders -/

/-- An action within a node and one outside of all nodes: the node is put into the same place. -/
theorem outside_then_edit (ha : a.edited? = some r) (hb : b.isOutside = true) :
    (∃ d₁, carryOutOn none d b = .ok d₁ ∧ carryOutOn none d₁ a = .ok d₂) ↔
      ∃ d₁, carryOutOn none d a = .ok d₁ ∧ carryOutOn none d₁ b = .ok d₂ := by
  constructor
  · intro h
    rcases h with ⟨d₁, hd₁, hd₂⟩
    rcases (carryOutOn_edited_iff ha).1 hd₂ with ⟨n, m, hn, hedits, rfl⟩
    have hnodes : d₁.nodes = d.nodes := nodes_of_outside hb hd₁
    have hn' : d.resolve r.text = .ok n := by
      simpa only [Document.resolve, hnodes] using hn
    -- The edit leaves what nodes are referred to by, so that the other action finds the same
    -- ones.
    have hkeeps := keepsRefs_putting hn' (kept_of_edits hedits ha)
    refine ⟨_, (carryOutOn_edited_iff ha).2 ⟨n, m, hn', hedits, rfl⟩, ?_⟩
    calc
      carryOutOn none (d.mapNodes (putting r.text m)) b
          = (carryOutOn none d b).map (·.mapNodes (putting r.text m)) :=
            carryOutOn_mapNodes hkeeps hb
      _ = .ok (d₁.mapNodes (putting r.text m)) := by
            rw [hd₁]
            rfl
  · intro h
    rcases h with ⟨d₁, hd₁, hd₂⟩
    rcases (carryOutOn_edited_iff ha).1 hd₁ with ⟨n, m, hn, hedits, rfl⟩
    have hkeeps := keepsRefs_putting hn (kept_of_edits hedits ha)
    rw [carryOutOn_mapNodes hkeeps hb] at hd₂
    cases hb' : carryOutOn none d b with
    | error e => simp [hb', Except.map] at hd₂
    | ok d₁ =>
      have hsame : d₁.mapNodes (putting r.text m) = d₂ := by
        simpa [hb', Except.map] using hd₂
      have hnodes : d₁.nodes = d.nodes := nodes_of_outside hb hb'
      have hn' : d₁.resolve r.text = .ok n := by
        simpa only [Document.resolve, hnodes] using hn
      refine ⟨d₁, rfl, ?_⟩
      exact (carryOutOn_edited_iff ha).2 ⟨n, m, hn', hedits, hsame.symm⟩

/-- A node that another reference means does not answer to this one. -/
theorem answersTo_eq_false {reference : String} (hn : d.resolve reference = .ok n)
    (hn' : n' ∈ d.nodes) (hne : n ≠ n') : n'.answersTo reference = false :=
  Bool.eq_false_iff.2 fun h => hne (Document.eq_of_resolve hn' h hn)

/-- Two nodes are put into their places one after the other. -/
theorem mapNodes_putting_comm (hn : d.resolve r.text = .ok n) (hn' : d.resolve r'.text = .ok n')
    (hne : n ≠ n') (hm : m.id = n.id ∧ m.name = n.name) (hm' : m'.id = n'.id ∧ m'.name = n'.name) :
    (d.mapNodes (putting r.text m)).mapNodes (putting r'.text m') =
      (d.mapNodes (putting r'.text m')).mapNodes (putting r.text m) := by
  have hother : n'.answersTo r.text = false :=
    answersTo_eq_false hn (Document.mem_of_resolve hn') hne
  have hother' : n.answersTo r'.text = false :=
    answersTo_eq_false hn' (Document.mem_of_resolve hn) hne.symm
  -- The nodes that are put in answer to what the others have answered to.
  have hput : m.answersTo r'.text = false := by
    simpa only [Node.answersTo, hm.1, hm.2] using hother'
  have hput' : m'.answersTo r.text = false := by
    simpa only [Node.answersTo, hm'.1, hm'.2] using hother
  have hnodes : ∀ x ∈ d.nodes, putting r'.text m' (putting r.text m x) =
      putting r.text m (putting r'.text m' x) := by
    intro x hx
    by_cases h : x.answersTo r.text = true
    · -- This is the first node, to which the second reference does not lead.
      obtain rfl : n = x := Document.eq_of_resolve hx h hn
      simp [putting, h, hother', hput]
    · by_cases h' : x.answersTo r'.text = true
      · simp [putting, h, h', hput']
      · simp [putting, h, h']
  simp only [Document.mapNodes, List.map_map]
  congr 1
  exact List.map_congr_left hnodes

/-- Actions within two nodes: each node is found where it was, and becomes what it would have
become. -/
theorem edit_then_edit (ha : a.edited? = some r) (hb : b.edited? = some r')
    (hapart : ∀ n, d.resolve r.text = .ok n → d.resolve r'.text ≠ .ok n)
    (h : carryOutOn catalog d a = .ok d₁) (h' : carryOutOn catalog d₁ b = .ok d₂) :
    ∃ d₁, carryOutOn catalog d b = .ok d₁ ∧ carryOutOn catalog d₁ a = .ok d₂ := by
  rcases (carryOutOn_edited_iff ha).1 h with ⟨n, m, hn, hedits, rfl⟩
  rcases (carryOutOn_edited_iff hb).1 h' with ⟨x, m', hx, hedits', rfl⟩
  have hm := kept_of_edits hedits ha
  have hm' := kept_of_edits hedits' hb
  -- The second node is looked up after the first one has been replaced, and is the same.
  rw [(keepsRefs_putting hn hm).resolve] at hx
  cases hn' : d.resolve r'.text with
  | error f => simp [hn', Except.map] at hx
  | ok n' =>
    have hne : n ≠ n' := by
      intro heq
      subst heq
      exact hapart n hn hn'
    have hother : n'.answersTo r.text = false :=
      answersTo_eq_false hn (Document.mem_of_resolve hn') hne
    have hother' : n.answersTo r'.text = false :=
      answersTo_eq_false hn' (Document.mem_of_resolve hn) hne.symm
    obtain rfl : n' = x := by
      simpa [hn', Except.map, putting, hother] using hx
    have hback : (d.mapNodes (putting r'.text m')).resolve r.text = .ok n := by
      rw [(keepsRefs_putting hn' hm').resolve, hn]
      simp [Except.map, putting, hother']
    have hcomm := mapNodes_putting_comm hn hn' hne hm hm'
    refine ⟨d.mapNodes (putting r'.text m'), ?_, ?_⟩
    · exact (carryOutOn_edited_iff hb).2 ⟨n', m', hn', hedits', rfl⟩
    · exact (carryOutOn_edited_iff ha).2 ⟨n, m, hback, hedits, hcomm⟩

/-- Two actions that are not about the same node: both are within nodes, but their references do
not mean the same one, or the second is outside of all nodes. -/
inductive Apart (d : Document) : Action → Action → Prop
  | nodes {a b : Action} {r r' : NodeRef} (ha : a.edited? = some r) (hb : b.edited? = some r')
      (hapart : ∀ n, d.resolve r.text = .ok n → d.resolve r'.text ≠ .ok n) : Apart d a b
  | outside {a b : Action} {r : NodeRef} (ha : a.edited? = some r) (hb : b.isOutside = true) :
      Apart d a b

/-- Actions that are not about the same node lead to the same document in either order. -/
theorem Apart.carryOutOn_swap (h : Apart d a b) :
    (∃ d₁, carryOutOn none d a = .ok d₁ ∧ carryOutOn none d₁ b = .ok d₂) ↔
      ∃ d₁, carryOutOn none d b = .ok d₁ ∧ carryOutOn none d₁ a = .ok d₂ := by
  cases h with
  | nodes ha hb hapart =>
    constructor
    · intro hexists
      rcases hexists with ⟨d₁, h, h'⟩
      exact edit_then_edit ha hb hapart h h'
    · intro hexists
      rcases hexists with ⟨d₁, h, h'⟩
      exact edit_then_edit hb ha (fun n hn hn' => hapart n hn' hn) h h'
  | outside ha hb => exact (outside_then_edit ha hb).symm

theorem Apart.ne_addNode (h : Apart d a b) : (∀ n, a ≠ .addNode n) ∧ ∀ n, b ≠ .addNode n := by
  cases h with
  | nodes ha hb =>
    refine ⟨?_, ?_⟩ <;> rintro n rfl
    · simp [Action.edited?] at ha
    · simp [Action.edited?] at hb
  | outside ha hb =>
    refine ⟨?_, ?_⟩ <;> rintro n rfl
    · simp [Action.edited?] at ha
    · simp [Action.isOutside] at hb

/-- A run of two actions that add no node leads from document to document. -/
theorem run_pair_iff {s t : Draft} (ha : ∀ n, a ≠ .addNode n) (hb : ∀ n, b ≠ .addNode n) :
    Run catalog s [a, b] t ↔
      ∃ d₂, (∃ d₁, carryOutOn catalog s.document a = .ok d₁ ∧
          carryOutOn catalog d₁ b = .ok d₂) ∧ t = { s with document := d₂ } := by
  constructor
  · intro h
    rcases h with _ | ⟨hfirst, _ | ⟨hsecond, ⟨⟩⟩⟩
    rcases (carryOut_eq_ok_iff ha).1 hfirst with ⟨d₁, hd₁, rfl⟩
    rcases (carryOut_eq_ok_iff hb).1 hsecond with ⟨d₂, hd₂, rfl⟩
    exact ⟨d₂, ⟨d₁, hd₁, hd₂⟩, rfl⟩
  · intro h
    rcases h with ⟨d₂, ⟨d₁, hd₁, hd₂⟩, rfl⟩
    exact .cons ((carryOut_eq_ok_iff ha).2 ⟨d₁, hd₁, rfl⟩)
      (.cons ((carryOut_eq_ok_iff hb).2 ⟨d₂, hd₂, rfl⟩) (.nil _))

/-- Without additions every halt is a refusal. -/
theorem refused_of_halt {index : Nat} {os : List Operation} {s : Draft} {halt : Halt}
    (hos : ∀ o ∈ os, ∀ n, o.action ≠ .addNode n)
    (h : carryOutAll catalog index os s = .error halt) : ∃ r, halt.obstacle = .refused r := by
  rcases carryOutAll_eq_error_iff.1 h with ⟨front, o, back, t, rfl, -, herror, -⟩
  rw [carryOut_of_ne (hos o (by simp))] at herror
  cases hd : carryOutOn catalog t.document o.action with
  | error refusal =>
    simp only [hd, Except.mapError, Except.map, Except.error.injEq] at herror
    exact ⟨refusal, herror.symm⟩
  | ok d => simp [hd, Except.mapError, Except.map] at herror

theorem Apart.run_swap {s t : Draft} (h : Apart s.document a b) :
    Run none s [a, b] t ↔ Run none s [b, a] t := by
  rcases h.ne_addNode with ⟨ha, hb⟩
  simp only [run_pair_iff ha hb, run_pair_iff hb ha, h.carryOutOn_swap]

end Draft

/-! ## Batches -/

/-- Whether a batch has been accepted, and the document that comes with the answer. -/
def EditResult.outcome (r : EditResult) : Bool × Option Document :=
  (r.success, r.document)

namespace Editor

variable {e : Editor} {ids : IdSupply} {dryRun : Bool} {k : Nat} {d : Document}
  {os os' : List Operation}

/-- Without additions, two batches of the same length come out the same if they lead to the same
drafts. -/
theorem outcome_of_run_iff (hlength : os.length = os'.length)
    (hos : ∀ o ∈ os, ∀ n, o.action ≠ .addNode n) (hos' : ∀ o ∈ os', ∀ n, o.action ≠ .addNode n)
    (hrun : ∀ t, Draft.Run e.catalog ⟨d, k, ids⟩ (os.map (·.action)) t ↔
      Draft.Run e.catalog ⟨d, k, ids⟩ (os'.map (·.action)) t) :
    (e.applyOperations ids dryRun k d os).map (·.1.outcome) =
      (e.applyOperations ids dryRun k d os').map (·.1.outcome) := by
  unfold applyOperations
  rw [← hlength]
  rcases e.sizeError? os.length with _ | ⟨err | ⟨first, more⟩⟩
  · cases hall : Draft.carryOutAll e.catalog 0 os ⟨d, k, ids⟩ with
    | ok s =>
      have hall' : Draft.carryOutAll e.catalog 0 os' ⟨d, k, ids⟩ = .ok s :=
        Draft.run_iff.2 ((hrun s).1 (Draft.run_iff.1 hall))
      simp only [hall']
    | error halt =>
      cases hall' : Draft.carryOutAll e.catalog 0 os' ⟨d, k, ids⟩ with
      | ok s =>
        have hok : Draft.carryOutAll e.catalog 0 os ⟨d, k, ids⟩ = .ok s :=
          Draft.run_iff.2 ((hrun s).2 (Draft.run_iff.1 hall'))
        simp [hall] at hok
      | error halt' =>
        rcases Draft.refused_of_halt hos hall with ⟨r, hr⟩
        rcases Draft.refused_of_halt hos' hall' with ⟨r', hr'⟩
        simp only [hr, hr']
        rfl
  · rfl
  · rfl

theorem exists_parse {v : Value} {a : Action} (h : Operation.action? v = some a) :
    ∃ o, o.action = a ∧ ∀ i, Operation.parse i v = .ok o := by
  rcases Option.map_eq_some_iff.1 h with ⟨o, ho, rfl⟩
  cases hparse : Operation.parse 0 v with
  | error err => simp [hparse, Except.toOption] at ho
  | ok o' =>
    obtain rfl : o' = o := by simpa [hparse, Except.toOption] using ho
    exact ⟨o', rfl, fun i => Operation.parse_eq_ok_iff.1 hparse⟩

/-- Two operations that are not about the same node, carried out by an editor without a catalog,
come out the same in either order: both batches are rejected, or both are accepted and lead to the
same document. -/
theorem outcome_swapped {v w : Value} {a b : Action} (he : e.catalog = none)
    (ha : Operation.action? v = some a) (hb : Operation.action? w = some b)
    (hapart : Draft.Apart d a b) :
    (e.applyWith ids dryRun k d [v, w]).map (·.1.outcome) =
      (e.applyWith ids dryRun k d [w, v]).map (·.1.outcome) := by
  rcases exists_parse ha with ⟨o, rfl, ho⟩
  rcases exists_parse hb with ⟨o', rfl, ho'⟩
  have hclean : Operation.parseAll [v, w] = ([o, o'], []) := by
    simp [Operation.parseAll, Operation.parseFrom, ho, ho']
  have hclean' : Operation.parseAll [w, v] = ([o', o], []) := by
    simp [Operation.parseAll, Operation.parseFrom, ho, ho']
  have hne : ∀ x ∈ [o, o'], ∀ n, x.action ≠ .addNode n := by
    simpa using hapart.ne_addNode
  have hne' : ∀ x ∈ [o', o], ∀ n, x.action ≠ .addNode n := by
    simpa using hapart.ne_addNode.symm
  simp only [applyWith, hclean, hclean']
  refine outcome_of_run_iff rfl hne hne' ?_
  intro t
  rw [he]
  exact Draft.Apart.run_swap (s := ⟨d, k, ids⟩) hapart

/-- Two nodes with a link between them. -/
def couple : Document where
  nodes :=
    [{ id := "1", name := "A", type := "n8n-nodes-base.set" },
      { id := "2", name := "B", type := "n8n-nodes-base.merge" }]
  connections := [("A", [("main", [some [⟨"B", "main", 0⟩]])])]

def toFill : Value :=
  .obj
    [("type", .str "updateNode"), ("nodeName", .str "A"),
      ("changes", .obj [("parameters.mode", .str "raw")])]

def toDisable : Value :=
  .obj [("type", .str "disableNode"), ("nodeId", .str "2")]

def toCut : Value :=
  .obj [("type", .str "removeConnection"), ("source", .str "A"), ("target", .str "B")]

/-- The node that is filled is not the one that is switched off, and the link is outside of both. -/
theorem couple_swapped :
    (∃ d', ({} : Editor).Accepts idText 1 couple [toFill, toDisable] d') ∧
      (∃ d', ({} : Editor).Accepts idText 1 couple [toFill, toCut] d') ∧
      (({} : Editor).applyWith idText false 1 couple [toFill, toDisable]).map (·.1.outcome) =
        (({} : Editor).applyWith idText false 1 couple [toDisable, toFill]).map (·.1.outcome) ∧
      (({} : Editor).applyWith idText false 1 couple [toFill, toCut]).map (·.1.outcome) =
        (({} : Editor).applyWith idText false 1 couple [toCut, toFill]).map (·.1.outcome) := by
  have hfill : Operation.action? toFill =
      some (.updateNode ⟨none, some "A", by decide⟩ [("parameters.mode", .str "raw")]) := rfl
  have hdisable : Operation.action? toDisable = some (.disableNode ⟨some "2", none, by decide⟩) :=
    rfl
  have hcut : Operation.action? toCut =
      some (.removeConnection ⟨"A", "B", "main", "main", none⟩) := rfl
  have hapart : ∀ n, couple.resolve "A" = .ok n → couple.resolve "2" ≠ .ok n := by
    intro n hn hn'
    have hfirst : n.id = "1" := by
      cases hn
      rfl
    have hsecond : n.id = "2" := by
      cases hn'
      rfl
    simp [hfirst] at hsecond
  have hdisabled : ∃ d', ({} : Editor).Accepts idText 1 couple [toFill, toDisable] d' ∧
      (d'.nodes.map (·.disabled) == [false, true]) = true := exists_accepts (by decide +kernel)
  have hremoved : ∃ d', ({} : Editor).Accepts idText 1 couple [toFill, toCut] d' ∧
      d'.connections.isEmpty = true := exists_accepts (by decide +kernel)
  refine ⟨hdisabled.imp fun _ h => h.1, hremoved.imp fun _ h => h.1, ?_, ?_⟩
  · exact outcome_swapped rfl hfill hdisable (.nodes rfl rfl hapart)
  · exact outcome_swapped rfl hfill hcut (.outside rfl rfl)

end Editor
end Workflows
