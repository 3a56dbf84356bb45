import Workflows.Proofs.Edit.Reread
import Workflows.Proofs.Edit.Sequence
import Workflows.Proofs.Validation.Unread

/-!
# Saved — edited documents that are written down and read again

Where a value and a batch of operations use the first spellings of the fields, nothing that an
operation makes stands under a second one: an addition holds what its payload held, and an update
assigns below the first keys of its paths. So the document that the batch leads to is read again
from its written form as it was, but for the nulls beside its fields. No check looks at these.

Main definitions:

* `ChangeRun.get?_of_run` — what a run of changes leaves as it was;
* `Operation.FirstSpelled` — operations whose nodes and paths use the first spellings;
* `Draft.Run.storable` — a run of such operations leads to a storable document;
* `Editor.loaded_of_accepts` — the edited document, written down and read again.
-/

namespace Workflows

/-! ## Assignments -/

namespace DottedPath

/-- An assignment changes nothing beside the first key of its path. -/
theorem get?_of_assignKeys {value : Value} {keys : List String} {es es' : Entries Value}
    {key : String} (h : assignKeys value keys es = .ok es') (hkey : keys.head? ≠ some key) :
    es'.get? key = es.get? key := by
  have hput : ∀ first v, first ≠ key → (es.put first v).get? key = es.get? key :=
    fun first v hne => Entries.get?_put_of_ne v es hne.symm
  match keys with
  | [] =>
    cases h
    rfl
  | [first] =>
    cases h
    exact hput first value (by simpa using hkey)
  | first :: second :: rest =>
    have hne : first ≠ key := by simpa using hkey
    -- Wherever the rest of the path leads to, the result is put under the first key.
    have hwithin : ∃ inner, es' = es.put first (.obj inner) := by
      simp only [assignKeys] at h
      split at h
      case h_4 => simp at h
      all_goals
        split at h
        · exact ⟨_, (Except.ok.inj h).symm⟩
        · simp at h
    rcases hwithin with ⟨inner, rfl⟩
    exact hput first _ hne

theorem get?_of_assign {path : String} {value : Value} {es es' : Entries Value} {key : String}
    (h : assign path value es = .ok es') (hkey : (keys path).head? ≠ some key) :
    es'.get? key = es.get? key := by
  simp only [assign] at h
  split at h
  · simp at h
  · split at h
    · rename_i hassign
      cases h
      exact get?_of_assignKeys hassign hkey
    · simp at h

end DottedPath

namespace ChangeRun

variable {r r' : ChangeRun} {key : String}

/-- A change that is refreshed keeps its path. -/
theorem map_path_refreshed (r : ChangeRun) (cs : List Change) :
    (cs.zipIdx.map fun (c, index) => r.refreshed c index).map (·.path) = cs.map (·.path) := by
  have hpath : ∀ c index, (r.refreshed c index).path = c.path := by
    intro c index
    unfold refreshed
    split <;> rfl
  calc
    (cs.zipIdx.map fun (c, index) => r.refreshed c index).map (·.path)
        = cs.zipIdx.map fun p => p.1.path := by
          rw [List.map_map]
          exact List.map_congr_left fun (c, index) _ => hpath c index
    _ = (cs.zipIdx.map Prod.fst).map (·.path) := List.map_map.symm
    _ = cs.map (·.path) := by rw [List.zipIdx_map_fst]

/-- One change assigns at its path, and leaves the paths of all changes as they are. -/
theorem step_eq_ok {index : Nat} {c : Change} (h : r.step index c = .ok r') :
    DottedPath.assign c.path c.value r.data = .ok r'.data ∧
      r'.changes.map (·.path) = r.changes.map (·.path) := by
  unfold step at h
  split at h
  · simp at h
  · rename_i data hassign
    cases h
    exact ⟨hassign, map_path_refreshed _ r.changes⟩

theorem map_path_steps {count index : Nat} (h : steps count index r = .ok r') :
    r'.changes.map (·.path) = r.changes.map (·.path) := by
  induction count generalizing index r with
  | zero =>
    cases h
    rfl
  | succ count ih =>
    unfold steps at h
    split at h
    · cases h
      rfl
    · split at h
      · simp at h
      · rename_i hstep
        rw [ih h, (step_eq_ok hstep).2]

/-- Steps change nothing beside the first keys of their paths. -/
theorem get?_of_steps {count index : Nat} (h : steps count index r = .ok r')
    (hkey : ∀ path ∈ r.changes.map (·.path), (DottedPath.keys path).head? ≠ some key) :
    r'.data.get? key = r.data.get? key := by
  induction count generalizing index r with
  | zero =>
    cases h
    rfl
  | succ count ih =>
    unfold steps at h
    split at h
    · cases h
      rfl
    · rename_i c hc
      split at h
      · simp at h
      · rename_i hstep
        rcases step_eq_ok hstep with ⟨hassign, hpaths⟩
        have hc' : c.path ∈ r.changes.map (·.path) :=
          List.mem_map_of_mem (List.mem_of_getElem? hc)
        rw [ih h (hpaths ▸ hkey), DottedPath.get?_of_assign hassign (hkey c.path hc')]

variable {changes : List Change} {data : Entries Value}

theorem map_path_run (h : run changes data = .ok r) :
    r.changes.map (·.path) = changes.map (·.path) :=
  map_path_steps h

/-- A run of changes leaves what lies beside the first keys of their paths. -/
theorem get?_of_run (h : run changes data = .ok r)
    (hkey : ∀ path ∈ changes.map (·.path), (DottedPath.keys path).head? ≠ some key) :
    r.data.get? key = data.get? key :=
  get?_of_steps h hkey

end ChangeRun

/-! ## What no check looks at -/

theorem Document.core_stripped (d : Document) : d.stripped.core = d.core := by
  rw [core, core, stripped, List.map_map]
  rfl

/-! ## Single operations -/

namespace NodeBody

/-- The paths do not begin with second spellings. -/
def FirstSpelledPaths (paths : List String) : Prop :=
  ∀ path ∈ paths, ∀ key ∈ secondSpellings, (DottedPath.keys path).head? ≠ some key

instance (paths : List String) : Decidable (FirstSpelledPaths paths) :=
  inferInstanceAs (Decidable (∀ path ∈ paths, ∀ key ∈ secondSpellings,
    (DottedPath.keys path).head? ≠ some key))

end NodeBody

def Action.FirstSpelled : Action → Prop
  | .addNode n => NodeBody.FirstSpelled n.extra
  | .updateNode _ changes => NodeBody.FirstSpelledPaths (Entries.keys changes)
  | _ => True

theorem Node.Storable.firstSpelled {n : Node} (h : n.Storable) :
    NodeBody.FirstSpelled n.toEntries := by
  intro key hkey
  rcases List.mem_map.1 hkey with ⟨f, hf, rfl⟩
  rcases List.mem_filter.1 hf with ⟨hmem, hne⟩
  exact h.get?_plain hmem (by simpa using hne)

theorem NewNode.firstSpelled_written {n : NewNode} (h : NodeBody.FirstSpelled n.extra)
    (id : String) : NodeBody.FirstSpelled (n.written id) := by
  intro key hkey
  have hwire : key ∉ NodeBody.fieldNames.map (·.wire) := NodeBody.second_not_first key hkey
  have hid : key ≠ "id" := fun heq => hwire (heq ▸ by decide)
  have hversion : key ≠ "typeVersion" := fun heq => hwire (heq ▸ by decide)
  have hown : n.ownEntries.get? key = none := Entries.get?_eq_none_iff.2 hwire
  rw [n.get?_written id hid hversion, n.get?_toEntries, hown,
    Entries.get?_withoutNulls_eq_none (h key hkey)]
  rfl

namespace Document

variable {d d' : Document}

theorem Storable.of_subset (hd : d.Storable) (hnodes : ∀ n ∈ d'.nodes, n ∈ d.nodes)
    (hextra : d'.extra = d.extra) : d'.Storable where
  nodes := fun n hn => hd.nodes n (hnodes n hn)
  extra := hextra ▸ hd.extra

end Document

namespace Draft

variable {catalog : Option Catalog} {d d' : Document} {reference : String}

theorem Updates.storable {changes : List (String × Value)} {before after : Node}
    (h : Updates d reference changes before after)
    (hpaths : NodeBody.FirstSpelledPaths (Entries.keys changes)) (hbefore : before.Storable) :
    after.Storable := by
  rcases h with ⟨-, trial, settled, rest, htrial, hafter⟩
  rcases updated_eq_ok htrial with ⟨r, hrun, -, -, rfl⟩
  rcases updated_eq_ok hafter with ⟨r', hrun', hread, -, -⟩
  -- The trial has left the paths of the changes, though not their values.
  have hsame : r.changes.map (·.path) = Entries.keys changes := by
    rw [ChangeRun.map_path_run hrun, Change.ofEntries, List.map_map]
    rfl
  refine Node.storable_of_ofEntries hread ?_
  intro key hkey
  rw [ChangeRun.get?_of_run hrun' fun path hpath => hpaths path (hsame ▸ hpath) key hkey]
  exact hbefore.firstSpelled key hkey

theorem storable_of_changeNode {f : Node → Node} (h : changeNode d reference f = .ok d')
    (hf : ∀ n : Node, n.Storable → (f n).Storable) (hd : d.Storable) : d'.Storable := by
  rcases changeNode_eq_ok h with ⟨n, -, rfl⟩
  refine ⟨?_, hd.extra⟩
  intro m hm
  rcases List.mem_map.1 hm with ⟨m', hm', rfl⟩
  split
  · exact hf m' (hd.nodes m' hm')
  · exact hd.nodes m' hm'

theorem storable_of_updateNode {changes : List (String × Value)}
    (h : updateNode d reference changes = .ok d')
    (hpaths : NodeBody.FirstSpelledPaths (Entries.keys changes)) (hd : d.Storable) :
    d'.Storable := by
  rcases updateNode_eq_ok.1 h with ⟨before, after, hupdates, rfl⟩
  refine ⟨?_, hd.extra⟩
  intro m hm
  rcases List.mem_map.1 hm with ⟨m', hm', rfl⟩
  split
  · exact hupdates.storable hpaths (hd.nodes before (Document.mem_of_resolve hupdates.1))
  · exact hd.nodes m' hm'

/-- What an operation on a document makes of it is storable if the document was, and the operation
puts nothing under a second spelling. -/
theorem storable_of_carryOutOn {a : Action} (h : carryOutOn catalog d a = .ok d')
    (ha : a.FirstSpelled) (hd : d.Storable) : d'.Storable := by
  cases a with
  | removeNode r =>
    rcases removeNode_eq_ok h with ⟨n, -, rfl⟩
    exact hd.of_subset (fun m hm => (List.mem_filter.1 hm).1) rfl
  | updateNode r changes => exact storable_of_updateNode h ha hd
  | moveNode r position =>
    exact storable_of_changeNode h (fun n hn => ⟨hn.name, hn.extra⟩) hd
  | enableNode r => exact storable_of_changeNode h (fun n hn => ⟨hn.name, hn.extra⟩) hd
  | disableNode r => exact storable_of_changeNode h (fun n hn => ⟨hn.name, hn.extra⟩) hd
  | addConnection l =>
    rcases addable_of_addConnection h with ⟨source, target, -, -, -, rfl⟩
    exact hd.of_subset (fun _ hm => hm) rfl
  | removeConnection l =>
    rcases removeConnection_eq_ok h with ⟨source, target, -, -, -, rfl⟩
    exact hd.of_subset (fun _ hm => hm) rfl
  | updateConnection l =>
    obtain ⟨source, target, slot, existing, d₁, -, -, -, -, rfl, -, rfl⟩ :=
      updateConnection_eq_ok h
    exact hd.of_subset (fun _ hm => hm) rfl
  | addTag tag =>
    simp only [carryOutOn, Except.ok.injEq] at h
    rw [← h]
    split
    · exact hd
    · exact hd.of_subset (fun _ hm => hm) rfl
  | _ =>
    cases h
    exact hd.of_subset (fun _ hm => hm) rfl

/-! ## Runs of operations -/

variable {s s' : Draft}

theorem storable_of_addNode {n : NewNode} (h : s.addNode n = .ok s')
    (hn : NodeBody.FirstSpelled n.extra) (hs : s.document.Storable) : s'.document.Storable := by
  rcases exists_of_addNode h with ⟨node, -, hread, rfl⟩
  have hnode : node.Storable :=
    Node.storable_of_ofEntries hread (NewNode.firstSpelled_written hn (s.ids s.nextId))
  refine ⟨?_, hs.extra⟩
  intro m hm
  rcases List.mem_append.1 hm with hm | hm
  · exact hs.nodes m hm
  · rcases List.mem_singleton.1 hm with rfl
    exact hnode

theorem storable_of_carryOut {a : Action} (h : s.carryOut catalog a = .ok s')
    (ha : a.FirstSpelled) (hs : s.document.Storable) : s'.document.Storable := by
  by_cases hnode : ∃ n, a = .addNode n
  · rcases hnode with ⟨n, rfl⟩
    exact storable_of_addNode h ha hs
  · have hne : ∀ n, a ≠ .addNode n := fun n heq => hnode ⟨n, heq⟩
    rcases (carryOut_eq_ok_iff hne).1 h with ⟨d, hd, rfl⟩
    exact storable_of_carryOutOn hd ha hs

theorem Run.storable {as : List Action} (h : Run catalog s as s')
    (has : ∀ a ∈ as, a.FirstSpelled) (hs : s.document.Storable) : s'.document.Storable := by
  refine h.inv (P := fun t => t.document.Storable) hs ?_
  intro front a back t t' heq _ hstep ht
  exact storable_of_carryOut hstep (has a (by simp [heq])) ht

end Draft

/-! ## Batches -/

namespace Operation

def payload : Value → Entries Value
  | .obj es =>
    match Entries.get? "type" es, Entries.get? "node" es with
    | some (.str "addNode"), some (.obj fields) => fields
    | _, _ => []
  | _ => []

def paths : Value → List String
  | .obj es =>
    match Entries.get? "type" es, Entries.get? "changes" es with
    | some (.str "updateNode"), some (.obj changes) => Entries.keys changes
    | _, _ => []
  | _ => []

structure FirstSpelled (v : Value) : Prop where
  payload : NodeBody.FirstSpelled (payload v)
  paths : NodeBody.FirstSpelledPaths (paths v)

theorem firstSpelled_of_parse {index : Nat} {v : Value} {o : Operation}
    (h : parse index v = .ok o) (hv : FirstSpelled v) : o.action.FirstSpelled := by
  rcases readFrom_of_parse h with ⟨es, rfl, hread⟩
  cases ha : o.action with
  | addNode n =>
    rw [ha] at hread
    rcases hread with ⟨htype, w, hnode, hdecode⟩
    rcases Shape.model_eq_ok.1 hdecode with ⟨fields, rfl, hfields⟩
    have hpayload : payload (.obj es) = fields := by simp [payload, htype, hnode]
    have hfirst : NodeBody.FirstSpelled fields := hpayload ▸ hv.payload
    rw [Action.FirstSpelled, (NewNode.of_ofEntries hfields).2]
    exact hfirst.sublist List.filter_sublist
  | updateNode r changes =>
    rw [ha] at hread
    rcases hread with ⟨htype, hchanges⟩
    have hpaths : paths (.obj es) = Entries.keys changes := by simp [paths, htype, hchanges]
    rw [Action.FirstSpelled, ← hpaths]
    exact hv.paths
  | _ => trivial

end Operation

namespace Editor

variable {e : Editor} {ids : IdSupply} {nextId : Nat} {d d' : Document} {batch : List Value}

theorem firstSpelled_of_mem_actions (hbatch : ∀ v ∈ batch, Operation.FirstSpelled v)
    {a : Action} (ha : a ∈ actions batch) : a.FirstSpelled := by
  rw [actions_eq] at ha
  rcases List.mem_filterMap.1 ha with ⟨v, hv, haction⟩
  rcases Option.map_eq_some_iff.1 haction with ⟨o, ho, rfl⟩
  cases hparse : Operation.parse 0 v with
  | error err => simp [hparse, Except.toOption] at ho
  | ok o' =>
    have heq : o' = o := by simpa [hparse, Except.toOption] using ho
    exact heq ▸ Operation.firstSpelled_of_parse hparse (hbatch v hv)

/-- The document that a batch makes of one that was read from a value is written down and read
again. What is read is written down the same way, and has the same reports. -/
theorem loaded_of_accepts {value : Value} (hd : Document.decode value = .ok d)
    (hvalue : Document.FirstSpelled value) (hbatch : ∀ v ∈ batch, Operation.FirstSpelled v)
    (h : e.Accepts ids nextId d batch d') :
    ∃ loaded, Document.decode d'.toValue = .ok loaded ∧ loaded.toValue = d'.toValue ∧
      ∀ (v : Validator) (wanted : Value),
        v.reportUnder wanted loaded = v.reportUnder wanted d' := by
  rcases run_of_accepts h with ⟨s, hrun, rfl⟩
  have hstorable : s.document.Storable :=
    hrun.storable (fun a ha => firstSpelled_of_mem_actions hbatch ha)
      (Document.storable_of_decode hd hvalue)
  refine ⟨s.document.stripped, Document.decode_toValue hstorable,
    s.document.toValue_stripped, ?_⟩
  intro v wanted
  exact v.reportUnder_eq wanted s.document.core_stripped

/-- A node that holds a null beside its fields, in a document that holds one as well. -/
def noted : Value :=
  .obj [("nodes", .arr [.obj [("id", .str "1"), ("name", .str "A"),
      ("type", .str "n8n-nodes-base.set"), ("color", .null),
      ("parameters", .obj [("mode", .null)])]]),
    ("version", .null)]

def notedDocument : Document where
  nodes := [{ id := "1", name := "A", type := "n8n-nodes-base.set",
              parameters := [("mode", .null)], extra := [("color", .null)] }]
  extra := [("version", .null)]

/-- A node is added that leaves fields open, and the first one gets another null. -/
def notedBatch : List Value :=
  [.obj [("type", .str "addNode"),
      ("node", .obj [("name", .str "B"), ("type", .str "n8n-nodes-base.set"),
        ("position", .arr [.int 0, .int 0]), ("maxTries", .null), ("shape", .str "round")])],
    .obj [("type", .str "updateNode"), ("nodeName", .str "A"),
      ("changes", .obj [("shape", .null), ("parameters.text.size", .null)])],
    .obj [("type", .str "addConnection"), ("source", .str "A"), ("target", .str "B")]]

theorem noted_loaded :
    Document.decode noted = .ok notedDocument ∧
    ∃ d', Accepts {} (fun _ => "2") 1 notedDocument notedBatch d' ∧
      d'.nodes.map (fun n => Entries.keys n.extra) = [["shape"], ["shape"]] ∧
      ∃ loaded, Document.decode d'.toValue = .ok loaded ∧ loaded.toValue = d'.toValue ∧
        ∀ (v : Validator) (wanted : Value),
          v.reportUnder wanted loaded = v.reportUnder wanted d' := by
  have hd : Document.decode noted = .ok notedDocument := rfl
  have hvalue : Document.FirstSpelled noted := by decide +kernel
  have hbatch : ∀ v ∈ notedBatch, Operation.FirstSpelled v := by
    have hall : ∀ v ∈ notedBatch, NodeBody.FirstSpelled (Operation.payload v) ∧
        NodeBody.FirstSpelledPaths (Operation.paths v) := by decide +kernel
    intro v hv
    exact ⟨(hall v hv).1, (hall v hv).2⟩
  have haccepts : ∃ d', Accepts {} (fun _ => "2") 1 notedDocument notedBatch d' ∧
      (d'.nodes.map (fun n => Entries.keys n.extra) == [["shape"], ["shape"]]) = true :=
    exists_accepts (by decide +kernel)
  rcases haccepts with ⟨d', haccepts, hkeys⟩
  exact ⟨hd, d', haccepts, by simpa using hkeys, loaded_of_accepts hd hvalue hbatch haccepts⟩

end Editor
end Workflows
