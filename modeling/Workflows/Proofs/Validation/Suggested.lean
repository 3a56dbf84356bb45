import Workflows.Proofs.Catalog.Suggestions
import Workflows.Proofs.Validation.Filed

/-!
# Suggested — what a report proposes in the place of an unknown type

A report speaks of the type of a node only when it checks that node, and only when a document may
not use the type. So a node gets rid of what was said of its type when it is given a type that was
proposed. Nodes are told apart by name and id: what is still said of a node with both is said of
another one.

Main definitions:

* `Validator.exists_node_of_typeCode` — which node a finding about a type comes from;
* `Validator.proposals_usable` — what is proposed, and the report on a document that follows it.
-/

namespace Workflows

namespace Scene

variable {s : Scene} {profile : Profile} {n : Node} {i : Issue}

/-- What is found on some nodes is found on one of them. -/
theorem exists_node_of_mem_findingsOf {ns : List Node} {f : NodeFindings}
    (h : s.findingsOf profile ns = .ok f) (hi : i ∈ f.issues) :
    ∃ n ∈ ns, ∃ g, s.nodeFindings profile n = .ok g ∧ i ∈ g.issues := by
  induction ns generalizing f with
  | nil =>
    rw [← Except.ok.inj h] at hi
    exact absurd hi List.not_mem_nil
  | cons n rest ih =>
    rcases of_findingsOf_cons h with ⟨found, more, hfound, hmore, rfl⟩
    rcases List.mem_append.1 hi with hfirst | hrest
    · exact ⟨n, List.mem_cons_self, found, hfound, hfirst⟩
    · rcases ih hmore hrest with ⟨m, hm, hfindings⟩
      exact ⟨m, List.mem_cons_of_mem n hm, hfindings⟩

/-- The finding is that on the type of the node: the type is not known, or in the form that only
catalogs use. -/
def IsTypeIssue (s : Scene) (n : Node) (i : Issue) : Prop :=
  (TypeName.isShortForm n.type = true ∧ i = shortTypeIssue n) ∨
    (s.typeOf n = none ∧ i = s.unknownTypeIssue n)

/-- A finding with a code of types is one on the type of the node. -/
theorem isTypeIssue_of_typeCode {f : NodeFindings} (h : s.nodeFindings profile n = .ok f)
    (hi : i ∈ f.issues) (hcode : i.code ∈ typeCodes) : s.IsTypeIssue n i := by
  unfold nodeFindings at h
  split at h
  · rw [← Except.ok.inj h] at hi
    exact absurd hi List.not_mem_nil
  · split at h
    · rename_i hshort
      rw [← Except.ok.inj h] at hi
      rw [beginsShort_eq] at hshort
      exact Or.inl ⟨hshort, List.mem_singleton.1 hi⟩
    · split at h
      · rename_i hunknown
        rw [← Except.ok.inj h] at hi
        exact Or.inr ⟨hunknown, List.mem_singleton.1 hi⟩
      · have hapart : ∀ code ∈ knownCodes, code ∉ typeCodes := by decide
        exact absurd hcode (hapart _ (about_knownNodeFindings h i hi).2)

/-- A finding on a type is attributed to its node. -/
theorem IsTypeIssue.node (h : s.IsTypeIssue n i) :
    i.nodeName = some n.name ∧ i.nodeId = some n.id := by
  rcases h with ⟨-, rfl⟩ | ⟨-, rfl⟩ <;> exact ⟨rfl, rfl⟩

/-- A finding on a type is an error. -/
theorem IsTypeIssue.isError (h : s.IsTypeIssue n i) : i.severity = .error := by
  rcases h with ⟨-, rfl⟩ | ⟨-, rfl⟩ <;> rfl

/-- There is no finding on a type that documents may use. -/
theorem IsTypeIssue.not_usable (h : s.IsTypeIssue n i) : ¬ s.catalog.Usable n.type := by
  intro husable
  rcases h with ⟨hshort, -⟩ | ⟨hunknown, -⟩
  · rw [husable.full] at hshort
    exact Bool.false_ne_true hshort
  · have hfound := husable.found
    unfold typeOf at hunknown
    rw [hunknown] at hfound
    exact Bool.false_ne_true hfound

/-- What is proposed is the first of the suggestions. -/
theorem IsTypeIssue.suggested (h : s.IsTypeIssue n i) (hcode : i.code = "unknown_node_type")
    (hproposed : i.suggested ≠ .null) :
    ∃ name ∈ s.catalog.suggest 3 n.type, i.suggested = .str name := by
  rcases h with ⟨-, rfl⟩ | ⟨-, rfl⟩
  · have hother : (shortTypeIssue n).code ≠ "unknown_node_type" := by
      simp [shortTypeIssue]
    exact absurd hcode hother
  · have hsuggested : (s.unknownTypeIssue n).suggested =
        ((s.catalog.suggest 3 n.type).head?.map Value.str).getD .null := rfl
    rw [hsuggested] at hproposed ⊢
    cases hhead : (s.catalog.suggest 3 n.type).head? with
    | none => simp [hhead] at hproposed
    | some name => exact ⟨name, List.mem_of_head? hhead, rfl⟩

/-- Only the checks of nodes speak of types. -/
theorem mem_nodes_of_typeCode {settings : Settings} {nodes : NodeFindings} {texts : TextFindings}
    (htexts : s.textFindings settings s.wiring = .ok texts)
    (hi : i ∈ s.allIssues settings nodes texts) (hcode : i.code ∈ typeCodes) :
    i ∈ nodes.issues := by
  have hfiltered := List.mem_filter.2 ⟨hi, Issue.hasCode_iff.2 hcode⟩
  rw [allIssues_filter_of_nodes htexts (by decide)] at hfiltered
  exact List.mem_of_mem_filter hfiltered

end Scene

namespace Validator

variable {v : Validator} {profile : Profile} {d : Document} {r : Report} {j : Issue}

/-- What a policy reports it has made of one of the issues. -/
theorem exists_of_mem_reported {p : Policy} {issues : List Issue}
    (hj : j ∈ p.errors issues ++ p.warnings issues) : ∃ i ∈ issues, p.apply i = some j := by
  rcases List.mem_append.1 hj with hj | hj
  · exact List.mem_filterMap.1 (List.mem_filter.1 hj).1
  · exact List.mem_filterMap.1 (List.mem_filter.1 hj).1

/-- What a report says of types, the check of a node has found. -/
theorem exists_node_of_typeCode (h : v.report profile d = .ok r)
    (hj : j ∈ r.errors ++ r.warnings) (hcode : j.code ∈ Scene.typeCodes) :
    ∃ n ∈ d.nodes, (v.scene d).IsTypeIssue n j := by
  by_cases hnodes : d.nodes = []
  · -- Of a document without nodes only that is said.
    obtain ⟨herrors, hwarnings⟩ := issues_of_empty hnodes h
    rw [herrors, hwarnings] at hj
    obtain ⟨i, hi, happly⟩ := exists_of_mem_reported hj
    rw [List.mem_singleton.1 hi] at happly
    rw [(Policy.category_apply happly).2] at hcode
    exact absurd hcode (by decide)
  · rcases (report_eq_ok_iff hnodes).1 h with ⟨nodes, texts, hfound, htexts, rfl⟩
    rw [errors_reportOf, warnings_reportOf] at hj
    obtain ⟨i, hi, happly⟩ := exists_of_mem_reported hj
    rw [(Policy.category_apply happly).2] at hcode
    have hmem := Scene.mem_nodes_of_typeCode htexts hi hcode
    obtain ⟨n, hn, f, hf, hif⟩ := Scene.exists_node_of_mem_findingsOf hfound hmem
    have hissue := Scene.isTypeIssue_of_typeCode hf hif hcode
    refine ⟨n, hn, ?_⟩
    -- As the finding is an error already, the policy leaves it as it is.
    rcases Policy.apply_eq_some happly with rfl | rfl
    · exact hissue
    · rwa [← hissue.isError]

/-- In every catalog that is built, suggestions are distinct names that documents may use, at most
as many as are asked for. A report that proposes something for an unknown type proposes one of them.
If a node is given the proposed type, nothing more is said of its type; what is still said of a node
with its name and its id is said of another one, whose type is not to be used. -/
theorem proposals_usable (version : String) (types later : List NodeType) :
    let c := (Catalog.ofTypes version types).registerAll later
    (∀ (limit : Int) (type : String), 0 < limit →
        ∃ names, c.suggestUpTo limit type = .ok names ∧ (names.length : Int) ≤ limit ∧
          names.Nodup ∧ ∀ name ∈ names, c.Usable name ∧
            TypeName.formFault? name ≠ some (.shortForm name)) ∧
      ∀ settings profile d r, report ⟨c, settings⟩ profile d = .ok r →
        ∀ i ∈ r.errors ++ r.warnings, i.code = "unknown_node_type" → i.suggested ≠ .null →
          ∃ name, i.suggested = .str name ∧ c.Usable name ∧
            ∀ front a back, d.nodes = front ++ a :: back →
              i.nodeName = some a.name → i.nodeId = some a.id →
              ∀ r', report ⟨c, settings⟩ profile
                  { d with nodes := front ++ { a with type := name } :: back } = .ok r' →
                ∀ j ∈ r'.errors ++ r'.warnings, j.code ∈ Scene.typeCodes →
                  j.nodeName = some a.name → j.nodeId = some a.id →
                  ∃ b ∈ front ++ back, b.name = a.name ∧ b.id = a.id ∧ ¬ c.Usable b.type := by
  intro c
  have hnormal : c.Normal := (Catalog.normal_ofTypes version types).registerAll later
  constructor
  · intro limit type hlimit
    refine ⟨c.suggest limit.toNat type, ?_, ?_, hnormal.nodup_suggest, ?_⟩
    · rw [Catalog.suggestUpTo, if_neg (Int.not_le.2 hlimit)]
    · have hlength : (c.suggest limit.toNat type).length ≤ limit.toNat := Catalog.length_suggest_le
      omega
    · intro name hname
      have husable := hnormal.usable_of_mem_suggest name hname
      exact ⟨husable, husable.formFault?_ne⟩
  · intro settings profile d r hr i hi hcode hproposed
    have htype : i.code ∈ Scene.typeCodes := by simp [hcode, Scene.typeCodes]
    obtain ⟨n, -, hissue⟩ := exists_node_of_typeCode hr hi htype
    obtain ⟨name, hname, hsuggested⟩ := hissue.suggested hcode hproposed
    have husable : c.Usable name := hnormal.usable_of_mem_suggest name hname
    refine ⟨name, hsuggested, husable, ?_⟩
    intro front a back _ _ _ r' hr' j hj hjcode hjname hjid
    obtain ⟨b, hb, hother⟩ := exists_node_of_typeCode hr' hj hjcode
    have hbname : b.name = a.name := Option.some.inj (hother.node.1.symm.trans hjname)
    have hbid : b.id = a.id := Option.some.inj (hother.node.2.symm.trans hjid)
    refine ⟨b, ?_, hbname, hbid, hother.not_usable⟩
    -- The node that was changed is none of those with a type that is not to be used.
    rcases List.mem_append.1 hb with hfront | hrest
    · exact List.mem_append_left _ hfront
    · rcases List.mem_cons.1 hrest with rfl | hback
      · exact absurd husable hother.not_usable
      · exact List.mem_append_right _ hback

def chatTypes : List NodeType := [{ name := "nodes-base.slack" }]

/-- A node with a type that is spelt like no type in the catalog. -/
def misspelt : Document where
  nodes := [{ id := "1", name := "A", type := "n8n-nodes-base.slak" }]

def misspelt.retyped (name : String) : Document where
  nodes := [{ id := "1", name := "A", type := name }]

/-- With the type that is proposed for it the node is a good one. -/
theorem misspelt_mended :
    (∃ names, (Catalog.ofTypes "" chatTypes).suggestUpTo 3 "n8n-nodes-base.slak" = .ok names ∧
      ∀ name ∈ names, (Catalog.ofTypes "" chatTypes).Usable name) ∧
    ∃ r i, report ⟨.ofTypes "" chatTypes, {}⟩ .runtime misspelt = .ok r ∧
      i ∈ r.errors ++ r.warnings ∧ i.code = "unknown_node_type" ∧
        ∃ name r', i.suggested = .str name ∧
          report ⟨.ofTypes "" chatTypes, {}⟩ .runtime (misspelt.retyped name) = .ok r' ∧
            ∀ j ∈ r'.errors ++ r'.warnings, j.code ∈ Scene.typeCodes →
              j.nodeName = some "A" → j.nodeId ≠ some "1" := by
  obtain ⟨names, hnames, -, -, husable⟩ :=
    (proposals_usable "" chatTypes []).1 3 "n8n-nodes-base.slak" (by decide)
  refine ⟨⟨names, hnames, fun name hname => (husable name hname).1⟩, ?_⟩
  -- The one error that proposes the type meant is found by running the validator.
  let proposes : Issue → Bool := fun i =>
    i.code == "unknown_node_type" && i.nodeName == some "A" && i.nodeId == some "1" &&
      i.suggested.str? == some "n8n-nodes-base.slack"
  have hfinding : (report ⟨.ofTypes "" chatTypes, {}⟩ .runtime misspelt).toOption.any
      (fun r => (r.errors ++ r.warnings).any proposes) = true := by
    decide +kernel
  have hanswer : (report ⟨.ofTypes "" chatTypes, {}⟩ .runtime
      (misspelt.retyped "n8n-nodes-base.slack")).toOption.isSome = true := by
    decide +kernel
  cases hr : report ⟨.ofTypes "" chatTypes, {}⟩ .runtime misspelt with
  | error e => simp [hr, Except.toOption] at hfinding
  | ok r =>
    cases hr' : report ⟨.ofTypes "" chatTypes, {}⟩ .runtime
        (misspelt.retyped "n8n-nodes-base.slack") with
    | error e => simp [hr', Except.toOption] at hanswer
    | ok r' =>
      rw [hr] at hfinding
      obtain ⟨i, hi, hproposes⟩ := List.any_eq_true.1 hfinding
      simp only [proposes, Bool.and_eq_true, beq_iff_eq] at hproposes
      obtain ⟨⟨⟨hcode, hname⟩, hid⟩, hsuggested⟩ := hproposes
      have hproposed : i.suggested = .str "n8n-nodes-base.slack" := by
        cases hvalue : i.suggested <;> simp_all [Value.str?]
      have hsome : i.suggested ≠ .null := by simp [hproposed]
      obtain ⟨name, heq, -, hmended⟩ :=
        (proposals_usable "" chatTypes []).2 {} .runtime misspelt r hr i hi hcode hsome
      obtain rfl : "n8n-nodes-base.slack" = name := Value.str.inj (hproposed.symm.trans heq)
      refine ⟨r, i, rfl, hi, hcode, _, r', heq, hr', ?_⟩
      intro j hj hjcode hjname hjid
      obtain ⟨b, hb, -⟩ := hmended [] _ [] rfl hname hid r' hr' j hj hjcode hjname hjid
      exact absurd hb List.not_mem_nil

end Validator
end Workflows
