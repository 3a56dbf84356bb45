import Workflows.Edit
import Workflows.Proofs.Validation.NodeByNode

/-!
# TypesRead — what reports and edits read of a catalog

A report asks the catalog for the types of the nodes of the document, and for suggestions in the
place of those that are not there. An edit asks it for types only. Catalogs that give the same
answers to these questions lead to the same reports and the same edits, whatever else they hold and
whatever version they bear.

Main definitions:

* `Catalog.AlikeFor` — two catalogs say the same of the types of a document;
* `Validator.report_of_alikeFor` — they lead to the same report on it;
* `Editor.applyWith_of_find?` — catalogs with the same types lead to the same edits.
-/

namespace Workflows

/-- Two catalogs hold the same types for the nodes of a document, and suggest the same types in the
place of those that they do not hold. -/
structure Catalog.AlikeFor (d : Document) (c c' : Catalog) : Prop where
  types : ∀ n ∈ d.nodes, c'.find? n.type = c.find? n.type
  suggestions : ∀ n ∈ d.nodes, c'.suggest 3 n.type = c.suggest 3 n.type

/-! ## Reports -/

namespace Catalog.AlikeFor

open Scene

variable {d : Document} {c c' : Catalog} (h : c.AlikeFor d c')

include h

/-! ### Kinds of nodes -/

/-- Whether a node executes depends on its type alone. -/
theorem executing_eq : executing ⟨d, c'⟩ = executing ⟨d, c⟩ := by
  unfold executing
  refine List.filter_congr ?_
  intro n hn
  have htype : typeOf ⟨d, c'⟩ n = typeOf ⟨d, c⟩ n := h.types n hn
  simp only [executes, htype]

/-- The nodes that start the workflow are the same. -/
theorem triggers_eq : triggers ⟨d, c'⟩ = triggers ⟨d, c⟩ := by
  unfold triggers
  rw [h.executing_eq]
  refine List.filter_congr ?_
  intro n hn
  have hnode : n ∈ d.nodes := List.mem_of_mem_filter hn
  have htype : typeOf ⟨d, c'⟩ n = typeOf ⟨d, c⟩ n := h.types n hnode
  simp only [isTrigger, htype]

theorem isLoopCapable_eq {n : Node} (hn : n ∈ d.nodes) :
    isLoopCapable ⟨d, c'⟩ n = isLoopCapable ⟨d, c⟩ n := by
  have htype : typeOf ⟨d, c'⟩ n = typeOf ⟨d, c⟩ n := h.types n hn
  simp only [isLoopCapable, htype]

/-- The findings on the structure are the same. -/
theorem structureIssues_eq : structureIssues ⟨d, c'⟩ = structureIssues ⟨d, c⟩ := by
  simp only [structureIssues, h.executing_eq, h.triggers_eq]
  rfl

/-! ### Links -/

/-- The outputs of a node are those that its type declares. -/
theorem declaredOutputs?_eq {n : Node} (hn : n ∈ d.nodes) :
    declaredOutputs? ⟨d, c'⟩ n = declaredOutputs? ⟨d, c⟩ n := by
  have htype : typeOf ⟨d, c'⟩ n = typeOf ⟨d, c⟩ n := h.types n hn
  simp only [declaredOutputs?, htype]

theorem hasOutput_eq {n : Node} (hn : n ∈ d.nodes) :
    hasOutput ⟨d, c'⟩ n = hasOutput ⟨d, c⟩ n := by
  funext output slot
  simp only [hasOutput, h.declaredOutputs?_eq hn]

/-- A slot leads to the same valid links, and the same is found on it. -/
theorem slotWiring_eq {n : Node} (hn : n ∈ d.nodes) :
    slotWiring ⟨d, c'⟩ n = slotWiring ⟨d, c⟩ n := by
  have htype : typeOf ⟨d, c'⟩ n = typeOf ⟨d, c⟩ n := h.types n hn
  have hvalid : isValidLink ⟨d, c'⟩ n = isValidLink ⟨d, c⟩ n := by
    funext l
    simp only [isValidLink, h.hasOutput_eq hn]
    rfl
  have houtput : outputIssue ⟨d, c'⟩ n = outputIssue ⟨d, c⟩ n := by
    funext output slot
    simp only [outputIssue, h.declaredOutputs?_eq hn, htype]
  have htarget : targetIssues ⟨d, c'⟩ n = targetIssues ⟨d, c⟩ n := by
    funext t
    simp only [targetIssues, h.isLoopCapable_eq hn]
    rfl
  funext output slot targets
  simp only [slotWiring, hvalid, houtput, htarget, h.hasOutput_eq hn]

theorem sourceWiring_eq {n : Node} (hn : n ∈ d.nodes) :
    sourceWiring ⟨d, c'⟩ n = sourceWiring ⟨d, c⟩ n := by
  have htype : typeOf ⟨d, c'⟩ n = typeOf ⟨d, c⟩ n := h.types n hn
  have herror : errorOutputIssues ⟨d, c'⟩ n = errorOutputIssues ⟨d, c⟩ n := by
    funext os
    simp only [errorOutputIssues, htype]
  funext os
  simp only [sourceWiring, h.slotWiring_eq hn, herror]

/-- The wiring of the document is the same. -/
theorem wiring_eq : wiring ⟨d, c'⟩ = wiring ⟨d, c⟩ := by
  unfold wiring
  refine congrArg Wiring.join (List.map_congr_left ?_)
  intro hexists hboth
  rcases hexists with ⟨name, os⟩
  rcases hboth with -
  have hsource : node? ⟨d, c'⟩ name = node? ⟨d, c⟩ name := rfl
  dsimp only
  rw [hsource]
  cases hn : node? ⟨d, c⟩ name with
  | none => rfl
  | some n =>
    have hnode : n ∈ d.nodes := List.mem_of_find?_eq_some hn
    exact congrFun (h.sourceWiring_eq hnode) os

/-! ### The graph -/

/-- The members of a cycle that matter are nodes of the document. -/
theorem lacksLoopNode_eq : lacksLoopNode ⟨d, c'⟩ = lacksLoopNode ⟨d, c⟩ := by
  funext cycle
  unfold lacksLoopNode
  refine congrArg cycle.all (funext ?_)
  intro name
  have hsource : node? ⟨d, c'⟩ name = node? ⟨d, c⟩ name := rfl
  rw [hsource]
  cases hn : node? ⟨d, c⟩ name with
  | none => rfl
  | some n =>
    have hnode : n ∈ d.nodes := List.mem_of_find?_eq_some hn
    simp only [Option.any_some, h.isLoopCapable_eq hnode]

/-- Loop nodes are the same, and the same is found on their outputs. -/
theorem loopIssues_eq (settings : Settings) (g : Graph) :
    loopIssues ⟨d, c'⟩ settings g = loopIssues ⟨d, c⟩ settings g := by
  unfold loopIssues
  refine List.flatMap_congr ?_
  intro n hn
  have htype : typeOf ⟨d, c'⟩ n = typeOf ⟨d, c⟩ n := h.types n hn
  rw [htype]
  rfl

/-- The findings on the graph are the same. -/
theorem shapeIssues_eq (settings : Settings) (w : Wiring) :
    shapeIssues ⟨d, c'⟩ settings w = shapeIssues ⟨d, c⟩ settings w := by
  have hgraph : mainGraph ⟨d, c'⟩ w = mainGraph ⟨d, c⟩ w := rfl
  have horphans : orphanIssues ⟨d, c'⟩ w = orphanIssues ⟨d, c⟩ w := by
    simp only [orphanIssues, h.executing_eq]
  have hcycles : cycleIssues ⟨d, c'⟩ = cycleIssues ⟨d, c⟩ := by
    funext g
    simp only [cycleIssues, harmfulCycleIssues, h.lacksLoopNode_eq]
  simp only [shapeIssues, hgraph, horphans, hcycles, h.loopIssues_eq]

/-! ### Single nodes -/

/-- Suggestions are asked for where a type is not there. -/
theorem nodeFindings_eq (profile : Profile) {n : Node} (hn : n ∈ d.nodes) :
    nodeFindings ⟨d, c'⟩ profile n = nodeFindings ⟨d, c⟩ profile n := by
  have htype : typeOf ⟨d, c'⟩ n = typeOf ⟨d, c⟩ n := h.types n hn
  have hunknown : unknownTypeIssue ⟨d, c'⟩ n = unknownTypeIssue ⟨d, c⟩ n := by
    simp only [unknownTypeIssue, h.suggestions n hn]
  simp only [nodeFindings, htype, hunknown]

theorem allNodeFindings_eq (profile : Profile) :
    allNodeFindings ⟨d, c'⟩ profile = allNodeFindings ⟨d, c⟩ profile := by
  refine findingsOf_congr (List.forall₂_same.2 ?_)
  intro n hn
  exact h.nodeFindings_eq profile hn

/-- The findings on expressions are the same. -/
theorem textFindings_eq (settings : Settings) (w : Wiring) :
    textFindings ⟨d, c'⟩ settings w = textFindings ⟨d, c⟩ settings w := by
  unfold textFindings
  rw [h.executing_eq]
  refine textFindingsOf_congr (List.forall₂_same.2 ?_)
  intro n hn
  have hnode : n ∈ d.nodes := List.mem_of_mem_filter hn
  have htype : typeOf ⟨d, c'⟩ n = typeOf ⟨d, c⟩ n := h.types n hnode
  have hlocators : declaredLocators ⟨d, c'⟩ n = declaredLocators ⟨d, c⟩ n := by
    simp only [declaredLocators, htype]
  simp only [nodeTextFindings, formatIssues, hlocators]
  rfl

end Catalog.AlikeFor

/-- Catalogs that say the same of the types of a document lead to the same report on it. -/
theorem Validator.report_of_alikeFor {d : Document} {c c' : Catalog} (h : c.AlikeFor d c')
    (settings : Settings) (profile : Profile) :
    Validator.report ⟨c', settings⟩ profile d = Validator.report ⟨c, settings⟩ profile d := by
  have hreport : reportOf profile settings (⟨d, c'⟩ : Scene) =
      reportOf profile settings (⟨d, c⟩ : Scene) := by
    funext nodes texts
    have hnodes : Scene.nodes ⟨d, c'⟩ = Scene.nodes ⟨d, c⟩ := rfl
    simp only [reportOf, statistics, h.wiring_eq, h.structureIssues_eq, h.shapeIssues_eq,
      h.triggers_eq, hnodes]
  simp only [report, scene, h.allNodeFindings_eq, h.textFindings_eq, h.wiring_eq, hreport]

/-! ## Edits -/

section Edits

variable {c c' : Catalog} (h : ∀ type, c'.find? type = c.find? type)

include h

/-- Of the catalog the operations read the outputs of the source of a new link. -/
theorem Draft.outputRefusal?_of_find? : outputRefusal? (some c') = outputRefusal? (some c) := by
  funext d n l
  have hdeclared : Scene.declaredOutputs? ⟨d, c'⟩ n = Scene.declaredOutputs? ⟨d, c⟩ n := by
    have htype : Scene.typeOf ⟨d, c'⟩ n = Scene.typeOf ⟨d, c⟩ n := h n.type
    simp only [Scene.declaredOutputs?, htype]
  have houtput : Scene.hasOutput ⟨d, c'⟩ n = Scene.hasOutput ⟨d, c⟩ n := by
    funext output slot
    simp only [Scene.hasOutput, hdeclared]
  unfold outputRefusal?
  dsimp only
  rw [houtput, hdeclared]

/-- No operation tells the two catalogs apart. -/
theorem Draft.carryOut_of_find? : carryOut (some c') = carryOut (some c) := by
  have hadded : addConnection (some c') = addConnection (some c) := by
    funext d l
    simp only [addConnection, addLinkRefusal?, outputRefusal?_of_find? h]
  have hchanged : updateConnection (some c') = updateConnection (some c) := by
    funext d l
    simp only [updateConnection, hadded]
  have hon : carryOutOn (some c') = carryOutOn (some c) := by
    funext d a
    cases a <;> simp only [carryOutOn, hadded, hchanged]
  funext s a
  cases a <;> simp only [carryOut, hon]

/-- No batch of operations tells the two catalogs apart. -/
theorem Draft.carryOutAll_of_find? (os : List Operation) :
    ∀ (index : Nat) (s : Draft),
      carryOutAll (some c') index os s = carryOutAll (some c) index os s := by
  induction os with
  | nil =>
    intro index s
    rfl
  | cons o rest ih =>
    intro index s
    unfold carryOutAll
    rw [carryOut_of_find? h]
    cases carryOut (some c) s o.action with
    | error obstacle => rfl
    | ok after => exact ih (index + 1) after

/-- Catalogs with the same types lead to the same edits. -/
theorem Editor.applyWith_of_find? (limit : Option Number) :
    Editor.applyWith ⟨some c', limit⟩ = Editor.applyWith ⟨some c, limit⟩ := by
  have hoperations :
      Editor.applyOperations ⟨some c', limit⟩ = Editor.applyOperations ⟨some c, limit⟩ := by
    funext ids dryRun nextId d os
    have hsize : Editor.sizeError? ⟨some c', limit⟩ = Editor.sizeError? ⟨some c, limit⟩ := rfl
    simp only [applyOperations, hsize, Draft.carryOutAll_of_find? h]
  funext ids dryRun nextId d batch
  simp only [applyWith, hoperations]

end Edits

end Workflows
