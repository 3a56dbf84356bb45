import Workflows.Proofs.Edit.Reread
import Workflows.Proofs.Edit.Run

/-!
# Answer — what is said to a batch, and when nothing is

A batch is answered with the document it leads to, or with the errors that keep it from being
carried out and the old document. Two things go wrong without an answer: a node that was accepted
does not fit when it is read again, and a limit that is exceeded is no place in a batch, so that the
error cannot name it.

Main definitions:

* `Operation.malformedIn` — the errors for the malformed operations of a batch;
* `Editor.Problem`, `Editor.Answer` — the reasons to reject a batch, and what comes of it;
* `Editor.Unanswered`, `Editor.answered_iff` — the batches without an answer.
-/

namespace Workflows

/-! ## Reading a batch -/

namespace Operation

/-- The errors for the malformed operations of a batch, each of which has its place there. -/
def malformedIn (batch : List Value) : List EditError :=
  batch.zipIdx.filterMap fun (v, i) =>
    match parse i v with
    | .ok _ => none
    | .error e => some e

theorem parseAll_errors (batch : List Value) : (parseAll batch).2 = malformedIn batch := by
  have hfrom : ∀ index, (parseFrom index batch).2 = (batch.zipIdx index).filterMap fun (v, i) =>
      match parse i v with
      | .ok _ => none
      | .error e => some e := by
    induction batch with
    | nil => intro index; rfl
    | cons v rest ih =>
      intro index
      rw [List.zipIdx_cons]
      cases hv : parse index v <;> simp [parseFrom, hv, ih (index + 1)]
  exact hfrom 0

end Operation

/-! ## Where a batch comes to a halt -/

namespace Draft

variable {catalog : Option Catalog}

theorem carryOutAll_append {index : Nat} {front back : List Operation} {s : Draft} :
    carryOutAll catalog index (front ++ back) s =
      match carryOutAll catalog index front s with
      | .error halt => .error halt
      | .ok t => carryOutAll catalog (index + front.length) back t := by
  induction front generalizing index s with
  | nil => rfl
  | cons o rest ih =>
    simp only [List.cons_append, carryOutAll]
    cases s.carryOut catalog o.action with
    | error obstacle => rfl
    | ok t =>
      have hindex : index + 1 + rest.length = index + (o :: rest).length := by
        rw [List.length_cons]
        omega
      simp only [ih, hindex]

/-- Where operations come to a halt, those before have been carried out. -/
theorem exists_of_carryOutAll_eq_error {index : Nat} {os : List Operation} {s : Draft} {halt : Halt}
    (h : carryOutAll catalog index os s = .error halt) :
    ∃ front o back t, os = front ++ o :: back ∧ carryOutAll catalog index front s = .ok t ∧
      t.carryOut catalog o.action = .error halt.obstacle ∧
      halt = ⟨index + front.length, o.action.word, halt.obstacle, t.nextId⟩ := by
  induction os generalizing index s with
  | nil => simp [carryOutAll] at h
  | cons o rest ih =>
    cases hfirst : s.carryOut catalog o.action with
    | error obstacle =>
      have hhalt : ⟨index, o.action.word, obstacle, s.nextId⟩ = halt := by
        simpa [carryOutAll, hfirst] using h
      exact ⟨[], o, rest, s, rfl, rfl, hhalt ▸ hfirst, hhalt ▸ rfl⟩
    | ok t =>
      have hrest : carryOutAll catalog (index + 1) rest t = .error halt := by
        simpa [carryOutAll, hfirst] using h
      rcases ih hrest with ⟨front, o', back, u, rfl, hfront, herror, hhalt⟩
      refine ⟨o :: front, o', back, u, rfl, by simpa [carryOutAll, hfirst] using hfront, herror, ?_⟩
      have hindex : index + 1 + front.length = index + (o :: front).length := by
        rw [List.length_cons]
        omega
      exact hindex ▸ hhalt

/-- A batch halts at the first operation that cannot be carried out, after a run of those before
it. -/
theorem carryOutAll_eq_error_iff {index : Nat} {os : List Operation} {s : Draft} {halt : Halt} :
    carryOutAll catalog index os s = .error halt ↔
      ∃ front o back t, os = front ++ o :: back ∧ Run catalog s (front.map (·.action)) t ∧
        t.carryOut catalog o.action = .error halt.obstacle ∧
        halt = ⟨index + front.length, o.action.word, halt.obstacle, t.nextId⟩ := by
  constructor
  · intro h
    rcases exists_of_carryOutAll_eq_error h with ⟨front, o, back, t, hos, hfront, herror, hhalt⟩
    exact ⟨front, o, back, t, hos, run_iff.1 hfront, herror, hhalt⟩
  · intro hexists
    rcases hexists with ⟨front, o, back, t, rfl, hrun, herror, hhalt⟩
    have hfront : carryOutAll catalog index front s = .ok t := run_iff.2 hrun
    simp only [carryOutAll_append, hfront, carryOutAll, herror]
    exact congrArg Except.error hhalt.symm

/-- What is met with an obstacle that is no refusal is a node that may be added but does not fit
when it is read again. -/
theorem unreadable_iff {s : Draft} {a : Action} (ha : a.Readable) :
    (∃ first more, s.carryOut catalog a = .error (.unreadable first more)) ↔
      ∃ n, a = .addNode n ∧ addNodeRefusal? s.document n = none ∧ ¬ n.Rereads := by
  by_cases hnode : ∃ n, a = .addNode n
  · rcases hnode with ⟨n, rfl⟩
    rcases ha with ⟨v, hv⟩
    have hreads := NewNode.passes_written_iff hv (s.ids s.nextId)
    have hwritten : n.written (s.ids s.nextId) =
        (n.toEntries.putNew "id" (.str (s.ids s.nextId))).putNew "typeVersion" (.int 1) := rfl
    simp only [carryOut, addNode, ← hwritten]
    cases hrefusal : addNodeRefusal? s.document n with
    | some r => simp [hrefusal]
    | none =>
      cases hread : Node.ofEntries (n.written (s.ids s.nextId)) with
      | ok node =>
        have hfits : n.Rereads := hreads.1 ⟨node, hread⟩
        simp [hrefusal, hfits]
      | faulty first more =>
        have hfails : ¬ n.Rereads := fun h => by simpa [hread] using hreads.2 h
        simp [hrefusal, hfails]
  · have hne : ∀ n, a ≠ .addNode n := fun n heq => hnode ⟨n, heq⟩
    rw [carryOut_of_ne hne]
    cases carryOutOn catalog s.document a <;> simp [Except.mapError, Except.map, hne]

end Draft

/-! ## Answers -/

namespace Editor

variable (e : Editor) (ids : IdSupply) (dryRun : Bool) (nextId : Nat) (d : Document)
  (batch : List Value)

/-- A number that is a place in a batch: a whole one, which is not so large that it may be meant
otherwise if it is a floating-point number. -/
def IsPlace : Number → Prop
  | .int _ => True
  | .float x => x.isWhole = true ∧ Shape.isInner (Number.float x).floor = true

theorem passes_placeBeyond_iff {limit : Number} : (placeBeyond limit).Passes ↔ IsPlace limit := by
  cases limit with
  | int i => simp [placeBeyond, Shape.looseInteger, IsPlace]
  | float x =>
    simp only [placeBeyond, Shape.looseInteger, Shape.wholeFloat, IsPlace, Decoded.passes_under]
    cases x.isWhole <;> cases Shape.isInner (Number.float x).floor <;> simp [Decoded.fail]

/-- A number of operations is beyond the limit. -/
def Exceeds (limit : Number) (count : Nat) : Prop :=
  e.maxOperations = some limit ∧ limit.lt (.int count) = true

structure Admits : Prop where
  clean : Operation.malformedIn batch = []
  size : ∀ limit, ¬ e.Exceeds limit (actions batch).length

/-- Why a batch is rejected, with the errors that report it. -/
inductive Problem : List EditError → Prop
  | malformed (h : Operation.malformedIn batch ≠ []) : Problem (Operation.malformedIn batch)
  | tooMany {limit : Number} {place : Int} (hclean : Operation.malformedIn batch = [])
      (h : e.Exceeds limit (actions batch).length) (hplace : placeBeyond limit = .ok place) :
      Problem
        [{ operation := place
           message := "Too many operations: " ++ toString (actions batch).length ++ " (maximum "
            ++ limit.text ++ ")" }]
  | refused {front back : List Action} {a : Action} {s : Draft} {r : Refusal}
      (hadmits : e.Admits batch) (hbatch : actions batch = front ++ a :: back)
      (hrun : Draft.Run e.catalog ⟨d, nextId, ids⟩ front s)
      (h : s.carryOut e.catalog a = .error (.refused r)) :
      Problem [{ operation := front.length, kind := some a.word, message := r.message }]

inductive Answer : EditResult → Prop
  | rejected {errors : List EditError} (h : e.Problem ids nextId d batch errors) :
      Answer (.rejected dryRun d errors)
  | accepted {s : Draft} (hadmits : e.Admits batch)
      (hrun : Draft.Run e.catalog ⟨d, nextId, ids⟩ (actions batch) s) :
      Answer
        (if dryRun then .checked (actions batch).length
          else .done (actions batch).length s.document)

/-- What goes wrong without an answer. -/
inductive Unanswered : Prop
  | limit {limit : Number} (hclean : Operation.malformedIn batch = [])
      (h : e.Exceeds limit (actions batch).length) (hplace : ¬ IsPlace limit)
  | node {front back : List Action} {n : NewNode} {s : Draft} (hadmits : e.Admits batch)
      (hbatch : actions batch = front ++ .addNode n :: back)
      (hrun : Draft.Run e.catalog ⟨d, nextId, ids⟩ front s)
      (hfree : Draft.addNodeRefusal? s.document n = none) (h : ¬ n.Rereads)

variable {e ids dryRun nextId d batch} {d' : Document}

theorem Problem.errors_ne_nil {errors : List EditError}
    (h : e.Problem ids nextId d batch errors) : errors ≠ [] := by
  cases h with
  | malformed h => exact h
  | tooMany => simp
  | refused => simp

theorem sizeError?_eq_none_iff {count : Nat} :
    e.sizeError? count = none ↔ ∀ limit, ¬ e.Exceeds limit count := by
  unfold sizeError? Exceeds
  cases e.maxOperations <;> simp [Option.filter]

theorem sizeError?_of_exceeds {limit : Number} {count : Nat} (h : e.Exceeds limit count) :
    e.sizeError? count = some ((placeBeyond limit).map fun place =>
      { operation := place
        message := "Too many operations: " ++ toString count ++ " (maximum " ++ limit.text
          ++ ")" }) := by
  unfold sizeError?
  rw [h.1]
  simp [Option.filter, h.2]

theorem applyWith_of_malformed (h : Operation.malformedIn batch ≠ []) :
    e.applyWith ids dryRun nextId d batch =
      .ok (.rejected dryRun d (Operation.malformedIn batch), nextId) := by
  rw [← Operation.parseAll_errors] at h ⊢
  unfold applyWith
  split
  · rename_i hparse
    simp [hparse] at h
  · rename_i hparse
    rw [hparse]

theorem applyWith_of_clean (h : Operation.malformedIn batch = []) :
    e.applyWith ids dryRun nextId d batch =
      e.applyOperations ids dryRun nextId d (Operation.parseAll batch).1 := by
  rw [← Operation.parseAll_errors] at h
  unfold applyWith
  split
  · rename_i hparse
    rw [hparse]
  · rename_i hne hparse
    simp only [hparse] at h
    exact absurd h hne

theorem length_actions : (actions batch).length = (Operation.parseAll batch).1.length :=
  List.length_map _

/-- Beyond the limit, the answer is an error that names the limit, if that is possible. -/
theorem applyWith_of_exceeds {limit : Number} (hclean : Operation.malformedIn batch = [])
    (h : e.Exceeds limit (actions batch).length) :
    (∃ place, placeBeyond limit = .ok place ∧
        e.applyWith ids dryRun nextId d batch =
          .ok (.rejected dryRun d
            [{ operation := place
               message := "Too many operations: " ++ toString (actions batch).length
                ++ " (maximum " ++ limit.text ++ ")" }], nextId)) ∨
      (¬ IsPlace limit ∧ ∃ m, e.applyWith ids dryRun nextId d batch = .error m) := by
  have hsize := sizeError?_of_exceeds h
  rw [length_actions] at hsize
  rw [applyWith_of_clean hclean, length_actions]
  simp only [applyOperations, hsize]
  cases hplace : placeBeyond limit with
  | ok place => exact Or.inl ⟨place, rfl, rfl⟩
  | faulty first more =>
    refine Or.inr ⟨?_, ⟨first, more⟩, rfl⟩
    intro hlimit
    simpa [hplace] using passes_placeBeyond_iff.2 hlimit

theorem Admits.sizeError?_eq_none (h : e.Admits batch) :
    e.sizeError? (Operation.parseAll batch).1.length = none := by
  rw [← length_actions]
  exact sizeError?_eq_none_iff.2 h.size

section Admitted

variable {front back : List Action} {a : Action} {s : Draft}

theorem applyWith_of_run (h : e.Admits batch)
    (hrun : Draft.Run e.catalog ⟨d, nextId, ids⟩ (actions batch) s) :
    e.applyWith ids dryRun nextId d batch =
      .ok (if dryRun then .checked (actions batch).length
        else .done (actions batch).length s.document, s.nextId) := by
  have hall : Draft.carryOutAll e.catalog 0 (Operation.parseAll batch).1 ⟨d, nextId, ids⟩ =
      .ok s := Draft.run_iff.2 hrun
  rw [applyWith_of_clean h.clean, length_actions]
  simp only [applyOperations, h.sizeError?_eq_none, hall]

/-- Carrying out a batch comes to a halt where its run reaches an operation with an obstacle. -/
theorem carryOutAll_of_halt {obstacle : Obstacle} (hbatch : actions batch = front ++ a :: back)
    (hrun : Draft.Run e.catalog ⟨d, nextId, ids⟩ front s)
    (h : s.carryOut e.catalog a = .error obstacle) :
    Draft.carryOutAll e.catalog 0 (Operation.parseAll batch).1 ⟨d, nextId, ids⟩ =
      .error ⟨front.length, a.word, obstacle, s.nextId⟩ := by
  -- The operations before the one with the obstacle are those of the run.
  rcases List.map_eq_append_iff.1 hbatch with ⟨os, os', hos, rfl, hback⟩
  rcases List.map_eq_cons_iff.1 hback with ⟨o, os'', hos', rfl, -⟩
  exact Draft.carryOutAll_eq_error_iff.2
    ⟨os, o, os'', s, by rw [hos, hos'], hrun, h, by simp⟩

theorem applyWith_of_refused {r : Refusal} (h : e.Admits batch)
    (hbatch : actions batch = front ++ a :: back)
    (hrun : Draft.Run e.catalog ⟨d, nextId, ids⟩ front s)
    (hrefused : s.carryOut e.catalog a = .error (.refused r)) :
    e.applyWith ids dryRun nextId d batch =
      .ok (.rejected dryRun d
        [{ operation := front.length, kind := some a.word, message := r.message }],
        s.nextId) := by
  rw [applyWith_of_clean h.clean]
  simp only [applyOperations, h.sizeError?_eq_none, carryOutAll_of_halt hbatch hrun hrefused]

theorem applyWith_of_unreadable {first : Fault} {more : List Fault} (h : e.Admits batch)
    (hbatch : actions batch = front ++ a :: back)
    (hrun : Draft.Run e.catalog ⟨d, nextId, ids⟩ front s)
    (hunreadable : s.carryOut e.catalog a = .error (.unreadable first more)) :
    e.applyWith ids dryRun nextId d batch = .error ⟨first, more⟩ := by
  rw [applyWith_of_clean h.clean]
  simp only [applyOperations, h.sizeError?_eq_none, carryOutAll_of_halt hbatch hrun hunreadable]

end Admitted

/-- A batch runs through, or up to the first of its operations that meets an obstacle. -/
theorem run_or_halt (e : Editor) (ids : IdSupply) (nextId : Nat) (d : Document)
    (batch : List Value) :
    (∃ s, Draft.Run e.catalog ⟨d, nextId, ids⟩ (actions batch) s) ∨
      ∃ front a back s obstacle, actions batch = front ++ a :: back ∧
        Draft.Run e.catalog ⟨d, nextId, ids⟩ front s ∧
        s.carryOut e.catalog a = .error obstacle := by
  cases hall : Draft.carryOutAll e.catalog 0 (Operation.parseAll batch).1 ⟨d, nextId, ids⟩ with
  | ok s => exact Or.inl ⟨s, Draft.run_iff.1 hall⟩
  | error halt =>
    rcases Draft.carryOutAll_eq_error_iff.1 hall with ⟨front, o, back, s, hos, hrun, herror, -⟩
    refine Or.inr
      ⟨front.map (·.action), o.action, back.map (·.action), s, halt.obstacle, ?_, hrun, herror⟩
    simp [actions, hos]

/-- A batch that is admitted is answered by its run, or by the refusal that ends it. -/
theorem applyWith_of_admits (h : e.Admits batch) :
    (∃ s, Draft.Run e.catalog ⟨d, nextId, ids⟩ (actions batch) s ∧
        e.applyWith ids dryRun nextId d batch =
          .ok (if dryRun then .checked (actions batch).length
            else .done (actions batch).length s.document, s.nextId)) ∨
      ∃ front a back s, actions batch = front ++ a :: back ∧
        Draft.Run e.catalog ⟨d, nextId, ids⟩ front s ∧
        ((∃ r, s.carryOut e.catalog a = .error (.refused r) ∧
            e.applyWith ids dryRun nextId d batch =
              .ok (.rejected dryRun d
                [{ operation := front.length, kind := some a.word, message := r.message }],
                s.nextId)) ∨
          ∃ first more, s.carryOut e.catalog a = .error (.unreadable first more) ∧
            e.applyWith ids dryRun nextId d batch = .error ⟨first, more⟩) := by
  rcases run_or_halt e ids nextId d batch with
    ⟨s, hrun⟩ | ⟨front, a, back, s, obstacle, hbatch, hrun, herror⟩
  · exact Or.inl ⟨s, hrun, applyWith_of_run h hrun⟩
  · refine Or.inr ⟨front, a, back, s, hbatch, hrun, ?_⟩
    cases obstacle with
    | refused r => exact Or.inl ⟨r, herror, applyWith_of_refused h hbatch hrun herror⟩
    | unreadable first more =>
      exact Or.inr ⟨first, more, herror, applyWith_of_unreadable h hbatch hrun herror⟩

theorem admits_or_not (e : Editor) (batch : List Value) :
    Operation.malformedIn batch ≠ [] ∨
      (Operation.malformedIn batch = [] ∧ ∃ limit, e.Exceeds limit (actions batch).length) ∨
      e.Admits batch := by
  by_cases hclean : Operation.malformedIn batch = []
  · by_cases hsize : ∃ limit, e.Exceeds limit (actions batch).length
    · exact Or.inr (Or.inl ⟨hclean, hsize⟩)
    · exact Or.inr (Or.inr ⟨hclean, not_exists.1 hsize⟩)
  · exact Or.inl hclean

theorem answer_of_applyWith {r : EditResult} {k : Nat}
    (h : e.applyWith ids dryRun nextId d batch = .ok (r, k)) :
    e.Answer ids dryRun nextId d batch r := by
  rcases admits_or_not e batch with hmalformed | ⟨hclean, limit, hlimit⟩ | hadmits
  · rw [applyWith_of_malformed hmalformed] at h
    cases h
    exact .rejected (.malformed hmalformed)
  · rcases applyWith_of_exceeds hclean hlimit with ⟨place, hplace, heq⟩ | ⟨-, m, heq⟩
    · rw [heq] at h
      cases h
      exact .rejected (.tooMany hclean hlimit hplace)
    · simp [heq] at h
  · rcases applyWith_of_admits hadmits with
      ⟨s, hrun, heq⟩ | ⟨front, a, back, s, hbatch, hrun, ⟨r', hr', heq⟩ | ⟨first, more, -, heq⟩⟩
    · rw [heq] at h
      cases h
      exact .accepted hadmits hrun
    · rw [heq] at h
      cases h
      exact .rejected (.refused hadmits hbatch hrun hr')
    · simp [heq] at h

/-- A batch is accepted exactly if it is admitted and runs through. -/
theorem accepts_iff :
    e.Accepts ids nextId d batch d' ↔
      e.Admits batch ∧
        ∃ s, Draft.Run e.catalog ⟨d, nextId, ids⟩ (actions batch) s ∧ s.document = d' := by
  constructor
  · intro hexists
    rcases hexists with ⟨r, k, h, hsuccess, hd'⟩
    cases answer_of_applyWith h with
    | rejected => simp [EditResult.rejected] at hsuccess
    | accepted hadmits hrun => exact ⟨hadmits, _, hrun, Option.some.inj hd'⟩
  · intro hboth
    rcases hboth with ⟨hadmits, s, hrun, rfl⟩
    exact ⟨_, _, applyWith_of_run hadmits hrun, rfl, rfl⟩

theorem Unanswered.applyWith_eq_error (h : e.Unanswered ids nextId d batch) :
    ∃ m, e.applyWith ids dryRun nextId d batch = .error m := by
  cases h with
  | limit hclean hlimit hplace =>
    rcases applyWith_of_exceeds hclean hlimit with ⟨place, hok, -⟩ | ⟨-, hnone⟩
    · exact absurd (passes_placeBeyond_iff.1 ⟨place, hok⟩) hplace
    · exact hnone
  | @node front back n s hadmits hbatch hrun hfree hfails =>
    have hmem : .addNode n ∈ actions batch := by simp [hbatch]
    have hreadable := readable_of_mem_actions hmem
    rcases (Draft.unreadable_iff hreadable).2 ⟨n, rfl, hfree, hfails⟩ with ⟨first, more, herror⟩
    exact ⟨⟨first, more⟩, applyWith_of_unreadable hadmits hbatch hrun herror⟩

theorem unanswered_of_applyWith {m : Misshapen}
    (h : e.applyWith ids dryRun nextId d batch = .error m) : e.Unanswered ids nextId d batch := by
  rcases admits_or_not e batch with hmalformed | ⟨hclean, limit, hlimit⟩ | hadmits
  · simp [applyWith_of_malformed hmalformed] at h
  · rcases applyWith_of_exceeds hclean hlimit with ⟨place, -, heq⟩ | ⟨hplace, -⟩
    · cases heq.symm.trans h
    · exact .limit hclean hlimit hplace
  · rcases applyWith_of_admits hadmits with
      ⟨s, -, heq⟩ | ⟨front, a, back, s, hbatch, hrun, ⟨r', -, heq⟩ | ⟨first, more, herror, -⟩⟩
    · cases heq.symm.trans h
    · cases heq.symm.trans h
    · have hmem : a ∈ actions batch := by simp [hbatch]
      have hreadable := readable_of_mem_actions hmem
      rcases (Draft.unreadable_iff hreadable).1 ⟨first, more, herror⟩ with ⟨n, rfl, hfree, hfails⟩
      exact .node hadmits hbatch hrun hfree hfails

/-- A batch has an answer exactly if no node that may be added fails to fit once more and no limit
that is exceeded is no place. The answer is the document the batch leads to, or the old document
with the errors that report what is wrong. -/
theorem answered_iff :
    ((∃ r k, e.applyWith ids dryRun nextId d batch = .ok (r, k)) ↔
        ¬ e.Unanswered ids nextId d batch) ∧
      ∀ r k, e.applyWith ids dryRun nextId d batch = .ok (r, k) →
        e.Answer ids dryRun nextId d batch r ∧
          (r.success = false → r.errors ≠ [] ∧ r.document = some d) := by
  refine ⟨⟨?_, ?_⟩, ?_⟩
  · intro hexists hunanswered
    rcases hexists with ⟨r, k, h⟩
    rcases hunanswered.applyWith_eq_error with ⟨m, hm⟩
    cases h.symm.trans hm
  · intro hanswered
    cases h : e.applyWith ids dryRun nextId d batch with
    | ok p => exact ⟨p.1, p.2, rfl⟩
    | error m => exact absurd (unanswered_of_applyWith h) hanswered
  · intro r k h
    have hanswer := answer_of_applyWith h
    refine ⟨hanswer, ?_⟩
    intro hfailed
    cases hanswer with
    | rejected hproblem => exact ⟨hproblem.errors_ne_nil, rfl⟩
    | accepted => cases dryRun <;> simp [EditResult.checked, EditResult.done] at hfailed

/-- A batch with one node to be added, a field of which is null, with a value under its second
spelling. -/
def addingNote (note : Value) : List Value :=
  [.obj [("type", .str "addNode"),
    ("node", .obj
      [("name", .str "A"), ("type", .str "n8n-nodes-base.set"),
        ("position", .arr [.int 0, .int 0]), ("notesInFlow", .null), ("notes_in_flow", note)])]]

theorem note_answered :
    ∃ r k, ({} : Editor).applyWith idText false 1 { nodes := [] } (addingNote (.bool true)) =
        .ok (r, k) ∧
      ({} : Editor).Answer idText false 1 { nodes := [] } (addingNote (.bool true)) r := by
  have hsome : (({} : Editor).applyWith idText false 1 { nodes := [] }
      (addingNote (.bool true))).toOption.isSome = true := by decide +kernel
  rcases Option.isSome_iff_exists.1 hsome with ⟨⟨r, k⟩, hok⟩
  have h : ({} : Editor).applyWith idText false 1 { nodes := [] } (addingNote (.bool true)) =
      .ok (r, k) := by
    cases heq : ({} : Editor).applyWith idText false 1 { nodes := [] }
        (addingNote (.bool true)) with
    | ok p => simpa [heq, Except.toOption] using hok
    | error m => simp [heq, Except.toOption] at hok
  exact ⟨r, k, h, (answered_iff.2 r k h).1⟩

theorem note_unanswered :
    ¬ ∃ r k, ({} : Editor).applyWith idText false 1 { nodes := [] } (addingNote (.str "yes")) =
      .ok (r, k) := by
  intro hexists
  rcases hexists with ⟨r, k, h⟩
  have hnone : (({} : Editor).applyWith idText false 1 { nodes := [] }
      (addingNote (.str "yes"))).toOption.isNone = true := by decide +kernel
  simp [h, Except.toOption] at hnone

end Editor
end Workflows
