import Workflows.Proofs.Edit.Answer

/-!
# Sequence — batches one after the other

Without a limit on the number of operations, a batch does what its operations do one by one: it can
be cut anywhere, and the second part carried out on what the first one has left, with the ids that
come next. A batch that is rejected is rejected for one operation, with the error which that
operation would have got by itself on the document that had been reached. A dry run comes out the
same way and gives no document.

There is one exception: a node that may be added but does not fit when it is read again ends the
batch without any answer.

Main definitions:

* `Operation.WellFormed` — values that can be read as operations;
* `Editor.Carries` — a batch that leads from one document, and one number of the next id, to others;
* `Editor.MeetsUnfit` — a batch in which such a node is reached;
* `Editor.sequential` — what comes of two batches put together.
-/

namespace Workflows

/-! ## Reading two batches as one -/

namespace Operation

/-- The value is an operation. Whether it is does not depend on its place in the batch. -/
def WellFormed (v : Value) : Prop :=
  ∃ o, parse 0 v = .ok o

theorem parse_eq_ok_iff {i j : Nat} {v : Value} {o : Operation} :
    parse i v = .ok o ↔ parse j v = .ok o := by
  cases v with
  | obj es => cases hes : ofEntries es <;> simp [parse, hes]
  | _ => simp [parse]

/-- The errors for malformed operations are none exactly if every value is an operation. -/
theorem malformedIn_eq_nil_iff {batch : List Value} :
    malformedIn batch = [] ↔ ∀ v ∈ batch, WellFormed v := by
  rw [malformedIn, List.filterMap_eq_nil_iff]
  constructor
  · intro h v hv
    rcases List.mem_iff_getElem?.1 hv with ⟨i, hi⟩
    have hnone := h (v, i) (List.mk_mem_zipIdx_iff_getElem?.2 hi)
    cases hparse : parse i v with
    | ok o => exact ⟨o, parse_eq_ok_iff.1 hparse⟩
    | error err => simp [hparse] at hnone
  · intro h p hp
    rcases p with ⟨v, i⟩
    have hv : v ∈ batch := List.mem_of_getElem? (List.mk_mem_zipIdx_iff_getElem?.1 hp)
    rcases h v hv with ⟨o, ho⟩
    have hparse : parse i v = .ok o := parse_eq_ok_iff.1 ho
    simp [hparse]

/-- The operation that a value is read as, wherever it stands. -/
def action? (v : Value) : Option Action :=
  (parse 0 v).toOption.map (·.action)

theorem actions_parseFrom (index : Nat) (batch : List Value) :
    (parseFrom index batch).1.map (·.action) = batch.filterMap action? := by
  induction batch generalizing index with
  | nil => rfl
  | cons v rest ih =>
    cases hparse : parse index v with
    | ok o =>
      have haction : action? v = some o.action := by
        simp [action?, parse_eq_ok_iff.1 hparse, Except.toOption]
      rw [List.filterMap_cons_some haction, ← ih (index + 1)]
      simp [parseFrom, hparse]
    | error err =>
      have hnone : action? v = none := by
        cases hzero : parse 0 v with
        | ok o => simp [parse_eq_ok_iff.1 hzero] at hparse
        | error _ => simp [action?, hzero, Except.toOption]
      rw [List.filterMap_cons_none hnone, ← ih (index + 1)]
      simp [parseFrom, hparse]

theorem exists_action? {v : Value} (h : WellFormed v) : ∃ a, action? v = some a := by
  rcases h with ⟨o, ho⟩
  exact ⟨o.action, by simp [action?, ho, Except.toOption]⟩

end Operation

namespace Editor

variable {xs ys batch front back : List Value} {v : Value} {a : Action}

theorem actions_eq (batch : List Value) : actions batch = batch.filterMap Operation.action? :=
  Operation.actions_parseFrom 0 batch

theorem actions_append : actions (xs ++ ys) = actions xs ++ actions ys := by
  rw [actions_eq, actions_eq, actions_eq, List.filterMap_append]

/-- Where the actions of well-formed operations can be cut, the operations can. -/
theorem exists_cut {before behind : List Action} (hwf : ∀ v ∈ batch, Operation.WellFormed v)
    (h : actions batch = before ++ a :: behind) :
    ∃ front v back, batch = front ++ v :: back ∧ actions front = before ∧ actions [v] = [a] ∧
      front.length = before.length := by
  induction batch generalizing before with
  | nil => simp [actions_eq] at h
  | cons v rest ih =>
    rcases Operation.exists_action? (hwf v List.mem_cons_self) with ⟨b, hb⟩
    have hrest : ∀ w ∈ rest, Operation.WellFormed w := fun w hw => hwf w (List.mem_cons_of_mem v hw)
    have hcons : actions (v :: rest) = b :: actions rest := by
      rw [actions_eq, List.filterMap_cons_some hb, actions_eq]
    rw [hcons] at h
    cases before with
    | nil =>
      have hsame : b = a := (List.cons.inj h).1
      refine ⟨[], v, rest, rfl, rfl, ?_, rfl⟩
      rw [actions_eq, List.filterMap_cons_some hb, hsame, List.filterMap_nil]
    | cons b' before =>
      rcases List.cons.inj h with ⟨rfl, htail⟩
      rcases ih hrest htail with ⟨front, w, back, rfl, hfront, hw, hlength⟩
      refine ⟨v :: front, w, back, rfl, ?_, hw, ?_⟩
      · rw [actions_eq, List.filterMap_cons_some hb, ← actions_eq, hfront]
      · rw [List.length_cons, List.length_cons, hlength]

end Editor

/-! ## The supply of ids -/

namespace Draft

variable {catalog : Option Catalog} {s t : Draft} {a : Action}

theorem ids_carryOut (h : s.carryOut catalog a = .ok t) : t.ids = s.ids := by
  have hstep := step_of_carryOut h
  cases hstep <;> rfl

theorem Run.ids {as : List Action} (h : Run catalog s as t) : t.ids = s.ids := by
  induction h with
  | nil => rfl
  | cons hfirst _ ih => exact ih.trans (ids_carryOut hfirst)

end Draft

/-! ## Batches that are carried out -/

namespace Editor

variable {e : Editor} {ids : IdSupply} {k k' : Nat} {d d' : Document}
  {xs ys batch front back : List Value} {v : Value} {a : Action}

/-- The editor carries the batch out on a document and returns another one; `k` is the number of the
first id it may draw, and `k'` that of the next one. -/
def Carries (e : Editor) (ids : IdSupply) (k : Nat) (d : Document) (batch : List Value) (k' : Nat)
    (d' : Document) : Prop :=
  ∃ r, e.applyWith ids false k d batch = .ok (r, k') ∧ r.success = true ∧ r.document = some d'

theorem admits_of_wellFormed (hlimit : e.maxOperations = none)
    (hwf : ∀ v ∈ batch, Operation.WellFormed v) : e.Admits batch where
  clean := Operation.malformedIn_eq_nil_iff.2 hwf
  size := fun limit hexceeds => by
    have hsome := hexceeds.1
    simp [hlimit] at hsome

/-- What a batch of well-formed operations leads to is where its run ends. -/
theorem carries_iff (hlimit : e.maxOperations = none)
    (hwf : ∀ v ∈ batch, Operation.WellFormed v) :
    e.Carries ids k d batch k' d' ↔
      Draft.Run e.catalog ⟨d, k, ids⟩ (actions batch) ⟨d', k', ids⟩ := by
  have hadmits := admits_of_wellFormed hlimit hwf
  constructor
  · intro hexists
    rcases hexists with ⟨r, h, hsuccess, hd'⟩
    rcases document_of_applyWith h hd' with ⟨hfailed, -⟩ | ⟨-, s, hrun, rfl⟩
    · simp [hsuccess] at hfailed
    · have hnext : s.nextId = k' := by
        have heq := (applyWith_of_run hadmits hrun).symm.trans h
        exact congrArg Prod.snd (Except.ok.inj heq)
      have hids : s.ids = ids := hrun.ids
      exact hnext ▸ hids ▸ hrun
  · intro hrun
    exact ⟨_, applyWith_of_run hadmits hrun, rfl, rfl⟩

/-- Two batches put together lead where the second one leads from where the first one has led. -/
theorem carries_append_iff (hlimit : e.maxOperations = none)
    (hwf : ∀ v ∈ xs ++ ys, Operation.WellFormed v) :
    e.Carries ids k d (xs ++ ys) k' d' ↔
      ∃ k₁ d₁, e.Carries ids k d xs k₁ d₁ ∧ e.Carries ids k₁ d₁ ys k' d' := by
  have hxs : ∀ v ∈ xs, Operation.WellFormed v := fun v hv => hwf v (List.mem_append_left ys hv)
  have hys : ∀ v ∈ ys, Operation.WellFormed v := fun v hv => hwf v (List.mem_append_right xs hv)
  simp only [carries_iff hlimit hwf, carries_iff hlimit hxs, carries_iff hlimit hys,
    actions_append]
  constructor
  · intro hrun
    rcases hrun.split with ⟨s, hfirst, hsecond⟩
    have hids : s.ids = ids := hfirst.ids
    subst hids
    exact ⟨s.nextId, s.document, hfirst, hsecond⟩
  · intro h
    rcases h with ⟨k₁, d₁, hfirst, hsecond⟩
    exact hfirst.append hsecond

/-! ## Batches that are not carried out -/

/-- An operation of a batch is reached: those before it lead to a document on which it is to be
carried out. -/
structure Reaches (e : Editor) (ids : IdSupply) (k : Nat) (d : Document) (batch : List Value)
    (front : List Value) (v : Value) (k₁ : Nat) (d₁ : Document) : Prop where
  cut : ∃ back, batch = front ++ v :: back
  carries : e.Carries ids k d front k₁ d₁

/-- The batch reaches a node that may be added but does not fit when it is read again. -/
def MeetsUnfit (e : Editor) (ids : IdSupply) (k : Nat) (d : Document) (batch : List Value) : Prop :=
  ∃ front v k₁ d₁ n, e.Reaches ids k d batch front v k₁ d₁ ∧ actions [v] = [.addNode n] ∧
    Draft.addNodeRefusal? d₁ n = none ∧ ¬ n.Rereads

/-- The operation at which a run comes to a halt is reached. -/
theorem exists_reaches {before behind : List Action} {s : Draft} (hlimit : e.maxOperations = none)
    (hwf : ∀ v ∈ batch, Operation.WellFormed v) (hbatch : actions batch = before ++ a :: behind)
    (hrun : Draft.Run e.catalog ⟨d, k, ids⟩ before s) :
    ∃ front v, e.Reaches ids k d batch front v s.nextId s.document ∧ Operation.WellFormed v ∧
      actions [v] = [a] ∧ front.length = before.length := by
  rcases exists_cut hwf hbatch with ⟨front, v, back, rfl, hfront, hv, hlength⟩
  have hids : s.ids = ids := hrun.ids
  subst hids
  have hfrontWf : ∀ w ∈ front, Operation.WellFormed w :=
    fun w hw => hwf w (List.mem_append_left _ hw)
  have hcarries : e.Carries s.ids k d front s.nextId s.document :=
    (carries_iff hlimit hfrontWf).2 (hfront ▸ hrun)
  exact ⟨front, v, ⟨⟨back, rfl⟩, hcarries⟩, hwf v (by simp), hv, hlength⟩

theorem meetsUnfit_iff (hlimit : e.maxOperations = none)
    (hwf : ∀ v ∈ batch, Operation.WellFormed v) :
    e.MeetsUnfit ids k d batch ↔ e.Unanswered ids k d batch := by
  constructor
  · intro hexists
    rcases hexists with ⟨front, v, k₁, d₁, n, ⟨⟨back, rfl⟩, hcarries⟩, hv, hfree, hfails⟩
    have hfront : ∀ w ∈ front, Operation.WellFormed w :=
      fun w hw => hwf w (List.mem_append_left _ hw)
    have hbatch : actions (front ++ v :: back) = actions front ++ .addNode n :: actions back := by
      calc actions (front ++ v :: back) = actions front ++ actions ([v] ++ back) := actions_append
        _ = actions front ++ (actions [v] ++ actions back) := by rw [actions_append]
        _ = actions front ++ .addNode n :: actions back := by rw [hv, List.singleton_append]
    exact .node (admits_of_wellFormed hlimit hwf) hbatch ((carries_iff hlimit hfront).1 hcarries)
      hfree hfails
  · intro h
    cases h with
    | limit _ hexceeds _ =>
      have hsome := hexceeds.1
      simp [hlimit] at hsome
    | node hadmits hbatch hrun hfree hfails =>
      rcases exists_reaches hlimit hwf hbatch hrun with ⟨front, v, hreaches, -, hv, -⟩
      exact ⟨front, v, _, _, _, hreaches, hv, hfree, hfails⟩

/-- A batch that is rejected is so for the operation it has reached, which is refused by itself in
the same words. -/
theorem exists_refused {r : EditResult} (hlimit : e.maxOperations = none)
    (hwf : ∀ v ∈ batch, Operation.WellFormed v)
    (h : e.applyWith ids false k d batch = .ok (r, k')) (hfailed : r.success = false) :
    ∃ front v k₁ d₁ alone, ∃ err : EditError, e.Reaches ids k d batch front v k₁ d₁ ∧
      e.applyWith ids false k₁ d₁ [v] = .ok (alone, k') ∧ alone.success = false ∧
      alone.errors = [{ err with operation := 0 }] ∧
      r.errors = [{ err with operation := front.length }] ∧ r.document = some d := by
  have hadmits := admits_of_wellFormed hlimit hwf
  -- The batch runs to its end, or up to an operation that cannot be carried out.
  rcases run_or_halt e ids k d batch with
    ⟨s, hrun⟩ | ⟨before, a, behind, s, obstacle, hbatch, hrun, herror⟩
  · have heq := (applyWith_of_run hadmits hrun).symm.trans h
    cases heq
    simp [EditResult.done] at hfailed
  · cases obstacle with
    | unreadable first more =>
      simp [applyWith_of_unreadable hadmits hbatch hrun herror] at h
    | refused refusal =>
      have heq := (applyWith_of_refused hadmits hbatch hrun herror).symm.trans h
      cases heq
      rcases exists_reaches hlimit hwf hbatch hrun with
        ⟨front, v, hreaches, hvwf, hv, hlength⟩
      have hids : s.ids = ids := hrun.ids
      subst hids
      have hsingle : e.Admits [v] := admits_of_wellFormed hlimit (by simpa using hvwf)
      let err : EditError := { operation := 0, kind := some a.word, message := refusal.message }
      have halone : e.applyWith s.ids false s.nextId s.document [v] =
          .ok (.rejected false s.document [err], s.nextId) :=
        applyWith_of_refused hsingle hv (.nil s) herror
      have hplace : ((front.length : Nat) : Int) = before.length := by rw [hlength]
      refine ⟨front, v, s.nextId, s.document, _, err, hreaches, halone, rfl, rfl, ?_, rfl⟩
      rw [hplace]
      rfl

end Editor

/-! ## Dry runs -/

namespace EditResult

/-- The result that a dry run has where the real one has this one. -/
def onTrial (r : EditResult) : EditResult :=
  if r.success then .checked r.applied else { r with dryRun := true }

theorem success_onTrial (r : EditResult) : r.onTrial.success = r.success := by
  cases h : r.success <;> simp [onTrial, h, checked]

theorem document_onTrial {r : EditResult} (h : r.onTrial.success = true) :
    r.onTrial.document = none := by
  rw [success_onTrial] at h
  simp [onTrial, h, checked]

/-- A result without errors where it is a success has the same errors on trial. -/
theorem errors_onTrial {r : EditResult} (h : r.success = true → r.errors = []) :
    r.onTrial.errors = r.errors := by
  cases hsuccess : r.success with
  | true => simp [onTrial, hsuccess, checked, h hsuccess]
  | false => simp [onTrial, hsuccess]

end EditResult

namespace Editor

variable {e : Editor} {ids : IdSupply} {k k' : Nat} {d : Document} {xs ys batch : List Value}

/-- A dry run does what the real one does and gives no document if it succeeds. -/
theorem applyWith_dryRun (e : Editor) (ids : IdSupply) (k : Nat) (d : Document)
    (batch : List Value) :
    e.applyWith ids true k d batch =
      (e.applyWith ids false k d batch).map fun p => (p.1.onTrial, p.2) := by
  unfold applyWith applyOperations
  split
  · split
    · rfl
    · rfl
    · split
      · rfl
      · split <;> rfl
  · rfl

theorem errors_of_success {dryRun : Bool} {r : EditResult}
    (h : e.applyWith ids dryRun k d batch = .ok (r, k')) (hsuccess : r.success = true) :
    r.errors = [] := by
  have hanswer := answer_of_applyWith h
  cases hanswer with
  | rejected => simp [EditResult.rejected] at hsuccess
  | accepted => cases dryRun <;> rfl

/-! ## What comes of a sequence -/

/-- Two batches in a row are carried out as one after the other. If that is rejected, it is for the
first operation that cannot be carried out where it is reached, with the error it gets there by
itself. There is an answer unless a node is reached that does not fit any more. A dry run comes out
the same way, without a document if it succeeds. -/
theorem sequential (hlimit : e.maxOperations = none)
    (hwf : ∀ v ∈ xs ++ ys, Operation.WellFormed v) :
    (∀ k' d', e.Carries ids k d (xs ++ ys) k' d' ↔
        ∃ k₁ d₁, e.Carries ids k d xs k₁ d₁ ∧ e.Carries ids k₁ d₁ ys k' d') ∧
      (∀ r k', e.applyWith ids false k d (xs ++ ys) = .ok (r, k') → r.success = false →
        ∃ front v k₁ d₁ alone, ∃ err : EditError, e.Reaches ids k d (xs ++ ys) front v k₁ d₁ ∧
          e.applyWith ids false k₁ d₁ [v] = .ok (alone, k') ∧ alone.success = false ∧
          alone.errors = [{ err with operation := 0 }] ∧
          r.errors = [{ err with operation := front.length }] ∧ r.document = some d) ∧
      ((∃ r k', e.applyWith ids false k d (xs ++ ys) = .ok (r, k')) ↔
        ¬ e.MeetsUnfit ids k d (xs ++ ys)) ∧
      (∀ m, e.applyWith ids true k d (xs ++ ys) = .error m ↔
        e.applyWith ids false k d (xs ++ ys) = .error m) ∧
      ∀ r k', e.applyWith ids false k d (xs ++ ys) = .ok (r, k') →
        ∃ trial, e.applyWith ids true k d (xs ++ ys) = .ok (trial, k') ∧
          trial.success = r.success ∧ trial.errors = r.errors ∧
          (trial.success = true → trial.document = none) := by
  have hdry := applyWith_dryRun e ids k d (xs ++ ys)
  refine ⟨fun k' d' => carries_append_iff hlimit hwf,
    fun r k' h hfailed => exists_refused hlimit hwf h hfailed, ?_, ?_, ?_⟩
  · rw [meetsUnfit_iff hlimit hwf]
    constructor
    · intro hexists hunanswered
      rcases hexists with ⟨r, k', h⟩
      rcases hunanswered.applyWith_eq_error with ⟨m, hm⟩
      cases h.symm.trans hm
    · intro hanswered
      cases h : e.applyWith ids false k d (xs ++ ys) with
      | ok p => exact ⟨p.1, p.2, rfl⟩
      | error m => exact absurd (unanswered_of_applyWith h) hanswered
  · intro m
    rw [hdry]
    cases e.applyWith ids false k d (xs ++ ys) <;> simp [Except.map]
  · intro r k' h
    rw [h] at hdry
    exact ⟨r.onTrial, hdry, r.success_onTrial, EditResult.errors_onTrial (errors_of_success h),
      EditResult.document_onTrial⟩

def naming : List Value :=
  [.obj [("type", .str "updateName"), ("name", .str "W")]]

/-- A second node of the same name is refused, in a batch as by itself. -/
theorem second_note_refused :
    ∃ r k', ({} : Editor).applyWith idText false 1 { nodes := [] }
        (naming ++ (addingNote (.bool true) ++ addingNote (.bool true))) = .ok (r, k') ∧
      r.success = false ∧
      ∃ front v k₁ d₁ alone, ({} : Editor).Reaches idText 1 { nodes := [] }
          (naming ++ (addingNote (.bool true) ++ addingNote (.bool true))) front v k₁ d₁ ∧
        front.length = 2 ∧ ({} : Editor).applyWith idText false k₁ d₁ [v] = .ok (alone, k') ∧
        alone.errors.map (·.message) = r.errors.map (·.message) := by
  have hwf : ∀ v ∈ naming ++ (addingNote (.bool true) ++ addingNote (.bool true)),
      Operation.WellFormed v := Operation.malformedIn_eq_nil_iff.1 (by decide +kernel)
  have hrejected : (({} : Editor).applyWith idText false 1 { nodes := [] }
      (naming ++ (addingNote (.bool true) ++ addingNote (.bool true)))).toOption.any
        (fun p => !p.1.success && p.1.errors.map (·.operation) == [2]) = true := by
    decide +kernel
  rcases exists_result hrejected with ⟨r, k', h, htest⟩
  rcases Bool.and_eq_true_iff.1 htest with ⟨hfailed, hplace⟩
  have hfailed : r.success = false := by simpa using hfailed
  rcases (sequential rfl hwf).2.1 r k' h hfailed with
    ⟨front, v, k₁, d₁, alone, err, hreaches, halone, -, halonely, herrors, -⟩
  have hlength : front.length = 2 := by
    rw [herrors] at hplace
    have hcast : (front.length : Int) = 2 := by simpa using hplace
    omega
  exact ⟨r, k', h, hfailed, front, v, k₁, d₁, alone, hreaches, hlength, halone,
    by rw [halonely, herrors]; rfl⟩

/-- Two batches of well-formed operations, the first of which is carried out; together they are
neither carried out nor rejected. -/
theorem naming_note_unanswered :
    (∀ v ∈ naming ++ addingNote (.str "yes"), Operation.WellFormed v) ∧
      (∃ k₁ d₁, ({} : Editor).Carries idText 1 { nodes := [] } naming k₁ d₁) ∧
      ¬ ∃ r k', ({} : Editor).applyWith idText false 1 { nodes := [] }
        (naming ++ addingNote (.str "yes")) = .ok (r, k') := by
  have hcarried : (({} : Editor).applyWith idText false 1 { nodes := [] } naming).toOption.any
      (fun p => p.1.success && p.1.document.isSome) = true := by decide +kernel
  have hnone : (({} : Editor).applyWith idText false 1 { nodes := [] }
      (naming ++ addingNote (.str "yes"))).toOption.isNone = true := by decide +kernel
  refine ⟨Operation.malformedIn_eq_nil_iff.1 (by decide +kernel), ?_, ?_⟩
  · rcases exists_result hcarried with ⟨r, k₁, h, htest⟩
    rcases Bool.and_eq_true_iff.1 htest with ⟨hsuccess, hsome⟩
    rcases Option.isSome_iff_exists.1 hsome with ⟨d₁, hd₁⟩
    exact ⟨k₁, d₁, r, h, hsuccess, hd₁⟩
  · intro hexists
    rcases hexists with ⟨r, k', h⟩
    simp [h, Except.toOption] at hnone

end Editor
end Workflows
