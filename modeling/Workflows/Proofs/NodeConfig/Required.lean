import Workflows.Proofs.Validation.Filed
import Workflows.Proofs.Validation.Skipped
import Workflows.Proofs.Visibility.Acyclic

/-!
# Required — which values the minimal profile asks for

Under the minimal profile the outcome for a node is about required values only. A property asks for
one if it applies, is required, declares no default, and its parameter is not set; of the properties
of one name the first that asks is reported. Neither properties that cannot be read nor those that
do not apply leave a trace.

The positions of the properties that apply come out of the resolver, whatever it met on the way; in
a list whose conditions do not lead back to themselves they are those of the plain definition.

Main definitions:

* `NodeConfig.Unset`, `NodeConfig.Asks` — a parameter that is not set; a property that asks for one;
* `Issue.exists_firstBy_map` — which findings are kept, by their positions;
* `NodeConfig.required_reported` — the outcome under the minimal profile.
-/

namespace Workflows

namespace Issue

/-- The findings that are kept belong to those entries of a list before which no entry has a finding
of the same key. -/
theorem exists_firstBy_map {α κ : Type} [BEq κ] [LawfulBEq κ] (key : Issue → κ) (f : α → Issue)
    (position : α → Nat) (seen : List κ) {entries : List α}
    (hsorted : entries.Pairwise fun a b => position a < position b) :
    ∃ firsts : List α, firsts.Sublist entries ∧ firstBy key seen (entries.map f) = firsts.map f ∧
      ∀ a, a ∈ firsts ↔ a ∈ entries ∧ key (f a) ∉ seen ∧
        ∀ b ∈ entries, position b < position a → key (f b) ≠ key (f a) := by
  -- The key of an entry that is kept is among those seen by the entries behind it.
  induction entries generalizing seen with
  | nil => exact ⟨[], List.Sublist.slnil, rfl, by simp⟩
  | cons a rest ih =>
    rcases List.pairwise_cons.1 hsorted with ⟨hfirst, hrest⟩
    by_cases hseen : key (f a) ∈ seen
    · rcases ih seen hrest with ⟨firsts, hsub, heq, hmem⟩
      refine ⟨firsts, hsub.cons a, ?_, ?_⟩
      · simpa [firstBy, hseen] using heq
      · intro b
        rw [hmem b]
        constructor
        · intro h
          rcases h with ⟨hb, hnew, hbefore⟩
          refine ⟨List.mem_cons_of_mem a hb, hnew, List.forall_mem_cons.2 ⟨?_, hbefore⟩⟩
          intro _ hkey
          exact hnew (hkey ▸ hseen)
        · intro h
          rcases h with ⟨hb, hnew, hbefore⟩
          refine ⟨?_, hnew, (List.forall_mem_cons.1 hbefore).2⟩
          rcases List.mem_cons.1 hb with rfl | hb
          · exact absurd hseen hnew
          · exact hb
    · rcases ih (key (f a) :: seen) hrest with ⟨firsts, hsub, heq, hmem⟩
      refine ⟨a :: firsts, hsub.cons_cons a, ?_, ?_⟩
      · simpa [firstBy, hseen] using heq
      · intro b
        rw [List.mem_cons, hmem b]
        constructor
        · intro h
          rcases h with rfl | ⟨hb, hnew, hbefore⟩
          · refine ⟨List.mem_cons_self, hseen, ?_⟩
            -- Nothing in the list stands before its first entry.
            intro b hb hlt
            rcases List.mem_cons.1 hb with rfl | hb
            · exact absurd hlt (Nat.lt_irrefl _)
            · exact absurd (hlt.trans (hfirst b hb)) (Nat.lt_irrefl _)
          · rw [List.mem_cons, not_or] at hnew
            refine ⟨List.mem_cons_of_mem a hb, hnew.2, List.forall_mem_cons.2 ⟨?_, hbefore⟩⟩
            intro _ hkey
            exact hnew.1 hkey.symm
        · intro h
          rcases h with ⟨hb, hnew, hbefore⟩
          rcases List.mem_cons.1 hb with rfl | hb
          · exact Or.inl rfl
          · rcases List.forall_mem_cons.1 hbefore with ⟨hkey, hbefore⟩
            refine Or.inr ⟨hb, ?_, hbefore⟩
            rw [List.mem_cons, not_or]
            exact ⟨fun heq => hkey (hfirst b hb) heq.symm, hnew⟩

end Issue

namespace Resolver

variable {r : Resolver}

/-- The positions of the properties that apply come in order. -/
theorem sublist_of_visibleAmong {is found : List Nat} {m m' : Memory}
    (h : outcome (r.visibleAmong is) m = (.ok found, m')) : found.Sublist is := by
  -- Each property is asked for in turn, and kept or left out; the memory changes on the way.
  induction is generalizing found m m' with
  | nil =>
    have hnil : (Except.ok [], m) = ((.ok found, m') : Except EvalError (List Nat) × Memory) := h
    simp only [Prod.mk.injEq, Except.ok.injEq] at hnil
    exact hnil.1 ▸ List.Sublist.slnil
  | cons i rest ih =>
    simp only [visibleAmong, outcome_bind] at h
    rcases hfirst : outcome (r.isVisible i) m with ⟨x, m₁⟩
    cases x with
    | error e => simp [hfirst] at h
    | ok v =>
      simp only [hfirst] at h
      rcases hrest : outcome (r.visibleAmong rest) m₁ with ⟨y, m₂⟩
      cases y with
      | error e => simp [hrest] at h
      | ok more =>
        simp only [hrest] at h
        have hsub := ih hrest
        have hfound : found = if v then i :: more else more := by
          have hpure := congrArg Prod.fst h
          exact (Except.ok.inj hpure).symm
        cases v with
        | true => exact hfound ▸ hsub.cons_cons i
        | false => exact hfound ▸ hsub.cons i

/-- It can be told which properties apply exactly if it can be told where they stand. -/
theorem visibleProperties_of_positions {is : List Nat}
    (h : (r.visiblePositions.run {}).1 = .ok is) :
    (r.visibleProperties.run {}).1 = .ok (is.filterMap fun i => r.properties[i]?) := by
  have hpositions : outcome r.visiblePositions {} = (.ok is, (outcome r.visiblePositions {}).2) :=
    Prod.ext h rfl
  change (outcome r.visibleProperties {}).1 = _
  rw [visibleProperties, outcome_bind, hpositions]
  rfl

theorem sublist_range_of_positions {is : List Nat} (h : (r.visiblePositions.run {}).1 = .ok is) :
    is.Sublist (List.range r.properties.length) := by
  have hpositions : outcome r.visiblePositions {} = (.ok is, (outcome r.visiblePositions {}).2) :=
    Prod.ext h rfl
  exact sublist_of_visibleAmong hpositions

/-- In a list whose conditions do not lead back to themselves the properties that apply are those of
the plain definition. -/
theorem positions_of_acyclic {is : List Nat} (hacyclic : r.Acyclic)
    (h : (r.visiblePositions.run {}).1 = .ok is) :
    is = (List.range r.properties.length).filter r.plain := by
  have htells := tells_visiblePositions hacyclic hacyclic.isPlain {} (faithful_empty r.plain)
  rcases htells.2 with hresult | ⟨-, e, hnone⟩
  · exact Except.ok.inj (h.symm.trans hresult)
  · exact absurd (h.symm.trans hnone) (by simp)

end Resolver

namespace NodeConfig

def Unset (ps : Entries Value) (name : String) : Prop :=
  ps.get? name = none ∨ ps.get? name = some .null ∨ ps.get? name = some (.str "")

theorem isUnset_iff {ps : Entries Value} {name : String} :
    isUnset ps name = true ↔ Unset ps name := by
  unfold isUnset Unset
  cases ps.get? name with
  | none => simp
  | some v => cases v <;> simp

/-- The property at a position is required, declares no default, and its parameter is not set. -/
structure Asks (c : NodeConfig) (i : Nat) (p : Property) : Prop where
  entry : c.properties[i]? = some p
  required : p.required = true
  bare : p.default = .null ∨ p.default = .str ""
  unset : Unset c.parameters p.name

theorem hasDefault_eq_false_iff {p : Property} :
    p.hasDefault = false ↔ p.default = .null ∨ p.default = .str "" := by
  unfold Property.hasDefault
  cases p.default <;> simp

variable {c : NodeConfig}

def askedIssue (c : NodeConfig) (p : Property) : Issue :=
  { missingRequired p with nodeName := c.nodeName }

/-- Whether a property asks for a value, if it applies. -/
def asks (c : NodeConfig) (p : Property) : Bool :=
  p.required && !p.hasDefault && isUnset c.parameters p.name

/-- The missing values that properties ask for, each for itself. -/
def askedIssues (c : NodeConfig) (visible : List Property) : List Issue :=
  (visible.filter c.asks).map c.askedIssue

theorem asks_iff {i : Nat} {p : Property} :
    c.Asks i p ↔ c.properties[i]? = some p ∧ c.asks p = true := by
  rw [asks, Bool.and_eq_true, Bool.and_eq_true, Bool.not_eq_true', hasDefault_eq_false_iff,
    isUnset_iff]
  constructor
  · intro h
    exact ⟨h.entry, ⟨h.required, h.bare⟩, h.unset⟩
  · rintro ⟨hentry, ⟨hrequired, hbare⟩, hunset⟩
    exact ⟨hentry, hrequired, hbare, hunset⟩

theorem map_requiredIssues (visible : List Property) :
    (requiredIssues c.parameters visible).map (fun i => { i with nodeName := c.nodeName }) =
      c.askedIssues visible := by
  rw [requiredIssues, List.map_map]
  rfl

/-- A missing value is an error, whatever the policy. -/
theorem isError_of_mem_askedIssues {visible : List Property} {i : Issue}
    (hi : i ∈ c.askedIssues visible) :
    (i.isError = true ∧ i.category ≠ .style) ∧ i.category = .required ∧
      i.code = "missing_required" := by
  rcases List.mem_map.1 hi with ⟨p, -, rfl⟩
  exact ⟨⟨rfl, by simp [askedIssue, missingRequired]⟩, rfl, rfl⟩

theorem warnings_minimal_eq_nil (visible : List Property) :
    (reportOf .minimal c visible).warnings = [] := by
  have hnone : ∀ i ∈ (c.namedFindings .minimal visible).filterMap Profile.minimal.policy.apply,
      ¬ (!i.isError) = true := by
    intro i hi
    rcases List.mem_filterMap.1 hi with ⟨j, -, hj⟩
    by_cases hstyle : j.category = .style
    · simp [Profile.policy, Policy.apply, hstyle] at hj
    · cases herror : j.isError with
      | false => simp [Profile.policy, Policy.apply, Policy.keep, hstyle, herror] at hj
      | true =>
        have hsame : j = i := by
          simpa [Profile.policy, Policy.apply, Policy.keep, hstyle, herror] using hj
        simp [← hsame, herror]
  rw [warnings_reportOf, List.filter_eq_nil_iff.2 hnone]
  rfl

/-- The errors under the minimal profile are the missing values. -/
theorem errors_minimal_eq (visible : List Property) :
    (reportOf .minimal c visible).errors =
      Issue.distinct (c.askedIssues visible) := by
  have hfindings : c.readable.namedFindings .minimal visible = c.askedIssues visible := by
    change ((c.readable.malformedIssues ++ requiredIssues c.parameters visible ++ []) ++
      []).map _ = _
    rw [malformedIssues_readable, List.nil_append, List.append_nil, List.append_nil]
    exact map_requiredIssues visible
  have herrors : ∀ i ∈ c.askedIssues visible, i.isError = true ∧ i.category ≠ .style :=
    fun i hi => (isError_of_mem_askedIssues hi).1
  rw [errors_reportOf_readable, errors_reportOf, hfindings, Policy.errors_eq_self herrors]

/-- The entries at given positions that ask for a value, in order. -/
def asking (c : NodeConfig) (is : List Nat) : List (Nat × Property) :=
  is.filterMap fun i => (c.properties[i]?.filter c.asks).map fun p => (i, p)

theorem mem_asking_iff {is : List Nat} {i : Nat} {p : Property} :
    (i, p) ∈ c.asking is ↔ i ∈ is ∧ c.Asks i p := by
  rw [asks_iff]
  simp only [asking, List.mem_filterMap, Option.map_eq_some_iff, Option.filter_eq_some_iff,
    Prod.mk.injEq]
  constructor
  · intro h
    rcases h with ⟨j, hj, q, hq, rfl, rfl⟩
    exact ⟨hj, hq⟩
  · intro h
    rcases h with ⟨hi, hp⟩
    exact ⟨i, hi, p, hp, rfl, rfl⟩

theorem pairwise_asking {is : List Nat} (h : is.Pairwise (· < ·)) :
    (c.asking is).Pairwise fun a b => a.1 < b.1 := by
  refine List.Pairwise.filterMap _ ?_ h
  intro i j hlt a ha b hb
  rcases Option.map_eq_some_iff.1 ha with ⟨p, -, rfl⟩
  rcases Option.map_eq_some_iff.1 hb with ⟨q, -, rfl⟩
  exact hlt

theorem map_asking (is : List Nat) :
    c.askedIssues (is.filterMap fun i => c.properties[i]?) =
      (c.asking is).map fun a => c.askedIssue a.2 := by
  induction is with
  | nil => rfl
  | cons i rest ih =>
    cases hp : c.properties[i]? with
    | none => simpa [askedIssues, asking, hp] using ih
    | some p => cases htest : c.asks p <;> simp_all [askedIssues, asking, Option.filter]

/-- Where it can be told which properties apply, there is an outcome under the minimal profile. Its
errors are the missing values of those properties that apply and ask for one when none before them
of their name does, in the order of the properties, one for each; there are no warnings, and nothing
is reported of a name none of whose properties applies. Where no name depends on itself, the
properties that apply are those of the plain definition. -/
theorem required_reported {is : List Nat} (h : (c.resolver.visiblePositions.run {}).1 = .ok is) :
    ∃ r, c.check .minimal = .ok r ∧
      (∃ firsts : List (Nat × Property), firsts.Pairwise (fun a b => a.1 < b.1) ∧
        (∀ i p, (i, p) ∈ firsts ↔ i ∈ is ∧ c.Asks i p ∧
          ∀ j ∈ is, j < i → ∀ q, c.Asks j q → q.name ≠ p.name) ∧
        r.errors = firsts.map fun a => c.askedIssue a.2) ∧
      r.warnings = [] ∧
      (∀ name, (∀ i ∈ is, ∀ p, c.properties[i]? = some p → p.name ≠ name) →
        ∀ e ∈ r.errors, e.path ≠ some name) ∧
      (c.resolver.Acyclic → is = (List.range c.properties.length).filter c.resolver.plain) := by
  let visible := is.filterMap fun i => c.properties[i]?
  have hvisible : (c.resolver.visibleProperties.run {}).1 = .ok visible :=
    Resolver.visibleProperties_of_positions h
  have hsorted : is.Pairwise (· < ·) :=
    List.pairwise_lt_range.sublist (Resolver.sublist_range_of_positions h)
  have hcheck : c.check .minimal = .ok (reportOf .minimal c visible) := by
    unfold check
    rw [hvisible]
  -- Two missing values have the same path and code if they are of one name.
  have hkey : ∀ p q : Property, ((c.askedIssue p).path, (c.askedIssue p).code) =
      ((c.askedIssue q).path, (c.askedIssue q).code) ↔ p.name = q.name := by
    intro p q
    simp [askedIssue, missingRequired]
  rcases Issue.exists_firstBy_map (fun i => (i.path, i.code)) (fun a => c.askedIssue a.2)
    Prod.fst [] (c.pairwise_asking hsorted) with ⟨firsts, hsub, hfirsts, hmem⟩
  have herrors : (reportOf .minimal c visible).errors = firsts.map fun a => c.askedIssue a.2 := by
    rw [errors_minimal_eq, map_asking, Issue.distinct, hfirsts]
  have hfirst : ∀ i p, (i, p) ∈ firsts ↔ i ∈ is ∧ c.Asks i p ∧
      ∀ j ∈ is, j < i → ∀ q, c.Asks j q → q.name ≠ p.name := by
    intro i p
    rw [hmem (i, p), mem_asking_iff, and_assoc]
    refine and_congr_right fun _ => and_congr_right ?_
    intro _
    constructor
    · intro hboth j hj hlt q hq hname
      rcases hboth with ⟨-, hbefore⟩
      exact hbefore (j, q) (mem_asking_iff.2 ⟨hj, hq⟩) hlt ((hkey q p).2 hname)
    · intro hbefore
      refine ⟨List.not_mem_nil, ?_⟩
      intro b hb hlt heq
      rcases mem_asking_iff.1 hb with ⟨hj, hq⟩
      exact hbefore b.1 hj hlt b.2 hq ((hkey b.2 p).1 heq)
  have hnever : ∀ name, (∀ i ∈ is, ∀ p, c.properties[i]? = some p → p.name ≠ name) →
      ∀ e ∈ (reportOf .minimal c visible).errors, e.path ≠ some name := by
    intro name hhidden e he hpath
    rw [herrors] at he
    rcases List.mem_map.1 he with ⟨⟨i, p⟩, hp, rfl⟩
    rcases mem_asking_iff.1 (hsub.subset hp) with ⟨hi, hasks⟩
    exact hhidden i hi p hasks.entry (Option.some.inj hpath)
  exact ⟨_, hcheck, ⟨firsts, (c.pairwise_asking hsorted).sublist hsub, hfirst, herrors⟩,
    warnings_minimal_eq_nil visible, hnever,
    fun hacyclic => Resolver.positions_of_acyclic hacyclic h⟩

/-- A node with a property that cannot be read and three properties of one name, the first of which
does not apply. -/
def messageNode : NodeConfig where
  type := "messages"
  parameters := [("text", .str ""), ("owner", .null)]
  schema := [
    .obj [("name", .str "kind"), ("type", .str "string"), ("default", .str "message")],
    .obj [("name", .str ""), ("type", .str "string")],
    .obj [("name", .str "text"), ("type", .str "string"), ("required", .bool true),
      ("displayOptions", .obj [("show", .obj [("kind", .arr [.str "file"])])])],
    .obj [("name", .str "text"), ("type", .str "string"), ("required", .bool true),
      ("displayOptions", .obj [("show", .obj [("kind", .arr [.str "message"])])])],
    .obj [("name", .str "text"), ("type", .str "string"), ("required", .bool true)],
    .obj [("name", .str "owner"), ("type", .str "string"), ("required", .bool true)]]

theorem shared_name_reported :
    (messageNode.resolver.visiblePositions.run {}).1 = .ok [0, 2, 3, 4] ∧
      ∃ r, messageNode.check .minimal = .ok r ∧ r.warnings = [] ∧
        r.errors.map Issue.path = [some "text", some "owner"] := by
  have hpositions : (messageNode.resolver.visiblePositions.run {}).1 = .ok [0, 2, 3, 4] := by
    decide +kernel
  rcases required_reported hpositions with ⟨r, hr, -, hwarnings, -, -⟩
  refine ⟨hpositions, r, hr, hwarnings, ?_⟩
  have hpaths : (messageNode.check .minimal).map (fun r => r.errors.map Issue.path) =
      .ok [some "text", some "owner"] := by decide +kernel
  rw [hr] at hpaths
  exact Except.ok.inj hpaths

end NodeConfig

end Workflows
