import Mathlib.Data.Set.Card
import Mathlib.Logic.Relation
import Workflows.Proofs.Visibility.Plain
import Workflows.Proofs.Visibility.QuestionOrder

/-!
# Acyclic — properties whose conditions do not lead back to themselves

A name depends on the names that the conditions of its properties mention. When no name depends on
itself in the end, it can be said without a resolver which properties apply: a property does if its
condition is met, where a parameter counts as absent when it is not set, or when it is a parameter
of the type and none of its properties applies. There is just one way for that to come out, since
every property is settled by properties further down.

The resolver finds what this definition says. A property that is asked for while others are being
evaluated is one that each of them depends on, so it is not among them; no entry is met again, no
mark is ever set, and all that is remembered is right, also when an earlier question was left
without an answer.

Main definitions:

* `Resolver.DependsOn`, `Resolver.Acyclic` — names and the names they depend on;
* `Resolver.Applies`, `Resolver.plain` — the definition that does without a resolver;
* `Resolver.Reached` — the memories that questions can leave;
* `Resolver.plain_of_acyclic` — the resolver answers as the plain definition says.
-/

namespace Workflows

/-- The names that the condition of a property mentions, but for that of the version. -/
def Property.mentions (p : Property) : List String :=
  match p.condition with
  | none => []
  | some c => (c.showWhen.keys ++ c.hideWhen.keys).filter (· != Resolver.versionKey)

theorem Property.mem_mentions {p : Property} {c : Condition} (hc : p.condition = some c)
    {e : String × Value} (he : e ∈ c.showWhen ++ c.hideWhen) (hne : e.1 ≠ Resolver.versionKey) :
    e.1 ∈ p.mentions := by
  unfold mentions Entries.keys
  rw [hc]
  dsimp only
  rw [← List.map_append]
  exact List.mem_filter.2 ⟨List.mem_map_of_mem he, bne_iff_ne.2 hne⟩

namespace Resolver

/-- A property of the first name mentions the second one. -/
def DependsOn (r : Resolver) (name other : String) : Prop :=
  ∃ p ∈ r.properties, p.name = name ∧ other ∈ p.mentions

/-- No name depends on itself, directly or by way of others. -/
def Acyclic (r : Resolver) : Prop :=
  ∀ name, ¬ Relation.TransGen r.DependsOn name name

/-! ## Without a resolver -/

/-- The value that a condition sees for a parameter when it is given which properties apply. -/
def plainValue (r : Resolver) (v : Nat → Bool) (name : String) : Option Value :=
  if name = versionKey then r.typeVersion.map .num
  else
    match r.config.get? name with
    | none | some .null => none
    | some value =>
      if r.positions name ≠ [] ∧ ∀ i ∈ r.positions name, v i = false then none else some value

/-- All of the first kind of allow-lists match, and none of the second kind. -/
def Met (r : Resolver) (v : Nat → Bool) (c : Condition) : Prop :=
  (∀ e ∈ c.showWhen, Allowed.allows (r.plainValue v e.1) e.2 = .ok true) ∧
    ∀ e ∈ c.hideWhen, Allowed.allows (r.plainValue v e.1) e.2 = .ok false

instance (r : Resolver) (v : Nat → Bool) (c : Condition) : Decidable (r.Met v c) :=
  inferInstanceAs (Decidable (_ ∧ _))

def Applies (r : Resolver) (v : Nat → Bool) (p : Property) : Prop :=
  ∀ c ∈ p.condition, r.Met v c

instance (r : Resolver) (v : Nat → Bool) (p : Property) : Decidable (r.Applies v p) :=
  inferInstanceAs (Decidable (∀ c ∈ p.condition, _))

/-- The given answers are what comes out for each property when they are given for the others. -/
def IsPlain (r : Resolver) (v : Nat → Bool) : Prop :=
  ∀ i p, r.properties[i]? = some p → (v i = true ↔ r.Applies v p)

/-- Which properties apply, as far as it can be told from so many conditions below each other. -/
def plainTo (r : Resolver) : Nat → Nat → Bool
  | 0, _ => false
  | depth + 1, i =>
    match r.properties[i]? with
    | none => false
    | some p => decide (r.Applies (r.plainTo depth) p)

/-- Which properties apply. There are no more conditions below each other than properties. -/
def plain (r : Resolver) : Nat → Bool :=
  r.plainTo r.properties.length

/-- All allow-lists have a verdict on the values they are asked about. -/
def Comparable (r : Resolver) (v : Nat → Bool) : Prop :=
  ∀ p ∈ r.properties, ∀ c ∈ p.condition, ∀ e ∈ c.showWhen ++ c.hideWhen,
    ∃ b, Allowed.allows (r.plainValue v e.1) e.2 = .ok b

section Definition

variable {r : Resolver} {v w : Nat → Bool}

theorem mem_positions_iff {name : String} {i : Nat} :
    i ∈ r.positions name ↔ ∃ p, r.properties[i]? = some p ∧ p.name = name := by
  unfold positions
  rw [List.mem_map]
  constructor
  · intro h
    rcases h with ⟨⟨p, j⟩, hmem, rfl⟩
    rcases List.mem_filter.1 hmem with ⟨hzip, hname⟩
    exact ⟨p, List.mk_mem_zipIdx_iff_getElem?.1 hzip, beq_iff_eq.1 hname⟩
  · intro h
    rcases h with ⟨p, hp, hname⟩
    refine ⟨(p, i), List.mem_filter.2 ⟨List.mk_mem_zipIdx_iff_getElem?.2 hp, ?_⟩, rfl⟩
    exact beq_iff_eq.2 hname

theorem plainValue_congr {name : String}
    (h : name ≠ versionKey → ∀ i ∈ r.positions name, v i = w i) :
    r.plainValue v name = r.plainValue w name := by
  unfold plainValue
  by_cases hversion : name = versionKey
  · rw [if_pos hversion, if_pos hversion]
  · have hsame : (∀ i ∈ r.positions name, v i = false) ↔ ∀ i ∈ r.positions name, w i = false :=
      forall₂_congr fun i hi => by rw [h hversion i hi]
    simp only [hsame]

/-- Whether a property applies is a matter of the names that it mentions. -/
theorem applies_congr {p : Property}
    (h : ∀ name ∈ p.mentions, ∀ i ∈ r.positions name, v i = w i) :
    r.Applies v p ↔ r.Applies w p := by
  refine forall₂_congr ?_
  intro c hc
  have hvalue : ∀ e ∈ c.showWhen ++ c.hideWhen, r.plainValue v e.1 = r.plainValue w e.1 :=
    fun e he => plainValue_congr fun hne => h e.1 (Property.mem_mentions hc he hne)
  refine and_congr (forall₂_congr ?_) (forall₂_congr ?_)
  · intro e he
    rw [hvalue e (List.mem_append_left _ he)]
  · intro e he
    rw [hvalue e (List.mem_append_right _ he)]

/-- The property at the first position is one that the property at the second one depends on. -/
def Below (r : Resolver) (j i : Fin r.properties.length) : Prop :=
  Relation.TransGen r.DependsOn r.properties[i].name r.properties[j].name

theorem below_of_mentions {i : Fin r.properties.length} {name : String}
    (hname : name ∈ r.properties[i].mentions) {k : Nat} (hk : k ∈ r.positions name) :
    ∃ j : Fin r.properties.length, (j : Nat) = k ∧ r.Below j i := by
  rcases mem_positions_iff.1 hk with ⟨q, hq, rfl⟩
  rcases List.getElem?_eq_some_iff.1 hq with ⟨hlt, rfl⟩
  exact ⟨⟨k, hlt⟩, rfl, .single ⟨r.properties[i], List.getElem_mem i.2, rfl, hname⟩⟩

/-- How many properties a property depends on. -/
noncomputable def height (r : Resolver) (i : Fin r.properties.length) : Nat :=
  {j | r.Below j i}.ncard

theorem Acyclic.height_lt (h : r.Acyclic) {i j : Fin r.properties.length} (hbelow : r.Below j i) :
    r.height j < r.height i := by
  refine Set.ncard_lt_ncard ⟨fun k hk => hbelow.trans hk, ?_⟩ (Set.toFinite _)
  intro hsub
  exact h _ (hsub hbelow)

theorem Acyclic.height_lt_length (h : r.Acyclic) (i : Fin r.properties.length) :
    r.height i < r.properties.length := by
  have hne : {j | r.Below j i} ≠ Set.univ := fun heq => h _ (heq ▸ Set.mem_univ i)
  simpa [height] using Set.ncard_lt_card hne

theorem plainTo_succ (depth : Nat) {i : Nat} {p : Property} (hp : r.properties[i]? = some p) :
    r.plainTo (depth + 1) i = true ↔ r.Applies (r.plainTo depth) p := by
  simp [plainTo, hp]

/-- What is told of a property from more conditions than it has below it stays the same. -/
theorem Acyclic.plainTo_eq (h : r.Acyclic) {m n : Nat} {i : Fin r.properties.length}
    (hm : r.height i < m) (hn : r.height i < n) : r.plainTo m i = r.plainTo n i := by
  induction m generalizing n i with
  | zero => omega
  | succ m ih =>
    rcases Nat.exists_eq_succ_of_ne_zero (Nat.ne_zero_of_lt hn) with ⟨n, rfl⟩
    have hp : r.properties[(i : Nat)]? = some r.properties[i] := List.getElem?_eq_getElem i.2
    rw [Bool.eq_iff_iff, plainTo_succ m hp, plainTo_succ n hp]
    refine applies_congr ?_
    intro name hname k hk
    rcases below_of_mentions hname hk with ⟨j, rfl, hbelow⟩
    have hlt := h.height_lt hbelow
    exact ih (by omega) (by omega)

/-- Where names do not depend on themselves, what is told of the properties is what comes out for
them. -/
theorem Acyclic.isPlain (h : r.Acyclic) : r.IsPlain r.plain := by
  intro i p hp
  rcases List.getElem?_eq_some_iff.1 hp with ⟨hi, rfl⟩
  have hheight := h.height_lt_length ⟨i, hi⟩
  have hmore : r.plain i = r.plainTo (r.properties.length + 1) i :=
    h.plainTo_eq hheight (Nat.lt_succ_of_lt hheight)
  rw [hmore, plainTo_succ _ hp]
  rfl

/-- Nothing else can come out for the properties. -/
theorem IsPlain.unique (h : r.Acyclic) (hv : r.IsPlain v) (hw : r.IsPlain w) {i : Nat}
    (hi : i < r.properties.length) : v i = w i := by
  have hall : ∀ bound (i : Fin r.properties.length), r.height i < bound → v i = w i := by
    intro bound
    induction bound with
    | zero =>
      intro i hlt
      omega
    | succ bound ih =>
      intro i hlt
      have hp : r.properties[(i : Nat)]? = some r.properties[i] := List.getElem?_eq_getElem i.2
      rw [Bool.eq_iff_iff, hv i _ hp, hw i _ hp]
      refine applies_congr ?_
      intro name hname k hk
      rcases below_of_mentions hname hk with ⟨j, rfl, hbelow⟩
      have hbelow' := h.height_lt hbelow
      exact ih j (by omega)
  exact hall _ ⟨i, hi⟩ (h.height_lt_length ⟨i, hi⟩)

/-- Names do not depend on themselves if they can be numbered so that every property mentions names
of lower numbers only. -/
theorem acyclic_of_rank (rank : String → Nat)
    (h : ∀ p ∈ r.properties, ∀ name ∈ p.mentions, rank name < rank p.name) : r.Acyclic := by
  have hlower : ∀ {name other}, Relation.TransGen r.DependsOn name other →
      rank other < rank name := by
    intro name other hdepends
    induction hdepends with
    | single hstep =>
      rcases hstep with ⟨p, hp, rfl, hname⟩
      exact h p hp _ hname
    | tail _ hstep ih =>
      rcases hstep with ⟨p, hp, rfl, hname⟩
      exact (h p hp _ hname).trans ih
  intro name hname
  exact Nat.lt_irrefl _ (hlower hname)

end Definition

/-! ## Results of scripts -/

/-- The result of a script, given the answers. -/
def Script.value {α : Type} (v : Nat → Bool) : Script α → Except EvalError α
  | .done a => .ok a
  | .fail e => .error e
  | .ask i next => (next (v i)).value v

section Values

variable {α β : Type} {r : Resolver} {v : Nat → Bool}

theorem Script.value_bind (s : Script α) (f : α → Script β) :
    (s.bind f).value v = (s.value v).bind fun a => (f a).value v := by
  induction s with
  | done a => rfl
  | fail e => rfl
  | ask i next ih => exact ih (v i)

theorem Script.mem_reads_bind {s : Script α} {f : α → Script β} {k : Nat}
    (h : k ∈ (s.bind f).reads v) : k ∈ s.reads v ∨ ∃ a, k ∈ (f a).reads v := by
  induction s with
  | done a => exact Or.inr ⟨a, h⟩
  | fail e => exact absurd h List.not_mem_nil
  | ask i next ih =>
    rcases List.mem_cons.1 h with rfl | h
    · exact Or.inl List.mem_cons_self
    · exact (ih (v i) h).imp_left (List.mem_cons_of_mem i)

theorem value_allowsScript (value : Option Value) (allowed : Value) :
    (allowsScript value allowed).value v = Allowed.allows value allowed := by
  unfold allowsScript
  cases Allowed.allows value allowed <;> rfl

theorem value_anyVisibleScript (is : List Nat) :
    (anyVisibleScript is).value v = .ok (is.any v) := by
  induction is with
  | nil => rfl
  | cons i rest ih =>
    simp only [anyVisibleScript, Script.value, List.any_cons]
    cases v i with
    | true => rfl
    | false => exact ih

theorem reads_anyVisibleScript {is : List Nat} {k : Nat} (h : k ∈ (anyVisibleScript is).reads v) :
    k ∈ is := by
  induction is with
  | nil => exact absurd h List.not_mem_nil
  | cons i rest ih =>
    rcases List.mem_cons.1 h with rfl | h
    · exact List.mem_cons_self
    · cases hv : v i with
      | true =>
        rw [hv] at h
        exact absurd h List.not_mem_nil
      | false =>
        rw [hv] at h
        exact List.mem_cons_of_mem i (ih h)

theorem value_siblingScript (name : String) :
    (r.siblingScript name).value v = .ok (r.plainValue v name) := by
  unfold siblingScript plainValue
  by_cases hversion : name = versionKey
  · rw [if_pos hversion, if_pos hversion]
    rfl
  · rw [if_neg hversion, if_neg hversion]
    -- A value that is present counts unless the name has properties and none of them applies.
    cases r.positions name with
    | nil =>
      cases r.config.get? name with
      | none => rfl
      | some value => cases value <;> rfl
    | cons i more =>
      have hany : (∀ j ∈ i :: more, v j = false) ↔ ¬ (i :: more).any v = true := by simp
      cases r.config.get? name with
      | none => rfl
      | some value =>
        cases value with
        | null => rfl
        | _ =>
          simp only [Script.value_bind, value_anyVisibleScript, Except.bind, Script.value, hany]
          cases (i :: more).any v <;> rfl

theorem reads_siblingScript {name : String} {k : Nat} (h : k ∈ (r.siblingScript name).reads v) :
    name ≠ versionKey ∧ k ∈ r.positions name := by
  unfold siblingScript at h
  split at h
  · exact absurd h List.not_mem_nil
  · rename_i hversion
    refine ⟨hversion, ?_⟩
    split at h
    · exact absurd h List.not_mem_nil
    · exact absurd h List.not_mem_nil
    · split at h
      · exact absurd h List.not_mem_nil
      · rename_i i more hpositions
        rw [hpositions]
        rcases Script.mem_reads_bind h with h | ⟨_, h⟩
        · exact reads_anyVisibleScript h
        · exact absurd h List.not_mem_nil

/-- The questions of allow-lists all of which are to have one verdict. -/
def uniformScript (r : Resolver) (expected : Bool) : Entries Value → Script Bool
  | [] => .done true
  | (key, allowed) :: rest =>
    (r.siblingScript key).bind fun value =>
      (allowsScript value allowed).bind fun matched =>
        if matched = expected then r.uniformScript expected rest else .done false

theorem allMatchScript_eq (es : Entries Value) :
    allMatchScript r.siblingScript es = r.uniformScript true es := by
  induction es with
  | nil => rfl
  | cons e rest ih =>
    simp only [allMatchScript, uniformScript, ih]

theorem noneMatchesScript_eq (es : Entries Value) :
    noneMatchesScript r.siblingScript es = r.uniformScript false es := by
  induction es with
  | nil => rfl
  | cons e rest ih =>
    simp only [noneMatchesScript, uniformScript, ih]
    congr 1
    funext value
    congr 1
    funext matched
    cases matched <;> rfl

theorem value_uniformScript_cons (expected : Bool) (key : String) (allowed : Value)
    (rest : Entries Value) :
    (r.uniformScript expected ((key, allowed) :: rest)).value v =
      match Allowed.allows (r.plainValue v key) allowed with
      | .error e => .error e
      | .ok matched =>
        if matched = expected then (r.uniformScript expected rest).value v else .ok false := by
  simp only [uniformScript, Script.value_bind, value_siblingScript, value_allowsScript, Except.bind]
  cases Allowed.allows (r.plainValue v key) allowed with
  | error e => rfl
  | ok matched =>
    by_cases h : matched = expected
    · simp only [if_pos h]
    · simp only [if_neg h]
      rfl

theorem value_uniformScript {expected : Bool} {es : Entries Value} {b : Bool}
    (h : (r.uniformScript expected es).value v = .ok b) :
    b = true ↔ ∀ e ∈ es, Allowed.allows (r.plainValue v e.1) e.2 = .ok expected := by
  induction es with
  | nil =>
    cases h
    simp
  | cons e rest ih =>
    rw [value_uniformScript_cons] at h
    rw [List.forall_mem_cons]
    cases hmatched : Allowed.allows (r.plainValue v e.1) e.2 with
    | error e' => simp [hmatched] at h
    | ok matched =>
      simp only [hmatched] at h
      by_cases heq : matched = expected
      · rw [if_pos heq] at h
        rw [ih h, heq]
        simp
      · rw [if_neg heq] at h
        cases h
        simp [heq]

theorem exists_value_uniformScript (expected : Bool) {es : Entries Value}
    (h : ∀ e ∈ es, ∃ b, Allowed.allows (r.plainValue v e.1) e.2 = .ok b) :
    ∃ b, (r.uniformScript expected es).value v = .ok b := by
  induction es with
  | nil => exact ⟨true, rfl⟩
  | cons e rest ih =>
    rcases List.forall_mem_cons.1 h with ⟨⟨matched, hmatched⟩, hrest⟩
    rw [value_uniformScript_cons, hmatched]
    dsimp only
    split
    · exact ih hrest
    · exact ⟨false, rfl⟩

theorem reads_uniformScript {expected : Bool} {es : Entries Value} {k : Nat}
    (h : k ∈ (r.uniformScript expected es).reads v) :
    ∃ e ∈ es, e.1 ≠ versionKey ∧ k ∈ r.positions e.1 := by
  induction es with
  | nil => exact absurd h List.not_mem_nil
  | cons e rest ih =>
    rcases Script.mem_reads_bind h with h | ⟨value, h⟩
    · exact ⟨e, List.mem_cons_self, reads_siblingScript h⟩
    · rcases Script.mem_reads_bind h with h | ⟨matched, h⟩
      · unfold allowsScript at h
        split at h <;> exact absurd h List.not_mem_nil
      · split at h
        · rcases ih h with ⟨e', he', hread⟩
          exact ⟨e', List.mem_cons_of_mem e he', hread⟩
        · exact absurd h List.not_mem_nil

theorem value_conditionScript {p : Property} {b : Bool}
    (h : (r.conditionScript p.condition).value v = .ok b) : b = true ↔ r.Applies v p := by
  unfold Applies
  cases hc : p.condition with
  | none =>
    rw [hc] at h
    cases h
    simp
  | some c =>
    have honly : (∀ c' ∈ some c, r.Met v c') ↔ r.Met v c := by simp
    rw [honly]
    simp only [hc, conditionScript, allMatchScript_eq, noneMatchesScript_eq,
      Script.value_bind] at h
    cases hshown : (r.uniformScript true c.showWhen).value v with
    | error e => simp [hshown, Except.bind] at h
    | ok shown =>
      simp only [hshown, Except.bind] at h
      unfold Met
      rw [← value_uniformScript hshown]
      cases shown with
      | true =>
        rw [value_uniformScript h]
        simp
      | false =>
        cases h
        simp

theorem exists_value_conditionScript (h : r.Comparable v) {p : Property}
    (hp : p ∈ r.properties) : ∃ b, (r.conditionScript p.condition).value v = .ok b := by
  cases hc : p.condition with
  | none => exact ⟨true, rfl⟩
  | some c =>
    have hlists := h p hp c hc
    rcases exists_value_uniformScript true fun e he => hlists e (List.mem_append_left _ he) with
      ⟨shown, hshown⟩
    simp only [conditionScript, allMatchScript_eq, noneMatchesScript_eq, Script.value_bind,
      hshown, Except.bind]
    cases shown with
    | true =>
      exact exists_value_uniformScript false fun e he => hlists e (List.mem_append_right _ he)
    | false => exact ⟨false, rfl⟩

/-- A condition asks for properties of the names that it mentions. -/
theorem reads_conditionScript {p : Property} {k : Nat}
    (h : k ∈ (r.conditionScript p.condition).reads v) :
    ∃ q, r.properties[k]? = some q ∧ q.name ∈ p.mentions := by
  have hmentioned : ∀ c ∈ p.condition, ∀ e ∈ c.showWhen ++ c.hideWhen,
      e.1 ≠ versionKey → k ∈ r.positions e.1 →
        ∃ q, r.properties[k]? = some q ∧ q.name ∈ p.mentions := by
    intro c hc e he hne hk
    rcases mem_positions_iff.1 hk with ⟨q, hq, hname⟩
    exact ⟨q, hq, hname ▸ Property.mem_mentions hc he hne⟩
  cases hc : p.condition with
  | none =>
    rw [hc] at h
    exact absurd h List.not_mem_nil
  | some c =>
    simp only [hc, conditionScript, allMatchScript_eq, noneMatchesScript_eq] at h
    rcases Script.mem_reads_bind h with h | ⟨shown, h⟩
    · rcases reads_uniformScript h with ⟨e, he, hne, hk⟩
      exact hmentioned c hc e (List.mem_append_left _ he) hne hk
    · cases shown with
      | true =>
        rcases reads_uniformScript h with ⟨e, he, hne, hk⟩
        exact hmentioned c hc e (List.mem_append_right _ he) hne hk
      | false => exact absurd h List.not_mem_nil

end Values

/-! ## Memories that hold the given answers only -/

/-- Nothing is marked, and what is remembered are given answers. -/
structure Memory.Faithful (v : Nat → Bool) (m : Memory) : Prop where
  cyclic : m.cyclic = []
  answers : ∀ i a, m.answers.lookup i = some a → a = v i

/-- The memory is faithful, and the result is the given one; or there is no result, and something is
the case on account of which there need not be one. -/
def Told {α : Type} (v : Nat → Bool) (excuse : Prop) (result : Except EvalError α)
    (o : Except EvalError α × Memory) : Prop :=
  o.2.Faithful v ∧ (o.1 = result ∨ excuse ∧ ∃ e, o.1 = .error e)

/-- The query has the given result from every faithful memory, and leaves a faithful one. -/
def Tells {α : Type} (v : Nat → Bool) (excuse : Prop) (q : Query α) (result : Except EvalError α) :
    Prop :=
  ∀ m : Memory, m.Faithful v → Told v excuse result (outcome q m)

/-- The properties at the positions where the answer is positive. -/
def those (r : Resolver) (v : Nat → Bool) : List Property :=
  (r.properties.zipIdx.filter fun p => v p.2).map Prod.fst

section Queries

variable {α β : Type} {r : Resolver} {v : Nat → Bool} {excuse : Prop} {m : Memory}

theorem faithful_empty (v : Nat → Bool) : ({} : Memory).Faithful v :=
  ⟨rfl, by simp⟩

theorem Memory.Faithful.settle (h : m.Faithful v) (i : Nat) :
    m.verdict i (v i) = v i ∧ (m.settle i (v i)).Faithful v := by
  have hverdict : m.verdict i (v i) = v i := by simp [verdict, h.cyclic]
  refine ⟨hverdict, h.cyclic, ?_⟩
  intro j a hj
  by_cases heq : j = i
  · rw [heq, lookup_settle_self, hverdict] at hj
    rw [heq]
    exact (Option.some.inj hj).symm
  · rw [lookup_settle_of_ne heq] at hj
    exact h.answers j a hj

theorem tells_pure (a : α) : Tells v excuse (pure a) (.ok a) :=
  fun _ hm => ⟨hm, Or.inl rfl⟩

theorem Tells.bind {q : Query α} {f : α → Query β} {a : α} {result : Except EvalError β}
    (hq : Tells v excuse q (.ok a)) (hf : Tells v excuse (f a) result) :
    Tells v excuse (q >>= f) result := by
  intro m hm
  have htold := hq m hm
  rw [outcome_bind]
  generalize outcome q m = o at htold
  rcases o with ⟨x, m'⟩
  rcases htold with ⟨hfaithful, rfl | ⟨hexcuse, e, rfl⟩⟩
  · exact hf m' hfaithful
  · exact ⟨hfaithful, Or.inr ⟨hexcuse, e, rfl⟩⟩

/-- A script has the result that it has with the given answers if all that it asks for gets them. -/
theorem tells_run {visible : Nat → Query Bool} {s : Script α}
    (h : ∀ k ∈ s.reads v, Tells v excuse (visible k) (.ok (v k))) :
    Tells v excuse (s.run visible) (s.value v) := by
  induction s with
  | done a => exact tells_pure a
  | fail e => exact fun m hm => ⟨hm, Or.inl rfl⟩
  | ask i next ih =>
    refine (h i List.mem_cons_self).bind (ih (v i) ?_)
    intro k hk
    exact h k (List.mem_cons_of_mem i hk)

/-- The answer of a condition is remembered as it is, since no mark is set. -/
theorem Told.settle {value : Except EvalError Bool} {i : Nat}
    (hvalue : ∀ b, value = .ok b → b = v i) (hnone : ∀ e, value = .error e → excuse) :
    ∀ o, Told v excuse value o → Told v excuse (.ok (v i))
      (match o with
        | (.ok answer, m) => (.ok (m.verdict i answer), m.settle i answer)
        | (.error e, m) => (.error e, m)) := by
  intro h hboth
  rcases h with ⟨x, m⟩
  rcases hboth with ⟨hfaithful, heq | ⟨hexcuse, e, heq⟩⟩
  · cases x with
    | ok b =>
      cases hvalue b heq.symm
      rcases hfaithful.settle i with ⟨hverdict, hsettled⟩
      exact ⟨hsettled, Or.inl (congrArg Except.ok hverdict)⟩
    | error e => exact ⟨hfaithful, Or.inr ⟨hnone e heq.symm, e, rfl⟩⟩
  · cases heq
    exact ⟨hfaithful, Or.inr ⟨hexcuse, e, rfl⟩⟩

/-- A property that is asked for under a stack of properties that depend on it gets the answer of
the plain definition. -/
theorem tells_visible (h : r.Acyclic) (hv : r.IsPlain v) {fuel i : Nat} {stack : List Nat}
    {p : Property} (hroom : r.Room fuel stack) (hp : r.properties[i]? = some p)
    (hstack : ∀ j ∈ stack, ∀ q, r.properties[j]? = some q →
      Relation.TransGen r.DependsOn q.name p.name) :
    Tells v (¬ r.Comparable v) (r.visible fuel stack i) (.ok (v i)) := by
  -- The induction is on the fuel. The stack consists of properties that depend on the one in
  -- question, so that an acyclic set leads to none of them again.
  induction fuel generalizing stack i p with
  | zero =>
    rcases hroom.exists_fuel with ⟨rest, hrest⟩
    omega
  | succ fuel ih =>
    have hnew : i ∉ stack := fun hmem => h _ (hstack i hmem p hp)
    have hmem : p ∈ r.properties := List.mem_of_getElem? hp
    have hcondition : Tells v (¬ r.Comparable v)
        ((r.conditionScript p.condition).run (r.visible fuel (i :: stack)))
        ((r.conditionScript p.condition).value v) := by
      refine tells_run ?_
      intro k hk
      rcases reads_conditionScript hk with ⟨q, hq, hname⟩
      have hstep : r.DependsOn p.name q.name := ⟨p, hmem, rfl, hname⟩
      refine ih (hroom.push hnew (List.getElem?_eq_some_iff.1 hp).1) hq ?_
      intro j hj q' hq'
      rcases List.mem_cons.1 hj with rfl | hj
      · cases hp.symm.trans hq'
        exact .single hstep
      · exact (hstack j hj q' hq').tail hstep
    intro m hm
    rw [outcome_visible]
    cases hlookup : m.answers.lookup i with
    | some a =>
      rw [hm.answers i a hlookup]
      exact ⟨hm, Or.inl rfl⟩
    | none =>
      have hcontains : stack.contains i = false := by simpa using hnew
      simp only [hcontains, Bool.false_eq_true, if_false, hp]
      refine Told.settle ?_ ?_ _ (hcondition m hm)
      · intro b hb
        rw [Bool.eq_iff_iff, hv i p hp]
        exact value_conditionScript hb
      · intro e he hcomparable
        rcases exists_value_conditionScript hcomparable hmem with ⟨b, hb⟩
        exact absurd (he.symm.trans hb) (by simp)

theorem tells_isVisible (h : r.Acyclic) (hv : r.IsPlain v) {i : Nat}
    (hi : i < r.properties.length) : Tells v (¬ r.Comparable v) (r.isVisible i) (.ok (v i)) :=
  tells_visible h hv (room_nil r) (List.getElem?_eq_getElem hi) (by simp)

theorem tells_isNameVisible (h : r.Acyclic) (hv : r.IsPlain v) (name : String) :
    Tells v (¬ r.Comparable v) (r.isNameVisible name)
      (.ok ((r.positions name).isEmpty || (r.positions name).any v)) := by
  unfold isNameVisible
  cases hpositions : r.positions name with
  | nil => exact tells_pure true
  | cons i more =>
    change Tells v _ (anyVisible r.isVisible (i :: more)) (.ok ((i :: more).any v))
    rw [← run_anyVisibleScript, ← value_anyVisibleScript]
    refine tells_run fun k hk => tells_isVisible h hv ?_
    exact lt_of_mem_positions (hpositions ▸ reads_anyVisibleScript hk)

theorem tells_visibleAmong (h : r.Acyclic) (hv : r.IsPlain v) {is : List Nat}
    (his : ∀ i ∈ is, i < r.properties.length) :
    Tells v (¬ r.Comparable v) (r.visibleAmong is) (.ok (is.filter v)) := by
  induction is with
  | nil => exact tells_pure []
  | cons i rest ih =>
    rcases List.forall_mem_cons.1 his with ⟨hi, hrest⟩
    refine (tells_isVisible h hv hi).bind ((ih hrest).bind ?_)
    rw [List.filter_cons]
    exact tells_pure _

theorem tells_visiblePositions (h : r.Acyclic) (hv : r.IsPlain v) :
    Tells v (¬ r.Comparable v) r.visiblePositions
      (.ok ((List.range r.properties.length).filter v)) :=
  tells_visibleAmong h hv fun _ hi => List.mem_range.1 hi

theorem filterMap_getElem?_range (ps : List Property) :
    ((List.range ps.length).filter v).filterMap (fun i => ps[i]?) =
      (ps.zipIdx.filter fun p => v p.2).map Prod.fst := by
  induction ps using List.reverseRecOn with
  | nil => rfl
  | append_singleton ps p ih =>
    have hfront : ((List.range ps.length).filter v).filterMap (fun i => (ps ++ [p])[i]?) =
        ((List.range ps.length).filter v).filterMap (fun i => ps[i]?) := by
      refine List.filterMap_congr ?_
      intro i hi
      have hlt := List.mem_range.1 (List.mem_filter.1 hi).1
      rw [List.getElem?_append_left hlt]
    rw [List.length_append, List.length_singleton, List.range_succ, List.zipIdx_append,
      List.filter_append, List.filter_append, List.filterMap_append, List.map_append, hfront, ih]
    cases hv : v ps.length <;> simp [hv]

theorem tells_visibleProperties (h : r.Acyclic) (hv : r.IsPlain v) :
    Tells v (¬ r.Comparable v) r.visibleProperties (.ok (r.those v)) := by
  refine (tells_visiblePositions h hv).bind ?_
  rw [filterMap_getElem?_range]
  exact tells_pure _

theorem tells_hiddenProperties (h : r.Acyclic) (hv : r.IsPlain v) :
    Tells v (¬ r.Comparable v) r.hiddenProperties (.ok (r.those fun i => !v i)) := by
  refine (tells_visiblePositions h hv).bind ?_
  have hthose : r.those (fun i => !v i) = r.properties.zipIdx.filterMap fun e =>
      if ((List.range r.properties.length).filter v).contains e.2 then none else some e.1 := by
    unfold those
    rw [← List.filterMap_eq_map, List.filterMap_filter]
    refine List.filterMap_congr ?_
    intro e he
    have hlt : e.2 < r.properties.length :=
      (List.getElem?_eq_some_iff.1 (List.mk_mem_zipIdx_iff_getElem?.1 he)).1
    cases hv : v e.2 <;> simp [hv, hlt]
  rw [hthose]
  exact tells_pure _

end Queries

/-! ## Courses of questions -/

/-- A memory that questions to the resolver can leave, with or without an answer. -/
inductive Reached (r : Resolver) : Memory → Prop
  | fresh : Reached r {}
  | asked {m : Memory} (q : Question) (h : Reached r m) : Reached r (outcome (r.ask q) m).2
  | visible {m : Memory} (h : Reached r m) : Reached r (outcome r.visibleProperties m).2
  | hidden {m : Memory} (h : Reached r m) : Reached r (outcome r.hiddenProperties m).2

theorem Reached.faithful {r : Resolver} {v : Nat → Bool} {m : Memory} (hm : r.Reached m)
    (h : r.Acyclic) (hv : r.IsPlain v) : m.Faithful v := by
  induction hm with
  | fresh => exact faithful_empty v
  | @asked m q _ ih =>
    cases q with
    | entry i =>
      by_cases hi : i < r.properties.length
      · exact (tells_isVisible h hv hi m ih).1
      · simpa only [Resolver.ask, outcome_isVisible_of_le (Nat.le_of_not_lt hi)] using ih
    | name name => exact (tells_isNameVisible h hv name m ih).1
  | visible _ ih => exact (tells_visibleProperties h hv _ ih).1
  | hidden _ ih => exact (tells_hiddenProperties h hv _ ih).1

/-- Where no name depends on itself, the plain definition gives the one answer for each property
that comes out from the others. Whatever has been asked before, no entry is marked, and the resolver
has no other answer; and it has an answer if all allow-lists have a verdict on the values they are
asked about. Then the visible and the hidden properties are those with a positive and a negative
answer. -/
theorem plain_of_acyclic {r : Resolver} (h : r.Acyclic) :
    r.IsPlain r.plain ∧
      (∀ w, r.IsPlain w → ∀ i < r.properties.length, w i = r.plain i) ∧
      ∀ m, r.Reached m → m.cyclic = [] ∧
        (∀ i < r.properties.length, ∀ b,
          (outcome (r.isVisible i) m).1 = .ok b → b = r.plain i) ∧
        (r.Comparable r.plain →
          (∀ i < r.properties.length, (outcome (r.isVisible i) m).1 = .ok (r.plain i)) ∧
          (outcome r.visibleProperties m).1 = .ok (r.those r.plain) ∧
          (outcome r.hiddenProperties m).1 = .ok (r.those fun i => !r.plain i)) := by
  have hplain := h.isPlain
  refine ⟨hplain, fun w hw i hi => hw.unique h hplain hi, ?_⟩
  intro m hm
  have hfaithful := hm.faithful h hplain
  refine ⟨hfaithful.cyclic, ?_, ?_⟩
  · intro i hi b hb
    rcases (tells_isVisible h hplain hi m hfaithful).2 with hresult | ⟨-, e, hnone⟩
    · exact Except.ok.inj (hb.symm.trans hresult)
    · exact absurd (hb.symm.trans hnone) (by simp)
  · intro hcomparable
    have hresult : ∀ {α : Type} {q : Query α} {result : Except EvalError α},
        Tells r.plain (¬ r.Comparable r.plain) q result → (outcome q m).1 = result :=
      fun htells => (htells m hfaithful).2.resolve_right fun hnone => hnone.1 hcomparable
    exact ⟨fun i hi => hresult (tells_isVisible h hplain hi),
      hresult (tells_visibleProperties h hplain), hresult (tells_hiddenProperties h hplain)⟩

/-- Lists of plain values have a verdict on every value. -/
theorem comparable_of_isPlain {r : Resolver} (h : ∀ p ∈ r.properties, p.isPlain = true)
    (v : Nat → Bool) : r.Comparable v := by
  intro p hp c hc e he
  have hplain := h p hp
  simp only [Property.isPlain, Option.mem_def.1 hc, Option.all_some] at hplain
  exact Allowed.exists_allows _ (List.all_eq_true.1 hplain e he)

/-- Conditions on three levels, with two properties of one name. -/
def layered : Resolver where
  properties := [
    { name := "sendBody", type := "boolean" },
    { name := "contentType", type := "options",
      condition := some { showWhen := [("sendBody", .bool true)] } },
    { name := "body", type := "json",
      condition := some
        { showWhen := [("contentType", .str "json")], hideWhen := [("@version", .int 1)] } },
    { name := "body", type := "string",
      condition := some { showWhen := [("contentType", .str "raw")] } },
    { name := "escape", type := "boolean",
      condition := some { hideWhen := [("body", .str "none")] } }]
  config := [("sendBody", .bool true), ("contentType", .str "raw"), ("body", .str "none")]
  typeVersion := some (.int 2)

theorem layered_plain :
    layered.Acyclic ∧ layered.Comparable layered.plain ∧
      ∀ m, layered.Reached m → m.cyclic = [] ∧
        ∀ i < 5, (outcome (layered.isVisible i) m).1 = .ok (i = 0 ∨ i = 1 ∨ i = 3) := by
  have hacyclic : layered.Acyclic := acyclic_of_rank
    (fun name => ["sendBody", "contentType", "body", "escape"].idxOf name) (by decide +kernel)
  have hcomparable := comparable_of_isPlain (r := layered) (by decide +kernel) layered.plain
  refine ⟨hacyclic, hcomparable, ?_⟩
  intro m hm
  rcases (plain_of_acyclic hacyclic).2.2 m hm with ⟨hcyclic, -, hanswers⟩
  refine ⟨hcyclic, ?_⟩
  intro i hi
  have hplain : ∀ i < 5, layered.plain i = decide (i = 0 ∨ i = 1 ∨ i = 3) := by decide +kernel
  rw [(hanswers hcomparable).1 i hi, hplain i hi]

end Resolver
end Workflows
