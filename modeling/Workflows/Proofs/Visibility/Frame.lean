import Workflows.Proofs.Visibility.Acyclic

/-!
# Frame — parameters on which it does not depend which properties apply

Whether a property applies is a matter of the parameters that its condition mentions, of those that
the conditions of their properties mention, and so on. Take some names that are closed under this
step. Parameters that agree on them then have the same properties apply among those that mention no
other names.

Where a condition mentions a property that mentions some parameter, it often mentions the parameter as
well. Then one step is enough: a change of that parameter leaves alone all properties that do not
mention it themselves.

Two values of a parameter make no difference either if no allow-list tells them apart. Then the
resolver asks the same questions for both, one after the other, so that this holds of all lists,
whether or not conditions lead back to themselves.

Main definitions:

* `Resolver.plain_frame` — parameters that agree on a closed set of names;
* `Property.WrittenOut` — what depends on a parameter by way of others also mentions it;
* `Resolver.plain_eq_of_not_mentioned` — parameters that agree on all names but one;
* `Resolver.Alike`, `Resolver.visibleProperties_alike` — values that are not told apart.
-/

namespace Workflows

/-- Every property that mentions one which mentions the key mentions it itself. -/
def Property.WrittenOut (key : String) (ps : List Property) : Prop :=
  ∀ p ∈ ps, ∀ q ∈ ps, q.name ∈ p.mentions → key ∈ q.mentions → key ∈ p.mentions

instance (key : String) (ps : List Property) : Decidable (Property.WrittenOut key ps) :=
  inferInstanceAs (Decidable (∀ p ∈ ps, ∀ q ∈ ps, _ → _ → key ∈ p.mentions))

namespace Resolver

variable {r : Resolver}

/-! ## Other parameters -/

section Frame

variable {es : Entries Value}

theorem plainValue_frame {v w : Nat → Bool} {name : String}
    (hagree : name ≠ versionKey → es.get? name = r.config.get? name)
    (h : name ≠ versionKey → ∀ i ∈ r.positions name, v i = w i) :
    ({ r with config := es } : Resolver).plainValue v name = r.plainValue w name := by
  calc
    ({ r with config := es } : Resolver).plainValue v name
        = ({ r with config := es } : Resolver).plainValue w name := plainValue_congr h
    _ = r.plainValue w name := by
      unfold plainValue
      by_cases hversion : name = versionKey
      · rw [if_pos hversion, if_pos hversion]
      · rw [if_neg hversion, if_neg hversion, hagree hversion]
        rfl

/-- Whether a property applies is a matter of the parameters that it mentions, and of the properties
of their names. -/
theorem applies_frame {v w : Nat → Bool} {p : Property}
    (h : ∀ name ∈ p.mentions,
      es.get? name = r.config.get? name ∧ ∀ i ∈ r.positions name, v i = w i) :
    ({ r with config := es } : Resolver).Applies v p ↔ r.Applies w p := by
  refine forall₂_congr ?_
  intro c hc
  have hvalue : ∀ e ∈ c.showWhen ++ c.hideWhen,
      ({ r with config := es } : Resolver).plainValue v e.1 = r.plainValue w e.1 := by
    intro e he
    have hmentioned : e.1 ≠ versionKey → e.1 ∈ p.mentions := fun hne =>
      Property.mem_mentions hc he hne
    exact plainValue_frame (fun hne => (h _ (hmentioned hne)).1) fun hne => (h _ (hmentioned hne)).2
  refine and_congr (forall₂_congr ?_) (forall₂_congr ?_)
  · intro e he
    rw [hvalue e (List.mem_append_left _ he)]
  · intro e he
    rw [hvalue e (List.mem_append_right _ he)]

/-- Parameters that agree on names which depend on no others have the same properties apply among
those that mention such names only. -/
theorem plain_frame (region : String → Prop)
    (hclosed : ∀ p ∈ r.properties, region p.name → ∀ name ∈ p.mentions, region name)
    (hagree : ∀ name, region name → es.get? name = r.config.get? name) {i : Nat} {p : Property}
    (hp : r.properties[i]? = some p) (hregion : ∀ name ∈ p.mentions, region name) :
    ({ r with config := es } : Resolver).plain i = r.plain i := by
  -- By induction on the depth to which conditions are followed; no step leads out of the region.
  have hdepth : ∀ depth i p, r.properties[i]? = some p → (∀ name ∈ p.mentions, region name) →
      ({ r with config := es } : Resolver).plainTo depth i = r.plainTo depth i := by
    intro depth
    induction depth with
    | zero =>
      intro i p _ _
      rfl
    | succ depth ih =>
      intro i p hp hregion
      have hp' : ({ r with config := es } : Resolver).properties[i]? = some p := hp
      rw [Bool.eq_iff_iff, plainTo_succ depth hp, plainTo_succ depth hp']
      refine applies_frame fun name hname => ⟨hagree name (hregion name hname), ?_⟩
      intro k hk
      rcases mem_positions_iff.1 hk with ⟨q, hq, rfl⟩
      exact ih k q hq (hclosed q (List.mem_of_getElem? hq) (hregion q.name hname))
  exact hdepth _ i p hp hregion

/-- Where all that depends on a name mentions it, parameters that agree on all other names have the
same properties apply among those that do not mention it. -/
theorem plain_eq_of_not_mentioned {key : String} (hwritten : Property.WrittenOut key r.properties)
    (hagree : ∀ name, name ≠ key → es.get? name = r.config.get? name) {i : Nat} {p : Property}
    (hp : r.properties[i]? = some p) (hkey : key ∉ p.mentions) :
    ({ r with config := es } : Resolver).plain i = r.plain i := by
  let region (name : String) : Prop :=
    name ≠ key ∧ ∀ q ∈ r.properties, q.name = name → key ∉ q.mentions
  -- A property that does not mention the key mentions no other that does.
  have hstep : ∀ q ∈ r.properties, key ∉ q.mentions → ∀ name ∈ q.mentions, region name := by
    intro q hq hnot name hname
    refine ⟨fun heq => hnot (heq ▸ hname), fun q' hq' hname' hkey' => hnot ?_⟩
    exact hwritten q hq q' hq' (hname' ▸ hname) hkey'
  refine plain_frame region ?_ (fun name hname => hagree name hname.1) hp
    (hstep p (List.mem_of_getElem? hp) hkey)
  intro q hq hregion
  exact hstep q hq (hregion.2 q hq rfl)

end Frame

/-! ## Values that are not told apart -/

/-- No allow-list for the name tells the two values apart. -/
def Alike (r : Resolver) (name : String) (v w : Value) : Prop :=
  ∀ p ∈ r.properties, ∀ c ∈ p.condition, ∀ e ∈ c.showWhen ++ c.hideWhen, e.1 = name →
    Allowed.allows (some v) e.2 = Allowed.allows (some w) e.2

theorem Alike.refl (r : Resolver) (name : String) (v : Value) : r.Alike name v v :=
  fun _ _ _ _ _ _ _ => rfl

theorem Script.bind_assoc {α β γ : Type} (s : Script α) (f : α → Script β) (g : β → Script γ) :
    (s.bind f).bind g = s.bind fun a => (f a).bind g := by
  induction s with
  | done a => rfl
  | fail e => rfl
  | ask i next ih => exact congrArg (Script.ask i) (funext ih)

/-- The questions whether a name applies: those for its properties, if it has any. -/
def nameScript (r : Resolver) (name : String) : Script Bool :=
  match r.positions name with
  | [] => .done true
  | i :: more => anyVisibleScript (i :: more)

/-- A value that is not null counts if its name applies. -/
theorem siblingScript_of_get? {name : String} {v : Value} (hversion : name ≠ versionKey)
    (hget : r.config.get? name = some v) (hvalue : v ≠ .null) :
    r.siblingScript name =
      (r.nameScript name).bind fun b => .done (if b then some v else none) := by
  unfold siblingScript nameScript
  rw [if_neg hversion, hget]
  cases v with
  | null => exact absurd rfl hvalue
  | _ =>
    dsimp only
    cases r.positions name <;> rfl

section Alike

variable {es : Entries Value} {key : String} {v w : Value}
  (hagree : ∀ name, name ≠ key → es.get? name = r.config.get? name)
  (hv : r.config.get? key = some v) (hw : es.get? key = some w) (hvalue : v ≠ .null)
  (hvalue' : w ≠ .null)

include hagree hv hw hvalue hvalue'

/-- An allow-list is asked about either value by the same questions. -/
theorem siblingScript_bind_alike {β : Type} {name : String} {allowed : Value}
    (halike : name = key → Allowed.allows (some v) allowed = Allowed.allows (some w) allowed)
    (f : Bool → Script β) :
    (({ r with config := es } : Resolver).siblingScript name).bind
        (fun value => (allowsScript value allowed).bind f) =
      (r.siblingScript name).bind fun value => (allowsScript value allowed).bind f := by
  by_cases hversion : name = versionKey
  · unfold siblingScript
    rw [if_pos hversion, if_pos hversion]
  · by_cases hname : name = key
    · subst hname
      have hsame : ∀ b : Bool, allowsScript (if b then some w else none) allowed =
          allowsScript (if b then some v else none) allowed := by
        intro b
        cases b with
        | true => simp only [allowsScript, if_true, halike rfl]
        | false => rfl
      rw [siblingScript_of_get? (r := { r with config := es }) hversion hw hvalue',
        siblingScript_of_get? hversion hv hvalue, Script.bind_assoc, Script.bind_assoc]
      refine congrArg (r.nameScript name).bind (funext ?_)
      intro b
      exact congrArg (fun s => s.bind f) (hsame b)
    · unfold siblingScript
      dsimp only
      rw [hagree name hname]
      rfl

theorem uniformScript_alike {expected : Bool} {lists : Entries Value}
    (halike : ∀ e ∈ lists, e.1 = key →
      Allowed.allows (some v) e.2 = Allowed.allows (some w) e.2) :
    ({ r with config := es } : Resolver).uniformScript expected lists =
      r.uniformScript expected lists := by
  induction lists with
  | nil => rfl
  | cons e rest ih =>
    rcases List.forall_mem_cons.1 halike with ⟨hfirst, hrest⟩
    simp only [uniformScript]
    rw [siblingScript_bind_alike hagree hv hw hvalue hvalue' hfirst, ih hrest]

theorem conditionScript_alike (halike : r.Alike key v w) {p : Property} (hp : p ∈ r.properties) :
    ({ r with config := es } : Resolver).conditionScript p.condition =
      r.conditionScript p.condition := by
  cases hc : p.condition with
  | none => rfl
  | some c =>
    rcases List.forall_mem_append.1 (halike p hp c hc) with ⟨hshow, hhide⟩
    simp only [conditionScript, allMatchScript_eq, noneMatchesScript_eq]
    rw [uniformScript_alike hagree hv hw hvalue hvalue' hshow,
      uniformScript_alike hagree hv hw hvalue hvalue' hhide]

theorem visible_alike (halike : r.Alike key v w) (fuel : Nat) (stack : List Nat) (i : Nat) :
    ({ r with config := es } : Resolver).visible fuel stack i = r.visible fuel stack i := by
  -- A condition asks the same questions, and what is asked within it is answered with less fuel.
  induction fuel generalizing stack i with
  | zero => rfl
  | succ fuel ih =>
    have hinner : ({ r with config := es } : Resolver).visible fuel (i :: stack) =
        r.visible fuel (i :: stack) := funext fun j => ih (i :: stack) j
    have houtcome : ∀ m, outcome (({ r with config := es } : Resolver).visible (fuel + 1) stack i) m =
        outcome (r.visible (fuel + 1) stack i) m := by
      intro m
      rw [outcome_visible, outcome_visible, hinner]
      cases hp : r.properties[i]? with
      | none => rfl
      | some p =>
        dsimp only
        rw [conditionScript_alike hagree hv hw hvalue hvalue' halike (List.mem_of_getElem? hp)]
    exact funext houtcome

/-- If no allow-list tells the values of a parameter apart, the same properties apply with both. -/
theorem visibleProperties_alike (halike : r.Alike key v w) :
    ({ r with config := es } : Resolver).visibleProperties = r.visibleProperties := by
  have hamong : ∀ is, ({ r with config := es } : Resolver).visibleAmong is = r.visibleAmong is := by
    intro is
    induction is with
    | nil => rfl
    | cons i rest ih =>
      simp only [visibleAmong, isVisible, ih,
        visible_alike hagree hv hw hvalue hvalue' halike]
  simp only [visibleProperties, visiblePositions, hamong]

end Alike

/-! ## The properties that apply -/

theorem mem_those_iff {v : Nat → Bool} {p : Property} :
    p ∈ r.those v ↔ ∃ i, r.properties[i]? = some p ∧ v i = true := by
  unfold those
  rw [List.mem_map]
  constructor
  · intro h
    rcases h with ⟨⟨q, i⟩, hq, rfl⟩
    rcases List.mem_filter.1 hq with ⟨hzip, hv⟩
    exact ⟨i, List.mk_mem_zipIdx_iff_getElem?.1 hzip, hv⟩
  · intro h
    rcases h with ⟨i, hp, hv⟩
    exact ⟨(p, i), List.mem_filter.2 ⟨List.mk_mem_zipIdx_iff_getElem?.2 hp, hv⟩, rfl⟩

theorem those_sublist (r : Resolver) (v : Nat → Bool) : (r.those v).Sublist r.properties := by
  have hall : r.properties.zipIdx.map Prod.fst = r.properties := List.zipIdx_map_fst 0 r.properties
  have hsub : (r.those v).Sublist (r.properties.zipIdx.map Prod.fst) :=
    List.filter_sublist.map Prod.fst
  rwa [hall] at hsub

/-- With plain conditions that do not lead back to themselves, the properties that apply are those of
the plain definition. -/
theorem visibleProperties_of_acyclic (hacyclic : r.Acyclic)
    (hplain : ∀ p ∈ r.properties, p.isPlain = true) :
    (r.visibleProperties.run {}).1 = .ok (r.those r.plain) := by
  have htold := tells_visibleProperties hacyclic hacyclic.isPlain {} (faithful_empty r.plain)
  exact htold.2.resolve_right fun hnone => hnone.1 (comparable_of_isPlain hplain r.plain)

end Resolver

end Workflows
