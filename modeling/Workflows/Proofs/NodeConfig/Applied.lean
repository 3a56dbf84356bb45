import Workflows.Catalog.Bundled
import Workflows.Proofs.NodeConfig.Findings
import Workflows.Proofs.NodeConfig.Proposals
import Workflows.Proofs.Visibility.Frame

/-!
# Applied — what is reported when the proposals are set

A proposal is set in the parameters and the node is checked again. Nothing is proposed then, so one
round is enough. Most proposals do no harm either: the new value is of the declared type, no condition
mentions the parameter, and all that is found was found before.

To send a body is different by design. It makes the parameters of the body apply, and with that their
values are checked, so that a value that was of no effect before can now be reported. Nothing else is
new, unless a path consisted of slashes only.

Main definitions:

* `NodeConfig.Fits` — a value that goes with the properties of a type;
* `NodeConfig.of_mem_findings_setting` — where the findings come from when such a value is set;
* `NodeConfig.proposals_applied` — what is reported for the types of the bundled catalog.
-/

namespace Workflows

/-! ## Values that are false -/

/-- A list that allows the truth value of what holds, and nothing else. -/
def Value.onlyTrue : Value → Bool
  | .arr [.bool true] => true
  | _ => false

theorem Allowed.allows_onlyTrue {value : Option Value} {allowed : Value}
    (hallowed : allowed.onlyTrue = true) (h : value.any Value.isPresent = false) :
    allows value allowed = .ok false := by
  have hlist : allowed = .arr [.bool true] := by
    unfold Value.onlyTrue at hallowed
    split at hallowed
    · rfl
    · simp at hallowed
  subst hlist
  cases value with
  | none => rfl
  | some v =>
    cases v with
    | null => rfl
    | bool b =>
      have hb : b = false := h
      subst hb
      rfl
    | num n => rfl
    | str s => rfl
    | arr items =>
      have hitems : items = [] := by simpa [Value.isPresent] using h
      subst hitems
      rfl
    | obj fields => rfl
    | up levels => simp [Value.isPresent] at h

/-- What conditions see of a parameter that is missing or false is missing or false. -/
theorem Resolver.any_plainValue_eq_false {r : Resolver} {name : String} (v : Nat → Bool)
    (hversion : name ≠ versionKey) (h : (r.config.get? name).any Value.isPresent = false) :
    (r.plainValue v name).any Value.isPresent = false := by
  unfold plainValue
  rw [if_neg hversion]
  split
  · rfl
  · rfl
  · rename_i w hw
    rw [hw] at h
    split
    · rfl
    · exact h

namespace NodeConfig

variable {c : NodeConfig} {profile : Profile} {key : String} {value : Value}

def applying (c : NodeConfig) : List Property :=
  c.resolver.those c.resolver.plain

/-! ## Types without surprises -/

/-- All conditions are plain, none leads back to itself, and all names are different. -/
structure Orderly (c : NodeConfig) : Prop where
  acyclic : c.resolver.Acyclic
  plain : ∀ p ∈ c.properties, p.isPlain = true

theorem Orderly.check_eq (h : c.Orderly) :
    c.check profile = .ok (reportOf profile c c.applying) := by
  unfold check
  rw [Resolver.visibleProperties_of_acyclic h.acyclic h.plain]
  rfl

theorem Orderly.mem_applying (h : c.Orderly) {p : Property} (hp : p ∈ c.properties)
    (hcondition : p.condition = none) : p ∈ c.applying := by
  rcases List.getElem?_of_mem hp with ⟨i, hi⟩
  refine Resolver.mem_those_iff.2 ⟨i, hi, (h.acyclic.isPlain i p hi).2 ?_⟩
  simp [Resolver.Applies, hcondition]

/-- Whether conditions are orderly is no matter of the parameters. -/
theorem Orderly.setting (h : c.Orderly) (key : String) (value : Value) :
    (c.setting key value).Orderly :=
  ⟨h.acyclic, h.plain⟩

/-! ## Values that fit -/

/-- A value that can be set without harm to anything but what depends on it: it is of the declared
type and no blank, and its parameter is given or applies. What depends on it is optional and does not
apply so far. -/
structure Fits (c : NodeConfig) (key : String) (value : Value) : Prop where
  names : (c.properties.map Property.name).Nodup
  written : Property.WrittenOut key c.properties
  typed : ∀ p ∈ c.properties, p.name = key → valueIssues p value = []
  filled : value ≠ .null ∧ value ≠ .str ""
  known : c.parameters.has key = true ∨ ∃ p ∈ c.applying, p.name = key
  dependents : ∀ i p, c.properties[i]? = some p → key ∈ p.mentions →
    p.required = false ∧ c.resolver.plain i = false

namespace Fits

variable (h : c.Fits key value)

include h

theorem plain_setting {i : Nat} {p : Property} (hp : c.properties[i]? = some p)
    (hkey : key ∉ p.mentions) : (c.setting key value).resolver.plain i = c.resolver.plain i := by
  refine Resolver.plain_eq_of_not_mentioned (r := c.resolver) h.written (fun name hname => ?_) hp
    hkey
  exact get?_config_setting_of_ne hname

/-- What applies goes on to apply. -/
theorem mem_applying_setting {p : Property} (hp : p ∈ c.applying) :
    p ∈ (c.setting key value).applying := by
  rcases Resolver.mem_those_iff.1 hp with ⟨i, hi, hplain⟩
  have hkey : key ∉ p.mentions := by
    intro hkey
    rw [(h.dependents i p hi hkey).2] at hplain
    simp at hplain
  exact Resolver.mem_those_iff.2 ⟨i, hi, (h.plain_setting hi hkey).trans hplain⟩

/-- What applies and did not before depends on the parameter. -/
theorem mem_applying_or_mentions {p : Property} (hp : p ∈ (c.setting key value).applying) :
    p ∈ c.applying ∨ p ∈ c.properties ∧ key ∈ p.mentions ∧ p.required = false := by
  rcases Resolver.mem_those_iff.1 hp with ⟨i, hi, hplain⟩
  by_cases hkey : key ∈ p.mentions
  · exact .inr ⟨List.mem_of_getElem? hi, hkey, (h.dependents i p hi hkey).1⟩
  · exact .inl (Resolver.mem_those_iff.2 ⟨i, hi, (h.plain_setting hi hkey).symm.trans hplain⟩)

theorem names_applying : (c.applying.map Property.name).Nodup :=
  ((c.resolver.those_sublist _).map _).nodup h.names

/-- What depends on the parameter is reported as hidden before it is set. -/
theorem mem_hidden {p : Property} (hp : p ∈ c.properties) (hkey : key ∈ p.mentions) :
    p.name ∈ (reportOf profile c c.applying).hidden := by
  refine mem_hidden_reportOf_iff.2 ⟨⟨p, hp, rfl⟩, ?_⟩
  intro q hq hname
  rcases Resolver.mem_those_iff.1 hq with ⟨i, hi, hplain⟩
  -- Names are different, so it is the same property, and that does not apply.
  have hsame : q = p := List.inj_on_of_nodup_map h.names (List.mem_of_getElem? hi) hp hname
  rw [(h.dependents i q hi (hsame ▸ hkey)).2] at hplain
  simp at hplain

end Fits

/-! ## The findings when a value is set -/

/-- An error in the value of a parameter that is given, of a property that depends on the one that is
set. -/
def Awakened (c : NodeConfig) (key : String) (i : Issue) : Prop :=
  ∃ p ∈ c.properties, key ∈ p.mentions ∧ c.parameters.has p.name = true ∧ AboutValue p.name i

section Findings

variable {i : Issue}

theorem Fits.mem_requiredIssues (h : c.Fits key value)
    (hi : i ∈ requiredIssues (c.setting key value).parameters (c.setting key value).applying) :
    i ∈ requiredIssues c.parameters c.applying := by
  rcases mem_requiredIssues_iff.1 hi with ⟨p, hp, hrequired, hdefault, hunset, rfl⟩
  rcases h.mem_applying_or_mentions hp with hbefore | ⟨-, -, hoptional⟩
  · have hne : p.name ≠ key := by
      intro heq
      rw [isUnset, heq, get?_setting_self] at hunset
      cases value with
      | null => exact h.filled.1 rfl
      | str s =>
        have hs : s = "" := by simpa using hunset
        exact h.filled.2 (congrArg Value.str hs)
      | _ => simp at hunset
    rw [isUnset, get?_setting_of_ne hne] at hunset
    exact mem_requiredIssues_iff.2 ⟨p, hbefore, hrequired, hdefault, hunset, rfl⟩
  · simp [hoptional] at hrequired

theorem Fits.mem_typeIssues (h : c.Fits key value)
    (hi : i ∈ typeIssues (c.setting key value).parameters [] (c.setting key value).applying) :
    i ∈ typeIssues c.parameters [] c.applying ∨ c.Awakened key i := by
  rcases exists_of_mem_typeIssues hi with ⟨p, hp, v, hv, hwrong⟩
  have hproperty : p ∈ c.properties := (Resolver.those_sublist _ _).subset hp
  have hne : p.name ≠ key := by
    intro heq
    rw [heq, get?_setting_self] at hv
    rw [← Option.some.inj hv, h.typed p hproperty heq] at hwrong
    exact absurd hwrong List.not_mem_nil
  rw [get?_setting_of_ne hne] at hv
  rcases h.mem_applying_or_mentions hp with hbefore | ⟨-, hkey, -⟩
  · exact .inl (NodeConfig.mem_typeIssues h.names_applying hbefore List.not_mem_nil hv hwrong)
  · have hhas : c.parameters.has p.name = true := by
      rw [Entries.has, hv]
      rfl
    exact .inr ⟨p, hproperty, hkey, hhas, of_mem_valueIssues hwrong⟩

theorem Fits.mem_unusedIssues (h : c.Fits key value)
    (hi : i ∈ unusedIssues c.properties (c.setting key value).applying
      (c.setting key value).parameters) :
    i ∈ unusedIssues c.properties c.applying c.parameters := by
  rcases mem_unusedIssues_iff.1 hi with ⟨name, hname, hknown, hhidden, rfl⟩
  have hgiven : name ∈ c.parameters.keys := by
    rcases Entries.mem_keys_put hname with rfl | hname
    · rcases h.known with hhas | ⟨p, hp, hpname⟩
      · by_contra hmissing
        rw [Entries.has, Entries.get?_eq_none_iff.2 hmissing] at hhas
        simp at hhas
      · exact absurd hpname (hhidden p (h.mem_applying_setting hp))
    · exact hname
  have hhidden' : ∀ p ∈ c.applying, p.name ≠ name := by
    intro p hp
    exact hhidden p (h.mem_applying_setting hp)
  exact mem_unusedIssues_iff.2 ⟨name, hgiven, hknown, hhidden', rfl⟩

/-- When a value is set that fits, what counts as an error was found before, or is found by the rules,
or is an error in the value of a parameter that depends on the one that is set. -/
theorem Fits.of_mem_findings (h : c.Fits key value) (hprofile : profile.policy.runRules = true)
    (hcounts : profile.policy.Counts i)
    (hi : i ∈ (findings profile.policy (c.setting key value)
      (c.setting key value).applying).issues) :
    i ∈ (findings profile.policy c c.applying).issues ∨
      i ∈ (Rules.run c.type (c.parameters.put key value)).issues ∨ c.Awakened key i := by
  rw [mem_findings_iff hprofile]
  rcases (mem_findings_iff hprofile).1 hi with hi | hi | hi | hi | hi | hi
  · exact absurd hcounts (not_counts_of_malformed hi)
  · exact .inl (.inr (.inl (h.mem_requiredIssues hi)))
  · rcases h.mem_typeIssues hi with hi | hi
    · exact .inl (.inr (.inr (.inl hi)))
    · exact .inr (.inr hi)
  · exact .inr (.inl hi)
  · exact .inl (.inr (.inr (.inr (.inr (.inl (h.mem_unusedIssues hi))))))
  · exact absurd hcounts (not_counts_of_secret hi)

end Findings

/-! ## The types of the bundled catalog -/

section Bundled

open Catalog

def propertiesOf (t : NodeType) : List Property :=
  t.properties.filterMap fun v => (Property.decode v).value?

def proposedKeys : List String := ["path", "sendBody", "rules", "conditions"]

/-- All conditions are plain and only mention properties further up. What depends on a parameter for
which something is proposed mentions it. -/
theorem orderly_bundled : ∀ t ∈ Bundled.types,
    (∀ p ∈ propertiesOf t, p.isPlain = true ∧ ∀ name ∈ p.mentions,
      ((propertiesOf t).map Property.name).idxOf name <
        ((propertiesOf t).map Property.name).idxOf p.name) ∧
      ∀ key ∈ proposedKeys, Property.WrittenOut key (propertiesOf t) := by
  decide +kernel

/-- The path of a trigger is a text on which nothing depends. -/
theorem path_bundled : ∀ t ∈ Bundled.types,
    TypeName.short t.name = "webhook" ∨ TypeName.short t.name = "formTrigger" →
      ((propertiesOf t).map Property.name).Nodup ∧ ∀ p ∈ propertiesOf t,
        (p.name = "path" → p.type = "string") ∧ "path" ∉ p.mentions := by
  decide +kernel

/-- The parameter with a layout is an object on which nothing depends. -/
theorem layout_bundled : ∀ t ∈ Bundled.types,
    ∀ l ∈ Routing.Layout.ofType? (TypeName.short t.name),
      ((propertiesOf t).map Property.name).Nodup ∧ ∀ p ∈ propertiesOf t,
        (p.name = l.parameter → p.type = "fixedCollection" ∨ p.type = "filter") ∧
          l.parameter ∉ p.mentions := by
  decide +kernel

/-- To send a body is a matter of true or false that always applies. What depends on it is optional
and applies only for true; the text of the body does. -/
theorem body_bundled : ∀ t ∈ Bundled.types, TypeName.short t.name = "httpRequest" →
    ((propertiesOf t).map Property.name).Nodup ∧
      (standard? (propertiesOf t) "sendBody").any Value.isPresent = false ∧
      (∃ p ∈ propertiesOf t, p.name = "sendBody" ∧ p.condition.isNone = true) ∧
      (∃ p ∈ propertiesOf t, p.name = "jsonBody" ∧ "sendBody" ∈ p.mentions) ∧
      ∀ p ∈ propertiesOf t, (p.name = "sendBody" → p.type = "boolean") ∧
        ("sendBody" ∈ p.mentions → p.required = false ∧ p.condition.any (fun c =>
          c.showWhen.any fun e => e.1 == "sendBody" && e.2.onlyTrue) = true) := by
  decide +kernel

variable {t : NodeType} (ht : t ∈ Bundled.types)
  (htype : TypeName.short c.type = TypeName.short t.name) (hschema : c.schema = t.properties)

theorem properties_eq_propertiesOf (hschema : c.schema = t.properties) :
    c.properties = propertiesOf t := by
  rw [properties, hschema, propertiesOf]

include ht hschema

theorem orderly_of_bundled : c.Orderly := by
  have hproperties := properties_eq_propertiesOf hschema
  rcases orderly_bundled t ht with ⟨hall, -⟩
  rw [← hproperties] at hall
  refine ⟨?_, fun p hp => (hall p hp).1⟩
  exact Resolver.acyclic_of_rank (fun name => (c.properties.map Property.name).idxOf name)
    fun p hp => (hall p hp).2

include htype

theorem fits_path {s : String} (hshort : TypeName.short c.type = "webhook" ∨
      TypeName.short c.type = "formTrigger")
    (hpath : c.parameters.get? "path" = some (.str s)) {left : String} (hleft : left ≠ "") :
    c.Fits "path" (.str left) := by
  have hproperties := properties_eq_propertiesOf hschema
  rcases path_bundled t ht (htype ▸ hshort) with ⟨hnames, hall⟩
  rw [← hproperties] at hnames hall
  exact
    { names := hnames
      written := hproperties ▸ (orderly_bundled t ht).2 "path" (by simp [proposedKeys])
      typed := by
        intro p hp hname
        rw [valueIssues, (hall p hp).1 hname]
        simp [expectation?, Value.str?]
      filled := ⟨by simp, by simpa using hleft⟩
      known := by
        left
        rw [Entries.has, hpath]
        rfl
      dependents := by
        intro i p hi hkey
        exact absurd hkey (hall p (List.mem_of_getElem? hi)).2 }

theorem fits_layout {l : Routing.Layout} {old fixed : Entries Value}
    (hlayout : Routing.Layout.ofType? (TypeName.short c.type) = some l)
    (hold : c.parameters.get? l.parameter = some (.obj old)) : c.Fits l.parameter (.obj fixed) := by
  have hproperties := properties_eq_propertiesOf hschema
  have hkey : l.parameter ∈ proposedKeys :=
    Routing.Layout.of_ofType? (p := fun _ l => l.parameter ∈ proposedKeys) hlayout
      (by decide) (by decide) (by decide)
  rcases layout_bundled t ht l (htype ▸ hlayout) with ⟨hnames, hall⟩
  rw [← hproperties] at hnames hall
  exact
    { names := hnames
      written := hproperties ▸ (orderly_bundled t ht).2 _ hkey
      typed := by
        intro p hp hname
        rcases (hall p hp).1 hname with hobject | hfilter
        · rw [valueIssues, hobject]
          simp [expectation?, Value.obj?]
        · rw [valueIssues, hfilter]
          simp [expectation?]
      filled := ⟨by simp, by simp⟩
      known := by
        left
        rw [Entries.has, hold]
        rfl
      dependents := by
        intro i p hi hmentions
        exact absurd hmentions (hall p (List.mem_of_getElem? hi)).2 }

/-- While no body is sent, nothing applies that depends on it. -/
theorem fits_body (hshort : TypeName.short c.type = "httpRequest")
    (hunset : Parameters.isSet "sendBody" c.parameters = false) :
    c.Fits "sendBody" (.bool true) := by
  have hproperties := properties_eq_propertiesOf hschema
  have horderly := orderly_of_bundled ht hschema
  rcases body_bundled t ht (htype ▸ hshort) with
    ⟨hnames, hstandard, ⟨send, hsend, hname, hfree⟩, -, hall⟩
  rw [← hproperties] at hnames hstandard hsend hall
  -- The value that conditions see is given or a default, and neither is true.
  have hconfig : (c.resolver.config.get? "sendBody").any Value.isPresent = false := by
    change ((withDefaults c.parameters c.properties).get? "sendBody").any Value.isPresent = false
    rw [get?_withDefaults]
    unfold Parameters.isSet at hunset
    cases hgiven : c.parameters.get? "sendBody" with
    | none => exact hstandard
    | some v =>
      rw [hgiven] at hunset
      exact hunset
  have habsent : (c.resolver.plainValue c.resolver.plain "sendBody").any Value.isPresent = false :=
    Resolver.any_plainValue_eq_false _ (by decide) hconfig
  exact
    { names := hnames
      written := hproperties ▸ (orderly_bundled t ht).2 _ (by simp [proposedKeys])
      typed := by
        intro p hp hpname
        rw [valueIssues, (hall p hp).1 hpname]
        simp [expectation?]
      filled := ⟨by simp, by simp⟩
      known := .inr ⟨send, horderly.mem_applying hsend (by simpa using hfree), hname⟩
      dependents := by
        intro i p hi hmentions
        rcases (hall p (List.mem_of_getElem? hi)).2 hmentions with ⟨hoptional, hcondition⟩
        refine ⟨hoptional, ?_⟩
        rcases (Option.any_eq_true _ _).1 hcondition with ⟨condition, hsome, hshown⟩
        rcases List.any_eq_true.1 hshown with ⟨e, he, htest⟩
        rw [Bool.and_eq_true, beq_iff_eq] at htest
        -- If it applied, its list would allow the value of the parameter.
        by_contra hplain
        rw [Bool.not_eq_false, horderly.acyclic.isPlain i p hi] at hplain
        have hallowed := (hplain condition hsome).1 e he
        rw [htest.1, Allowed.allows_onlyTrue htest.2 habsent] at hallowed
        simp at hallowed }

/-- What is proposed for a type of the bundled catalog fits, unless it is an empty path. -/
theorem fits_of_proposal
    (h : Rules.Proposal (TypeName.short c.type) c.parameters key value) (hfilled : value ≠ .str "") :
    c.Fits key value := by
  cases h with
  | path hshort hpath _ =>
    exact fits_path ht htype hschema hshort hpath fun heq => hfilled (congrArg Value.str heq)
  | body hshort hunset => exact fits_body ht htype hschema hshort hunset
  | layout hlayout hold _ => exact fits_layout ht htype hschema hlayout hold

/-- Of the parameters for which something is proposed only one has properties that depend on it. -/
theorem body_of_mentions (h : Rules.Proposal (TypeName.short c.type) c.parameters key value)
    {p : Property} (hp : p ∈ c.properties) (hkey : key ∈ p.mentions) :
    key = "sendBody" ∧ value = .bool true := by
  rw [properties_eq_propertiesOf hschema] at hp
  rw [htype] at h
  cases h with
  | path hshort _ _ => exact absurd hkey ((path_bundled t ht hshort).2 p hp).2
  | body _ _ => exact ⟨rfl, rfl⟩
  | layout hlayout _ _ => exact absurd hkey ((layout_bundled t ht _ hlayout).2 p hp).2

/-- When what is proposed is set, what counts as an error was found before, or is an error in the
value of a parameter that depends on the one that is set. -/
theorem found_or_awakened (hprofile : profile.policy.runRules = true)
    (h : Rules.Proposal (TypeName.short c.type) c.parameters key value) (hfits : c.Fits key value)
    {i : Issue} (hcounts : profile.policy.Counts i)
    (hi : i ∈ (findings profile.policy (c.setting key value)
      (c.setting key value).applying).issues) :
    i ∈ (findings profile.policy c c.applying).issues ∨ c.Awakened key i := by
  rcases hfits.of_mem_findings hprofile hcounts hi with hi | hi | hi
  · exact .inl hi
  · rcases h.issues_run_put (fun heq => hfits.filled.2 heq) hi with hi | ⟨rfl, hpath, hcode, hhas⟩
    · exact .inl ((mem_findings_iff hprofile).2 (.inr (.inr (.inr (.inl hi)))))
    · have hshort : TypeName.short c.type = "httpRequest" := h.httpRequest_of_sendBody
      rcases (body_bundled t ht (htype ▸ hshort)).2.2.2.1 with ⟨p, hp, hname, hmentions⟩
      rw [← properties_eq_propertiesOf hschema] at hp
      exact .inr ⟨p, hp, hmentions, hname ▸ hhas, hname ▸ hpath, .inr hcode⟩
  · exact .inr hi

/-- For every type of the bundled catalog, whatever the parameters and under every profile that runs
the rules, there is an outcome, and one when all that it proposes is set. The second one proposes
nothing. Unless a path is left empty, each of its errors is there before, by path and code, but for
one case: if it is proposed to send a body, a value that is given for a property that was hidden can
be of the wrong type, or not allowed. -/
theorem proposals_applied (hprofile : profile.policy.runRules = true) :
    ∃ r r', c.check profile = .ok r ∧
      ({ c with parameters := c.parameters.merge r.autofix } : NodeConfig).check profile = .ok r' ∧
      r'.autofix = [] ∧
      (r.autofix.get? "path" ≠ some (.str "") → ∀ e' ∈ r'.errors,
        (∃ e ∈ r.errors, e.path = e'.path ∧ e.code = e'.code) ∨
          r.autofix = [("sendBody", .bool true)] ∧
            ∃ name ∈ r.hidden, e'.path = some name ∧ c.parameters.has name = true ∧
              (e'.code = "invalid_type" ∨ e'.code = "invalid_value")) := by
  have horderly := orderly_of_bundled ht hschema
  have hautofix := autofix_reportOf (c := c) hprofile c.applying
  rcases Rules.autofix_run_cases c.type c.parameters with hnone | ⟨key, value, hproposal, hone⟩
  · -- Nothing is proposed, so nothing changes.
    rw [hnone] at hautofix
    refine ⟨_, _, horderly.check_eq, ?_, hautofix, fun _ e he => .inl ⟨e, he, rfl, rfl⟩⟩
    rw [hautofix]
    exact horderly.check_eq
  · rw [hone] at hautofix
    have hset : c.parameters.merge (reportOf profile c c.applying).autofix =
        c.parameters.put key value := by
      rw [hautofix]
      rfl
    refine ⟨_, reportOf profile (c.setting key value) (c.setting key value).applying,
      horderly.check_eq, ?_, ?_, ?_⟩
    · rw [hset]
      exact (horderly.setting key value).check_eq
    · rw [autofix_reportOf hprofile]
      exact congrArg (Entries.merge []) hproposal.autofix_run_put
    · intro hpath e' he'
      have hfilled : value ≠ .str "" := by
        rintro rfl
        rw [hautofix, hproposal.key_eq_path] at hpath
        exact hpath rfl
      have hfits := fits_of_proposal ht htype hschema hproposal hfilled
      rcases exists_error_iff.1 ⟨e', he', rfl, rfl⟩ with ⟨i, hi, hcounts, hipath, hicode⟩
      rcases found_or_awakened ht htype hschema hprofile hproposal hfits hcounts hi with
        hi | ⟨p, hp, hkey, hhas, hpname, hcode⟩
      · exact .inl (exists_error_iff.2 ⟨i, hi, hcounts, hipath, hicode⟩)
      · rcases body_of_mentions ht htype hschema hproposal hp hkey with ⟨rfl, rfl⟩
        exact .inr ⟨hautofix, p.name, hfits.mem_hidden hp hkey, hipath ▸ hpname, hhas,
          hicode ▸ hcode⟩

end Bundled

/-- A webhook whose path begins with a slash and has a space. -/
def orderHook : NodeConfig where
  type := "n8n-nodes-base.webhook"
  parameters := [("httpMethod", .str "POST"), ("path", .str "/incoming order")]
  schema := Catalog.Bundled.webhook.properties

/-- The space is an error before and after. -/
theorem hook_path_applied :
    ∃ r r', orderHook.check .strict = .ok r ∧
      Parameters.text? "path" r.autofix = some "incoming order" ∧
      ({ orderHook with parameters := orderHook.parameters.merge r.autofix } : NodeConfig).check
        .strict = .ok r' ∧
      r'.autofix = [] ∧
      ∀ e' ∈ r'.errors, ∃ e ∈ r.errors, e.path = e'.path ∧ e.code = e'.code := by
  have hprofile : Profile.strict.policy.runRules = true := rfl
  have hbundled : Catalog.Bundled.webhook ∈ Catalog.Bundled.types := by simp [Catalog.Bundled.types]
  rcases proposals_applied (c := orderHook) hbundled (by decide) rfl hprofile with
    ⟨r, r', hr, hr', hnone, hold⟩
  have htext : (orderHook.check .strict).map (fun r => Parameters.text? "path" r.autofix) =
      .ok (some "incoming order") := by decide +kernel
  rw [hr] at htext
  have hpath : Parameters.text? "path" r.autofix = some "incoming order" := Except.ok.inj htext
  refine ⟨r, r', hr, hpath, hr', hnone, ?_⟩
  intro e' he'
  have hfilled : r.autofix.get? "path" ≠ some (.str "") := by
    intro hempty
    simp [Parameters.text?, hempty, Value.str?] at hpath
  rcases hold hfilled e' he' with hbefore | ⟨hbody, -⟩
  · exact hbefore
  · simp [Parameters.text?, hbody, Entries.get?] at hpath

/-- A request that should send a body, with a value that is not allowed for one of its parameters. -/
def pageRequest : NodeConfig where
  type := "n8n-nodes-base.httpRequest"
  parameters := [("method", .str "POST"), ("url", .str "https://example.com"),
    ("contentType", .str "html")]
  schema := Catalog.Bundled.httpRequest.properties

/-- The value is an error only when a body is sent. -/
theorem body_value_awakened :
    ∃ r r', pageRequest.check .runtime = .ok r ∧
      ({ pageRequest with parameters := pageRequest.parameters.merge r.autofix } : NodeConfig).check
        .runtime = .ok r' ∧
      r.errors = [] ∧ r'.errors.map (fun e => (e.path, e.code)) =
        [(some "contentType", "invalid_value")] := by
  let key (e : Issue) : Option String × String := (e.path, e.code)
  have herrors : ((pageRequest.check .runtime).bind fun r =>
      (({ pageRequest with parameters := pageRequest.parameters.merge r.autofix } :
        NodeConfig).check .runtime).map fun r' => (r.errors.map key, r'.errors.map key)) =
      .ok ([], [(some "contentType", "invalid_value")]) := by decide +kernel
  cases hr : pageRequest.check .runtime with
  | error e => simp [hr, Except.bind] at herrors
  | ok r =>
    cases hr' : ({ pageRequest with parameters := pageRequest.parameters.merge r.autofix } :
        NodeConfig).check .runtime with
    | error e => simp [hr, hr', Except.bind, Except.map] at herrors
    | ok r' =>
      simp only [hr, hr', Except.bind, Except.map, Except.ok.injEq, Prod.mk.injEq,
        List.map_eq_nil_iff] at herrors
      exact ⟨r, r', rfl, hr', herrors.1, herrors.2⟩

end NodeConfig

end Workflows
