import Workflows.Catalog.Bundled
import Workflows.Proofs.NodeConfig.Demands
import Workflows.Proofs.Visibility.Frame

/-!
# Explicit — to set a parameter to the default it has anyway

A parameter that is not set counts with its default. Several properties may share its name, each with
a default of its own, and the default that is meant is the one of the property that applies. Yet which
properties apply is told from parameters into which defaults have been filled beforehand: conditions
see the first default that is declared for the name, whichever property declares it, and no default at
all where the parameter is given as null or as the empty text. To set the parameter to the default of
the property that applies can therefore make other properties apply.

It does not if no condition tells the value that is seen from that default, in particular if they are
the same. Then the same properties apply and ask for the same values. What is left are the rules of a
type, which read parameters without any defaults: a trigger misses a path that is not given, and a
code node its code, whatever their defaults.

Main definitions:

* `NodeConfig.Agree` — configurations that show and hide the same names, and miss the same values;
* `NodeConfig.default_explicit_iff` — when a configuration agrees with the one in which the default
  is set.
-/

namespace Workflows
namespace NodeConfig

/-- There are outcomes for both configurations, and they show and hide the same names and miss the
same values. -/
def Agree (profile : Profile) (c c' : NodeConfig) : Prop :=
  ∃ r r', c.check profile = .ok r ∧ c'.check profile = .ok r' ∧
    r'.visible = r.visible ∧ r'.hidden = r.hidden ∧
      r'.errors.filter (Issue.hasCode Issue.missingCode) =
        r.errors.filter (Issue.hasCode Issue.missingCode)

section Reports

variable {c : NodeConfig} {profile : Profile} {visible : List Property}

theorem check_eq_ok_iff {r : ConfigReport} :
    c.check profile = .ok r ↔
      ∃ visible, (c.resolver.visibleProperties.run {}).1 = .ok visible ∧
        reportOf profile c visible = r := by
  unfold check
  cases (c.resolver.visibleProperties.run {}).1 <;> simp

/-- The missing values that properties ask for are those of one category. -/
theorem asked_unasked_inj {c' : NodeConfig} {visible' : List Property} {policy : Policy} :
    c'.asked visible' ++ c'.unasked visible' policy = c.asked visible ++ c.unasked visible policy ↔
      c'.asked visible' = c.asked visible ∧
        c'.unasked visible' policy = c.unasked visible policy := by
  -- What the rules miss is of another category, so that the two parts can be told in the whole.
  have hasked : ∀ (c : NodeConfig) (visible : List Property), ∀ i ∈ c.asked visible,
      (i.category == .required) = true := by
    intro c visible i hi
    have hasked := isError_of_mem_askedIssues ((Issue.firstBy_sublist _ _).subset hi)
    simp [hasked.2.1]
  have hunasked : ∀ (c : NodeConfig) (visible : List Property), ∀ i ∈ c.unasked visible policy,
      ¬ (i.category == .required) = true := by
    intro c visible i hi
    have hdemanded := of_mem_demanded (List.mem_of_mem_filter hi)
    simp [hdemanded.2.1]
  constructor
  · intro h
    have hfilter : ∀ (c : NodeConfig) (visible : List Property),
        (c.asked visible ++ c.unasked visible policy).filter (fun i => i.category == .required) =
          c.asked visible := by
      intro c visible
      rw [List.filter_append, List.filter_eq_self.2 (hasked c visible),
        List.filter_eq_nil_iff.2 (hunasked c visible), List.append_nil]
    have hsame : c'.asked visible' = c.asked visible := by
      rw [← hfilter c' visible', h, hfilter c visible]
    rw [hsame] at h
    exact ⟨hsame, List.append_cancel_left h⟩
  · intro hboth
    rcases hboth with ⟨hasked, hunasked⟩
    rw [hasked, hunasked]

/-- A configuration agrees with the one in which a parameter is set exactly if the properties that
apply then have the same names and ask for the same values, and the rules miss the same values beyond
these. -/
theorem agree_setting_iff {key : String} {value : Value}
    (hvisible : (c.resolver.visibleProperties.run {}).1 = .ok visible) :
    Agree profile c (c.setting key value) ↔
      ∃ visible', ((c.setting key value).resolver.visibleProperties.run {}).1 = .ok visible' ∧
        (visible'.map Property.name).eraseDups = (visible.map Property.name).eraseDups ∧
        (c.setting key value).asked visible' = c.asked visible ∧
        (c.setting key value).unasked visible' profile.policy = c.unasked visible profile.policy := by
  constructor
  · intro h
    rcases h with ⟨r, r', hr, hr', hshown, -, hmissing⟩
    rcases check_eq_ok_iff.1 hr with ⟨found, hfound, rfl⟩
    rcases check_eq_ok_iff.1 hr' with ⟨visible', hvisible', rfl⟩
    obtain rfl : found = visible := Except.ok.inj (hfound.symm.trans hvisible)
    rw [visible_reportOf, visible_reportOf] at hshown
    rw [missing_reportOf, missing_reportOf] at hmissing
    exact ⟨visible', hvisible', hshown, asked_unasked_inj.1 hmissing⟩
  · intro h
    rcases h with ⟨visible', hvisible', hnames, hmissing⟩
    have hshown : (reportOf profile (c.setting key value) visible').visible =
        (reportOf profile c visible).visible := by
      rw [visible_reportOf, visible_reportOf, hnames]
    have hproperties : (c.setting key value).properties = c.properties := rfl
    refine ⟨_, _, check_eq_ok_iff.2 ⟨visible, hvisible, rfl⟩,
      check_eq_ok_iff.2 ⟨visible', hvisible', rfl⟩, hshown, ?_, ?_⟩
    · rw [hidden_reportOf, hidden_reportOf, hshown, hproperties]
    · rw [missing_reportOf, missing_reportOf, asked_unasked_inj]
      exact hmissing

end Reports

section Defaults

variable {c : NodeConfig} {profile : Profile} {visible : List Property} {name : String}
  {p : Property}

/-- Where one property of the name applies, to set its default leaves all that is asked for. -/
theorem asked_setting_default (hunset : Unset c.parameters name)
    (hone : visible.filter (fun q => q.name == name) = [p]) (hdefault : p.default ≠ .null) :
    (c.setting name p.default).asked visible = c.asked visible := by
  have hasks : ∀ q ∈ visible, (c.setting name p.default).asks q = c.asks q := by
    intro q hq
    unfold asks
    by_cases hname : q.name = name
    · have hmem : q ∈ visible.filter fun q => q.name == name :=
        List.mem_filter.2 ⟨hq, beq_iff_eq.2 hname⟩
      have hqp : q = p := List.mem_singleton.1 (hone ▸ hmem)
      -- A default that is a value of its own is never asked for, and an empty one leaves it unset.
      cases hown : q.hasDefault with
      | true => simp
      | false =>
        have hbare := (hasDefault_eq_false_iff (p := q)).1 hown
        rw [hqp] at hbare
        have hempty : p.default = .str "" := hbare.resolve_left hdefault
        have hunset' : isUnset (c.setting name p.default).parameters q.name = true := by
          rw [isUnset, hname, get?_setting_self, hempty]
          rfl
        rw [hunset', hname, isUnset_iff.2 hunset]
    · rw [isUnset, isUnset, get?_setting_of_ne hname]
  unfold asked askedIssues
  rw [List.filter_congr hasks]
  rfl

/-- The rules miss the same when a parameter is set that they do not read. -/
theorem demanded_setting_of_not_read {policy : Policy} {value : Value}
    (h : policy.runRules = true → name ∉ Rules.demandReads (TypeName.short c.type)) :
    (c.setting name value).demanded policy = c.demanded policy := by
  unfold demanded
  split
  · rename_i hrules
    have hsame : Rules.demandsOf (TypeName.short c.type) (c.setting name value).parameters =
        Rules.demandsOf (TypeName.short c.type) c.parameters := by
      refine Rules.demandsOf_congr fun read hread => get?_setting_of_ne ?_
      rintro rfl
      exact h hrules hread
    rw [Rules.demanded_eq, Rules.demanded_eq]
    exact congrArg (List.map _) hsame
  · rfl

/-- Let a parameter be not set, and let just one property of its name apply, with a default. The
configuration agrees with the one in which the parameter is set to that default exactly if in that
one the properties that apply have the same names and ask for the same values, and the rules of the
type miss the same values beyond these. If no condition tells the value that is seen for the parameter
from the default, then the same properties apply and ask for the same values, so that only the rules
can make a difference; and they make none if they do not run, or do not read the parameter to tell
what they miss. -/
theorem default_explicit_iff (hunset : Unset c.parameters name)
    (hvisible : (c.resolver.visibleProperties.run {}).1 = .ok visible)
    (hone : visible.filter (fun q => q.name == name) = [p]) (hdefault : p.default ≠ .null) :
    (Agree profile c (c.setting name p.default) ↔
      ∃ visible', ((c.setting name p.default).resolver.visibleProperties.run {}).1 = .ok visible' ∧
        (visible'.map Property.name).eraseDups = (visible.map Property.name).eraseDups ∧
        (c.setting name p.default).asked visible' = c.asked visible ∧
        (c.setting name p.default).unasked visible' profile.policy =
          c.unasked visible profile.policy) ∧
      ∀ v, c.resolver.config.get? name = some v → v ≠ .null → c.resolver.Alike name v p.default →
        (Agree profile c (c.setting name p.default) ↔
          (c.setting name p.default).unasked visible profile.policy =
            c.unasked visible profile.policy) ∧
        ((profile.policy.runRules = true → name ∉ Rules.demandReads (TypeName.short c.type)) →
          Agree profile c (c.setting name p.default)) := by
  refine ⟨agree_setting_iff hvisible, ?_⟩
  intro v hv hvalue halike
  have hagree : ∀ other, other ≠ name →
      (c.setting name p.default).resolver.config.get? other = c.resolver.config.get? other :=
    fun _ h => get?_config_setting_of_ne h
  -- No condition tells the default from what was seen before, so the same properties apply.
  have hsame : (c.setting name p.default).resolver.visibleProperties =
      c.resolver.visibleProperties :=
    Resolver.visibleProperties_alike (r := c.resolver) hagree hv get?_config_setting_self hvalue
      hdefault halike
  have hasked := asked_setting_default hunset hone hdefault
  have hrules : Agree profile c (c.setting name p.default) ↔
      (c.setting name p.default).unasked visible profile.policy =
        c.unasked visible profile.policy := by
    rw [agree_setting_iff hvisible, hsame, hvisible]
    constructor
    · intro hexists
      rcases hexists with ⟨visible', hvisible', -, -, hunasked⟩
      obtain rfl : visible = visible' := Except.ok.inj hvisible'
      exact hunasked
    · intro hunasked
      exact ⟨visible, rfl, rfl, hasked, hunasked⟩
  refine ⟨hrules, fun hunread => hrules.2 ?_⟩
  rw [unasked, unasked, demanded_setting_of_not_read hunread, hasked]

end Defaults

/-! ## Values that are told apart -/

/-- One of two properties for the operation, each for one resource and with a default of its own. -/
def operationFor (resource : String) (default : Value) : Property where
  name := "operation"
  type := "string"
  default := default
  condition := some { showWhen := [("resource", .str resource)] }

/-- A property for the name, which is required for some operations. -/
def nameFor (allowed : Value) : Property where
  name := "name"
  type := "string"
  required := true
  condition := some { showWhen := [("operation", allowed)] }

/-- A channel whose operation is not set. Another operation, for messages, is declared before that
for channels. -/
def channelNode (first second allowed : Value) : NodeConfig where
  type := "nodes-base.chat"
  parameters := [("resource", .str "channel")]
  schema := [
    .obj [("name", .str "operation"), ("type", .str "string"), ("default", first),
      ("displayOptions", .obj [("show", .obj [("resource", .str "message")])])],
    .obj [("name", .str "operation"), ("type", .str "string"), ("default", second),
      ("displayOptions", .obj [("show", .obj [("resource", .str "channel")])])],
    .obj [("name", .str "name"), ("type", .str "string"), ("required", .bool true),
      ("displayOptions", .obj [("show", .obj [("operation", allowed)])])]]

section ToldApart

variable {first second allowed w : Value} {b : Bool}

section Resolver

variable {r : Resolver}
  (hproperties : r.properties =
    [operationFor "message" first, operationFor "channel" second, nameFor allowed])

include hproperties

/-- The name depends on the operation, and that on the resource. -/
theorem acyclic_channel : r.Acyclic := by
  let rank (name : String) : Nat := ["resource", "operation", "name"].idxOf name
  have hrank : rank "resource" < rank "operation" ∧ rank "operation" < rank "name" := by decide
  refine Resolver.acyclic_of_rank rank ?_
  rw [hproperties]
  simp only [List.forall_mem_cons, List.not_mem_nil, false_imp_iff, implies_true, and_true]
  refine ⟨?_, ?_, ?_⟩
  · intro name hname
    exact (List.mem_singleton.1 hname).symm ▸ hrank.1
  · intro name hname
    exact (List.mem_singleton.1 hname).symm ▸ hrank.1
  · intro name hname
    exact (List.mem_singleton.1 hname).symm ▸ hrank.2

/-- The resource has no property, so that its value counts as it is. -/
theorem plainValue_resource (v : Nat → Bool) (h : r.config.get? "resource" = some (.str "channel")) :
    r.plainValue v "resource" = some (.str "channel") := by
  have hnone : r.positions "resource" = [] := by
    unfold Resolver.positions
    rw [hproperties]
    rfl
  simp [Resolver.plainValue, Resolver.versionKey, h, hnone]

/-- The operation counts if the property for channels applies, whichever default it has. -/
theorem plainValue_operation {v : Nat → Bool} (hchannel : v 1 = true)
    (h : r.config.get? "operation" = some w) (hw : w ≠ .null) :
    r.plainValue v "operation" = some w := by
  have htwo : r.positions "operation" = [0, 1] := by
    unfold Resolver.positions
    rw [hproperties]
    rfl
  unfold Resolver.plainValue
  rw [if_neg (by decide), h]
  cases w with
  | null => exact absurd rfl hw
  | _ => simp [htwo, hchannel]

/-- The property for the operation on channels applies, and the one for the name does if the operation
that is seen is allowed. -/
theorem visible_channel (hresource : r.config.get? "resource" = some (.str "channel"))
    (hoperation : r.config.get? "operation" = some w) (hw : w ≠ .null)
    (hallowed : Allowed.allows (some w) allowed = .ok b) :
    (r.visibleProperties.run {}).1 =
      .ok (operationFor "channel" second :: if b then [nameFor allowed] else []) := by
  let shown (i : Nat) : Bool := i == 1 || i == 2 && b
  have hseen := plainValue_resource hproperties shown hresource
  have hvalue : r.plainValue shown "operation" = some w :=
    plainValue_operation hproperties rfl hoperation hw
  have hmessage : Allowed.allows (some (.str "channel")) (.str "message") = .ok false := by rfl
  have hchannel : Allowed.allows (some (.str "channel")) (.str "channel") = .ok true := by rfl
  -- The operation on messages does not apply to a channel, the one on channels does, and the name
  -- applies as far as the operation allows it.
  have hplain : r.IsPlain shown := by
    intro i p hp
    rw [hproperties] at hp
    rcases i with _ | _ | _ | i
    · obtain rfl := Option.some.inj hp
      simp [shown, Resolver.Applies, Resolver.Met, operationFor, hseen, hmessage]
    · obtain rfl := Option.some.inj hp
      simp [shown, Resolver.Applies, Resolver.Met, operationFor, hseen, hchannel]
    · obtain rfl := Option.some.inj hp
      simp [shown, Resolver.Applies, Resolver.Met, nameFor, hvalue, hallowed]
    · simp at hp
  have hcomparable : r.Comparable shown := by
    unfold Resolver.Comparable
    rw [hproperties]
    simp [operationFor, nameFor, hseen, hvalue, hmessage, hchannel, hallowed]
  have htold := Resolver.tells_visibleProperties (acyclic_channel hproperties) hplain {}
    (Resolver.faithful_empty shown)
  have hthose : r.those shown =
      operationFor "channel" second :: if b then [nameFor allowed] else [] := by
    unfold Resolver.those
    rw [hproperties]
    cases b <;> rfl
  exact hthose ▸ htold.2.resolve_right fun hnone => hnone.1 hcomparable

end Resolver

theorem properties_channelNode : (channelNode first second allowed).properties =
    [operationFor "message" first, operationFor "channel" second, nameFor allowed] := rfl

theorem get?_resource_channelNode :
    (channelNode first second allowed).resolver.config.get? "resource" = some (.str "channel") := by
  change (withDefaults _ (channelNode first second allowed).properties).get? "resource" = _
  rw [get?_withDefaults]
  rfl

theorem get?_operation_channelNode (hfirst : first ≠ .null) :
    (channelNode first second allowed).resolver.config.get? "operation" = some first := by
  have hnull : first.isNull = false := by
    cases first with
    | null => exact absurd rfl hfirst
    | _ => rfl
  change (withDefaults _ (channelNode first second allowed).properties).get? "operation" = _
  rw [get?_withDefaults, properties_channelNode]
  simp [channelNode, standard?, operationFor, hnull, Entries.get?]

/-- Where a condition tells the default that is seen from the one that is meant, to set the latter
can make another property apply. -/
theorem not_agree_channelNode (hfirst : first ≠ .null) (hsecond : second ≠ .null) {x y : Bool}
    (hx : Allowed.allows (some first) allowed = .ok x)
    (hy : Allowed.allows (some second) allowed = .ok y) (hne : x ≠ y) (profile : Profile) :
    ¬ Agree profile (channelNode first second allowed)
      ((channelNode first second allowed).setting "operation" second) := by
  have hvisible := visible_channel (r := (channelNode first second allowed).resolver)
    properties_channelNode get?_resource_channelNode (get?_operation_channelNode hfirst) hfirst hx
  let c' := (channelNode first second allowed).setting "operation" second
  have hresource : c'.resolver.config.get? "resource" = some (.str "channel") :=
    (get?_config_setting_of_ne (by decide)).trans get?_resource_channelNode
  have hvisible' := visible_channel (r := c'.resolver) properties_channelNode hresource
    get?_config_setting_self hsecond hy
  rw [agree_setting_iff hvisible]
  intro h
  rcases h with ⟨found, hfound, hnames, -⟩
  obtain rfl := Except.ok.inj (hvisible'.symm.trans hfound)
  cases x <;> cases y <;> simp_all [operationFor, nameFor, List.eraseDups_cons]

end ToldApart

def postNode : NodeConfig where
  type := "n8n-nodes-base.slack"
  parameters := [("resource", .str "message"), ("text", .str "hello")]
  schema := Catalog.Bundled.slack.properties

/-- The operation that is declared for messages is the first one. -/
theorem post_explicit :
    Unset postNode.parameters "operation" ∧
      Agree .strict postNode (postNode.setting "operation" (.str "post")) := by
  have hunset : Unset postNode.parameters "operation" := .inl rfl
  -- The default of the property that applies is found by running the resolver.
  have hdefaults : (postNode.resolver.visibleProperties.run {}).1.map (fun ps =>
      (ps.filter fun q => q.name == "operation").map fun q => q.default.str?) =
      .ok [some "post"] := by decide +kernel
  cases hvisible : (postNode.resolver.visibleProperties.run {}).1 with
  | error e => simp [hvisible, Except.map] at hdefaults
  | ok visible =>
    simp only [hvisible, Except.map, Except.ok.injEq, List.map_eq_singleton_iff] at hdefaults
    rcases hdefaults with ⟨p, hone, htext⟩
    have hdefault : p.default = .str "post" := by
      cases hp : p.default <;> simp_all [Value.str?]
    have hseen : (postNode.resolver.config.get? "operation").bind Value.str? = some "post" := by
      decide +kernel
    rcases Option.bind_eq_some_iff.1 hseen with ⟨v, hv, hvalue⟩
    have hpost : v = .str "post" := by
      cases v <;> simp_all [Value.str?]
    have hnull : p.default ≠ .null := by simp [hdefault]
    have hvalue : v ≠ .null := by simp [hpost]
    have halike : postNode.resolver.Alike "operation" v p.default := by
      rw [hpost, hdefault]
      exact Resolver.Alike.refl _ _ _
    have hagree : Agree .strict postNode (postNode.setting "operation" p.default) :=
      ((default_explicit_iff hunset hvisible hone hnull).2 v hv hvalue halike).2 fun _ => by decide
    exact ⟨hunset, hdefault ▸ hagree⟩

/-- Conditions see the default of the operation for messages, which does not apply, so that the name
that is required to create a channel is not asked for. -/
theorem hidden_default_seen :
    let c := channelNode (.str "post") (.str "create") (.arr [.str "create"])
    let p := operationFor "channel" (.str "create")
    Unset c.parameters "operation" ∧
      (c.resolver.visibleProperties.run {}).1 = .ok [p] ∧ valueIssues p p.default = [] ∧
      ∀ profile, ¬ Agree profile c (c.setting "operation" p.default) := by
  intro c p
  have hpost : Allowed.allows (some (.str "post")) (.arr [.str "create"]) = .ok false := by rfl
  have hcreate : Allowed.allows (some (.str "create")) (.arr [.str "create"]) = .ok true := by rfl
  refine ⟨.inl rfl, ?_, ?_, ?_⟩
  · exact visible_channel properties_channelNode get?_resource_channelNode
      (get?_operation_channelNode (by simp)) (by simp) hpost
  · simp [p, operationFor, valueIssues, expectation?, Value.str?]
  · intro profile
    exact not_agree_channelNode (by simp) (by simp) hpost hcreate (by simp) profile

end NodeConfig

end Workflows
