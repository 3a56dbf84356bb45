import Workflows.Catalog.Bundled
import Workflows.NodeConfig
import Workflows.Proofs.Visibility.Plain

/-!
# Layouts — what a corrected object keeps of the old one

Branches and conditions are listed in an object that a parameter holds. Older versions list them
under another key, and where that key is met the rules propose an object of the current layout. It
is built from the entries under the older key alone: these all get into it, in order, but nothing is
taken over from the other keys of the object. So an object that mixes the layouts loses the entries
it already lists under the current key, unless they happen to be among those that are moved, and a
combinator other than the one the rules write.

Main definitions:

* `Routing.Layout`, `Routing.Layout.ofType?` — the layouts, and the types that use them;
* `Routing.Layout.corrected` — the object that is proposed;
* `Routing.Layout.Preserves` — an object has all entries and the combinator of another one;
* `NodeConfig.layout_preserved_iff` — when the proposed object has those of the old one.
-/

namespace Workflows

namespace Routing

/-! ## Layouts -/

/-- How an object lists its entries: the parameter that holds the object, the key of the list in
older versions and the current one, what an older entry becomes, and the other fields of the current
layout, before and behind the list. -/
structure Layout where
  parameter : String
  older : String
  current : String
  moved : Value → Value
  front : Entries Value
  back : Entries Value

namespace Layout

/-- The branches of a switch, each with its conditions. -/
def branches : Layout where
  parameter := "rules"
  older := "conditions"
  current := "values"
  moved c := .obj [("conditions", c)]
  front := []
  back := []

/-- Conditions all of which have to hold. -/
def conditions : Layout where
  parameter := "conditions"
  older := "values"
  current := "conditions"
  moved := id
  front := [("options", .obj [("caseSensitive", .bool true), ("typeValidation", .str "strict")])]
  back := [("combinator", .str "and")]

def ofType? (short : String) : Option Layout :=
  match short with
  | "switch" => some branches
  | "if" | "filter" => some conditions
  | _ => none

/-- The object of the current layout for what stands under the older key. -/
def corrected (l : Layout) (v : Value) : Entries Value :=
  l.front ++ (l.current, .arr ((listed v).map l.moved)) :: l.back

/-- What holds of both layouts holds of the layout of a type. -/
theorem of_ofType? {short : String} {l : Layout} {p : String → Layout → Prop}
    (h : ofType? short = some l) (hbranches : p "switch" branches) (hif : p "if" conditions)
    (hfilter : p "filter" conditions) : p short l := by
  unfold ofType? at h
  split at h
  · exact Option.some.inj h ▸ hbranches
  · exact Option.some.inj h ▸ hif
  · exact Option.some.inj h ▸ hfilter
  · simp at h

end Layout

/-! ## Entries -/

/-- The entries that an object lists under a key. Null lists none, and any other value that is no
list is the only entry. -/
def entriesUnder (key : String) (fields : Entries Value) : List Value :=
  match fields.get? key with
  | none | some .null => []
  | some v => listed v

/-- The combinator that is set in an object, if any. -/
def combinator? (fields : Entries Value) : Option Value :=
  (fields.get? "combinator").filter fun v => !v.isNull

/-- All entries of an object, under the older key and under the current one, are in another one of
the current layout, and so is the combinator if one is set. -/
structure Layout.Preserves (l : Layout) (old fixed : Entries Value) : Prop where
  older : ∀ e ∈ entriesUnder l.older old, l.moved e ∈ entriesUnder l.current fixed
  current : ∀ e ∈ entriesUnder l.current old, e ∈ entriesUnder l.current fixed
  combinator : ∀ v ∈ combinator? old, combinator? fixed = some v

section Corrected

variable {short : String} {l : Layout}

theorem mem_entriesUnder {key : String} {fields : Entries Value} {v e : Value}
    (hv : fields.get? key = some v) (he : e ∈ entriesUnder key fields) : e ∈ listed v := by
  unfold entriesUnder at he
  rw [hv] at he
  cases v with
  | null => exact absurd he List.not_mem_nil
  | _ => exact he

/-- The corrected object lists what the entries under the older key become, in order. -/
theorem entriesUnder_corrected (h : Layout.ofType? short = some l) (v : Value) :
    entriesUnder l.current (l.corrected v) = (listed v).map l.moved :=
  Layout.of_ofType? (p := fun _ l =>
    entriesUnder l.current (l.corrected v) = (listed v).map l.moved) h rfl rfl rfl

theorem combinator?_corrected (h : Layout.ofType? short = some l) (v : Value) :
    combinator? (l.corrected v) = combinator? l.back :=
  Layout.of_ofType? (p := fun _ l => combinator? (l.corrected v) = combinator? l.back) h rfl rfl rfl

/-- The corrected object has everything of the old one exactly if each entry under the current key
is what one of the older entries becomes, and no other combinator is set than the one of the
layout. -/
theorem preserves_corrected_iff (h : Layout.ofType? short = some l) {old : Entries Value} {v : Value}
    (hv : old.get? l.older = some v) :
    l.Preserves old (l.corrected v) ↔
      (∀ e ∈ entriesUnder l.current old, ∃ o ∈ listed v, e = l.moved o) ∧
        ∀ v ∈ combinator? old, combinator? l.back = some v := by
  -- What the correction lists is what stood under the older key.
  have hlisted : ∀ e, e ∈ entriesUnder l.current (l.corrected v) ↔ ∃ o ∈ listed v, e = l.moved o := by
    intro e
    rw [entriesUnder_corrected h, List.mem_map]
    exact exists_congr fun o => and_congr_right fun _ => eq_comm
  constructor
  · intro hpreserves
    refine ⟨?_, ?_⟩
    · intro e he
      exact (hlisted e).1 (hpreserves.current e he)
    · intro w hw
      rw [← combinator?_corrected h v]
      exact hpreserves.combinator w hw
  · intro hboth
    rcases hboth with ⟨hcurrent, hcombinator⟩
    exact
      { older := by
          intro e he
          exact (hlisted _).2 ⟨e, mem_entriesUnder hv he, rfl⟩
        current := by
          intro e he
          exact (hlisted e).2 (hcurrent e he)
        combinator := by
          intro w hw
          rw [combinator?_corrected h]
          exact hcombinator w hw }

/-! ## The rules -/

theorem inner?_eq_some_iff {key entry : String} {ps : Entries Value} {v : Value} :
    inner? key entry ps = some v ↔
      ∃ fields : Entries Value, ps.get? key = some (.obj fields) ∧ fields.get? entry = some v := by
  unfold inner?
  rw [Option.bind_eq_some_iff]
  constructor
  · intro h
    rcases h with ⟨fields, hfields, hv⟩
    rcases Option.bind_eq_some_iff.1 hfields with ⟨w, hw, hobj⟩
    cases w with
    | obj es => exact ⟨es, hw, Option.some.inj hobj ▸ hv⟩
    | _ => simp [Value.obj?] at hobj
  · intro h
    rcases h with ⟨fields, hfields, hv⟩
    exact ⟨fields, by rw [hfields]; rfl, hv⟩

/-- The one rule for a type with a layout proposes the corrected object where it meets the older
key, and finds nothing where it does not. -/
theorem exists_rule_of_layout (h : Layout.ofType? short = some l) :
    ∃ rule, Rules.forType short = [rule] ∧ ∀ ps : Entries Value,
      (inner? l.parameter l.older ps = none → rule ps = .none) ∧
        ∀ v, inner? l.parameter l.older ps = some v →
          (rule ps).autofix = [(l.parameter, .obj (l.corrected v))] := by
  have hbranches : ∀ ps : Entries Value,
      (inner? "rules" "conditions" ps = none → checkSwitch ps = .none) ∧
        ∀ v, inner? "rules" "conditions" ps = some v →
          (checkSwitch ps).autofix = [("rules", .obj (Layout.branches.corrected v))] := by
    intro ps
    constructor
    · intro hinner
      simp only [checkSwitch, hinner]
    · intro v hinner
      simp [checkSwitch, hinner, switchRules, Layout.corrected, Layout.branches]
  have hconditions : ∀ ps : Entries Value,
      (inner? "conditions" "values" ps = none → checkConditions ps = .none) ∧
        ∀ v, inner? "conditions" "values" ps = some v →
          (checkConditions ps).autofix =
            [("conditions", .obj (Layout.conditions.corrected v))] := by
    intro ps
    constructor
    · intro hinner
      simp only [checkConditions, hinner]
    · intro v hinner
      simp [checkConditions, hinner, conditionList, Layout.corrected, Layout.conditions]
  refine Layout.of_ofType? (p := fun short l => ∃ rule, Rules.forType short = [rule] ∧
      ∀ ps : Entries Value, (inner? l.parameter l.older ps = none → rule ps = .none) ∧
        ∀ v, inner? l.parameter l.older ps = some v →
          (rule ps).autofix = [(l.parameter, .obj (l.corrected v))]) h ?_ ?_ ?_
  · exact ⟨checkSwitch, rfl, hbranches⟩
  · exact ⟨checkConditions, rfl, hconditions⟩
  · exact ⟨checkConditions, rfl, hconditions⟩

end Corrected

end Routing

theorem Outcome.autofix_append (o o' : Outcome) :
    (o ++ o').autofix = o.autofix.merge o'.autofix := rfl

theorem Rules.autofix_run_of_rule {type : String} {rule : Rule} {ps : Entries Value}
    (h : forType (TypeName.short type) = [rule]) :
    (run type ps).autofix = Entries.merge [] (rule ps).autofix := by
  rw [run, h]
  rfl

namespace NodeConfig

variable {c : NodeConfig} {profile : Profile}

/-- What is proposed for the parameters of a node is what the rules of its type propose. -/
theorem autofix_reportOf (hprofile : profile.policy.runRules = true) (visible : List Property) :
    (reportOf profile c visible).autofix =
      Entries.merge [] (Rules.run c.type c.parameters).autofix := by
  have hreport : (reportOf profile c visible).autofix =
      (findings profile.policy c visible).autofix := by
    unfold reportOf
    dsimp only
    split <;> rfl
  rw [hreport]
  simp only [findings, Outcome.autofix_append, hprofile, Outcome.whenever, if_true]
  rfl

open Routing

section Layouts

variable {l : Layout} {old : Entries Value} {v : Value} {visible : List Property}
  (htype : Layout.ofType? (TypeName.short c.type) = some l)
  (hold : c.parameters.get? l.parameter = some (.obj old)) (hv : old.get? l.older = some v)
  (hprofile : profile.policy.runRules = true)
  (hvisible : (c.resolver.visibleProperties.run {}).1 = .ok visible)

include htype hold hv hprofile hvisible

theorem exists_corrected :
    ∃ r, c.check profile = .ok r ∧ r.autofix = [(l.parameter, .obj (l.corrected v))] := by
  rcases exists_rule_of_layout htype with ⟨rule, hrule, hproposed⟩
  refine ⟨reportOf profile c visible, ?_, ?_⟩
  · unfold check
    rw [hvisible]
  · have hinner : inner? l.parameter l.older c.parameters = some v :=
      inner?_eq_some_iff.2 ⟨old, hold, hv⟩
    rw [autofix_reportOf hprofile, Rules.autofix_run_of_rule hrule, (hproposed _).2 v hinner]
    rfl

/-- Where the object of a switch, of an if or of a filter has the older key, and it can be told which
properties apply, every profile that runs the rules proposes an object of the current layout in its
place. That lists what all the older entries become, in order. It has every entry of the old object,
and the combinator set there, exactly if each entry that stood under the current key is what one of
the older ones becomes, and no other combinator was set than the one the rules write. -/
theorem layout_preserved_iff :
    ∃ r fixed, c.check profile = .ok r ∧ r.autofix = [(l.parameter, .obj fixed)] ∧
      entriesUnder l.current fixed = (listed v).map l.moved ∧
      (l.Preserves old fixed ↔
        (∀ e ∈ entriesUnder l.current old, ∃ o ∈ listed v, e = l.moved o) ∧
          ∀ v ∈ combinator? old, combinator? l.back = some v) := by
  rcases exists_corrected htype hold hv hprofile hvisible with ⟨r, hr, hautofix⟩
  exact ⟨r, l.corrected v, hr, hautofix, entriesUnder_corrected htype v,
    preserves_corrected_iff htype hv⟩

end Layouts

def onValue (text : String) : Value :=
  .obj [("leftValue", .str text)]

/-- The branches of a switch in the older layout; one of them is listed in the current one as well. -/
def repeatedBranches : Entries Value :=
  [("conditions", .arr [onValue "a", onValue "b"]),
    ("values", .arr [.obj [("conditions", onValue "b")]]), ("fallbackOutput", .str "extra")]

def repeatedSwitch : NodeConfig where
  type := "nodes-base.switch"
  parameters := [("mode", .str "rules"), ("rules", .obj repeatedBranches)]
  schema := Catalog.Bundled.route.properties

theorem repeated_branches_preserved :
    Layout.ofType? (TypeName.short repeatedSwitch.type) = some Layout.branches ∧
      ∃ r fixed, repeatedSwitch.check .strict = .ok r ∧ r.autofix = [("rules", .obj fixed)] ∧
        Layout.branches.Preserves repeatedBranches fixed := by
  have hplain : ∀ p ∈ repeatedSwitch.resolver.properties, p.isPlain = true := by decide +kernel
  rcases Resolver.exists_visibleProperties hplain with ⟨visible, hvisible⟩
  have hprofile : Profile.strict.policy.runRules = true := rfl
  rcases layout_preserved_iff (c := repeatedSwitch) rfl rfl rfl hprofile hvisible with
    ⟨r, fixed, hr, hautofix, -, hiff⟩
  have hnone : combinator? repeatedBranches = none := rfl
  refine ⟨rfl, r, fixed, hr, hautofix, hiff.2 ⟨?_, by simp [hnone]⟩⟩
  intro e he
  have hentry : e = .obj [("conditions", onValue "b")] := List.mem_singleton.1 he
  exact ⟨onValue "b", by simp [listed], hentry⟩

/-- The branches of a switch in both layouts. -/
def mixedBranches : Entries Value :=
  [("conditions", .arr [onValue "a"]), ("values", .arr [.obj [("conditions", onValue "b")]])]

def anyCondition : Entries Value :=
  [("values", .arr [onValue "a", onValue "b"]), ("combinator", .str "or")]

def mixedSwitch : NodeConfig where
  type := "nodes-base.switch"
  parameters := [("rules", .obj mixedBranches)]
  schema := Catalog.Bundled.route.properties

def anyIf : NodeConfig where
  type := "nodes-base.if"
  parameters := [("conditions", .obj anyCondition)]
  schema := Catalog.Bundled.branch.properties

/-- The branch that is listed in the current layout is lost, and so is the combinator. -/
theorem branch_and_combinator_lost :
    (∃ r fixed, mixedSwitch.check .runtime = .ok r ∧ r.autofix = [("rules", .obj fixed)] ∧
        .obj [("conditions", onValue "b")] ∉ entriesUnder "values" fixed ∧
        ¬ Layout.branches.Preserves mixedBranches fixed) ∧
      ∃ r fixed, anyIf.check .runtime = .ok r ∧ r.autofix = [("conditions", .obj fixed)] ∧
        combinator? fixed = some (.str "and") ∧
        ¬ Layout.conditions.Preserves anyCondition fixed := by
  have hswitch : ∀ p ∈ mixedSwitch.resolver.properties, p.isPlain = true := by decide +kernel
  have hif : ∀ p ∈ anyIf.resolver.properties, p.isPlain = true := by decide +kernel
  have hprofile : Profile.runtime.policy.runRules = true := rfl
  constructor
  · rcases Resolver.exists_visibleProperties hswitch with ⟨visible, hvisible⟩
    rcases exists_corrected (c := mixedSwitch) (l := .branches) rfl rfl rfl hprofile hvisible with
      ⟨r, hr, hautofix⟩
    have hlost : .obj [("conditions", onValue "b")] ∉
        entriesUnder "values" (Layout.branches.corrected (.arr [onValue "a"])) := by
      simp [entriesUnder, Layout.corrected, Layout.branches, Entries.get?, listed, onValue]
    refine ⟨r, _, hr, hautofix, hlost, fun hpreserves => hlost (hpreserves.current _ ?_)⟩
    exact List.mem_singleton.2 rfl
  · rcases Resolver.exists_visibleProperties hif with ⟨visible, hvisible⟩
    rcases exists_corrected (c := anyIf) (l := .conditions) rfl rfl rfl hprofile hvisible with
      ⟨r, hr, hautofix⟩
    refine ⟨r, _, hr, hautofix, rfl, ?_⟩
    intro hpreserves
    have hkept := hpreserves.combinator (.str "or") rfl
    have hwritten : combinator? (Layout.conditions.corrected (.arr [onValue "a", onValue "b"])) =
        some (.str "and") := rfl
    exact absurd (hwritten.symm.trans hkept) (by simp)

end NodeConfig

end Workflows
