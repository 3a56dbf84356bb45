import Mathlib.Data.Set.Card
import Mathlib.Logic.Relation
import Workflows.Proofs.Expression.Correction

/-!
# Mending — correcting a parameter tree one issue after the other

A badly written value is replaced by its corrected form. Its issue is gone then, and none comes up
elsewhere, with two exceptions, both of which begin with a string that is wrapped in a locator. Below
keys that are empty the text in the locator has the path of a parameter, and is asked for a locator
once more; and the mode of a locator cannot be looked up once it is an object. The first exception
costs one more correction, and the second can be avoided, since the locator with that mode has an
issue of its own: all corrections together lead to a tree without issues.

Main definitions:

* `Format.IssueAt` — an issue at a place;
* `Format.Mends`, `Format.WrapsAgain`, `Format.WrapsMode` — a correction that works, and the two that
  do not;
* `Format.mends_iff` — there are no others;
* `Format.corrections_mend` — no sequence of corrections is endless, and one can always go on to a
  tree without issues.
-/

namespace Workflows

/-- The path of a longer place is the path of the place, extended by the step. -/
theorem Place.fieldPath_append (place : Place) (s : PlaceStep) :
    Place.fieldPath (place ++ [s]) = Place.extend place.fieldPath s := by
  rw [Place.fieldPath, Place.fieldPath, List.foldl_append]
  rfl

/-- The way to a place is open if the way to a place behind it is. -/
theorem Walk.Open.of_append {limits : WalkLimits} {depth : Nat} {p r : Place}
    (h : Walk.Open limits depth (p ++ r)) : Walk.Open limits depth p := by
  refine ⟨?_, fun s hs => h.entered s (List.mem_append_left r hs)⟩
  have hnear := h.near
  rw [List.length_append] at hnear
  omega

namespace Format

variable {maxDepth : Number} {locators : List String} {tree v w : Value} {place p : Place}
  {f : FormatIssue} {kind : FormatKind}

/-! ## Issues and their places -/

/-- An issue that is found at a place of a tree. -/
structure IssueAt (maxDepth : Number) (locators : List String) (tree : Value) (place : Place)
    (f : FormatIssue) : Prop where
  searched : Walk.Open { depth := maxDepth, skipPrivate := true } 0 place
  found : ∃ v : Value, v.At place tree ∧ issueOf locators place v = .ok (some f)

/-- An issue is found in some visits exactly if it is found in one of them. -/
theorem mem_checkVisits_iff {vs : List Visit} {issues : List FormatIssue}
    (h : checkVisits locators vs = .ok issues) :
    f ∈ issues ↔ ∃ v ∈ vs, checkVisit locators v = .ok (some f) := by
  induction vs generalizing issues with
  | nil =>
    rw [← Except.ok.inj h]
    simp
  | cons v rest ih =>
    unfold checkVisits at h
    cases hfound : checkVisit locators v with
    | error e => simp [hfound] at h
    | ok found =>
      cases hmore : checkVisits locators rest with
      | error e => simp [hfound, hmore] at h
      | ok more =>
        simp only [hfound, hmore, Except.ok.injEq] at h
        rw [← h, List.mem_append, ih hmore, List.exists_mem_cons_iff, hfound]
        simp [eq_comm]

/-- The issues of a tree are those at its places. -/
theorem mem_issues_iff {found : Findings} (h : checkTree maxDepth locators tree = .ok found) :
    f ∈ found.issues ↔ ∃ place, IssueAt maxDepth locators tree place f := by
  unfold checkTree at h
  dsimp only at h
  split at h
  · cases h
  · rename_i issues hissues
    rw [← Except.ok.inj h, mem_checkVisits_iff hissues]
    constructor
    · intro hexists
      rcases hexists with ⟨v, hv, hissue⟩
      rcases Walk.mem_visits_iff.1 hv with ⟨place, hopen, hstands, hpath, hstep, -⟩
      refine ⟨place, hopen, v.value, hstands, ?_⟩
      rw [Option.or_none] at hstep
      rw [issueOf, Place.fieldPath, ← hpath, ← hstep]
      exact hissue
    · intro hexists
      rcases hexists with ⟨place, hopen, v, hv, hissue⟩
      refine ⟨⟨place.fieldPath, place.getLast?, v⟩, ?_, hissue⟩
      refine Walk.mem_visits_iff.2 ⟨place, hopen, hv, rfl, by rw [Option.or_none], ?_⟩
      rintro levels rfl
      cases hissue

/-- What is wrapped is a string with an expression. -/
theorem IssueAt.exists_wrapped (h : IssueAt maxDepth locators tree place f)
    (hkind : f.kind = .needsLocator) :
    ∃ s, (Value.str s).At place tree ∧ f.corrected = locator s ∧ marksExpression s = true := by
  rcases h.found with ⟨v, hv, hf⟩
  rcases (hkind ▸ corrects_of_issueOf hf).exists_wrapped with ⟨s, rfl, hlocator, hmarks⟩
  exact ⟨s, hv, hlocator, hmarks⟩

/-- The kind of an issue is that of the issue there is. -/
theorem kindAt_eq_some_iff :
    kindAt locators place v = .ok (some kind) ↔
      ∃ f, issueOf locators place v = .ok (some f) ∧ f.kind = kind := by
  unfold kindAt
  cases issueOf locators place v with
  | error e => simp [Except.map]
  | ok found => cases found <;> simp [Except.map]

/-- There is no answer at a place only if what stands there cannot be read. -/
theorem exists_kindAt_iff :
    (∃ found, kindAt locators place v = .ok found) ↔ isUnreadable v = false := by
  constructor
  · intro hexists
    rcases hexists with ⟨found, hfound⟩
    by_contra hbad
    rw [Bool.not_eq_false] at hbad
    have herror : issueOf locators place v = .error .locatorMode :=
      checkVisit_of_unreadable locators hbad
    rw [kindAt, herror] at hfound
    cases hfound
  · intro h
    have hissue : ∃ found, issueOf locators place v = .ok found := exists_checkVisit locators h
    rcases hissue with ⟨found, hfound⟩
    exact ⟨found.map FormatIssue.kind, by rw [kindAt, hfound]; rfl⟩

/-- A tree that was checked is readable. -/
theorem readable_of_checkTree {found : Findings}
    (h : checkTree maxDepth locators tree = .ok found) : Readable maxDepth tree := by
  by_contra hbad
  rw [checkTree_of_not_readable locators hbad] at h
  cases h

/-! ## Corrections that do not work -/

/-- The text of a string that is wrapped gets an issue of its own: the keys around it are empty, so
that its path is that of a parameter, and this parameter is a locator. -/
structure WrapsAgain (maxDepth : Number) (locators : List String) (place : Place)
    (f : FormatIssue) : Prop where
  kind : f.kind = .needsLocator
  unnamed : place.fieldPath = ""
  declared : "value" ∈ locators
  searched : Walk.Open { depth := maxDepth, skipPrivate := true } 0 (place ++ [.key "value"])

/-- The mode of a locator with a value is wrapped, and cannot be looked up any more. -/
structure WrapsMode (tree : Value) (place : Place) (f : FormatIssue) : Prop where
  kind : f.kind = .needsLocator
  mode : ∃ (parent : Place) (fields : Entries Value), place = parent ++ [.key "mode"] ∧
    (Value.obj fields).At parent tree ∧ isLocator fields = true ∧
      (fields.get? "value").isSome = true

/-- A correction works if the tree that it leads to can be checked, without an issue at the place of
the correction, and with issues elsewhere only where issues of the same kind have been before. -/
structure Mends (maxDepth : Number) (locators : List String) (tree : Value) (place : Place)
    (f : FormatIssue) : Prop where
  checked : ∃ found, checkTree maxDepth locators (tree.replace place f.corrected) = .ok found
  settled : ∀ f', ¬IssueAt maxDepth locators (tree.replace place f.corrected) place f'
  elsewhere : ∀ p f', p ≠ place → IssueAt maxDepth locators (tree.replace place f.corrected) p f' →
    ∃ f₀, IssueAt maxDepth locators tree p f₀ ∧ f₀.kind = f'.kind

/-- A value has the path of the parameter "value" if it stands under that key below empty keys. -/
theorem topLocator?_value :
    (topLocator? locators (place ++ [.key "value"])).isSome = true ↔
      place.fieldPath = "" ∧ "value" ∈ locators := by
  have htop : topKey? ⟨Place.fieldPath (place ++ [.key "value"]),
      (place ++ [PlaceStep.key "value"]).getLast?, .null⟩ =
      if Place.fieldPath place = "" then some "value" else none := by
    rw [List.getLast?_concat, Place.fieldPath_append]
    by_cases hempty : place.fieldPath = ""
    · rw [hempty, if_pos rfl]
      rfl
    · have hlonger : "value" ≠ place.fieldPath ++ "." ++ "value" := by
        intro heq
        have hlength := congrArg String.length heq
        rw [String.length_append, String.length_append] at hlength
        have hone : ".".length = 1 := rfl
        omega
      rw [if_neg hempty, Place.extend, if_neg hempty]
      simp [topKey?, Visit.key?, hlonger]
  rw [topLocator?, htop]
  by_cases hempty : place.fieldPath = ""
  · simp [hempty, Option.filter]
  · simp [hempty]

/-! ## One correction -/

section One

variable (hkeys : tree.Keyed) (hissue : IssueAt maxDepth locators tree place f)

include hkeys hissue

/-- What is found in a corrected tree: nothing, or what was found before at the same place, or the
issue of the text that has been wrapped. -/
theorem kindAt_replaced (hmode : ¬WrapsMode tree place f)
    (hopen : Walk.Open { depth := maxDepth, skipPrivate := true } 0 p)
    (hw : w.At p (tree.replace place f.corrected)) :
    kindAt locators p w = .ok none ∨
      (p ≠ place ∧ ∃ u : Value, u.At p tree ∧ kindAt locators p w = kindAt locators p u) ∨
        (WrapsAgain maxDepth locators place f ∧ p = place ++ [.key "value"] ∧
          kindAt locators p w = .ok (some .needsLocator)) := by
  rcases hissue.found with ⟨v, hv, hf⟩
  have hcorrects := corrects_of_issueOf hf
  have hentered : ∀ {p : Place}, Walk.Open { depth := maxDepth, skipPrivate := true } 0 p →
      PlaceStep.key "__rl" ∉ p := by
    intro p hopen hmem
    have hprivate : Walk.isPrivate "__rl" = true := by decide
    have henters := hopen.entered _ hmem
    simp [Walk.enters, hprivate] at henters
  -- A place of the new tree lies at or below the correction, above it, or apart from it.
  rcases Value.at_replace_cases hw with ⟨r, rfl, hr⟩ | ⟨s, r, x, rfl, hx, rfl⟩ | ⟨hne, hold⟩
  · cases r with
    | nil =>
      obtain rfl := Value.at_nil.1 hr
      rw [List.append_nil]
      exact .inl (kindAt_corrected hcorrects)
    | cons s r =>
      have hs : s ≠ .key "__rl" := fun heq => hentered hopen (by simp [heq])
      rcases kindAt_within hcorrects hr hs with hnone | ⟨u, hu, hsame⟩ | ⟨hkind, hvalue, htop, hagain⟩
      · exact .inl hnone
      · exact .inr (.inl ⟨by simp, u, Value.at_append.2 ⟨v, hv, hu⟩, hsame⟩)
      · rcases topLocator?_value.1 htop with ⟨hunnamed, hdeclared⟩
        rw [hvalue] at hopen hagain ⊢
        exact .inr (.inr ⟨⟨hkind, hunnamed, hdeclared, hopen⟩, rfl, hagain⟩)
  · rcases Value.at_append.1 hv with ⟨x', hx', hbelow⟩
    obtain rfl := hkeys.at_unique hx hx'
    have hs : s ≠ .key "__rl" := fun heq => hentered hissue.searched (by simp [heq])
    have hvalue : f.kind = .needsLocator → s :: r = [.key "mode"] → ∀ fields : Entries Value,
        x = .obj fields → isLocator fields = true → fields.get? "value" = none := by
      rintro hkind hstep fields rfl hlocator
      by_contra hsome
      exact hmode ⟨hkind, p, fields, by rw [hstep], hx, hlocator, Option.isSome_iff_ne_none.2 hsome⟩
    rcases kindAt_around (p := p) hcorrects (hkeys.of_at hx) hbelow hs hvalue with hnone | hsame
    · exact .inl hnone
    · exact .inr (.inl ⟨by simp, x, hx, hsame⟩)
  · exact .inr (.inl ⟨hne, w, hold, rfl⟩)

/-- Only a wrapped mode keeps the check from coming to an end. -/
theorem readable_replaced (hread : Readable maxDepth tree) (hmode : ¬WrapsMode tree place f) :
    Readable maxDepth (tree.replace place f.corrected) := by
  intro p w hopen hw
  have hanswer : ∃ found, kindAt locators p w = .ok found := by
    rcases kindAt_replaced hkeys hissue hmode hopen hw with
      hnone | ⟨-, u, hu, hsame⟩ | ⟨-, -, hagain⟩
    · exact ⟨_, hnone⟩
    · rw [hsame]
      exact exists_kindAt_iff.2 (hread p u hopen hu)
    · exact ⟨_, hagain⟩
  exact exists_kindAt_iff.1 hanswer

/-- The issues that a corrected tree still has. -/
theorem issueAt_replaced (hmode : ¬WrapsMode tree place f) {f' : FormatIssue}
    (h : IssueAt maxDepth locators (tree.replace place f.corrected) p f') :
    (p ≠ place ∧ ∃ f₀, IssueAt maxDepth locators tree p f₀ ∧ f₀.kind = f'.kind) ∨
      (WrapsAgain maxDepth locators place f ∧ p = place ++ [.key "value"]) := by
  rcases h.found with ⟨w, hw, hf'⟩
  have hkind : kindAt locators p w = .ok (some f'.kind) := kindAt_eq_some_iff.2 ⟨f', hf', rfl⟩
  rcases kindAt_replaced hkeys hissue hmode h.searched hw with
    hnone | ⟨hne, u, hu, hsame⟩ | ⟨hagain, hp, -⟩
  · rw [hkind] at hnone
    cases hnone
  · rw [hsame] at hkind
    rcases kindAt_eq_some_iff.1 hkind with ⟨f₀, hf₀, hsame⟩
    exact .inl ⟨hne, f₀, ⟨h.searched, u, hu, hf₀⟩, hsame⟩
  · exact .inr ⟨hagain, hp⟩

/-- The mode that is wrapped stands in the locator itself. -/
theorem exists_locator_of_wrapsMode (h : WrapsMode tree place f) :
    ∃ (parent : Place) (fields : Entries Value) (s : String), place = parent ++ [.key "mode"] ∧
      (Value.obj fields).At parent tree ∧ isLocator fields = true ∧
      (fields.get? "value").isSome = true ∧ fields.get? "mode" = some (.str s) ∧
      marksExpression s = true ∧ f.corrected = locator s := by
  rcases h.mode with ⟨parent, fields, rfl, hparent, hlocator, hvalue⟩
  rcases hissue.exists_wrapped h.kind with ⟨s, hs, hcorrected, hmarks⟩
  rcases Value.at_append.1 hs with ⟨x, hx, hbelow⟩
  obtain rfl := hkeys.at_unique hparent hx
  rcases at_obj_cons.1 hbelow with ⟨key, u, hkey, hmem, hu⟩
  obtain rfl := PlaceStep.key.inj hkey
  obtain rfl := Value.at_nil.1 hu
  have hget : Entries.get? "mode" fields = some (.str s) :=
    Entries.get?_of_mem (hkeys parent fields hparent) hmem
  exact ⟨parent, fields, s, rfl, hparent, hlocator, hvalue, hget, hmarks, hcorrected⟩

/-- A wrapped mode does keep the check from coming to an end. -/
theorem not_readable_of_wrapsMode (h : WrapsMode tree place f) :
    ¬Readable maxDepth (tree.replace place f.corrected) := by
  rcases exists_locator_of_wrapsMode hkeys hissue h with
    ⟨parent, fields, s, rfl, hparent, hlocator, hvalue, hget, -, hcorrected⟩
  let mended : Entries Value := Entries.alter "mode" (fun v => v.replace [] f.corrected) fields
  have hnew : (Value.obj fields).replace [.key "mode"] f.corrected = .obj mended := rfl
  -- The correction leaves the locator as it is but for its mode, which becomes a list.
  have hstill : isLocator mended = true := by
    rw [isLocator] at hlocator ⊢
    rw [Entries.get?_alter_of_ne (by decide)]
    exact hlocator
  have hfilled : mended.get? "value" = Entries.get? "value" fields :=
    Entries.get?_alter_of_ne (by decide)
  have hmode : mended.get? "mode" = some f.corrected := by
    rw [Entries.get?_alter_self, hget, Option.map_some, Value.replace_nil]
  have hunreadable : isUnreadable ((Value.obj fields).replace [.key "mode"] f.corrected) = true := by
    rw [hnew, isUnreadable, hstill, hfilled, hmode, hvalue, hcorrected]
    rfl
  intro hread
  have hreadable := hread parent _ hissue.searched.of_append
    (Value.at_replace_of_prefix.2 ⟨.obj fields, hparent, rfl⟩)
  rw [hunreadable] at hreadable
  cases hreadable

/-- But the locator with that mode has an issue itself. -/
theorem exists_issueAt_of_wrapsMode (h : WrapsMode tree place f) :
    ∃ parent f₀, IssueAt maxDepth locators tree parent f₀ ∧ f₀.kind = .badLocator := by
  rcases exists_locator_of_wrapsMode hkeys hissue h with
    ⟨parent, fields, s, rfl, hparent, hlocator, hvalue, hget, hmarks, -⟩
  rcases Option.isSome_iff_exists.1 hvalue with ⟨inner, hinner⟩
  have hunknown : knownMode (.str s) = .ok false := congrArg Except.ok (not_mem_locatorModes hmarks)
  have hkind : kindAt locators parent (.obj fields) = .ok (some .badLocator) := by
    rw [kindAt_obj, hlocator, if_pos rfl, hinner, hget, locatorKind]
    simp [hunknown]
  rcases kindAt_eq_some_iff.1 hkind with ⟨f₀, hf₀, hbad⟩
  have hsearched := hissue.searched.of_append
  exact ⟨parent, f₀, ⟨hsearched, _, hparent, hf₀⟩, hbad⟩

/-- Where a text is wrapped that is asked for a locator once more, there is an issue that has not
been there before. -/
theorem exists_issueAt_of_wrapsAgain (h : WrapsAgain maxDepth locators place f) :
    (∃ f', IssueAt maxDepth locators (tree.replace place f.corrected)
      (place ++ [.key "value"]) f') ∧
        ∀ f₀, ¬IssueAt maxDepth locators tree (place ++ [.key "value"]) f₀ := by
  rcases hissue.exists_wrapped h.kind with ⟨s, hs, hcorrected, hmarks⟩
  have hasked := topLocator?_value.2 ⟨h.unnamed, h.declared⟩
  have hkind : kindAt locators (place ++ [.key "value"]) (.str (withMark s)) =
      .ok (some .needsLocator) := by
    simp [kindAt_str, hmarks, hasked]
  have hstands : (Value.str (withMark s)).At (place ++ [.key "value"])
      (tree.replace place f.corrected) := by
    rw [hcorrected]
    exact Value.at_replace_append.2 ⟨⟨_, hs⟩, .within (.field (by simp)) .here⟩
  rcases kindAt_eq_some_iff.1 hkind with ⟨f', hf', -⟩
  refine ⟨⟨f', h.searched, _, hstands, hf'⟩, ?_⟩
  intro f₀ h₀
  rcases h₀.found with ⟨u, hu, -⟩
  rcases Value.at_append.1 hu with ⟨x, hx, hbelow⟩
  obtain rfl := hkeys.at_unique hs hx
  cases (at_str hbelow).1

/-- A correction works unless it is one of the two kinds that do not. -/
theorem mends_iff (hread : Readable maxDepth tree) :
    Mends maxDepth locators tree place f ↔
      ¬WrapsAgain maxDepth locators place f ∧ ¬WrapsMode tree place f := by
  constructor
  · intro h
    constructor
    · intro hagain
      rcases exists_issueAt_of_wrapsAgain hkeys hissue hagain with ⟨⟨f', hf'⟩, hnone⟩
      rcases h.elsewhere _ f' (by simp) hf' with ⟨f₀, hf₀, -⟩
      exact hnone f₀ hf₀
    · intro hmode
      rcases h.checked with ⟨found, hfound⟩
      exact not_readable_of_wrapsMode hkeys hissue hmode (readable_of_checkTree hfound)
  · intro hboth
    rcases hboth with ⟨hagain, hmode⟩
    refine ⟨exists_checkTree locators (readable_replaced hkeys hissue hread hmode), ?_, ?_⟩
    · intro f' hf'
      rcases issueAt_replaced hkeys hissue hmode hf' with ⟨hne, -⟩ | ⟨hwraps, -⟩
      · exact hne rfl
      · exact hagain hwraps
    · intro p f' hne hf'
      rcases issueAt_replaced hkeys hissue hmode hf' with ⟨-, h⟩ | ⟨hwraps, -⟩
      · exact h
      · exact absurd hwraps hagain

end One

/-! ## All corrections -/

/-- One tree comes from another one by one correction, and can still be checked. -/
def CorrectsTo (maxDepth : Number) (locators : List String) (tree tree' : Value) : Prop :=
  ∃ place f, IssueAt maxDepth locators tree place f ∧ tree' = tree.replace place f.corrected ∧
    ∃ found, checkTree maxDepth locators tree' = .ok found

def issuePlaces (maxDepth : Number) (locators : List String) (tree : Value) : Set Place :=
  {p | ∃ f, IssueAt maxDepth locators tree p f}

/-- The places without a path at which a locator is asked for. -/
def unnamedPlaces (maxDepth : Number) (locators : List String) (tree : Value) : Set Place :=
  {p | p.fieldPath = "" ∧ ∃ f, IssueAt maxDepth locators tree p f ∧ f.kind = .needsLocator}

/-- How much there is left to correct. A place without a path counts twice, since a correction there
may bring up one more issue. -/
noncomputable def remaining (maxDepth : Number) (locators : List String) (tree : Value) : Nat :=
  (issuePlaces maxDepth locators tree).ncard + (unnamedPlaces maxDepth locators tree).ncard

/-- There are issues at finitely many places only. -/
theorem finite_issuePlaces : (issuePlaces maxDepth locators tree).Finite :=
  (Value.finite_places tree).subset fun _ ⟨_, hissue⟩ =>
    let ⟨v, hv, _⟩ := hissue.found
    ⟨v, hv⟩

/-- There are finitely many places that lack a name. -/
theorem finite_unnamedPlaces : (unnamedPlaces maxDepth locators tree).Finite :=
  finite_issuePlaces.subset fun _ ⟨_, f, hissue, _⟩ => ⟨f, hissue⟩

section Run

variable (hkeys : tree.Keyed)

include hkeys

/-- Every correction leaves less to correct. -/
theorem remaining_lt (hissue : IssueAt maxDepth locators tree place f)
    (hmode : ¬WrapsMode tree place f) :
    remaining maxDepth locators (tree.replace place f.corrected) <
      remaining maxDepth locators tree := by
  let tree' := tree.replace place f.corrected
  have hplace : place ∈ issuePlaces maxDepth locators tree := ⟨f, hissue⟩
  -- The issue that a correction may bring up stands under a path.
  have hunnamed : unnamedPlaces maxDepth locators tree' ⊆
      unnamedPlaces maxDepth locators tree \ {place} := by
    intro p h
    rcases h with ⟨hpath, f', hf', hkind⟩
    rcases issueAt_replaced hkeys hissue hmode hf' with ⟨hne, f₀, hf₀, hsame⟩ | ⟨hagain, rfl⟩
    · exact ⟨⟨hpath, f₀, hf₀, hsame.trans hkind⟩, hne⟩
    · rw [Place.fieldPath_append, hagain.unnamed] at hpath
      exact absurd hpath (by decide)
  have hfew : (unnamedPlaces maxDepth locators tree').ncard ≤
      (unnamedPlaces maxDepth locators tree \ {place}).ncard :=
    Set.ncard_le_ncard hunnamed finite_unnamedPlaces.sdiff
  have hone : (issuePlaces maxDepth locators tree \ {place}).ncard + 1 =
      (issuePlaces maxDepth locators tree).ncard :=
    Set.ncard_sdiff_singleton_add_one hplace finite_issuePlaces
  change (issuePlaces maxDepth locators tree').ncard + (unnamedPlaces maxDepth locators tree').ncard <
    (issuePlaces maxDepth locators tree).ncard + (unnamedPlaces maxDepth locators tree).ncard
  by_cases hagain : WrapsAgain maxDepth locators place f
  · have hsub : issuePlaces maxDepth locators tree' ⊆
        insert (place ++ [.key "value"]) (issuePlaces maxDepth locators tree \ {place}) := by
      intro p h
      rcases h with ⟨f', hf'⟩
      rcases issueAt_replaced hkeys hissue hmode hf' with ⟨hne, f₀, hf₀, -⟩ | ⟨-, rfl⟩
      · exact .inr ⟨⟨f₀, hf₀⟩, hne⟩
      · exact .inl rfl
    have hsame := Set.ncard_le_ncard hsub (finite_issuePlaces.sdiff.insert _)
    have hinsert := Set.ncard_insert_le (place ++ [PlaceStep.key "value"])
      (issuePlaces maxDepth locators tree \ {place})
    have hless : (unnamedPlaces maxDepth locators tree \ {place}).ncard + 1 =
        (unnamedPlaces maxDepth locators tree).ncard :=
      Set.ncard_sdiff_singleton_add_one ⟨hagain.unnamed, f, hissue, hagain.kind⟩
        finite_unnamedPlaces
    omega
  · have hsub : issuePlaces maxDepth locators tree' ⊆
        issuePlaces maxDepth locators tree \ {place} := by
      intro p h
      rcases h with ⟨f', hf'⟩
      rcases issueAt_replaced hkeys hissue hmode hf' with ⟨hne, f₀, hf₀, -⟩ | ⟨hwraps, -⟩
      · exact ⟨⟨f₀, hf₀⟩, hne⟩
      · exact absurd hwraps hagain
    have hless := Set.ncard_le_ncard hsub finite_issuePlaces.sdiff
    have hleft := Set.ncard_le_ncard (Set.sdiff_subset (s := unnamedPlaces maxDepth locators tree)
      (t := {place})) finite_unnamedPlaces
    omega

/-- Corrections keep keys distinct. -/
theorem keyed_of_correctsTo {tree' : Value} (h : CorrectsTo maxDepth locators tree tree') :
    tree'.Keyed := by
  rcases h with ⟨place, f, hissue, rfl, -⟩
  rcases hissue.found with ⟨v, hv, hf⟩
  exact hkeys.replace ((corrects_of_issueOf hf).keyed (hkeys.of_at hv))

/-- A correction leaves less to be corrected. -/
theorem remaining_lt_of_correctsTo {tree' : Value} (h : CorrectsTo maxDepth locators tree tree') :
    remaining maxDepth locators tree' < remaining maxDepth locators tree := by
  rcases h with ⟨place, f, hissue, rfl, found, hfound⟩
  refine remaining_lt hkeys hissue ?_
  intro hmode
  exact not_readable_of_wrapsMode hkeys hissue hmode (readable_of_checkTree hfound)

/-- As long as there are issues, one of them can be corrected. -/
theorem exists_correctsTo (hread : Readable maxDepth tree)
    (hissue : IssueAt maxDepth locators tree place f) :
    ∃ tree', CorrectsTo maxDepth locators tree tree' := by
  have hsome : ∃ q f₀, IssueAt maxDepth locators tree q f₀ ∧ ¬WrapsMode tree q f₀ := by
    by_cases hmode : WrapsMode tree place f
    · rcases exists_issueAt_of_wrapsMode hkeys hissue hmode with ⟨parent, f₀, hf₀, hkind⟩
      refine ⟨parent, f₀, hf₀, ?_⟩
      intro h
      rw [h.kind] at hkind
      cases hkind
    · exact ⟨place, f, hissue, hmode⟩
  rcases hsome with ⟨q, f₀, hf₀, hmode⟩
  exact ⟨_, q, f₀, hf₀, rfl, exists_checkTree locators (readable_replaced hkeys hf₀ hread hmode)⟩

/-- No sequence of corrections is endless. -/
theorem acc_correctsTo : Acc (fun next t => CorrectsTo maxDepth locators t next) tree := by
  induction hcount : remaining maxDepth locators tree using Nat.strong_induction_on
    generalizing tree with
  | _ count ih =>
    refine Acc.intro tree ?_
    intro next hnext
    exact ih _ (hcount ▸ remaining_lt_of_correctsTo hkeys hnext) (keyed_of_correctsTo hkeys hnext)
      rfl

/-- Corrections lead to a tree without issues. -/
theorem exists_clean (hread : Readable maxDepth tree) :
    ∃ tree' clean, Relation.ReflTransGen (CorrectsTo maxDepth locators) tree tree' ∧
      checkTree maxDepth locators tree' = .ok clean ∧ clean.issues = [] := by
  have hacc : Acc (fun next t => CorrectsTo maxDepth locators t next) tree := acc_correctsTo hkeys
  induction hacc with
  | intro tree _ ih =>
    rcases exists_checkTree locators hread with ⟨found, hfound⟩
    by_cases hnone : found.issues = []
    · exact ⟨tree, found, .refl, hfound, hnone⟩
    · rcases List.exists_mem_of_ne_nil _ hnone with ⟨f, hf⟩
      rcases (mem_issues_iff hfound).1 hf with ⟨place, hissue⟩
      rcases exists_correctsTo hkeys hread hissue with ⟨next, hnext⟩
      have hreadable : Readable maxDepth next := by
        rcases hnext with ⟨-, -, -, -, more, hmore⟩
        exact readable_of_checkTree hmore
      rcases ih next hnext (keyed_of_correctsTo hkeys hnext) hreadable with
        ⟨tree', clean, hrun, hclean⟩
      exact ⟨tree', clean, .head hnext hrun, hclean⟩

end Run

/-- Where the check of a tree comes to an end, a correction works exactly if it neither wraps a text
whose path is then that of a locator, nor the mode of a locator with a value. However corrections
follow each other, there are only so many of them as long as the check comes to an end, and one can
always go on to a tree without issues. -/
theorem corrections_mend {found : Findings} (hkeys : tree.Keyed)
    (h : checkTree maxDepth locators tree = .ok found) :
    (∀ f, f ∈ found.issues ↔ ∃ place, IssueAt maxDepth locators tree place f) ∧
    (∀ place f, IssueAt maxDepth locators tree place f →
      (Mends maxDepth locators tree place f ↔
        ¬WrapsAgain maxDepth locators place f ∧ ¬WrapsMode tree place f)) ∧
    Acc (fun next t => CorrectsTo maxDepth locators t next) tree ∧
    ∀ t, Relation.ReflTransGen (CorrectsTo maxDepth locators) tree t →
      ∃ tree' clean, Relation.ReflTransGen (CorrectsTo maxDepth locators) t tree' ∧
        checkTree maxDepth locators tree' = .ok clean ∧ clean.issues = [] := by
  have hread := readable_of_checkTree h
  refine ⟨fun f => mem_issues_iff h, fun place f hissue => mends_iff hkeys hissue hread,
    acc_correctsTo hkeys, ?_⟩
  intro t hrun
  have hreached : t.Keyed ∧ Readable maxDepth t := by
    induction hrun with
    | refl => exact ⟨hkeys, hread⟩
    | tail _ hnext ih =>
      refine ⟨keyed_of_correctsTo ih.1 hnext, ?_⟩
      rcases hnext with ⟨-, -, -, -, more, hmore⟩
      exact readable_of_checkTree hmore
  exact exists_clean hreached.1 hreached.2

/-- An expression that stands under a single key. -/
def singleText (key : String) : Value :=
  .obj [(key, .str "\x7b\x7b $json.x \x7d\x7d")]

/-- A single text under a key has distinct keys. -/
theorem keyed_singleText (key : String) : (singleText key).Keyed := by
  refine Value.keyed_obj_iff.2 ⟨by simp [Entries.Distinct, Entries.keys], ?_⟩
  simp [Value.keyed_str]

theorem channel_mended :
    ∃ found, checkTree (.int 100) ["channel"] (singleText "channel") = .ok found ∧
      ∃ place f, f ∈ found.issues ∧ f.kind = .needsLocator ∧
        Mends (.int 100) ["channel"] (singleText "channel") place f := by
  let f : FormatIssue := needsLocator "channel" "channel" "\x7b\x7b $json.x \x7d\x7d"
  have hissue : IssueAt (.int 100) ["channel"] (singleText "channel") [.key "channel"] f :=
    ⟨⟨by decide, by decide⟩, _, .within (.field List.mem_cons_self) .here, rfl⟩
  have hchecked : ∃ found, checkTree (.int 100) ["channel"] (singleText "channel") = .ok found :=
    ⟨_, rfl⟩
  rcases hchecked with ⟨found, hfound⟩
  rcases corrections_mend (keyed_singleText "channel") hfound with ⟨hissues, hmends, -, -⟩
  refine ⟨found, hfound, [.key "channel"], f, (hissues f).2 ⟨_, hissue⟩, rfl, ?_⟩
  refine (hmends _ f hissue).2 ⟨?_, ?_⟩
  · intro hagain
    exact absurd hagain.unnamed (by decide)
  · intro hmode
    rcases hmode.mode with ⟨parent, fields, hplace, -⟩
    have hlast := congrArg List.getLast? hplace
    rw [List.getLast?_concat] at hlast
    exact absurd hlast (by decide)

/-- Under an empty key the text of a wrapped string has the path of another parameter. -/
theorem unnamed_not_mended :
    ∃ found, checkTree (.int 100) ["", "value"] (singleText "") = .ok found ∧
      ¬∀ place f, IssueAt (.int 100) ["", "value"] (singleText "") place f →
        Mends (.int 100) ["", "value"] (singleText "") place f := by
  let f : FormatIssue := needsLocator "" "" "\x7b\x7b $json.x \x7d\x7d"
  have hissue : IssueAt (.int 100) ["", "value"] (singleText "") [.key ""] f :=
    ⟨⟨by decide, by decide⟩, _, .within (.field List.mem_cons_self) .here, rfl⟩
  have hagain : WrapsAgain (.int 100) ["", "value"] [.key ""] f :=
    ⟨rfl, by decide, by decide, by decide, by decide⟩
  have hchecked : ∃ found, checkTree (.int 100) ["", "value"] (singleText "") = .ok found :=
    ⟨_, rfl⟩
  rcases hchecked with ⟨found, hfound⟩
  refine ⟨found, hfound, ?_⟩
  intro hall
  have hmends := hall _ f hissue
  exact ((mends_iff (keyed_singleText "") hissue (readable_of_checkTree hfound)).1 hmends).1 hagain

end Format
end Workflows
