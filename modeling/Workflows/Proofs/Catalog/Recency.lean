import Mathlib.Data.List.Dedup
import Mathlib.Data.List.DropRight
import Workflows.Proofs.Catalog.Coherence

/-!
# Recency — what a cache holds after some calls

A cache holds the versions used last, the one used longest ago first, and of each of them the
outcomes of all look-ups since it came into the cache. A look-up therefore asks its catalog unless
the same type was looked up in the same version since then. A version that was forgotten and is used
again starts anew.

A cache sees of a catalog only its version and its answer. Catalogs with the same version may
answer differently, and what is said here holds for them as well.

Main definitions:

* `SchemaCache.Call` — a look-up in a catalog as it is at that moment;
* `SchemaCache.run`, `SchemaCache.sinceClear` — a course of calls and clearings, and the calls since
  the cache was empty;
* `SchemaCache.Entered` — the calls since a version came into the cache;
* `SchemaCache.recency` — which versions are held, and which calls ask their catalogs.
-/

namespace Workflows
namespace SchemaCache

/-! ## The versions used last -/

/-- What is used once more moves to the end of what was used. -/
theorem dedup_concat (used : List String) (v : String) :
    (used ++ [v]).dedup = used.dedup.filter (· != v) ++ [v] := by
  induction used with
  | nil => rfl
  | cons u rest ih =>
    by_cases hrest : u ∈ rest
    · have hall : u ∈ rest ++ [v] := List.mem_append_left _ hrest
      rw [List.cons_append, List.dedup_cons_of_mem hall, List.dedup_cons_of_mem hrest, ih]
    · by_cases huv : u = v
      · have hall : u ∈ rest ++ [v] := by simp [huv]
        rw [List.cons_append, List.dedup_cons_of_mem hall, List.dedup_cons_of_notMem hrest, ih]
        simp [huv]
      · have hall : u ∉ rest ++ [v] := by simp [hrest, huv]
        rw [List.cons_append, List.dedup_cons_of_notMem hall, List.dedup_cons_of_notMem hrest, ih]
        simp [huv]

/-- One element less is taken of a list without one of its elements. -/
theorem take_filter_take {l : List String} (hl : l.Nodup) (v : String) (n : Nat) :
    ((l.take (n + 1)).filter (· != v)).take n = (l.filter (· != v)).take n := by
  induction l generalizing n with
  | nil => rfl
  | cons a rest ih =>
    obtain ⟨hnew, hrest⟩ := List.nodup_cons.1 hl
    by_cases hav : a = v
    · subst hav
      have hkeep : ∀ b ∈ rest, (b != a) = true := by
        intro b hb
        rw [bne_iff_ne]
        rintro rfl
        exact hnew hb
      have hkept : ∀ b ∈ rest.take n, (b != a) = true := fun b hb =>
        hkeep b (List.mem_of_mem_take hb)
      have hnone : ¬ (a != a) = true := by simp
      simp only [List.take_succ_cons, List.filter_cons_of_neg (p := (· != a)) hnone,
        List.filter_eq_self.2 hkept, List.filter_eq_self.2 hkeep, List.take_take, Nat.min_self]
    · cases n with
      | zero => rfl
      | succ n =>
        have hne : (a != v) = true := bne_iff_ne.2 hav
        simp only [List.take_succ_cons, List.filter_cons_of_pos (p := (· != v)) hne, ih hrest]

/-- To take a version out makes room for one more of those that were used last. -/
theorem rtake_filter_rtake {l : List String} (hl : l.Nodup) (v : String) (n : Nat) :
    ((l.rtake (n + 1)).filter (· != v)).rtake n = (l.filter (· != v)).rtake n := by
  simp only [List.rtake_eq_reverse_take_reverse, ← List.filter_reverse, List.reverse_reverse,
    take_filter_take (List.nodup_reverse.2 hl)]

/-! ## What a look-up does -/

section Lookup

variable {s : SchemaCache} {c : Catalog} {type version touched name : String}
  {outcomes : Entries (Option NodeType)}

/-- No version is held twice, and there are not too many. -/
structure Kept (s : SchemaCache) : Prop where
  distinct : s.known.Distinct
  bounded : s.known.length ≤ capacity

/-- An empty cache is well kept. -/
theorem kept_empty : empty.Kept :=
  ⟨List.nodup_nil, Nat.zero_le _⟩

theorem length_versions (s : SchemaCache) : s.versions.length = s.known.length :=
  List.length_map _

/-- The catalog is asked if the outcome is not remembered. -/
theorem asked_lookup :
    (s.lookup c type).asked = (s.remembered? c.version (TypeName.normalize type)).isNone := by
  unfold lookup
  dsimp only
  split <;> rename_i h <;> rw [h] <;> rfl

/-- When the outcome is known the version is touched, and nothing else changes. -/
theorem cache_of_known (h : (s.remembered? c.version (TypeName.normalize type)).isSome) :
    (s.lookup c type).cache = s.touch c.version ((s.known.get? c.version).getD []) := by
  obtain ⟨found, hfound⟩ := Option.isSome_iff_exists.1 h
  unfold lookup
  simp only [hfound]

/-- When the outcome is new it is added to those of the version, and the oldest version may have to
go. -/
theorem cache_of_new (h : s.remembered? c.version (TypeName.normalize type) = none) :
    (s.lookup c type).cache =
      (s.touch c.version (((s.known.get? c.version).getD []).put (TypeName.normalize type)
        (c.find? (TypeName.normalize type)))).trim := by
  unfold lookup
  simp only [h]

/-- The version of what is remembered is held. -/
theorem mem_versions_of_remembered? (h : (s.remembered? version name).isSome) :
    version ∈ s.versions := by
  by_contra hnew
  rw [remembered?, Entries.get?_eq_none_iff.2 hnew] at h
  simp at h

/-- A version that is touched becomes the last one. -/
theorem versions_touch (hs : s.Kept) :
    (s.touch touched outcomes).versions = s.versions.filter (· != touched) ++ [touched] := by
  unfold versions touch
  rw [← Entries.keys_erase hs.distinct]
  exact List.map_append

/-- No version is held twice after one was touched. -/
theorem distinct_touch (hs : s.Kept) : (s.touch touched outcomes).known.Distinct := by
  unfold Entries.Distinct
  rw [← versions, versions_touch hs]
  exact List.nodup_append.2 ⟨hs.distinct.filter _, List.nodup_singleton _, by simp⟩

/-- The versions that remain are the last ones. -/
theorem versions_trim (s : SchemaCache) : s.trim.versions = s.versions.rtake capacity := by
  rw [List.rtake, length_versions]
  exact List.map_drop

/-- The version that is used comes last, and the one used longest ago goes if there is no room. -/
theorem versions_lookup (hs : s.Kept) :
    (s.lookup c type).cache.versions =
      (s.versions.filter (· != c.version) ++ [c.version]).rtake capacity := by
  let others := s.versions.filter (· != c.version)
  cases hfound : s.remembered? c.version (TypeName.normalize type) with
  | none => rw [cache_of_new hfound, versions_trim, versions_touch hs]
  | some found =>
    have hknown : (s.remembered? c.version (TypeName.normalize type)).isSome :=
      Option.isSome_of_eq_some hfound
    -- The version was there before, so that there is room.
    have hless : others.length < s.versions.length :=
      List.length_filter_lt_length_iff_exists.2
        ⟨c.version, mem_versions_of_remembered? hknown, by simp⟩
    have hbounded : s.versions.length ≤ capacity := by
      rw [length_versions]
      exact hs.bounded
    have hroom : (others ++ [c.version]).length - capacity = 0 := by
      rw [List.length_append, List.length_singleton]
      omega
    rw [cache_of_known hknown, versions_touch hs, List.rtake, hroom, List.drop_zero]

/-- A look-up keeps the cache well. -/
theorem Kept.lookup (hs : s.Kept) (c : Catalog) (type : String) :
    (s.lookup c type).cache.Kept := by
  have hversions : (s.lookup c type).cache.versions =
      (s.versions.filter (· != c.version) ++ [c.version]).rtake capacity := versions_lookup hs
  constructor
  · have hnodup : (s.touch c.version []).versions.Nodup := distinct_touch hs
    unfold Entries.Distinct
    rw [← versions, hversions, ← versions_touch hs]
    exact hnodup.sublist (List.drop_sublist _ _)
  · rw [← length_versions, hversions, List.rtake, List.length_drop]
    omega

/-- The version of the catalog that was asked last is held. -/
theorem mem_versions_lookup (hs : s.Kept) : c.version ∈ (s.lookup c type).cache.versions := by
  rw [versions_lookup hs, capacity, List.rtake_concat_succ]
  exact List.mem_append_right _ (List.mem_singleton_self _)

/-- To touch a version replaces its outcomes and leaves those of the others. -/
theorem remembered?_touch (hs : s.Kept) :
    (s.touch touched outcomes).remembered? version name =
      if touched = version then outcomes.get? name else s.remembered? version name := by
  unfold remembered? touch
  rw [Entries.get?_append]
  by_cases h : touched = version
  · subst h
    rw [Entries.get?_eq_none_iff.2 (Entries.not_mem_keys_erase hs.distinct touched)]
    simp [Entries.get?]
  · simp [Entries.get?_erase_of_ne _ (Ne.symm h), Entries.get?, h]

/-- The versions that remain keep their outcomes. -/
theorem remembered?_trim (hs : s.known.Distinct) (h : version ∈ s.trim.versions) :
    s.trim.remembered? version name = s.remembered? version name := by
  have hsub : s.trim.known.Sublist s.known := List.drop_sublist _ _
  unfold remembered?
  rw [Entries.get?_eq_of_sublist hs hsub h]

/-- An outcome is known of a version exactly if it is remembered. -/
theorem get?_outcomes :
    Entries.get? name ((s.known.get? version).getD []) = s.remembered? version name := by
  unfold remembered?
  cases s.known.get? version <;> rfl

/-- Of a version that it holds afterwards, the cache knows the outcomes it has known and that of the
look-up. -/
theorem remembered?_lookup (hs : s.Kept) (h : version ∈ (s.lookup c type).cache.versions) :
    ((s.lookup c type).cache.remembered? version name).isSome ↔
      c.version = version ∧ TypeName.normalize type = name ∨
        (s.remembered? version name).isSome := by
  cases hfound : s.remembered? c.version (TypeName.normalize type) with
  | none =>
    rw [cache_of_new hfound] at h ⊢
    rw [remembered?_trim (distinct_touch hs) h, remembered?_touch hs]
    by_cases hversion : c.version = version
    · by_cases hname : TypeName.normalize type = name
      · simp [hversion, hname]
      · rw [if_pos hversion, Entries.get?_put_of_ne _ _ (Ne.symm hname), get?_outcomes, hversion]
        simp [hname]
    · simp [hversion]
  | some found =>
    have hknown : (s.remembered? c.version (TypeName.normalize type)).isSome :=
      Option.isSome_of_eq_some hfound
    rw [cache_of_known hknown, remembered?_touch hs]
    by_cases hversion : c.version = version
    · rw [if_pos hversion, get?_outcomes, ← hversion]
      refine ⟨Or.inr, ?_⟩
      intro hcases
      rcases hcases with ⟨-, rfl⟩ | hold
      · exact hknown
      · exact hold
    · simp [hversion]

end Lookup

/-! ## Courses of calls -/

/-- A look-up of a type in a catalog as it is at that moment. -/
structure Call where
  catalog : Catalog
  type : String

namespace Call

def version (q : Call) : String :=
  q.catalog.version

/-- What a cache tells a call by. -/
def key (q : Call) : String × String :=
  (q.version, TypeName.normalize q.type)

end Call

inductive Event
  | get (q : Call)
  | clear

def step (s : SchemaCache) : Event → SchemaCache
  | .get q => (s.lookup q.catalog q.type).cache
  | .clear => empty

/-- A new cache after a course of events. -/
def run (events : List Event) : SchemaCache :=
  events.foldl step empty

def recorded (calls : List Call) : Event → List Call
  | .get q => calls ++ [q]
  | .clear => []

/-- The calls since the cache was made or cleared the last time. -/
def sinceClear (events : List Event) : List Call :=
  events.foldl recorded []

def after (calls : List Call) : SchemaCache :=
  run (calls.map Event.get)

/-- The version was not held before, and is held after each of the later calls. -/
structure Entered (version : String) (before since : List Call) : Prop where
  absent : version ∉ (after before).versions
  held : ∀ front, front <+: since → front ≠ [] → version ∈ (after (before ++ front)).versions

section Courses

variable {before since calls : List Call} {version name : String}

/-- The last call is made with the cache that the calls before it have left. -/
theorem after_concat (calls : List Call) (q : Call) :
    after (calls ++ [q]) = ((after calls).lookup q.catalog q.type).cache := by
  unfold after run
  rw [List.map_append, List.foldl_append]
  rfl

/-- The cache is well kept after any calls. -/
theorem kept_after (calls : List Call) : (after calls).Kept := by
  induction calls using List.reverseRecOn with
  | nil => exact kept_empty
  | append_singleton front q ih =>
    rw [after_concat]
    exact ih.lookup q.catalog q.type

/-- What was before the last clearing makes no difference. -/
theorem run_eq_after (events : List Event) : run events = after (sinceClear events) := by
  induction events using List.reverseRecOn with
  | nil => rfl
  | append_singleton front e ih =>
    have hrun : run (front ++ [e]) = (run front).step e := List.foldl_concat _ _ _ _
    have hsince : sinceClear (front ++ [e]) = recorded (sinceClear front) e :=
      List.foldl_concat _ _ _ _
    rw [hrun, hsince, ih]
    cases e with
    | get q => exact (after_concat _ q).symm
    | clear => rfl

/-- The versions held after some calls are those called last, each of them once. -/
theorem versions_after (calls : List Call) :
    (after calls).versions = (calls.map Call.version).dedup.rtake capacity := by
  induction calls using List.reverseRecOn with
  | nil => rfl
  | append_singleton front q ih =>
    let before := (front.map Call.version).dedup
    calc (after (front ++ [q])).versions
        = ((before.rtake capacity).filter (· != q.version) ++ [q.version]).rtake capacity := by
          rw [after_concat, versions_lookup (kept_after front), ih]
          rfl
      _ = (before.filter (· != q.version) ++ [q.version]).rtake capacity := by
          rw [capacity, List.rtake_concat_succ, List.rtake_concat_succ,
            rtake_filter_rtake (List.nodup_dedup _)]
      _ = ((front ++ [q]).map Call.version).dedup.rtake capacity := by
          rw [List.map_append, List.map_singleton, dedup_concat]

/-- A version that has been held through all calls has been held through all but the last one. -/
theorem Entered.of_concat {q : Call} (h : Entered version before (since ++ [q])) :
    Entered version before since :=
  ⟨h.absent, fun front hfront => h.held front (hfront.trans (List.prefix_append _ _))⟩

/-- A version that is still held after one more call has been held through this one too. -/
theorem Entered.concat {q : Call} (h : Entered version before since)
    (hq : version ∈ (after (before ++ (since ++ [q]))).versions) :
    Entered version before (since ++ [q]) := by
  refine ⟨h.absent, ?_⟩
  intro front hfront hne
  rcases List.prefix_concat_iff.1 hfront with rfl | hold
  · exact hq
  · exact h.held front hold hne

/-- There is only one point from which a version has been held without interruption. -/
theorem Entered.unique {before' since' : List Call} (h : Entered version before since)
    (h' : Entered version before' since') (hsplit : before ++ since = before' ++ since') :
    before = before' ∧ since = since' := by
  rcases List.append_eq_append_iff.1 hsplit with ⟨front, rfl, hsince⟩ | ⟨front, rfl, hsince⟩
  · by_cases hfront : front = []
    · simpa [hfront] using hsince
    · exact absurd (h.held front ⟨_, hsince.symm⟩ hfront) h'.absent
  · by_cases hfront : front = []
    · simpa [hfront, eq_comm] using hsince
    · exact absurd (h'.held front ⟨_, hsince.symm⟩ hfront) h.absent

/-- At every moment there are the calls since a version came into the cache, none of them if it is
not there. -/
theorem exists_entered (version : String) (calls : List Call) :
    ∃ before since, calls = before ++ since ∧ Entered version before since := by
  induction calls using List.reverseRecOn with
  | nil =>
    refine ⟨[], [], rfl, List.not_mem_nil, ?_⟩
    intro front hfront hne
    exact absurd (List.prefix_nil.1 hfront) hne
  | append_singleton front q ih =>
    by_cases hheld : version ∈ (after (front ++ [q])).versions
    · obtain ⟨before, since, rfl, hentered⟩ := ih
      rw [List.append_assoc] at hheld
      exact ⟨before, since ++ [q], List.append_assoc _ _ _, hentered.concat hheld⟩
    · refine ⟨front ++ [q], [], (List.append_nil _).symm, hheld, ?_⟩
      intro front hfront hne
      exact absurd (List.prefix_nil.1 hfront) hne

/-- Of a version the cache knows what was looked up since the version came in, and nothing else. -/
theorem remembered?_after (h : Entered version before since) :
    ((after (before ++ since)).remembered? version name).isSome ↔
      ∃ p ∈ since, p.key = (version, name) := by
  -- The induction is on the calls since the version has come in, the last one at a time.
  induction since using List.reverseRecOn with
  | nil =>
    rw [List.append_nil]
    refine ⟨fun hknown => absurd (mem_versions_of_remembered? hknown) h.absent, ?_⟩
    intro hexists
    rcases hexists with ⟨p, hp, -⟩
    exact absurd hp List.not_mem_nil
  | append_singleton front q ih =>
    have hheld := h.held (front ++ [q]) (List.prefix_refl _) (List.concat_ne_nil q front)
    rw [← List.append_assoc, after_concat] at hheld ⊢
    rw [remembered?_lookup (kept_after _) hheld, ih h.of_concat]
    have hkey : q.catalog.version = version ∧ TypeName.normalize q.type = name ↔
        q.key = (version, name) := Prod.mk.injEq _ _ _ _ ▸ Iff.rfl
    rw [hkey]
    constructor
    · intro hcases
      rcases hcases with hq | ⟨p, hp, hsame⟩
      · exact ⟨q, List.mem_append_right _ (List.mem_singleton_self q), hq⟩
      · exact ⟨p, List.mem_append_left _ hp, hsame⟩
    · intro hexists
      rcases hexists with ⟨p, hp, hsame⟩
      rcases List.mem_append.1 hp with hold | hnew
      · exact Or.inr ⟨p, hold, hsame⟩
      · exact Or.inl (List.mem_singleton.1 hnew ▸ hsame)

end Courses

/-- After every course of events a cache holds the versions used last since it was empty, each in
the place of its last use. A call then asks its catalog just if none of the calls since its version
came into the cache, which may be by this call itself, was for the same type in the same version. -/
theorem recency (events : List Event) :
    (run events).versions = ((sinceClear events).map Call.version).dedup.rtake capacity ∧
      ∀ q : Call, ∃ before since, sinceClear events = before ++ since ∧
        Entered q.version before (since ++ [q]) ∧
          (((run events).lookup q.catalog q.type).asked = true ↔ ∀ p ∈ since, p.key ≠ q.key) := by
  rw [run_eq_after]
  refine ⟨versions_after _, ?_⟩
  intro q
  obtain ⟨before, since, hsplit, hentered⟩ := exists_entered q.version (sinceClear events)
  rw [hsplit]
  have hheld : q.version ∈ (after (before ++ (since ++ [q]))).versions := by
    rw [← List.append_assoc, after_concat]
    exact mem_versions_lookup (kept_after _)
  refine ⟨before, since, rfl, hentered.concat hheld, ?_⟩
  have hknown : ((after (before ++ since)).remembered? q.version
      (TypeName.normalize q.type)).isSome ↔ ∃ p ∈ since, p.key = q.key := remembered?_after hentered
  rw [asked_lookup, Option.isNone_iff_eq_none, ← Option.not_isSome_iff_eq_none]
  exact (not_congr hknown).trans (by simp [Call.key])

end SchemaCache
end Workflows
