import Mathlib.Logic.Function.Basic
import Workflows.Catalog.Cache
import Workflows.Proofs.Entries
import Workflows.Proofs.TypeName

/-!
# Coherence — a cache that several catalogs share

A cache knows a catalog only by the text of its version. It serves what it remembers to every
catalog that bears the version, so what is served is right as long as equal versions mean equal
types. Each catalog alone sees to that, since a registration makes a version that it never had. But
two catalogs can come to bear one version with different types: when they begin with the same
version and register different types, or when the version of one is that of the other with the
number of a registration behind it.

Which look-ups go before, in which order, and what the cache has forgotten in between, makes no
difference: it is the course of the registrations that counts.

Main definitions:

* `Sharing`, `Sharing.Event`, `Sharing.run` — catalogs with one cache, and what is done with them;
* `Sharing.Current` — every look-up finds what its catalog holds at that moment;
* `Sharing.VersionsTell` — on a course of registrations equal versions mean equal types;
* `Sharing.current_iff` — on which courses, and for which catalogs, all look-ups are current.
-/

namespace Workflows

/-! ## Versions -/

namespace Catalog

/-- The version that a catalog has after a number of registrations. -/
def versionAfter (base : String) (n : Nat) : String :=
  ({ baseVersion := base, revision := n } : Catalog).version

/-- A catalog starts with the version that it was made with. -/
theorem versionAfter_zero (base : String) : versionAfter base 0 = base := rfl

/-- From the first registration on the number of registrations stands behind the version. -/
theorem versionAfter_succ (base : String) (n : Nat) :
    versionAfter base (n + 1) = base ++ "+" ++ toString (n + 1) := rfl

theorem toList_versionAfter_succ (base : String) (n : Nat) :
    (versionAfter base (n + 1)).toList = base.toList ++ '+' :: Nat.toDigits 10 (n + 1) := by
  have hdigits : (toString (n + 1)).toList = Nat.toDigits 10 (n + 1) := by
    rw [Nat.toString_eq_repr, Nat.toList_repr]
  rw [versionAfter_succ, String.toList_append, String.toList_append, hdigits, List.append_assoc]
  rfl

/-- A number is told by its digits. -/
theorem toDigits_inj {m n : Nat} (h : Nat.toDigits 10 m = Nat.toDigits 10 n) : m = n := by
  rw [← Nat.ofDigitChars_ten_toDigits (n := m), h, Nat.ofDigitChars_ten_toDigits]

/-- What is behind the last plus sign is the number of the registrations. -/
theorem takeWhile_versionAfter (base : String) (n : Nat) :
    (versionAfter base (n + 1)).toList.reverse.takeWhile (· != '+') =
      (Nat.toDigits 10 (n + 1)).reverse := by
  have hdigits : ∀ c ∈ (Nat.toDigits 10 (n + 1)).reverse, (c != '+') = true := by
    intro c hc
    have hdigit := Nat.isDigit_of_mem_toDigits (by decide) (by decide) (List.mem_reverse.1 hc)
    rw [bne_iff_ne]
    rintro rfl
    exact absurd hdigit (by decide)
  have hreverse : (versionAfter base (n + 1)).toList.reverse =
      (Nat.toDigits 10 (n + 1)).reverse ++ '+' :: base.toList.reverse := by
    rw [toList_versionAfter_succ]
    simp
  rw [hreverse, List.takeWhile_append_of_pos hdigits]
  simp

/-- Versions with a number tell both what is in front of it and the number. -/
theorem versionAfter_succ_inj {base base' : String} {m n : Nat}
    (h : versionAfter base (m + 1) = versionAfter base' (n + 1)) : base = base' ∧ m = n := by
  have hnumber : m + 1 = n + 1 := by
    refine toDigits_inj (List.reverse_injective ?_)
    rw [← takeWhile_versionAfter base, h, takeWhile_versionAfter]
  have hchars := congrArg String.toList h
  rw [toList_versionAfter_succ, toList_versionAfter_succ, hnumber] at hchars
  exact ⟨String.toList_injective (List.append_cancel_right hchars), Nat.succ.inj hnumber⟩

/-- A version that was left does not come back. -/
theorem versionAfter_injective (base : String) : Function.Injective (versionAfter base) := by
  have hlonger : ∀ n, versionAfter base (n + 1) ≠ base := by
    intro n h
    have hlength := congrArg (fun s => s.toList.length) h
    simp [toList_versionAfter_succ] at hlength
  intro m n h
  cases m with
  | zero =>
    cases n with
    | zero => rfl
    | succ n => exact absurd h.symm (hlonger n)
  | succ m =>
    cases n with
    | zero => exact absurd h (hlonger m)
    | succ n => rw [(versionAfter_succ_inj h).2]

/-- The version of a catalog is that after the registrations which it counts. -/
theorem version_eq (c : Catalog) : c.version = versionAfter c.baseVersion c.revision := rfl

/-- A catalog tells names apart by their short forms. -/
theorem find?_congr {type type' : String} (c : Catalog)
    (h : TypeName.normalize type = TypeName.normalize type') : c.find? type = c.find? type' := by
  unfold find?
  rw [h]

/-- A type that was registered is found. -/
theorem find?_register (t : NodeType) (c : Catalog) : (c.register t).find? t.name = some t :=
  Entries.get?_put_self _ t c.types

def registerAll (ts : List NodeType) (c : Catalog) : Catalog :=
  ts.foldl (fun c t => c.register t) c

/-- Registrations leave the version with which a catalog was made. -/
@[simp] theorem registerAll_baseVersion (ts : List NodeType) (c : Catalog) :
    (c.registerAll ts).baseVersion = c.baseVersion := by
  induction ts generalizing c with
  | nil => rfl
  | cons t ts ih => exact ih (c.register t)

/-- Each registration counts once. -/
@[simp] theorem registerAll_revision (ts : List NodeType) (c : Catalog) :
    (c.registerAll ts).revision = c.revision + ts.length := by
  induction ts generalizing c with
  | nil => rfl
  | cons t ts ih =>
    rw [List.length_cons, Nat.add_comm ts.length, ← Nat.add_assoc]
    exact ih (c.register t)

/-- A version begins with the one that the catalog was made with. -/
theorem prefix_versionAfter (base : String) (n : Nat) :
    base.toList <+: (versionAfter base n).toList := by
  cases n with
  | zero => exact List.prefix_refl _
  | succ n =>
    rw [toList_versionAfter_succ]
    exact List.prefix_append _ _

/-- There is always a type that a catalog does not hold. -/
theorem exists_not_found (c : Catalog) : ∃ t : NodeType, c.find? t.name ≠ some t := by
  by_cases h : c.find? "" = some { name := "" }
  · refine ⟨{ name := "", isTrigger := true }, fun hother => ?_⟩
    have hsame := congrArg (Option.map NodeType.isTrigger) (hother.symm.trans h)
    simp at hsame
  · exact ⟨{ name := "" }, h⟩

/-- A type that was registered several times is found. -/
theorem find?_registerAll_replicate (n : Nat) (t : NodeType) (c : Catalog) :
    (c.registerAll (List.replicate (n + 1) t)).find? t.name = some t := by
  rw [List.replicate_succ', registerAll, List.foldl_append]
  exact find?_register t _

end Catalog

/-! ## What a cache remembers -/

namespace SchemaCache

variable {s : SchemaCache} {c : Catalog} {type version name : String} {found : Option NodeType}

/-- The cache holds the outcome for the type and the version. -/
def Remembers (s : SchemaCache) (version name : String) (found : Option NodeType) : Prop :=
  ∃ outcomes, (version, outcomes) ∈ s.known ∧ (name, found) ∈ outcomes

/-- An empty cache remembers nothing. -/
theorem not_remembers_empty : ¬ empty.Remembers version name found := by
  intro h
  rcases h with ⟨outcomes, hknown, -⟩
  exact List.not_mem_nil hknown

/-- What a cache answers without asking the catalog is what it remembers. -/
theorem remembers_of_remembered? (h : s.remembered? version name = some found) :
    s.Remembers version name found := by
  rcases Option.bind_eq_some_iff.1 h with ⟨outcomes, hknown, hfound⟩
  exact ⟨outcomes, Entries.mem_of_get? hknown, Entries.mem_of_get? hfound⟩

/-- The outcomes known of a version are remembered. -/
theorem remembers_of_known {outcomes : Entries (Option NodeType)}
    (hknown : outcomes = (s.known.get? version).getD []) (h : (name, found) ∈ outcomes) :
    s.Remembers version name found := by
  cases hversion : s.known.get? version with
  | none => simp [hknown, hversion] at h
  | some known =>
    rw [hversion, Option.getD_some] at hknown
    exact ⟨known, Entries.mem_of_get? hversion, hknown ▸ h⟩

/-- To touch a version makes a cache remember nothing but the outcomes that it is given. -/
theorem remembers_of_touch {touched : String} {outcomes : Entries (Option NodeType)}
    (h : (s.touch touched outcomes).Remembers version name found) :
    s.Remembers version name found ∨ version = touched ∧ (name, found) ∈ outcomes := by
  rcases h with ⟨known, hknown, hfound⟩
  rcases List.mem_append.1 hknown with hold | hnew
  · exact Or.inl ⟨known, (Entries.erase_sublist _ _).subset hold, hfound⟩
  · cases List.mem_singleton.1 hnew
    exact Or.inr ⟨rfl, hfound⟩

/-- What is left after versions were forgotten had been remembered before. -/
theorem remembers_of_trim (h : s.trim.Remembers version name found) :
    s.Remembers version name found := by
  rcases h with ⟨known, hknown, hfound⟩
  exact ⟨known, List.mem_of_mem_drop hknown, hfound⟩

/-- A look-up adds nothing to what is remembered but what the catalog has answered. -/
theorem remembers_of_lookup (h : (s.lookup c type).cache.Remembers version name found) :
    s.Remembers version name found ∨
      version = c.version ∧ name = TypeName.normalize type ∧ found = c.find? type := by
  have hknown : ∀ {outcome}, outcome ∈ (s.known.get? c.version).getD [] →
      s.Remembers c.version outcome.1 outcome.2 := fun h => remembers_of_known rfl h
  unfold lookup at h
  dsimp only at h
  split at h
  · rcases remembers_of_touch h with hold | ⟨rfl, hold⟩
    · exact Or.inl hold
    · exact Or.inl (hknown hold)
  · rcases remembers_of_touch (remembers_of_trim h) with hold | ⟨rfl, hput⟩
    · exact Or.inl hold
    · rcases Entries.mem_put hput with hnew | hold
      · cases hnew
        exact Or.inr ⟨rfl, rfl, c.find?_congr (TypeName.normalize_normalize type)⟩
      · exact Or.inl (hknown hold)

/-- What a look-up finds is remembered or what the catalog answers. -/
theorem found_lookup (s : SchemaCache) (c : Catalog) (type : String) :
    s.Remembers c.version (TypeName.normalize type) (s.lookup c type).found ∨
      (s.lookup c type).found = c.find? type := by
  unfold lookup
  dsimp only
  split
  · rename_i found hfound
    exact Or.inl (remembers_of_remembered? hfound)
  · exact Or.inr (c.find?_congr (TypeName.normalize_normalize type))

/-- What is remembered is what is found. -/
theorem found_of_remembered
    (h : s.remembered? c.version (TypeName.normalize type) = some found) :
    (s.lookup c type).found = found := by
  unfold lookup
  simp only [h]

/-- What the first look-up finds is found again in every catalog of that version. -/
theorem lookup_again {c' : Catalog} (h : c'.version = c.version) :
    ((empty.lookup c type).cache.lookup c' type).found = c.find? type := by
  refine found_of_remembered ?_
  rw [h, ← c.find?_congr (TypeName.normalize_normalize type)]
  simp [lookup, remembered?, empty, touch, trim, capacity, Entries.get?, Entries.put,
    Entries.erase]

end SchemaCache

/-! ## Catalogs that share a cache -/

/-- Catalogs, and the cache through which they are asked. -/
structure Sharing (ι : Type) where
  catalogs : ι → Catalog
  cache : SchemaCache := .empty

namespace Sharing

variable {ι : Type}

inductive Event (ι : Type)
  | register (i : ι) (t : NodeType)
  | get (i : ι) (type : String)
  | clear

def Event.registration? : Event ι → Option (ι × NodeType)
  | .register i t => some (i, t)
  | _ => none

def registrations (events : List (Event ι)) : List (ι × NodeType) :=
  events.filterMap Event.registration?

/-- The registrations of a course are those of its parts, in order. -/
theorem registrations_append (front back : List (Event ι)) :
    registrations (front ++ back) = registrations front ++ registrations back :=
  List.filterMap_append

/-- The events that only register. -/
def registerEvents (rs : List (ι × NodeType)) : List (Event ι) :=
  rs.map fun r => .register r.1 r.2

@[simp] theorem registrations_registerEvents (rs : List (ι × NodeType)) :
    registrations (registerEvents rs) = rs := by
  unfold registrations registerEvents
  rw [List.filterMap_map]
  exact List.filterMap_some

/-- A type is looked up at one point of the course and, after some more registrations, again. -/
def askedTwice (p : List (ι × NodeType)) (i : ι) (between : List (ι × NodeType)) (j : ι)
    (type : String) (rest : List (ι × NodeType)) : List (Event ι) :=
  (registerEvents p ++ .get i type :: registerEvents between) ++
    .get j type :: registerEvents rest

/-- Look-ups in between do not change the course of registrations. -/
theorem registrations_askedTwice (p between rest : List (ι × NodeType)) (i j : ι) (type : String) :
    registrations (askedTwice p i between j type rest) = p ++ between ++ rest := by
  have hget : ∀ i (es : List (Event ι)), registrations (.get i type :: es) = registrations es :=
    fun _ _ => rfl
  simp [askedTwice, registrations_append, hget]

variable [DecidableEq ι]

def step (s : Sharing ι) : Event ι → Sharing ι
  | .register i t =>
    { s with catalogs := Function.update s.catalogs i ((s.catalogs i).register t) }
  | .get i type => { s with cache := (s.cache.lookup (s.catalogs i) type).cache }
  | .clear => { s with cache := .empty }

def run (s : Sharing ι) (events : List (Event ι)) : Sharing ι :=
  events.foldl step s

/-- What is found now when a catalog is asked through the cache. -/
def found (s : Sharing ι) (i : ι) (type : String) : Option NodeType :=
  (s.cache.lookup (s.catalogs i) type).found

/-- Every look-up in the course of the events finds what its catalog holds at that moment. The cache
is empty at first. -/
def Current (start : ι → Catalog) (events : List (Event ι)) : Prop :=
  ∀ front i type back, events = front ++ .get i type :: back →
    (run ⟨start, .empty⟩ front).found i type =
      ((run ⟨start, .empty⟩ front).catalogs i).find? type

/-! ## The course of the registrations -/

/-- The types registered in one catalog. -/
def typesOf (i : ι) (rs : List (ι × NodeType)) : List NodeType :=
  (rs.filter (·.1 = i)).map (·.2)

/-- A catalog after some registrations. -/
def catalogAfter (start : ι → Catalog) (rs : List (ι × NodeType)) (i : ι) : Catalog :=
  (start i).registerAll (typesOf i rs)

/-- Whenever a catalog has a version that one of them had before, or that another one has, it holds
the same types. -/
def VersionsTell (start : ι → Catalog) (rs : List (ι × NodeType)) : Prop :=
  ∀ p q, p <+: rs → q <+: rs → ∀ i j,
    (catalogAfter start p i).version = (catalogAfter start q j).version →
      ∀ type, (catalogAfter start p i).find? type = (catalogAfter start q j).find? type

section Courses

variable {start : ι → Catalog} {events : List (Event ι)} {rs : List (ι × NodeType)}

/-- A course of events is carried out part by part. -/
theorem run_append (s : Sharing ι) (front back : List (Event ι)) :
    s.run (front ++ back) = (s.run front).run back :=
  List.foldl_append

/-- Only registrations change the catalogs. -/
theorem run_catalogs (s : Sharing ι) (events : List (Event ι)) :
    (s.run events).catalogs = catalogAfter s.catalogs (registrations events) := by
  induction events generalizing s with
  | nil => rfl
  | cons e rest ih =>
    have hrun : s.run (e :: rest) = (s.step e).run rest := rfl
    rw [hrun, ih]
    cases e with
    | register i t =>
      funext j
      by_cases h : i = j
      · subst h
        simp [step, catalogAfter, registrations, Event.registration?, typesOf, Catalog.registerAll]
      · simp [step, catalogAfter, registrations, Event.registration?, typesOf, h,
          Function.update_of_ne (Ne.symm h)]
    | get => rfl
    | clear => rfl

/-- What is remembered in the course of the events is what one of the catalogs has answered when it
had that version. -/
theorem answered_of_remembers {version name : String} {found : Option NodeType}
    (h : (run ⟨start, .empty⟩ events).cache.Remembers version name found) :
    ∃ p, p <+: registrations events ∧ ∃ i type, (catalogAfter start p i).version = version ∧
      TypeName.normalize type = name ∧ (catalogAfter start p i).find? type = found := by
  induction events using List.reverseRecOn with
  | nil => exact absurd h SchemaCache.not_remembers_empty
  | append_singleton front e ih =>
    rw [run_append] at h
    rw [registrations_append]
    have hbefore : (run ⟨start, .empty⟩ front).cache.Remembers version name found →
        ∃ p, p <+: registrations front ++ registrations [e] ∧ ∃ i type,
          (catalogAfter start p i).version = version ∧
            TypeName.normalize type = name ∧ (catalogAfter start p i).find? type = found := by
      intro h
      rcases ih h with ⟨p, hp, hanswer⟩
      exact ⟨p, hp.trans (List.prefix_append _ _), hanswer⟩
    cases e with
    | register i t => exact hbefore h
    | get i type =>
      rcases SchemaCache.remembers_of_lookup h with hold | ⟨hversion, hname, hfound⟩
      · exact hbefore hold
      · rw [run_catalogs] at hversion hfound
        exact ⟨registrations front, List.prefix_append _ _, i, type, hversion.symm, hname.symm,
          hfound.symm⟩
    | clear => exact absurd h SchemaCache.not_remembers_empty

/-- Where equal versions mean equal types, all look-ups are current. -/
theorem current_of_versionsTell (h : VersionsTell start (registrations events)) :
    Current start events := by
  rintro front i type back rfl
  rw [run_catalogs]
  unfold found
  rw [run_catalogs]
  have hfront : registrations front <+: registrations (front ++ .get i type :: back) := by
    rw [registrations_append]
    exact List.prefix_append _ _
  rcases SchemaCache.found_lookup (run ⟨start, .empty⟩ front).cache
    (catalogAfter start (registrations front) i) type with hremembers | hasked
  · rcases answered_of_remembers hremembers with ⟨p, hp, j, asked, hversion, hname, hfound⟩
    rw [← hfound, h p _ (hp.trans hfront) hfront j i hversion]
    exact Catalog.find?_congr _ hname
  · exact hasked

/-- Registrations leave the cache as it is. -/
theorem run_registerEvents (s : Sharing ι) (rs : List (ι × NodeType)) :
    s.run (registerEvents rs) = ⟨catalogAfter s.catalogs rs, s.cache⟩ := by
  have hcache : (s.run (registerEvents rs)).cache = s.cache := by
    induction rs generalizing s with
    | nil => rfl
    | cons r rest ih => exact ih (s.step (.register r.1 r.2))
  have hcatalogs := run_catalogs s (registerEvents rs)
  rw [registrations_registerEvents] at hcatalogs
  rw [← hcatalogs, ← hcache]

/-- Registrations go on from where the ones before have led. -/
theorem catalogAfter_append (p q : List (ι × NodeType)) :
    catalogAfter (catalogAfter start p) q = catalogAfter start (p ++ q) := by
  funext i
  simp [catalogAfter, typesOf, Catalog.registerAll]

/-- If both look-ups are current, and the versions are equal, the types are. -/
theorem find?_eq_of_current {p between rest : List (ι × NodeType)} {i j : ι} {type : String}
    (h : Current start (askedTwice p i between j type rest))
    (hversion : (catalogAfter start p i).version = (catalogAfter start (p ++ between) j).version) :
    (catalogAfter start p i).find? type = (catalogAfter start (p ++ between) j).find? type := by
  have hrun : run ⟨start, .empty⟩ (registerEvents p ++ .get i type :: registerEvents between) =
      ⟨catalogAfter start (p ++ between),
        (SchemaCache.empty.lookup (catalogAfter start p i) type).cache⟩ := by
    rw [run_append, run_registerEvents, ← catalogAfter_append]
    exact run_registerEvents _ between
  have hcurrent := h _ j type _ rfl
  rw [hrun] at hcurrent
  rw [← hcurrent]
  exact (SchemaCache.lookup_again hversion.symm).symm

/-- Where all look-ups are current, equal versions mean equal types. -/
theorem versionsTell_of_current (h : ∀ events, registrations events = rs → Current start events) :
    VersionsTell start rs := by
  intro p q hp hq i j hversion type
  rcases List.prefix_or_prefix_of_prefix hp hq with ⟨between, rfl⟩ | ⟨between, rfl⟩
  · rcases hq with ⟨rest, hrest⟩
    exact find?_eq_of_current
      (h (askedTwice p i between j type rest) (by rw [registrations_askedTwice, hrest])) hversion
  · rcases hp with ⟨rest, hrest⟩
    exact (find?_eq_of_current
      (h (askedTwice q j between i type rest) (by rw [registrations_askedTwice, hrest]))
      hversion.symm).symm

/-! ## Catalogs that never come to bear one version -/

/-- The version of a catalog tells how many of the registrations are its own. -/
theorem catalogAfter_version (rs : List (ι × NodeType)) (i : ι) :
    (catalogAfter start rs i).version =
      Catalog.versionAfter (start i).baseVersion ((start i).revision + (typesOf i rs).length) := by
  rw [Catalog.version_eq]
  simp [catalogAfter]

@[simp] theorem typesOf_append (p q : List (ι × NodeType)) (i : ι) :
    typesOf i (p ++ q) = typesOf i p ++ typesOf i q := by
  simp [typesOf]

@[simp] theorem typesOf_replicate (n : Nat) (i : ι) (t : NodeType) :
    typesOf i (List.replicate n (i, t)) = List.replicate n t := by
  simp [typesOf]

theorem typesOf_replicate_of_ne {i j : ι} (h : i ≠ j) (n : Nat) (t : NodeType) :
    typesOf i (List.replicate n (j, t)) = [] := by
  simp [typesOf, Ne.symm h]

/-- A part of the course is a part of the registrations in each catalog. -/
theorem typesOf_of_isPrefix {p q : List (ι × NodeType)} (h : p <+: q) (i : ι) :
    typesOf i p <+: typesOf i q :=
  (h.filter _).map _

/-- A catalog that has the same version at two points of the course is the same. -/
theorem catalogAfter_eq {p q : List (ι × NodeType)} (hp : p <+: rs) (hq : q <+: rs) {i : ι}
    (h : (catalogAfter start p i).version = (catalogAfter start q i).version) :
    catalogAfter start p i = catalogAfter start q i := by
  rw [catalogAfter_version, catalogAfter_version] at h
  have hlength : (typesOf i p).length = (typesOf i q).length :=
    Nat.add_left_cancel (Catalog.versionAfter_injective _ h)
  have htypes : typesOf i p = typesOf i q := by
    rcases List.prefix_or_prefix_of_prefix (typesOf_of_isPrefix hp i)
      (typesOf_of_isPrefix hq i) with hpq | hqp
    · exact hpq.eq_of_length hlength
    · exact (hqp.eq_of_length hlength.symm).symm
  unfold catalogAfter
  rw [htypes]

/-- The versions of catalogs stay apart if none of them starts with a version that another one comes
to have. -/
theorem versionsTell_of_apart (hnew : ∀ i, (start i).revision = 0)
    (hapart : ∀ i j, i ≠ j → ∀ n,
      Catalog.versionAfter (start i).baseVersion n ≠ (start j).baseVersion)
    (rs : List (ι × NodeType)) : VersionsTell start rs := by
  intro p q hp hq i j hversion type
  by_cases hij : i = j
  · subst hij
    rw [catalogAfter_eq hp hq hversion]
  · have hversions : Catalog.versionAfter (start i).baseVersion (typesOf i p).length =
        Catalog.versionAfter (start j).baseVersion (typesOf j q).length := by
      simpa only [catalogAfter_version, hnew, Nat.zero_add] using hversion
    -- Versions with numbers are equal only if the catalogs began with the same version.
    cases hm : (typesOf i p).length with
    | zero =>
      rw [hm, Catalog.versionAfter_zero] at hversions
      exact absurd hversions.symm (hapart j i (Ne.symm hij) _)
    | succ m =>
      cases hn : (typesOf j q).length with
      | zero =>
        rw [hn, Catalog.versionAfter_zero] at hversions
        exact absurd hversions (hapart i j hij _)
      | succ n =>
        rw [hm, hn] at hversions
        have hbases := (Catalog.versionAfter_succ_inj hversions).1
        exact absurd hbases (hapart i j hij 0)

/-- A catalog that comes to have a version of another one can hold a type that the other one does
not hold then. -/
theorem versionAfter_ne (hnew : ∀ i, (start i).revision = 0) (h : ∀ rs, VersionsTell start rs)
    {i j : ι} (hij : i ≠ j) (m n : Nat) :
    Catalog.versionAfter (start i).baseVersion (m + 1) ≠
      Catalog.versionAfter (start j).baseVersion n := by
  intro hversion
  rcases ((start j).registerAll (List.replicate n { name := "" })).exists_not_found with ⟨t, ht⟩
  -- One catalog registers the missing type often enough, the other one anything else.
  let rs : List (ι × NodeType) :=
    List.replicate n (j, { name := "" }) ++ List.replicate (m + 1) (i, t)
  have hi : typesOf i rs = List.replicate (m + 1) t := by
    rw [typesOf_append, typesOf_replicate_of_ne hij, typesOf_replicate, List.nil_append]
  have hj : typesOf j rs = List.replicate n { name := "" } := by
    rw [typesOf_append, typesOf_replicate_of_ne (Ne.symm hij), typesOf_replicate, List.append_nil]
  have hsame : (catalogAfter start rs i).version = (catalogAfter start rs j).version := by
    rw [catalogAfter_version, catalogAfter_version, hi, hj, hnew, hnew]
    simpa using hversion
  have htell := h rs rs rs (List.prefix_refl rs) (List.prefix_refl rs) i j hsame t.name
  unfold catalogAfter at htell
  rw [hi, hj, Catalog.find?_registerAll_replicate] at htell
  exact ht htell.symm

/-- If equal versions mean equal types on every course, no version of a catalog is another's
first. -/
theorem apart_of_versionsTell (hnew : ∀ i, (start i).revision = 0)
    (h : ∀ rs, VersionsTell start rs) {i j : ι} (hij : i ≠ j) (n : Nat) :
    Catalog.versionAfter (start i).baseVersion n ≠ (start j).baseVersion := by
  cases n with
  | zero =>
    -- Catalogs that begin alike are alike after one registration in each.
    intro hbase
    rw [Catalog.versionAfter_zero] at hbase
    exact versionAfter_ne hnew h hij 0 1 (by rw [hbase])
  | succ n => exact versionAfter_ne hnew h hij n 0

/-- Catalogs that share a cache from the beginning. On a course of registrations every look-up is
current, whatever look-ups and emptyings of the cache there are in between, exactly if equal
versions mean equal types on that course. And this is so on every course exactly if no catalog
starts with a version that another one has or comes to have. -/
theorem current_iff (hnew : ∀ i, (start i).revision = 0) :
    (∀ rs, (∀ events, registrations events = rs → Current start events) ↔
      VersionsTell start rs) ∧
    ((∀ events, Current start events) ↔
      ∀ i j, i ≠ j →
        ∀ n, Catalog.versionAfter (start i).baseVersion n ≠ (start j).baseVersion) := by
  have hcourse : ∀ rs, (∀ events, registrations events = rs → Current start events) ↔
      VersionsTell start rs := by
    intro rs
    constructor
    · exact versionsTell_of_current
    · rintro htell events rfl
      exact current_of_versionsTell htell
  refine ⟨hcourse, ?_⟩
  constructor
  · intro hall i j hij n
    exact apart_of_versionsTell hnew (fun rs => (hcourse rs).1 fun events _ => hall events) hij n
  · intro hapart events
    exact current_of_versionsTell (versionsTell_of_apart hnew hapart _)

end Courses

/-- Two catalogs from files of different names. -/
def twoFiles (second : Bool) : Catalog :=
  .ofTypes (if second then "more.yaml@7" else "nodes.yaml@7") [{ name := "nodes-base.note" }]

/-- Files of different names can share a cache. -/
theorem twoFiles_current :
    (∀ i, (twoFiles i).revision = 0) ∧ ∀ events, Current twoFiles events := by
  have hnew : ∀ i, (twoFiles i).revision = 0 := by decide
  have hnames : ∀ i j, i ≠ j →
      ¬ (twoFiles i).baseVersion.toList <+: (twoFiles j).baseVersion.toList := by decide
  refine ⟨hnew, (current_iff hnew).2.2 fun i j hij n hversion => hnames i j hij ?_⟩
  rw [← hversion]
  exact Catalog.prefix_versionAfter _ n

/-- A catalog, and the same one read again. -/
def readTwice (_ : Bool) : Catalog :=
  .ofTypes "nodes.yaml@7" [{ name := "nodes-base.note" }]

/-- Both get a type of the same name. The second one is answered with that of the first one. -/
def bothRegister : List (Event Bool) :=
  [.register false { name := "nodes-base.mail", displayName := "Mail" },
    .get false "n8n-nodes-base.mail",
    .register true { name := "nodes-base.mail", displayName := "Letter" },
    .get true "n8n-nodes-base.mail"]

theorem readTwice_not_current :
    (∀ i, (readTwice i).revision = 0) ∧
      (∀ i j, (readTwice i).baseVersion = (readTwice j).baseVersion →
        ∀ type, (readTwice i).find? type = (readTwice j).find? type) ∧
      ¬ Current readTwice bothRegister := by
  refine ⟨by decide, fun _ _ _ _ => rfl, ?_⟩
  intro h
  have hlast := h (bothRegister.take 3) true "n8n-nodes-base.mail" [] rfl
  have hnames := congrArg (Option.map NodeType.displayName) hlast
  revert hnames
  decide +kernel

end Sharing
end Workflows
