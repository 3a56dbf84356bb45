import Mathlib.Data.List.Nodup
import Mathlib.Data.List.Perm.Basic
import Workflows.Proofs.Catalog.Coherence
import Workflows.Proofs.NameSet

/-!
# Suggestions — the types that are proposed for one that is not there

A catalog holds its types under short names and compares them by a part of these, which several
types can share. What it proposes are full names. They lead back to the types they were made from,
so that each proposal is found, and no two of them are the same.

Main definitions:

* `Catalog.Normal` — the types are held under short names, in every catalog that is built;
* `Catalog.Usable` — names that a document may use;
* `Catalog.usable_of_mem_suggest`, `Catalog.nodup_suggest` — what is proposed.
-/

namespace Workflows

/-! ## The closest candidates -/

namespace Text
namespace Similarity

variable {limit : Nat} {text : String} {candidates : List String}

/-- No more texts are chosen than were asked for. -/
theorem length_closest_le : (closest limit text candidates).length ≤ limit := by
  unfold closest
  rw [List.length_map]
  exact List.length_take_le _ _

/-- The closest candidates are some of the candidates, each taken once. -/
theorem exists_perm_closest (limit : Nat) (text : String) (candidates : List String) :
    ∃ close sorted : List String, close.Sublist candidates ∧ sorted.Perm close ∧
      closest limit text candidates = sorted.take limit := by
  let scored := (candidates.map fun c => (score c text, c)).filter fun s => s.1.isClose
  have hcandidates : (candidates.map fun c => (score c text, c)).map Prod.snd = candidates := by
    rw [List.map_map]
    exact List.map_id candidates
  refine ⟨scored.map Prod.snd, (scored.mergeSort better).map Prod.snd, ?_,
    (List.mergeSort_perm scored better).map Prod.snd, List.map_take⟩
  have hsub : (scored.map Prod.snd).Sublist
      ((candidates.map fun c => (score c text, c)).map Prod.snd) := List.filter_sublist.map _
  rwa [hcandidates] at hsub

/-- No text is chosen twice. -/
theorem nodup_closest (h : candidates.Nodup) : (closest limit text candidates).Nodup := by
  obtain ⟨close, sorted, hclose, hsorted, heq⟩ := exists_perm_closest limit text candidates
  rw [heq]
  exact (hsorted.nodup_iff.2 (h.sublist hclose)).sublist (List.take_sublist _ _)

end Similarity
end Text

namespace Catalog

/-! ## Names in a catalog -/

/-- All types are held under short names. -/
def Normal (c : Catalog) : Prop :=
  ∀ name ∈ c.types.keys, TypeName.normalize name = name

variable {c : Catalog}

theorem Normal.store (h : c.Normal) (t : NodeType) : (c.store t).Normal := by
  intro name hname
  rcases Entries.mem_keys_put hname with rfl | hold
  · exact TypeName.normalize_normalize _
  · exact h name hold

/-- A catalog that is made of types stores each of them under its short name. -/
theorem normal_ofTypes (version : String) (types : List NodeType) :
    (ofTypes version types).Normal := by
  have hstored : ∀ c : Catalog, c.Normal → (types.foldl (fun c t => c.store t) c).Normal := by
    induction types with
    | nil => exact fun _ hc => hc
    | cons t rest ih => exact fun c hc => ih _ (hc.store t)
  exact hstored _ fun name hname => absurd hname List.not_mem_nil

/-- Registrations keep every type under its short name. -/
theorem Normal.registerAll (h : c.Normal) (ts : List NodeType) : (c.registerAll ts).Normal := by
  induction ts generalizing c with
  | nil => exact h
  | cons t rest ih => exact ih (h.store t)

/-- A document may use the name: it is that of a type in the catalog, and not in the form that only
catalogs use. -/
structure Usable (c : Catalog) (name : String) : Prop where
  found : (c.find? name).isSome
  full : TypeName.isShortForm name = false

/-- A name that documents may use is not refused because of its form. -/
theorem Usable.formFault?_ne {name : String} (h : c.Usable name) :
    TypeName.formFault? name ≠ some (.shortForm name) := by
  unfold TypeName.formFault?
  rw [h.full]
  split <;> simp

/-- The full form of a name that a catalog holds is found in it. -/
theorem Normal.usable_denormalize (h : c.Normal) {name : String} (hname : name ∈ c.types.keys) :
    c.Usable (TypeName.denormalize name) := by
  refine ⟨?_, TypeName.isShortForm_denormalize name⟩
  unfold find?
  rw [TypeName.normalize_denormalize (h name hname), ← Option.ne_none_iff_isSome]
  intro hnone
  exact Entries.get?_eq_none_iff.1 hnone hname

/-! ## What is proposed -/

/-- Every search key stands for a type that is compared by it. -/
theorem bySearchKey_spec (c : Catalog) :
    c.bySearchKey.Distinct ∧
      ∀ e ∈ c.bySearchKey, e.1 = searchKey e.2 ∧ e.2 ∈ c.types.keys := by
  have hkeyed : ∀ (names : List String), (∀ name ∈ names, name ∈ c.types.keys) →
      ∀ es : Entries String, es.Distinct → (∀ e ∈ es, e.1 = searchKey e.2 ∧ e.2 ∈ c.types.keys) →
        let keyed : Entries String := names.foldl (fun es name => es.put (searchKey name) name) es
        keyed.Distinct ∧ ∀ e ∈ keyed, e.1 = searchKey e.2 ∧ e.2 ∈ c.types.keys := by
    intro names
    induction names with
    | nil => exact fun _ es hdistinct hes => ⟨hdistinct, hes⟩
    | cons name rest ih =>
      intro hnames es hdistinct hes
      refine ih (fun n hn => hnames n (List.mem_cons_of_mem _ hn)) _ (hdistinct.put _ _) ?_
      intro e he
      rcases Entries.mem_put he with rfl | hold
      · exact ⟨rfl, hnames name List.mem_cons_self⟩
      · exact hes e hold
  have hnames : ∀ name ∈ c.names, name ∈ c.types.keys := by
    intro name hname
    simpa [names, NameSet.mem_insertAll] using hname
  exact hkeyed c.names hnames [] List.nodup_nil (fun e he => absurd he List.not_mem_nil)

/-- What is found under a search key has this key, and is the name of a type. -/
theorem of_get?_bySearchKey {key name : String} (h : c.bySearchKey.get? key = some name) :
    key = searchKey name ∧ name ∈ c.types.keys :=
  c.bySearchKey_spec.2 _ (Entries.mem_of_get? h)

variable {limit : Nat} {type : String}

/-- There are no more suggestions than were asked for. -/
theorem length_suggest_le : (c.suggest limit type).length ≤ limit :=
  (List.length_filterMap_le _ _).trans Text.Similarity.length_closest_le

/-- Every suggestion is a name that documents may use. -/
theorem Normal.usable_of_mem_suggest (hc : c.Normal) :
    ∀ name ∈ c.suggest limit type, c.Usable name := by
  intro name hname
  obtain ⟨key, -, hkey⟩ := List.mem_filterMap.1 hname
  obtain ⟨short, hshort, rfl⟩ := Option.map_eq_some_iff.1 hkey
  exact hc.usable_denormalize (of_get?_bySearchKey hshort).2

/-- Types that are compared by different keys have different full names. -/
theorem Normal.nodup_suggest (hc : c.Normal) : (c.suggest limit type).Nodup := by
  refine (Text.Similarity.nodup_closest c.bySearchKey_spec.1).filterMap ?_
  intro key key' name hkey hkey'
  obtain ⟨short, hshort, hname⟩ := Option.map_eq_some_iff.1 hkey
  obtain ⟨short', hshort', hname'⟩ := Option.map_eq_some_iff.1 hkey'
  obtain ⟨hcompared, hheld⟩ := of_get?_bySearchKey hshort
  obtain ⟨hcompared', hheld'⟩ := of_get?_bySearchKey hshort'
  have hsame : short = short' := by
    calc short = TypeName.normalize (TypeName.denormalize short) :=
          (TypeName.normalize_denormalize (hc short hheld)).symm
      _ = TypeName.normalize (TypeName.denormalize short') := by rw [hname, hname']
      _ = short' := TypeName.normalize_denormalize (hc short' hheld')
  rw [hcompared, hcompared', hsame]

end Catalog
end Workflows
