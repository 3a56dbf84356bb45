import Workflows.Proofs.Catalog.Coherence
import Workflows.Proofs.Validation.TypesRead

/-!
# Transparency — reports and edits whose types come through a cache

The types of the nodes of a document are looked up one after the other, and each look-up may change
the cache for the next one. As long as equal versions mean equal types, the answers are those of the
catalog itself, whatever the cache knew before and whatever it forgets on the way. So a report or an
edit that goes by these answers is the one that the catalog leads to, and nothing shows that there
is a cache.

Main definitions:

* `Sharing.foundAll` — the answers to some look-ups, one after the other;
* `Sharing.foundAll_of_versionsTell` — they are those of the catalog;
* `Sharing.report_of_foundAll`, `Sharing.applyWith_of_found` — reports and edits that go by them;
* `Sharing.versionsTell_alone` — a catalog that shares its cache with no other.
-/

namespace Workflows
namespace Sharing

variable {ι : Type}

/-- A look-up registers nothing. -/
theorem registrations_append_get (events : List (Event ι)) (i : ι) (type : String) :
    registrations (events ++ [.get i type]) = registrations events := by
  rw [registrations_append]
  exact List.append_nil _

variable [DecidableEq ι] {start : ι → Catalog} {events : List (Event ι)}

/-- What is found for some types of a catalog, which are looked up one after the other. -/
def foundAll (s : Sharing ι) (i : ι) : List String → List (Option NodeType)
  | [] => []
  | type :: rest => s.found i type :: (s.step (.get i type)).foundAll i rest

/-- What is found now is what the catalog holds now. -/
theorem found_of_versionsTell (h : VersionsTell start (registrations events)) (i : ι)
    (type : String) :
    (run ⟨start, .empty⟩ events).found i type =
      ((run ⟨start, .empty⟩ events).catalogs i).find? type := by
  have htell : VersionsTell start (registrations (events ++ [.get i type])) := by
    rw [registrations_append_get]
    exact h
  exact current_of_versionsTell htell events i type [] rfl

/-- The answers to a course of look-ups are those of the catalog. -/
theorem foundAll_of_versionsTell (h : VersionsTell start (registrations events)) (i : ι)
    (types : List String) :
    (run ⟨start, .empty⟩ events).foundAll i types =
      types.map fun type => ((run ⟨start, .empty⟩ events).catalogs i).find? type := by
  induction types generalizing events with
  | nil => rfl
  | cons type rest ih =>
    -- The first look-up is one event more, after which the versions still tell the types.
    have hrun : (run ⟨start, .empty⟩ events).step (.get i type) =
        run ⟨start, .empty⟩ (events ++ [.get i type]) := by
      rw [run_append]
      rfl
    have hcatalogs : (run ⟨start, .empty⟩ (events ++ [.get i type])).catalogs =
        (run ⟨start, .empty⟩ events).catalogs := by
      rw [← hrun]
      rfl
    have htell : VersionsTell start (registrations (events ++ [.get i type])) := by
      rw [registrations_append_get]
      exact h
    have hfirst := found_of_versionsTell h i type
    have hrest := ih htell
    rw [hcatalogs] at hrest
    rw [foundAll, hfirst, hrun, hrest, List.map_cons]

/-- A report for which the types of the nodes come through the cache is the report by the
catalog. -/
theorem report_of_foundAll (h : VersionsTell start (registrations events)) {i : ι} {v : Validator}
    {d : Document}
    (htypes : d.nodes.map (fun n => v.catalog.find? n.type) =
      (run ⟨start, .empty⟩ events).foundAll i (d.nodes.map (·.type)))
    (hsuggest : ∀ n ∈ d.nodes, v.catalog.suggest 3 n.type =
      ((run ⟨start, .empty⟩ events).catalogs i).suggest 3 n.type)
    (profile : Profile) :
    v.report profile d =
      Validator.report ⟨(run ⟨start, .empty⟩ events).catalogs i, v.settings⟩ profile d := by
  rw [foundAll_of_versionsTell h, List.map_map] at htypes
  have halike : Catalog.AlikeFor d ((run ⟨start, .empty⟩ events).catalogs i) v.catalog :=
    { types := List.map_inj_left.1 htypes
      suggestions := hsuggest }
  exact Validator.report_of_alikeFor halike v.settings profile

/-- An edit for which the types of the nodes come through the cache is the edit by the catalog. -/
theorem applyWith_of_found (h : VersionsTell start (registrations events)) {i : ι} {c : Catalog}
    (htypes : ∀ type, c.find? type = (run ⟨start, .empty⟩ events).found i type)
    (limit : Option Number) :
    Editor.applyWith ⟨some c, limit⟩ =
      Editor.applyWith ⟨some ((run ⟨start, .empty⟩ events).catalogs i), limit⟩ := by
  refine Editor.applyWith_of_find? ?_ limit
  intro type
  rw [htypes, found_of_versionsTell h]

/-- The versions of a catalog that shares its cache with no other always tell its types. -/
theorem versionsTell_alone [Subsingleton ι] (hnew : ∀ i, (start i).revision = 0)
    (rs : List (ι × NodeType)) : VersionsTell start rs := by
  refine versionsTell_of_apart hnew ?_ rs
  intro i j hij
  exact absurd (Subsingleton.elim i j) hij

end Sharing
end Workflows
