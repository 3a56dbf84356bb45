import Workflows.Proofs.Graph.Chains
import Workflows.Proofs.Number
import Workflows.Proofs.Validation.CycleErrors

/-!
# LongChains — when a chain of nodes is reported as too long

A chain is a path along the valid main links. As long as these form no cycle there is a longest one,
and if it has more nodes than the settings allow, that is reported, with its length. This is a
matter of style: the strict profile makes an error of it, and no other one mentions it.

Main definitions:

* `Scene.IsLongest`, `Scene.TooLong` — the length of the longest chain, and when it is too much;
* `Validator.long_chain_iff` — when it is reported, and how.
-/

namespace Workflows
namespace Scene

variable {s : Scene} {settings : Settings} {n : Nat}

/-- The greatest number of nodes on a path along valid main links. -/
def IsLongest (s : Scene) (n : Nat) : Prop :=
  IsGreatest {k | ∃ path, IsPath s.names s.MainLink path ∧ path.length = k} n

/-- The number that is computed is that of the longest path, if there are no cycles. -/
theorem longestChain?_mainGraph_iff :
    (s.mainGraph s.wiring).longestChain? = some n ↔ Acyclic s.MainLink ∧ s.IsLongest n := by
  rw [Graph.longestChain?_eq_some_iff simple_mainGraph, edge_eq_mainLink, nodes_mainGraph,
    IsLongest]

/-- The valid main links form no cycle, and the longest path along them has so many nodes, which is
more than the settings allow. -/
structure TooLong (s : Scene) (settings : Settings) (n : Nat) : Prop where
  acyclic : Acyclic s.MainLink
  longest : s.IsLongest n
  above : settings.longChainThreshold.lt (.int n) = true

def longChain (n : Nat) : Issue :=
  Issue.warning .style "long_chain"
    ("Workflow has a chain of " ++ toString n
      ++ " nodes; consider splitting it into sub-workflows")

/-- A chain that is too long is found, with its length. -/
theorem chainIssues_of_tooLong (h : s.TooLong settings n) :
    chainIssues settings (s.mainGraph s.wiring) = [longChain n] := by
  have hlongest := longestChain?_mainGraph_iff.2 ⟨h.acyclic, h.longest⟩
  simp only [chainIssues, hlongest, Number.floor_lt_iff.2 h.above, if_true]
  rfl

/-- What is found is a chain that is too long. -/
theorem exists_tooLong_of_chainIssues (h : chainIssues settings (s.mainGraph s.wiring) ≠ []) :
    ∃ n, s.TooLong settings n := by
  cases hlongest : (s.mainGraph s.wiring).longestChain? with
  | none => simp [chainIssues, hlongest] at h
  | some n =>
    rcases longestChain?_mainGraph_iff.1 hlongest with ⟨hacyclic, hgreatest⟩
    refine ⟨n, hacyclic, hgreatest, Number.floor_lt_iff.1 ?_⟩
    by_contra hbelow
    simp [chainIssues, hlongest, hbelow] at h

end Scene

namespace Profile

variable {n : Nat}

/-- The strict profile makes an error of a long chain. -/
theorem long_chain_strict :
    strict.policy.errors [Scene.longChain n] ++ strict.policy.warnings [Scene.longChain n] =
      [{ Scene.longChain n with severity := .error }] :=
  rfl

/-- The other profiles drop matters of style. -/
theorem long_chain_dropped {p : Profile} (h : p ≠ strict) :
    p.policy.errors [Scene.longChain n] ++ p.policy.warnings [Scene.longChain n] = [] := by
  cases p with
  | strict => exact absurd rfl h
  | _ => rfl

end Profile

namespace Validator

variable {v : Validator} {d : Document} {profile : Profile} {r : Report}

/-- What a report says about long chains is what its policy makes of the findings about them. -/
theorem chain_issues (hnodes : d.nodes ≠ []) (h : v.report profile d = .ok r) :
    (r.errors ++ r.warnings).filter (Issue.hasCode Scene.chainCodes) =
      profile.policy.errors
          (Scene.chainIssues v.settings ((v.scene d).mainGraph (v.scene d).wiring)) ++
        profile.policy.warnings
          (Scene.chainIssues v.settings ((v.scene d).mainGraph (v.scene d).wiring)) := by
  rcases (report_eq_ok_iff hnodes).1 h with ⟨nodes, texts, hfound, htexts, rfl⟩
  have hissues : ((v.scene d).allIssues v.settings nodes texts).filter
      (Issue.hasCode Scene.chainCodes) =
        Scene.chainIssues v.settings ((v.scene d).mainGraph (v.scene d).wiring) :=
    Scene.allIssues_filter_chainCodes hfound htexts
  rw [List.filter_append, errors_reportOf, warnings_reportOf, ← Policy.errors_filter_hasCode,
    ← Policy.warnings_filter_hasCode, hissues]

/-- There is an issue on a chain if there is one among those with its code. -/
theorem exists_chain_issue_iff {issues : List Issue} :
    (∃ i ∈ issues, i.code = "long_chain") ↔
      issues.filter (Issue.hasCode Scene.chainCodes) ≠ [] := by
  rw [Ne, List.filter_eq_nil_iff]
  simp [Issue.hasCode, Scene.chainCodes]

/-- The strict report mentions a long chain exactly if the valid main links form no cycle and the
longest path along them has more nodes than the settings allow; it does so once, and says how many
there are. No other report mentions one. -/
theorem long_chain_iff (hnodes : d.nodes ≠ []) (h : v.report profile d = .ok r) :
    (profile = .strict →
      ((∃ i ∈ r.errors ++ r.warnings, i.code = "long_chain") ↔
        ∃ n, (v.scene d).TooLong v.settings n) ∧
      ∀ n, (v.scene d).TooLong v.settings n →
        ∃ i, (r.errors ++ r.warnings).filter (Issue.hasCode ["long_chain"]) = [i] ∧
          i.message = "Workflow has a chain of " ++ toString n
            ++ " nodes; consider splitting it into sub-workflows") ∧
    (profile ≠ .strict → ∀ i ∈ r.errors ++ r.warnings, i.code ≠ "long_chain") := by
  have hissues := chain_issues hnodes h
  constructor
  · rintro rfl
    have honce : ∀ n, (v.scene d).TooLong v.settings n →
        (r.errors ++ r.warnings).filter (Issue.hasCode Scene.chainCodes) =
          [{ Scene.longChain n with severity := .error }] := by
      intro n hlong
      rw [hissues, Scene.chainIssues_of_tooLong hlong, Profile.long_chain_strict]
    refine ⟨?_, fun n hlong => ⟨_, honce n hlong, rfl⟩⟩
    rw [exists_chain_issue_iff]
    constructor
    · intro hsome
      refine Scene.exists_tooLong_of_chainIssues fun hnone => hsome ?_
      rw [hissues, hnone]
      rfl
    · intro hexists
      rcases hexists with ⟨n, hlong⟩
      rw [honce n hlong]
      exact List.cons_ne_nil _ _
  · intro hother i hi hcode
    refine exists_chain_issue_iff.1 ⟨i, hi, hcode⟩ ?_
    rw [hissues]
    by_cases hsome : Scene.chainIssues v.settings ((v.scene d).mainGraph (v.scene d).wiring) = []
    · rw [hsome]
      rfl
    · rcases Scene.exists_tooLong_of_chainIssues hsome with ⟨n, hlong⟩
      rw [Scene.chainIssues_of_tooLong hlong, Profile.long_chain_dropped hother]

/-- Eleven steps, each of which leads to the next; the first leads to the last, too. -/
def relay : Document where
  nodes := nodesOf "x.step" ["K", "A", "B", "C", "D", "E", "F", "G", "H", "I", "J"]
  connections := [leads "A" ["B", "K"], leads "B" ["C"], leads "C" ["D"], leads "D" ["E"],
    leads "E" ["F"], leads "F" ["G"], leads "G" ["H"], leads "H" ["I"], leads "I" ["J"],
    leads "J" ["K"]]

theorem relay_reported :
    ∃ r, loopTypes.report .strict relay = .ok r ∧ (∃ i ∈ r.errors ++ r.warnings,
        i.code = "long_chain") ∧
      ∃ i, (r.errors ++ r.warnings).filter (Issue.hasCode ["long_chain"]) = [i] ∧
        i.message =
          "Workflow has a chain of 11 nodes; consider splitting it into sub-workflows" := by
  have hlongest : ((loopTypes.scene relay).mainGraph (loopTypes.scene relay).wiring).longestChain? =
      some 11 := by
    decide +kernel
  rcases Scene.longestChain?_mainGraph_iff.1 hlongest with ⟨hacyclic, hgreatest⟩
  have hlong : (loopTypes.scene relay).TooLong loopTypes.settings 11 :=
    ⟨hacyclic, hgreatest, by decide +kernel⟩
  rcases exists_loopTypes_report (d := relay) .strict rfl with ⟨r, hr⟩
  rcases (long_chain_iff (by decide) hr).1 rfl with ⟨hiff, honce⟩
  exact ⟨r, hr, hiff.2 ⟨11, hlong⟩, honce 11 hlong⟩

end Validator
end Workflows
