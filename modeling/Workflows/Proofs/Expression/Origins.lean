import Workflows.Expression
import Workflows.Proofs.Text.Pieces
import Workflows.Proofs.Walk

/-!
# Origins — what the findings about the expressions of a tree come from

A finding about the expressions in a parameter tree comes from a text that stands at a place of the
tree, or from a place at which the walk through the tree stops. It is written as one line that
begins with the field path of the place.

Main definitions:

* `Origin`, `Origin.From` — what a finding comes from, and whether it is there;
* `Expression.mem_errorTexts_iff`, `Expression.mem_warningTexts_iff` — the lines that are written;
* `Expression.wording_of_mem_warnings` — the words that warnings about a text can hold.
-/

namespace Workflows

/-- What a finding comes from: an error or a warning about the text at a place, a place that is too
deep for a limit, or a reference to a container around it. -/
inductive Origin
  | error (place : Place) (e : ExpressionError)
  | warning (place : Place) (w : ExpressionWarning)
  | tooDeep (place : Place) (limit : Number)
  | circular (place : Place)

/-- Whether a warning is about a variable whose name holds the word "depth". -/
def ExpressionWarning.namesDepth : ExpressionWarning → Bool
  | .unknownVariable name => Text.contains "depth" name
  | _ => false

namespace Origin

def text : Origin → String
  | error place e => Expression.locatedText place.fieldPath e.message
  | warning place w => Expression.locatedText place.fieldPath w.message
  | tooDeep place limit => (Anomaly.tooDeep place.fieldPath limit).text
  | circular place => (Anomaly.circular place.fieldPath).text

def isError : Origin → Bool
  | error _ _ => true
  | _ => false

/-- The texts at places that a walk visits, and the places at which it stops, are what findings come
from. Of the places that are too deep only one is reported. -/
inductive From (limits : WalkLimits) (ctx : ExpressionContext) (tree : Value) : Origin → Prop
  | error {place : Place} {s : String} {e : ExpressionError} (hopen : Walk.Open limits 0 place)
      (hstands : (Value.str s).At place tree) (hcandidate : Expression.isCandidate s = true)
      (hfound : e ∈ (Expression.check ctx s).errors) : From limits ctx tree (.error place e)
  | warning {place : Place} {s : String} {w : ExpressionWarning}
      (hopen : Walk.Open limits 0 place) (hstands : (Value.str s).At place tree)
      (hcandidate : Expression.isCandidate s = true)
      (hfound : w ∈ (Expression.check ctx s).warnings) : From limits ctx tree (.warning place w)
  | tooDeep {place : Place} {v : Value} (hbeyond : Walk.Beyond limits 0 place)
      (hstands : v.At place tree)
      (hreported : .tooDeep place.fieldPath limits.depth ∈ Walk.anomalies limits "" tree) :
      From limits ctx tree (.tooDeep place limits.depth)
  | circular {place : Place} {levels : Nat} (hopen : Walk.Open limits 0 place)
      (hstands : (Value.up levels).At place tree) : From limits ctx tree (.circular place)

end Origin

namespace Expression

/-! ## The texts of a tree -/

/-- The checked texts among visited values: their paths and findings. -/
def checkedTexts (ctx : ExpressionContext) (vs : List Visit) :
    List (String × ExpressionFindings) :=
  vs.filterMap fun v =>
    match v.value with
    | .str s => if isCandidate s then some (v.path, check ctx s) else none
    | _ => none

section Trees

variable {ctx : ExpressionContext} {limits : WalkLimits} {tree : Value}

/-- A walk adds the findings of the texts that it checks, in order. -/
theorem foldl_addVisit (vs : List Visit) (f : TreeFindings) :
    vs.foldl (addVisit ctx) f =
      (checkedTexts ctx vs).foldl (fun f checked => f.add checked.1 checked.2) f := by
  induction vs generalizing f with
  | nil => rfl
  | cons v rest ih =>
    rw [List.foldl_cons, ih]
    cases hvalue : v.value with
    | str s =>
      cases hcandidate : isCandidate s <;> simp [checkedTexts, addVisit, hvalue, hcandidate]
    | _ => simp [checkedTexts, addVisit, hvalue]

/-- The errors are those of the texts, each with its path. -/
theorem errors_foldl_add (texts : List (String × ExpressionFindings)) (f : TreeFindings) :
    (texts.foldl (fun f checked => f.add checked.1 checked.2) f).errors =
      f.errors ++ texts.flatMap fun checked => checked.2.errors.map fun e => ⟨checked.1, e⟩ := by
  induction texts generalizing f with
  | nil => simp
  | cons checked rest ih =>
    rw [List.foldl_cons, ih, List.flatMap_cons, ← List.append_assoc]
    rfl

/-- The warnings are those of the texts, each with its path. -/
theorem warnings_foldl_add (texts : List (String × ExpressionFindings)) (f : TreeFindings) :
    (texts.foldl (fun f checked => f.add checked.1 checked.2) f).warnings =
      f.warnings ++ texts.flatMap fun checked => checked.2.warnings.map fun w => ⟨checked.1, w⟩ := by
  induction texts generalizing f with
  | nil => simp
  | cons checked rest ih =>
    rw [List.foldl_cons, ih, List.flatMap_cons, ← List.append_assoc]
    rfl

/-- Texts add no anomalies. -/
theorem anomalies_foldl_add (texts : List (String × ExpressionFindings)) (f : TreeFindings) :
    (texts.foldl (fun f checked => f.add checked.1 checked.2) f).anomalies = f.anomalies := by
  induction texts generalizing f with
  | nil => rfl
  | cons checked rest ih => rw [List.foldl_cons, ih, TreeFindings.add]

/-- A candidate at an open place is checked. -/
theorem mem_checkedTexts {place : Place} {s : String} (ctx : ExpressionContext)
    (hopen : Walk.Open limits 0 place) (hstands : (Value.str s).At place tree)
    (hcandidate : isCandidate s = true) :
    (place.fieldPath, check ctx s) ∈ checkedTexts ctx (Walk.visits limits "" tree) := by
  let v : Visit := ⟨place.fieldPath, place.getLast?.or none, .str s⟩
  have hv : v ∈ Walk.visits limits "" tree :=
    Walk.mem_visits_iff.2 ⟨place, hopen, hstands, rfl, rfl, by simp [v]⟩
  rw [checkedTexts, List.mem_filterMap]
  exact ⟨v, hv, by simp [v, hcandidate]⟩

/-- Nothing else is checked. -/
theorem of_mem_checkedTexts {checked : String × ExpressionFindings}
    (h : checked ∈ checkedTexts ctx (Walk.visits limits "" tree)) :
    ∃ place s, Walk.Open limits 0 place ∧ (Value.str s).At place tree ∧ isCandidate s = true ∧
      checked = (place.fieldPath, check ctx s) := by
  rw [checkedTexts, List.mem_filterMap] at h
  rcases h with ⟨v, hv, hchecked⟩
  rcases Walk.mem_visits_iff.1 hv with ⟨place, hopen, hstands, hpath, -, -⟩
  cases hvalue : v.value with
  | str s =>
    cases hcandidate : isCandidate s with
    | false => simp [hvalue, hcandidate] at hchecked
    | true =>
      have hfound : (v.path, check ctx s) = checked := by
        simpa [hvalue, hcandidate] using hchecked
      refine ⟨place, s, hopen, hvalue ▸ hstands, hcandidate, ?_⟩
      rw [← hfound, hpath]
      rfl
  | _ => simp [hvalue] at hchecked

/-! ## The lines that are written -/

variable {depth : Number} {line : String}

/-- The findings of a tree are those of its texts, with the anomalies of the walk. -/
theorem checkTree_eq :
    checkTree depth ctx tree =
      (checkedTexts ctx (Walk.visits { depth := depth } "" tree)).foldl
        (fun f checked => f.add checked.1 checked.2)
        { anomalies := Walk.anomalies { depth := depth } "" tree } := by
  rw [checkTree, foldl_addVisit]

/-- The errors are the lines of the errors that come from texts of the tree. -/
theorem mem_errorTexts_iff :
    line ∈ (checkTree depth ctx tree).errorTexts ↔
      ∃ o, Origin.From { depth := depth } ctx tree o ∧ o.isError = true ∧ line = o.text := by
  rw [TreeFindings.errorTexts, checkTree_eq, errors_foldl_add, List.nil_append]
  simp only [List.mem_map, List.mem_flatMap]
  constructor
  · intro h
    rcases h with ⟨_, ⟨checked, hchecked, e, he, rfl⟩, rfl⟩
    rcases of_mem_checkedTexts hchecked with ⟨place, s, hopen, hstands, hcandidate, rfl⟩
    exact ⟨.error place e, .error hopen hstands hcandidate he, rfl, rfl⟩
  · intro h
    rcases h with ⟨o, hfrom, herror, rfl⟩
    cases hfrom with
    | @error place s e hopen hstands hcandidate he =>
      have hchecked := mem_checkedTexts ctx hopen hstands hcandidate
      exact ⟨⟨place.fieldPath, e⟩, ⟨_, hchecked, e, he, rfl⟩, rfl⟩
    | _ => simp [Origin.isError] at herror

/-- The warnings are the lines of the warnings that come from texts of the tree, and of the
anomalies of the walk. -/
theorem mem_warningTexts_iff :
    line ∈ (checkTree depth ctx tree).warningTexts ↔
      ∃ o, Origin.From { depth := depth } ctx tree o ∧ o.isError = false ∧ line = o.text := by
  rw [TreeFindings.warningTexts, checkTree_eq, warnings_foldl_add, anomalies_foldl_add,
    List.nil_append, List.mem_append]
  simp only [List.mem_map, List.mem_flatMap]
  constructor
  · intro h
    rcases h with ⟨_, ⟨checked, hchecked, w, hw, rfl⟩, rfl⟩ | ⟨a, ha, rfl⟩
    · rcases of_mem_checkedTexts hchecked with ⟨place, s, hopen, hstands, hcandidate, rfl⟩
      exact ⟨.warning place w, .warning hopen hstands hcandidate hw, rfl, rfl⟩
    · cases a with
      | tooDeep path limit =>
        rcases Walk.of_tooDeep_mem_anomalies ha with ⟨rfl, place, v, hbeyond, hstands, rfl⟩
        exact ⟨.tooDeep place _, .tooDeep hbeyond hstands ha, rfl, rfl⟩
      | circular path =>
        rcases Walk.circular_mem_anomalies_iff.1 ha with ⟨place, levels, hopen, hstands, rfl⟩
        exact ⟨.circular place, .circular hopen hstands, rfl, rfl⟩
  · intro h
    rcases h with ⟨o, hfrom, herror, rfl⟩
    cases hfrom with
    | error _ _ _ _ => simp [Origin.isError] at herror
    | @warning place s w hopen hstands hcandidate hw =>
      have hchecked := mem_checkedTexts ctx hopen hstands hcandidate
      exact .inl ⟨⟨place.fieldPath, w⟩, ⟨_, hchecked, w, hw, rfl⟩, rfl⟩
    | tooDeep _ _ hreported => exact .inr ⟨_, hreported, rfl⟩
    | @circular place levels hopen hstands =>
      exact .inr ⟨_, Walk.circular_mem_anomalies_iff.2 ⟨place, levels, hopen, hstands, rfl⟩, rfl⟩

end Trees

/-! ## The words of warnings -/

section Words

variable {ctx : ExpressionContext} {w : ExpressionWarning}

/-- The warnings about a text are warnings about its bodies. -/
theorem exists_body_of_mem_warnings {text : String} (h : w ∈ (check ctx text).warnings) :
    ∃ body, w ∈ bodyWarnings body := by
  have hbodies : ∀ (bodies : List (List Char)) (f : ExpressionFindings),
      w ∈ (bodies.foldl (addBody ctx) f).warnings →
        w ∈ f.warnings ∨ ∃ body, w ∈ bodyWarnings body := by
    intro bodies
    induction bodies with
    | nil => exact fun f hw => .inl hw
    | cons body rest ih =>
      intro f hw
      rcases ih _ hw with hw | hw
      · unfold addBody at hw
        split at hw
        · exact .inl hw
        · rcases List.mem_append.1 hw with hw | hw
          · exact .inl hw
          · exact .inr ⟨body, hw⟩
      · exact .inr hw
  rcases hbodies _ _ h with hnone | hbody
  · simp at hnone
  · exact hbody

/-- An identifier contains no blank. -/
theorem blank_not_mem_identifier {cs : List Char} {name : String}
    (h : Reference.identifier? cs = some name) : ' ' ∉ name.toList := by
  unfold Reference.identifier? at h
  split at h
  · simp at h
  · rename_i c rest
    split at h
    · rename_i hstart
      rw [← Option.some.inj h, String.toList_ofList, List.mem_cons]
      intro hcases
      rcases hcases with rfl | hmem
      · exact absurd hstart (by decide)
      · have hrest := List.all_eq_true.1 List.all_takeWhile ' ' hmem
        exact absurd hrest (by decide)
    · simp at h

/-- No identifier behind a mark contains a blank. -/
theorem blank_not_mem_identifiersAfter {mark : String} {cs : List Char} {name : String}
    (h : name ∈ Reference.identifiersAfter mark cs) : ' ' ∉ name.toList := by
  induction cs with
  | nil => simp [Reference.identifiersAfter] at h
  | cons c rest ih =>
    unfold Reference.identifiersAfter at h
    split at h
    · rename_i found hfound
      rcases List.mem_cons.1 h with rfl | h
      · rcases Option.bind_eq_some_iff.1 hfound with ⟨behind, -, hname⟩
        exact blank_not_mem_identifier hname
      · exact ih h
    · exact ih h

/-- Words without a mark are found only if they are names of variables. -/
theorem bareWords_subset {before : Option Char} {cs : List Char} {word : String}
    (h : word ∈ Reference.bareWordsAfter before cs) : word ∈ Reference.bareVariableWords := by
  induction cs generalizing before with
  | nil => simp [Reference.bareWordsAfter] at h
  | cons c rest ih =>
    unfold Reference.bareWordsAfter at h
    dsimp only at h
    split at h
    · rename_i found hfound
      rcases List.mem_cons.1 h with rfl | h
      · split at hfound
        · exact List.mem_of_find?_eq_some hfound
        · simp at hfound
      · exact ih h
    · exact ih h

/-- No word with a dollar sign contains a blank. -/
theorem blank_not_mem_dollarWords {body : List Char} {name : String}
    (h : name ∈ Reference.dollarWords body) : ' ' ∉ name.toList := by
  rcases List.mem_map.1 h with ⟨word, hword, rfl⟩
  rw [String.toList_append, List.mem_append, not_or]
  exact ⟨by decide, blank_not_mem_identifiersAfter hword⟩

/-- A warning on a body is one of four kinds. -/
theorem mem_bodyWarnings_cases {body : List Char} (h : w ∈ bodyWarnings body) :
    (∃ name ∈ Reference.dollarWords body, w = .unknownVariable name) ∨
      (∃ word ∈ Reference.bareVariableWords, w = .missingDollar word) ∨ w = .bracketKey ∨
        w = .optionalChaining := by
  unfold bodyWarnings at h
  simp only [List.mem_append, List.mem_map, List.mem_filter] at h
  rcases h with ((⟨name, ⟨hname, -⟩, rfl⟩ | ⟨word, hword, rfl⟩) | hbracket) | hchaining
  · exact .inl ⟨name, hname, rfl⟩
  · exact .inr (.inl ⟨word, bareWords_subset hword, rfl⟩)
  · split at hbracket
    · exact .inr (.inr (.inl (List.mem_singleton.1 hbracket)))
    · simp at hbracket
  · split at hchaining
    · exact .inr (.inr (.inr (List.mem_singleton.1 hchaining)))
    · simp at hchaining

/-- Of the words that mark an anomaly a warning about a text holds the first one only as a part of
the name of a variable, and the others not at all. -/
theorem wording_of_mem_warnings {text : String} (h : w ∈ (check ctx text).warnings) :
    Text.contains "depth" w.message = w.namesDepth ∧
      Text.contains "Circular reference" w.message = false := by
  rcases exists_body_of_mem_warnings h with ⟨body, hw⟩
  rcases mem_bodyWarnings_cases hw with ⟨name, hname, rfl⟩ | ⟨word, hword, rfl⟩ | rfl | rfl
  · refine ⟨Text.contains_append (c := 'd') (by decide) (by decide), ?_⟩
    have hname : Text.contains "Circular reference" name = false := by
      rw [Bool.eq_false_iff, ne_eq, Text.contains_iff]
      intro hpart
      exact blank_not_mem_dollarWords hname (hpart.subset (by decide))
    exact (Text.contains_append (c := 'C') (by decide) (by decide)).trans hname
  · have hall : ∀ word ∈ Reference.bareVariableWords,
        Text.contains "depth" (ExpressionWarning.missingDollar word).message =
            (ExpressionWarning.missingDollar word).namesDepth ∧
          Text.contains "Circular reference" (ExpressionWarning.missingDollar word).message =
            false := by
      decide +kernel
    exact hall word hword
  · decide
  · decide

end Words

end Expression
end Workflows
