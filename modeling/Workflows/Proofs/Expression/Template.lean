import Mathlib.Data.List.Infix
import Workflows.Expression

/-!
# Template — the texts that a scan accepts

A template is a literal, then the body of an expression between two marks, then a literal again, and
so on up to a last literal. A text can be read as a template in one way at most, if no mark stands in
a literal or a body and none of them ends in the brace that the mark behind it begins with. These
texts are the ones in which a scan finds no fault.

Main definitions:

* `Template`, `Template.text`, `Template.bodies` — a text taken apart;
* `Template.WellFormed` — where the marks may stand;
* `Scan.run_text`, `Scan.exists_text_of_faults` — scans of templates, and back;
* `Scan.faultless_iff_template` — what a scan accepts.
-/

namespace Workflows

/-- A text with expressions in it: the last literal, or a literal, the body of the expression behind
it, and the rest of the text. -/
inductive Template
  | literal (last : List Char)
  | expression (before body : List Char) (rest : Template)

namespace Template

open Expression (opening closing)

def text : Template → List Char
  | literal last => last
  | expression before body rest => before ++ opening ++ body ++ closing ++ rest.text

def bodies : Template → List (List Char)
  | literal _ => []
  | expression _ body rest => body :: rest.bodies

/-- No mark stands in the text. -/
structure MarkFree (cs : List Char) : Prop where
  opening : ¬ opening <:+: cs
  closing : ¬ closing <:+: cs

/-- No mark stands in the text, and none arises when two of the braces follow it. -/
structure Before (brace : Char) (cs : List Char) : Prop where
  markFree : MarkFree cs
  last : cs.getLast? ≠ some brace

/-- Literals and bodies are free of marks, and end in no brace that belongs to the next mark. -/
inductive WellFormed : Template → Prop
  | literal {last : List Char} (h : MarkFree last) : WellFormed (.literal last)
  | expression {before body : List Char} {rest : Template} (hbefore : Before '\x7b' before)
      (hbody : Before '\x7d' body) (hrest : WellFormed rest) :
      WellFormed (.expression before body rest)

/-! ## Marks -/

/-- The characters that marks are made of. -/
def IsBrace (c : Char) : Prop := c = '\x7b' ∨ c = '\x7d'

instance : DecidablePred IsBrace := fun _ => inferInstanceAs (Decidable (_ ∨ _))

/-- No mark begins with the character where the other text follows. -/
def NoMarkAt (c : Char) (rest : List Char) : Prop :=
  ∀ brace, IsBrace brace → c = brace → rest.head? ≠ some brace

section Marks

variable {c brace : Char} {cs l l' rest rest' : List Char}

/-- Text is free of marks if neither brace stands in it twice in a row. -/
theorem markFree_iff : MarkFree cs ↔ ∀ brace, IsBrace brace → ¬ [brace, brace] <:+: cs := by
  constructor
  · intro hboth brace hcases
    rcases hboth with ⟨hopening, hclosing⟩
    rcases hcases with rfl | rfl
    · exact hopening
    · exact hclosing
  · intro h
    exact ⟨h _ (.inl rfl), h _ (.inr rfl)⟩

/-- A text begins with two braces if its first two characters are braces of that kind. -/
theorem pair_prefix_iff : [brace, brace] <+: c :: cs ↔ c = brace ∧ cs.head? = some brace := by
  cases cs with
  | nil => simp [List.cons_prefix_cons]
  | cons d rest =>
    simp only [List.cons_prefix_cons, List.nil_prefix, and_true, List.head?_cons,
      Option.some.injEq]
    exact and_congr eq_comm eq_comm

/-- Text is free of marks if none is at its beginning and the rest is free. -/
theorem markFree_cons : MarkFree (c :: cs) ↔ NoMarkAt c cs ∧ MarkFree cs := by
  simp only [markFree_iff, List.infix_cons_iff, pair_prefix_iff, not_or, not_and, NoMarkAt]
  constructor
  · intro h
    constructor
    · intro brace hbrace
      exact (h brace hbrace).1
    · intro brace hbrace
      exact (h brace hbrace).2
  · intro hboth brace hbrace
    rcases hboth with ⟨hhere, hlater⟩
    exact ⟨hhere brace hbrace, hlater brace hbrace⟩

/-- The empty text is free of marks. -/
theorem markFree_nil : MarkFree [] := by
  rw [markFree_iff]
  simp

/-- Nothing stands before anything. -/
theorem before_nil : Before brace [] := ⟨markFree_nil, by simp⟩

/-- The first character of a text that stands before two braces is part of no mark. -/
theorem before_cons :
    Before brace (c :: cs) ↔ MarkFree (c :: cs) ∧ (cs = [] → c ≠ brace) ∧ Before brace cs := by
  cases cs with
  | nil =>
    constructor
    · intro h
      rcases h with ⟨hfree, hlast⟩
      exact ⟨hfree, fun _ => by simpa using hlast, before_nil⟩
    · intro h
      rcases h with ⟨hfree, hc, -⟩
      exact ⟨hfree, by simpa using hc rfl⟩
  | cons d rest =>
    constructor
    · intro h
      rcases h with ⟨hfree, hlast⟩
      exact ⟨hfree, by simp, (markFree_cons.1 hfree).2, by simpa [List.getLast?_cons] using hlast⟩
    · intro h
      rcases h with ⟨hfree, -, -, hlast⟩
      exact ⟨hfree, by simpa [List.getLast?_cons] using hlast⟩

/-- Where two of the braces follow, the first mark is theirs. -/
theorem Before.noMarkAt (h : Before brace (c :: cs)) (rest : List Char) :
    NoMarkAt c (cs ++ brace :: brace :: rest) := by
  rcases before_cons.1 h with ⟨hfree, hlast, -⟩
  cases cs with
  | nil =>
    rintro other - rfl hhead
    exact hlast rfl (by simpa using hhead.symm)
  | cons d more => exact (markFree_cons.1 hfree).1

/-- The first mark of a text divides it in one way only. -/
theorem Before.append_inj (hbrace : IsBrace brace) (h : Before brace l) (h' : Before brace l')
    (heq : l ++ brace :: brace :: rest = l' ++ brace :: brace :: rest') :
    l = l' ∧ rest = rest' := by
  induction l generalizing l' with
  | nil =>
    cases l' with
    | nil => simpa using heq
    | cons c cs =>
      obtain ⟨rfl, htail⟩ : brace = c ∧ brace :: rest = cs ++ brace :: brace :: rest' := by
        simpa using heq
      exact absurd (by simp [← htail]) (h'.noMarkAt rest' brace hbrace rfl)
  | cons c cs ih =>
    cases l' with
    | nil =>
      obtain ⟨rfl, htail⟩ : c = brace ∧ cs ++ brace :: brace :: rest = brace :: rest' := by
        simpa using heq
      exact absurd (by simp [htail]) (h.noMarkAt rest c hbrace rfl)
    | cons d ds =>
      obtain ⟨rfl, htail⟩ :
          c = d ∧ cs ++ brace :: brace :: rest = ds ++ brace :: brace :: rest' := by
        simpa using heq
      obtain ⟨rfl, rfl⟩ := ih (before_cons.1 h).2.2 (before_cons.1 h').2.2 htail
      exact ⟨rfl, rfl⟩

/-- A text is free of marks, or it has a first one. -/
theorem markFree_or_exists_first (cs : List Char) :
    MarkFree cs ∨ ∃ brace l rest, IsBrace brace ∧ Before brace l ∧
      cs = l ++ brace :: brace :: rest := by
  induction cs with
  | nil => exact .inl markFree_nil
  | cons c cs ih =>
    by_cases hhere : NoMarkAt c cs
    · -- No mark begins at the front, so the first one is that of the rest.
      rcases ih with hfree | ⟨brace, l, rest, hbrace, hl, rfl⟩
      · exact .inl (markFree_cons.2 ⟨hhere, hfree⟩)
      · refine .inr ⟨brace, c :: l, rest, hbrace, before_cons.2 ⟨?_, ?_, hl⟩, rfl⟩
        · refine markFree_cons.2 ⟨?_, hl.markFree⟩
          intro other hother hc hhead
          exact hhere other hother hc (by simp [List.head?_append, hhead])
        · rintro rfl rfl
          exact hhere c hbrace rfl rfl
    · simp only [NoMarkAt, not_forall, not_not] at hhere
      rcases hhere with ⟨brace, hbrace, rfl, hhead⟩
      rcases List.head?_eq_some_iff.1 hhead with ⟨rest, rfl⟩
      exact .inr ⟨c, [], rest, hbrace, before_nil, rfl⟩

end Marks

/-! ## Reading a template in one way -/

/-- The text of a template that goes on with an expression. -/
theorem text_expression (before body : List Char) (rest : Template) :
    (expression before body rest).text =
      before ++ '\x7b' :: '\x7b' :: (body ++ '\x7d' :: '\x7d' :: rest.text) := by
  simp [text, opening, closing]

/-- A literal without marks is no text with an expression in it. -/
theorem MarkFree.ne_text_expression {last before body : List Char} {rest : Template}
    (h : MarkFree last) : last ≠ (expression before body rest).text := by
  rintro rfl
  rw [text_expression] at h
  exact h.opening ⟨before, body ++ '\x7d' :: '\x7d' :: rest.text, by simp [Expression.opening]⟩

/-- No two well-formed templates have the same text. -/
theorem WellFormed.eq_of_text_eq {t t' : Template} (h : t.WellFormed) (h' : t'.WellFormed)
    (heq : t.text = t'.text) : t = t' := by
  induction h generalizing t' with
  | literal hlast =>
    cases h' with
    | literal _ =>
      simp only [text] at heq
      rw [heq]
    | expression _ _ _ => exact absurd heq hlast.ne_text_expression
  | expression hbefore hbody _ ih =>
    cases h' with
    | literal hlast => exact absurd heq.symm hlast.ne_text_expression
    | expression hbefore' hbody' hrest' =>
      rw [text_expression, text_expression] at heq
      obtain ⟨rfl, hbehind⟩ := hbefore.append_inj (.inl rfl) hbefore' heq
      obtain ⟨rfl, hrest⟩ := hbody.append_inj (.inr rfl) hbody' hbehind
      rw [ih hrest' hrest]

end Template

/-! ## Scans -/

namespace Scan

open Template

section Rest

variable {s : State} {c brace : Char} {cs l rest : List Char}

/-- Where no mark begins, one character is read. -/
theorem scanRest_char (h : NoMarkAt c rest) :
    scanRest s (c :: rest) =
      scanRest ⟨s.position + 1, s.depth, c :: s.body, s.nested⟩ rest := by
  have hopening : ∀ more, ¬(c = '\x7b' ∧ rest = '\x7b' :: more) := by
    intro more hboth
    rcases hboth with ⟨hc, rfl⟩
    exact h '\x7b' (.inl rfl) hc rfl
  have hclosing : ∀ more, ¬(c = '\x7d' ∧ rest = '\x7d' :: more) := by
    intro more hboth
    rcases hboth with ⟨hc, rfl⟩
    exact h '\x7d' (.inr rfl) hc rfl
  rw [scanRest.eq_3]
  · intro more hc hrest
    exact hopening more ⟨hc, hrest⟩
  · intro more hc hrest
    exact hclosing more ⟨hc, hrest⟩

/-- What stands before the first mark is read character by character. -/
theorem scanRest_append (h : Before brace l) :
    scanRest s (l ++ brace :: brace :: rest) =
      scanRest ⟨s.position + l.length, s.depth, l.reverse ++ s.body, s.nested⟩
        (brace :: brace :: rest) := by
  induction l generalizing s with
  | nil => rfl
  | cons c cs ih =>
    rw [List.cons_append, scanRest_char (h.noMarkAt rest), ih (before_cons.1 h).2.2]
    simp [Nat.add_comm, Nat.add_left_comm]

/-- A text without marks leaves things as they are. -/
theorem scanRest_of_markFree (h : MarkFree cs) :
    scanRest s cs = ⟨[], if s.depth = 0 then [] else [.unclosed]⟩ := by
  induction cs generalizing s with
  | nil => rw [scanRest]
  | cons c cs ih =>
    rcases markFree_cons.1 h with ⟨hhere, hlater⟩
    rw [scanRest_char hhere, ih hlater]

theorem scanRest_opening (h : s.depth = 0) :
    scanRest s ('\x7b' :: '\x7b' :: rest) = scanRest ⟨s.position + 2, 1, [], s.nested⟩ rest := by
  rw [scanRest, if_pos h]

theorem scanRest_closing (h : s.depth = 1) :
    scanRest s ('\x7d' :: '\x7d' :: rest) =
      withBody s.body.reverse (scanRest ⟨s.position + 2, 0, [], s.nested⟩ rest) := by
  rw [scanRest, h]

/-- Inside an expression that is not yet said to be nested, an opening mark is a fault. -/
theorem faults_scanRest_nested (hdepth : s.depth ≠ 0) (hnested : s.nested = false) :
    (scanRest s ('\x7b' :: '\x7b' :: rest)).faults ≠ [] := by
  rw [scanRest, if_neg hdepth]
  simp [hnested, withFault]

/-- Outside of expressions a closing mark is a fault. -/
theorem faults_scanRest_unmatched (h : s.depth = 0) :
    (scanRest s ('\x7d' :: '\x7d' :: rest)).faults ≠ [] := by
  rw [scanRest, h]
  simp [withFault]

/-- A body that begins here is read up to the mark behind it. -/
theorem scanRest_body (hdepth : s.depth = 1) (hbody : s.body = []) (h : Before '\x7d' l)
    (rest : List Char) :
    ∃ position, scanRest s (l ++ '\x7d' :: '\x7d' :: rest) =
      withBody l (scanRest ⟨position, 0, [], s.nested⟩ rest) := by
  refine ⟨s.position + l.length + 2, ?_⟩
  rw [scanRest_append h, scanRest_closing (by exact hdepth)]
  simp [hbody]

/-- A literal that begins here is read up to the mark behind it. -/
theorem scanRest_literal (hdepth : s.depth = 0) (h : Before '\x7b' l) (rest : List Char) :
    ∃ position, scanRest s (l ++ '\x7b' :: '\x7b' :: rest) =
      scanRest ⟨position, 1, [], s.nested⟩ rest := by
  refine ⟨s.position + l.length + 2, ?_⟩
  rw [scanRest_append h, scanRest_opening (by exact hdepth)]

end Rest

/-- Outside of expressions a well-formed template is read as what it is. -/
theorem scanRest_text {t : Template} (h : t.WellFormed) {s : State} (hdepth : s.depth = 0) :
    scanRest s t.text = ⟨t.bodies, []⟩ := by
  induction h generalizing s with
  | literal hlast =>
    rw [text, scanRest_of_markFree hlast, if_pos hdepth]
    rfl
  | expression hbefore hbody _ ih =>
    rcases scanRest_literal hdepth hbefore _ with ⟨position, hliteral⟩
    rw [text_expression, hliteral]
    rcases scanRest_body (s := ⟨position, 1, [], s.nested⟩) rfl rfl hbody _ with ⟨behind, hread⟩
    rw [hread, ih rfl]
    rfl

/-- What is read without a fault outside of expressions is a well-formed template. -/
theorem exists_text_of_faults {s : State} {cs : List Char} (hdepth : s.depth = 0)
    (hnested : s.nested = false) (h : (scanRest s cs).faults = []) :
    ∃ t : Template, t.WellFormed ∧ t.text = cs := by
  -- The rest behind a complete expression is shorter.
  induction hlength : cs.length using Nat.strong_induction_on generalizing s cs with
  | _ length ih =>
  rcases markFree_or_exists_first cs with hfree | ⟨brace, before, rest, hbrace, hbefore, rfl⟩
  · exact ⟨.literal cs, .literal hfree, rfl⟩
  rcases hbrace with rfl | rfl
  · rcases scanRest_literal hdepth hbefore rest with ⟨position, hliteral⟩
    rw [hliteral] at h
    rcases markFree_or_exists_first rest with hfree | ⟨brace, body, rest, hbrace, hbody, rfl⟩
    · rw [scanRest_of_markFree hfree] at h
      simp at h
    rcases hbrace with rfl | rfl
    · rw [scanRest_append hbody] at h
      exact absurd h (faults_scanRest_nested Nat.one_ne_zero hnested)
    · rcases scanRest_body (s := ⟨position, 1, [], s.nested⟩) rfl rfl hbody rest with
        ⟨behind, hread⟩
      rw [hread] at h
      have hshorter : rest.length < length := by
        simp only [← hlength, List.length_append, List.length_cons]
        omega
      rcases ih rest.length hshorter (s := ⟨behind, 0, [], s.nested⟩) rfl hnested h rfl with
        ⟨t, ht, rfl⟩
      exact ⟨.expression before body t, .expression hbefore hbody ht, text_expression _ _ _⟩
  · rw [scanRest_append hbefore] at h
    exact absurd h (faults_scanRest_unmatched hdepth)

/-- A scan of a well-formed template gives its bodies. -/
theorem run_text {t : Template} (h : t.WellFormed) : run t.text = ⟨t.bodies, []⟩ :=
  scanRest_text h rfl

/-- A scan finds no fault in the texts that are well-formed templates, each of them in one way, and
gives the bodies of the template. -/
theorem faultless_iff_template (cs : List Char) :
    ((run cs).faults = [] ↔ ∃ t : Template, t.WellFormed ∧ t.text = cs) ∧
      ∀ t : Template, t.WellFormed → t.text = cs →
        run cs = ⟨t.bodies, []⟩ ∧ ∀ t' : Template, t'.WellFormed → t'.text = cs → t' = t := by
  refine ⟨⟨exists_text_of_faults rfl rfl, ?_⟩, ?_⟩
  · intro h
    rcases h with ⟨t, ht, rfl⟩
    rw [run_text ht]
  · rintro t ht rfl
    exact ⟨run_text ht, fun t' ht' heq => ht'.eq_of_text_eq ht heq⟩

/-- A template in which braces stand at the borders of literals and bodies. -/
def bordered : Template :=
  .expression ['a', '\x7d'] ['\x7b', 'b', '\x7b']
    (.expression ['\x7d'] [] (.literal ['c', '\x7b']))

theorem bordered_read :
    bordered.WellFormed ∧ run bordered.text = ⟨[['\x7b', 'b', '\x7b'], []], []⟩ ∧
      ∀ t : Template, t.WellFormed → t.text = bordered.text → t = bordered := by
  have hwell : bordered.WellFormed := by
    refine .expression ⟨⟨?_, ?_⟩, ?_⟩ ⟨⟨?_, ?_⟩, ?_⟩
      (.expression ⟨⟨?_, ?_⟩, ?_⟩ before_nil (.literal ⟨?_, ?_⟩)) <;> decide
  exact ⟨hwell, (faultless_iff_template bordered.text).2 bordered hwell rfl⟩

end Scan
end Workflows
