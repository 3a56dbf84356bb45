import Workflows.Proofs.Text.Pieces
import Workflows.Rules.Code

/-!
# Comments — what is left of code when its comments are taken out

Comments are found without regard to what a text means: a block begins with a slash and a star, and
a comment up to the end of the line with two slashes, wherever they stand. Whether a place lies in a
comment can be told from the text before it, but for blocks that nothing closes, which are none.

Main definitions:

* `Code.inBlock`, `Code.inLineComment` — whether a comment is open behind a text;
* `Code.dropBlocks_append`, `Code.dropLineComments_append` — the text before a place, and the rest;
* `Code.Quoted`, `Code.dropHashComments_eq_self` — when number signs begin no comments.
-/

namespace Workflows

/-! ## Words -/

namespace Text

variable {test : Option Char → List Char → Bool} {before : Option Char} {front rest : List Char}

/-- A search ends where the test holds. -/
theorem searchFrom_of_test (h : test before rest = true) : searchFrom test before rest = true := by
  cases rest with
  | nil => exact h
  | cons c rest => simp [searchFrom, h]

/-- What stands in front of a place does not hide it from a search. -/
theorem searchFrom_append (h : test (front.getLast?.or before) rest = true) :
    searchFrom test before (front ++ rest) = true := by
  induction front generalizing before with
  | nil => exact searchFrom_of_test h
  | cons c front ih =>
    have hlast : (c :: front).getLast?.or before = front.getLast?.or (some c) := by
      cases front with
      | nil => rfl
      | cons d ds => simp [List.getLast?_cons]
    rw [hlast] at h
    simp [searchFrom, ih h]

/-- What stands behind a word that was just read. -/
theorem behind?_append (word : String) (rest : List Char) :
    behind? word (word.toList ++ rest) = some rest := by
  unfold behind?
  induction word.toList with
  | nil => rfl
  | cons c cs ih => simp [List.isPrefixOf?, ih]

/-- A word is found where what surrounds it lets it begin and end. -/
theorem hasWord_append {word : String} (hbefore : wordMayBegin front.getLast? = true)
    (hbehind : wordMayEnd rest = true) : hasWord word (front ++ (word.toList ++ rest)) = true := by
  refine searchFrom_append ?_
  rw [Option.or_none, hbefore, behind?_append]
  simpa using hbehind

/-- Two characters lie on one side of a place before which the second one does not stand. -/
theorem pair_prefix_append {a b c : Char} (h : ∀ d ∈ rest.head?, d ≠ b) :
    [a, b] <+: c :: (front ++ rest) ↔ [a, b] <+: c :: front := by
  cases front with
  | nil =>
    cases rest with
    | nil => rfl
    | cons d ds =>
      have hne : b ≠ d := fun heq => h d rfl heq.symm
      simp [List.cons_prefix_cons, hne]
  | cons d ds => simp [List.cons_prefix_cons]

/-- Text that does not go on with the second character of a pair does not begin with the pair. -/
theorem not_begins_with_pair {a b c : Char}
    (h : ∀ behind, c = a → rest = b :: behind → False) : ¬ [a, b] <+: c :: rest := by
  intro hexists
  rcases hexists with ⟨behind, heq⟩
  injection heq with hc hrest
  exact h behind hc.symm hrest.symm

/-- A pair lies in one of two texts, unless the second one goes on with the second character of the
pair. -/
theorem pair_infix_append {a b : Char} (h : ∀ d ∈ rest.head?, d ≠ b) :
    [a, b] <:+: front ++ rest ↔ [a, b] <:+: front ∨ [a, b] <:+: rest := by
  induction front with
  | nil => simp
  | cons c front ih =>
    calc [a, b] <:+: c :: front ++ rest
        ↔ [a, b] <+: c :: front ∨ [a, b] <:+: front ++ rest := by
          rw [List.cons_append, List.infix_cons_iff, pair_prefix_append h]
      _ ↔ ([a, b] <+: c :: front ∨ [a, b] <:+: front) ∨ [a, b] <:+: rest := by
          rw [ih, or_assoc]
      _ ↔ [a, b] <:+: c :: front ∨ [a, b] <:+: rest := by
          rw [← List.infix_cons_iff]

/-- White space belongs to no word. -/
theorem isWord_of_isBlank {c : Char} (h : isBlank c = true) : isWord c = false := by
  have hascii : ∀ n < 128, isBlank (Char.ofNat n) = true → isWord (Char.ofNat n) = false := by
    decide +kernel
  have hapart : ∀ r ∈ blankSpans.toList, ∀ s ∈ alnumSpans.toList, r.2 < s.1 ∨ s.2 < r.1 := by
    decide +kernel
  by_cases hc : c.toNat < 128
  · have hn := hascii c.toNat hc
    rw [Char.ofNat_toNat] at hn
    exact hn h
  · unfold isBlank at h
    unfold isWord
    simp only [hc, if_false] at h ⊢
    rw [Spans.covers, ← Array.any_toList, List.any_eq_true] at h
    obtain ⟨r, hr, hblank⟩ := h
    rw [Spans.covers, ← Array.any_toList, List.any_eq_false]
    intro s hs hword
    simp only [Bool.and_eq_true, decide_eq_true_eq] at hblank hword
    rcases hapart r hr s hs with hless | hless <;> omega

end Text

namespace Code

open Text

/-! ## Open comments -/

/-- Whether a block is open behind the text, when every block that is opened counts. The flag says
whether one is open before it. -/
def inBlock : Bool → List Char → Bool
  | opened, [] => opened
  | true, '*' :: '/' :: rest => inBlock false rest
  | true, _ :: rest => inBlock true rest
  | false, '/' :: '*' :: rest => inBlock true rest
  | false, _ :: rest => inBlock false rest

/-- Whether the end of the text lies in a comment that goes up to the end of the line. The flag says
whether its beginning does. -/
def inLineComment : Bool → List Char → Bool
  | commented, [] => commented
  | true, '\n' :: rest => inLineComment false rest
  | true, _ :: rest => inLineComment true rest
  | false, '/' :: '/' :: rest => inLineComment true rest
  | false, _ :: rest => inLineComment false rest

def BeginsPlain (cs : List Char) : Prop :=
  ∀ c ∈ cs.head?, c ≠ '/' ∧ c ≠ '*'

variable {front rest : List Char} {opened commented : Bool} {c : Char}

/-- Within a block comment all characters leave it open but those that close it. -/
theorem inBlock_within (h : ¬ ['*', '/'] <+: c :: rest) :
    inBlock true (c :: rest) = inBlock true rest := by
  rw [inBlock]
  rintro behind rfl rfl
  exact h (List.prefix_append ['*', '/'] behind)

/-- Outside of block comments all characters leave the code open but those that open one. -/
theorem inBlock_outside (h : ¬ ['/', '*'] <+: c :: rest) :
    inBlock false (c :: rest) = inBlock false rest := by
  rw [inBlock]
  rintro behind rfl rfl
  exact h (List.prefix_append ['/', '*'] behind)

/-- Within a block comment characters are dropped. -/
theorem dropBlocks_within (h : ¬ ['*', '/'] <+: c :: rest) :
    dropBlocks true (c :: rest) = dropBlocks true rest := by
  rw [dropBlocks]
  rintro behind rfl rfl
  exact h (List.prefix_append ['*', '/'] behind)

/-- Outside of block comments characters are kept. -/
theorem dropBlocks_outside (h : ¬ ['/', '*'] <+: c :: rest) :
    dropBlocks false (c :: rest) = c :: dropBlocks false rest := by
  rw [dropBlocks]
  rintro behind rfl rfl
  exact h (List.prefix_append ['/', '*'] behind)

/-- A comment is opened only where it is closed again. -/
theorem dropBlocks_opened (h : ['*', '/'] <:+: rest) :
    dropBlocks false ('/' :: '*' :: rest) = dropBlocks true rest :=
  if_pos (occursIn_iff.2 h)

/-- What looks like the beginning of a comment that is never closed is code. -/
theorem dropBlocks_not_closed (h : ¬ ['*', '/'] <:+: rest) :
    dropBlocks false ('/' :: '*' :: rest) = '/' :: '*' :: dropBlocks false rest :=
  if_neg fun hoccurs => h (occursIn_iff.1 hoccurs)

/-- An open block stays open up to the end of a text that does not close it. -/
theorem inBlock_of_not_closed (h : ¬ ['*', '/'] <:+: front) : inBlock true front = true := by
  induction front with
  | nil => rfl
  | cons c front ih =>
    rw [List.infix_cons_iff, not_or] at h
    rw [inBlock_within h.1, ih h.2]

/-! ## Blocks -/

/-- Where no block is open, or one that is not closed, the blocks before are taken out, and then
those behind. -/
theorem dropBlocks_append (hrest : BeginsPlain rest)
    (hopen : inBlock opened front = true → ¬ ['*', '/'] <:+: rest)
    (hclosed : opened = true → ['*', '/'] <:+: front) :
    dropBlocks opened (front ++ rest) = dropBlocks opened front ++ dropBlocks false rest := by
  have hslash : ∀ c ∈ rest.head?, c ≠ '/' := fun c hc => (hrest c hc).1
  have hstar : ∀ c ∈ rest.head?, c ≠ '*' := fun c hc => (hrest c hc).2
  fun_induction dropBlocks opened front with
  | case1 opened =>
    cases opened with
    | false => rfl
    | true => exact absurd (hclosed rfl) (by simp)
  | case2 cs ih => exact ih hopen fun h => absurd h Bool.false_ne_true
  | case3 c cs hnot ih =>
    have hend : ¬ ['*', '/'] <+: c :: cs := not_begins_with_pair hnot
    have hwhole : ¬ ['*', '/'] <+: c :: (cs ++ rest) := by rwa [pair_prefix_append hslash]
    rw [List.cons_append, dropBlocks_within hwhole]
    refine ih (by rwa [inBlock_within hend] at hopen) ?_
    intro _
    exact (List.infix_cons_iff.1 (hclosed rfl)).resolve_left hend
  | case4 cs hoccurs ih =>
    have hends : ['*', '/'] <:+: cs := occursIn_iff.1 hoccurs
    rw [List.cons_append, List.cons_append,
      dropBlocks_opened (hends.trans (List.prefix_append cs rest).isInfix)]
    exact ih hopen fun _ => hends
  | case5 cs hoccurs ih =>
    have hends : ¬ ['*', '/'] <:+: cs := fun h => hoccurs (occursIn_iff.2 h)
    -- The block stays open, so that nothing behind closes it.
    have hbehind : ¬ ['*', '/'] <:+: rest := hopen (inBlock_of_not_closed hends)
    have hwhole : ¬ ['*', '/'] <:+: cs ++ rest := by simp [pair_infix_append hslash, hends, hbehind]
    rw [List.cons_append, List.cons_append, dropBlocks_not_closed hwhole,
      ih (fun _ => hbehind) fun h => absurd h Bool.false_ne_true]
    rfl
  | case6 c cs hnot ih =>
    have hbegin : ¬ ['/', '*'] <+: c :: cs := not_begins_with_pair hnot
    have hwhole : ¬ ['/', '*'] <+: c :: (cs ++ rest) := by rwa [pair_prefix_append hstar]
    rw [List.cons_append, dropBlocks_outside hwhole,
      ih (by rwa [inBlock_outside hbegin] at hopen) fun h => absurd h Bool.false_ne_true]
    rfl

/-- Where a block is open and closed later, it is taken out from there on. -/
theorem dropBlocks_append_of_inBlock (h : inBlock opened front = true) :
    ∃ kept, ∀ rest, BeginsPlain rest → ['*', '/'] <:+: rest →
      dropBlocks opened (front ++ rest) = kept ++ dropBlocks true rest := by
  -- The front ends within a block, so what is kept of it does not depend on the rest.
  fun_induction inBlock opened front with
  | case1 opened =>
    subst h
    exact ⟨[], fun rest _ _ => rfl⟩
  | case2 cs ih => exact ih h
  | case3 c cs hnot ih =>
    obtain ⟨kept, hkept⟩ := ih h
    refine ⟨kept, ?_⟩
    intro rest hrest hends
    have hwhole : ¬ ['*', '/'] <+: c :: (cs ++ rest) := by
      rw [pair_prefix_append fun c hc => (hrest c hc).1]
      exact not_begins_with_pair hnot
    rw [List.cons_append, dropBlocks_within hwhole, hkept rest hrest hends]
  | case4 cs ih =>
    obtain ⟨kept, hkept⟩ := ih h
    refine ⟨kept, ?_⟩
    intro rest hrest hends
    rw [List.cons_append, List.cons_append,
      dropBlocks_opened (hends.trans (List.suffix_append cs rest).isInfix),
      hkept rest hrest hends]
  | case5 c cs hnot ih =>
    obtain ⟨kept, hkept⟩ := ih h
    refine ⟨c :: kept, ?_⟩
    intro rest hrest hends
    have hwhole : ¬ ['/', '*'] <+: c :: (cs ++ rest) := by
      rw [pair_prefix_append fun c hc => (hrest c hc).2]
      exact not_begins_with_pair hnot
    rw [List.cons_append, dropBlocks_outside hwhole, hkept rest hrest hends]
    rfl

/-! ## Comments up to the end of a line -/

/-- Outside of comments characters are kept. -/
theorem dropLineComments_outside (h : ¬ ['/', '/'] <+: c :: rest) :
    dropLineComments false (c :: rest) = c :: dropLineComments false rest := by
  rw [dropLineComments]
  rintro behind rfl rfl
  exact h (List.prefix_append ['/', '/'] behind)

/-- The text before a place decides whether a line comment is open there. -/
theorem dropLineComments_append (hrest : ∀ c ∈ rest.head?, c ≠ '/') :
    dropLineComments commented (front ++ rest) =
      dropLineComments commented front ++
        dropLineComments (inLineComment commented front) rest := by
  fun_induction inLineComment commented front with
  | case1 commented =>
    cases commented <;> rfl
  | case2 cs ih => exact congrArg ('\n' :: ·) ih
  | case3 c cs hnot ih =>
    have hwithin : ∀ behind, dropLineComments true (c :: behind) = dropLineComments true behind :=
      fun behind => by rw [dropLineComments]; exact hnot
    rw [List.cons_append, hwithin, hwithin, ih]
  | case4 cs ih => exact ih
  | case5 c cs hnot ih =>
    have hbegin : ¬ ['/', '/'] <+: c :: cs := not_begins_with_pair hnot
    have hwhole : ¬ ['/', '/'] <+: c :: (cs ++ rest) := by rwa [pair_prefix_append hrest]
    rw [List.cons_append, dropLineComments_outside hwhole, dropLineComments_outside hbegin, ih]
    rfl

/-- Whether the end of a text is within a line comment is decided piece by piece, if no pair is torn
apart. -/
theorem inLineComment_append (hrest : ∀ c ∈ rest.head?, c ≠ '/') :
    inLineComment commented (front ++ rest) =
      inLineComment (inLineComment commented front) rest := by
  fun_induction inLineComment commented front with
  | case1 => rfl
  | case2 cs ih => exact ih
  | case3 c cs hnot ih =>
    rw [List.cons_append, inLineComment]
    · exact ih
    · exact hnot
  | case4 cs ih => exact ih
  | case5 c cs hnot ih =>
    rw [List.cons_append, inLineComment]
    · exact ih
    · rintro behind rfl heq
      have hwhole : ¬ ['/', '/'] <+: '/' :: (cs ++ rest) := by
        rw [pair_prefix_append hrest]
        exact not_begins_with_pair hnot
      exact hwhole (heq ▸ List.prefix_append ['/', '/'] behind)

/-! ## Texts without slashes -/

/-- Without a slash no block comment is opened. -/
theorem inBlock_of_not_mem (h : '/' ∉ front) : inBlock false front = false := by
  induction front with
  | nil => rfl
  | cons c front ih =>
    rw [List.mem_cons, not_or] at h
    rw [inBlock_outside (not_begins_with_pair fun _ hc _ => h.1 hc.symm), ih h.2]

/-- Without a slash no block comment is dropped. -/
theorem dropBlocks_of_not_mem (h : '/' ∉ front) : dropBlocks false front = front := by
  induction front with
  | nil => rfl
  | cons c front ih =>
    rw [List.mem_cons, not_or] at h
    rw [dropBlocks_outside (not_begins_with_pair fun _ hc _ => h.1 hc.symm), ih h.2]

/-- Without a slash no line comment is opened. -/
theorem inLineComment_of_not_mem (h : '/' ∉ front) : inLineComment false front = false := by
  induction front with
  | nil => rfl
  | cons c front ih =>
    rw [List.mem_cons, not_or] at h
    rw [inLineComment]
    · exact ih h.2
    · intro _ hc _
      exact h.1 hc.symm

/-! ## Number signs -/

/-- Slashes and number signs stand behind a double quote in their lines. The flag says whether there
is one before the text. -/
def Quoted : Bool → List Char → Prop
  | _, [] => True
  | seen, c :: rest =>
    (c = '/' ∨ c = '#' → seen = true) ∧ Quoted (if c = '\n' then false else seen || c == '"') rest

variable {cs : List Char} {seen : Bool}

/-- Literals stay closed when more is known of what stands before them. -/
theorem Quoted.mono {seen' : Bool} (h : Quoted seen cs) (hseen : seen = true → seen' = true) :
    Quoted seen' cs := by
  induction cs generalizing seen seen' with
  | nil => trivial
  | cons c rest ih =>
    refine ⟨fun hc => hseen (h.1 hc), ih h.2 ?_⟩
    split
    · exact id
    · cases seen <;> cases seen' <;> simp_all

/-- A block begins behind a quote, which stays in the line where the block ends. -/
theorem Quoted.dropBlocks (h : Quoted seen cs) :
    Quoted (opened || seen) (Code.dropBlocks opened cs) := by
  fun_induction Code.dropBlocks opened cs generalizing seen with
  | case1 => trivial
  | case2 rest ih => exact (ih h.2.2).mono fun _ => rfl
  | case3 c rest hnot ih => exact (ih h.2).mono fun _ => rfl
  | case4 rest hoccurs ih =>
    have hseen : seen = true := h.1 (Or.inl rfl)
    exact (ih h.2.2).mono fun _ => by simp [hseen]
  | case5 rest hoccurs ih => exact ⟨h.1, h.2.1, ih h.2.2⟩
  | case6 c rest hnot ih => exact ⟨h.1, ih h.2⟩

/-- The line comments that are dropped lie outside of literals. -/
theorem Quoted.dropLineComments {seen' : Bool} (h : Quoted seen cs)
    (hseen : commented = false → seen' = seen) :
    Quoted seen' (Code.dropLineComments commented cs) := by
  fun_induction Code.dropLineComments commented cs generalizing seen seen' with
  | case1 => trivial
  | case2 rest ih => exact ⟨fun hc => by simp at hc, ih h.2 fun _ => rfl⟩
  | case3 c rest hnot ih => exact ih h.2 fun hopen => absurd hopen (by decide)
  | case4 rest ih => exact ih h.2.2 fun hopen => absurd hopen (by decide)
  | case5 c rest hnot ih =>
    obtain rfl := hseen rfl
    exact ⟨h.1, ih h.2 fun _ => rfl⟩

/-- Where all literals are closed no comment follows. -/
theorem Quoted.commentFollows (h : Quoted false cs) : Code.commentFollows cs = false := by
  unfold Code.commentFollows
  induction cs with
  | nil => rfl
  | cons c rest ih =>
    by_cases hblank : isBlank c = true
    · have hquote : c ≠ '"' := by
        rintro rfl
        exact absurd hblank (by decide)
      rw [List.dropWhile_cons_of_pos hblank]
      exact ih (by simpa [beq_eq_false_iff_ne.2 hquote] using h.2)
    · have hsign : c ≠ '#' := fun hc => Bool.false_ne_true (h.1 (Or.inr hc))
      simp [List.dropWhile_cons_of_neg hblank, hsign]

/-- Where a quote stands before every number sign there are no number-sign comments. -/
theorem dropHashComments_eq_self (h : Quoted false cs) : dropHashComments .start cs = cs := by
  have hline : ∀ cs, (Quoted false cs → dropHashComments .start cs = cs) ∧
      ∀ seen, Quoted seen cs → dropHashComments .inside cs = cs := by
    intro cs
    induction cs with
    | nil => exact ⟨fun _ => rfl, fun _ _ => rfl⟩
    | cons c rest ih =>
      have hrest : ∀ seen, Quoted seen (c :: rest) →
          dropHashComments (if c = '\n' then .start else .inside) rest = rest := by
        intro seen h
        by_cases hc : c = '\n'
        · rw [if_pos hc]
          exact ih.1 (by simpa [hc] using h.2)
        · rw [if_neg hc]
          exact ih.2 _ h.2
      constructor
      · intro h
        rw [dropHashComments, h.commentFollows, hrest false h]
        rfl
      · intro seen h
        rw [dropHashComments, hrest seen h]
  exact (hline cs).1 h

end Code
end Workflows
