import Workflows.Proofs.Entries
import Workflows.Proofs.Rules.Comments

/-!
# Literals — texts in quotes that look like comments

Code is put together of literals in double quotes and of what stands between them. The search for
comments knows no literals. A slash with a star in one of them begins a block that ends in a later
one, and two slashes in one of them begin a comment up to the end of the line. A return statement in
such a comment does not count, and it counts everywhere else. Number signs in literals begin no
comments, as there is a quote before them in the line.

Main definitions:

* `Code.Segment`, `Code.script` — code with literals;
* `Code.Hidden` — places that are taken to lie in a comment;
* `Code.MissesReturn` — the rule reports that nothing is returned;
* `Code.missesReturn_iff_hidden` — what becomes of one return statement;
* `Code.missesReturn_iff_all_hidden` — when code that returns something is reported.
-/

namespace Workflows
namespace Code

open Text

/-! ## Code with literals -/

/-- Characters that stand neither in comments nor around literals. -/
def isPlainInCode (c : Char) : Bool :=
  c != '"' && c != '/' && c != '#'

/-- Characters that stand for themselves in a literal. -/
def isPlainInLiteral (c : Char) : Bool :=
  c != '"' && c != '\\' && c != '\n'

/-- A part of code: a literal, or what stands between literals and holds no comments. -/
inductive Segment
  | code (cs : List Char) (plain : cs.all isPlainInCode = true)
  | literal (cs : List Char) (plain : cs.all isPlainInLiteral = true)

def Segment.text : Segment → List Char
  | code cs _ => cs
  | literal cs _ => '"' :: (cs ++ ['"'])

def script (segments : List Segment) : List Char :=
  segments.flatMap Segment.text

variable {cs front rest p q : List Char}

/-- Plain code in front of a text opens no literal. -/
theorem Quoted.code_append (h : cs.all isPlainInCode = true)
    (hrest : ∀ seen, Quoted seen rest) (seen : Bool) : Quoted seen (cs ++ rest) := by
  induction cs generalizing seen with
  | nil => exact hrest seen
  | cons c cs ih =>
    obtain ⟨hc, hcs⟩ := Bool.and_eq_true_iff.1 h
    simp only [isPlainInCode, Bool.and_eq_true, bne_iff_ne] at hc
    obtain ⟨⟨-, hslash⟩, hsign⟩ := hc
    exact ⟨fun hc => absurd hc (not_or.2 ⟨hslash, hsign⟩), ih hcs _⟩

/-- The plain characters of a literal do not close it. -/
theorem Quoted.literal_append (h : cs.all isPlainInLiteral = true)
    (hrest : Quoted true rest) : Quoted true (cs ++ rest) := by
  induction cs with
  | nil => exact hrest
  | cons c cs ih =>
    obtain ⟨hc, hcs⟩ := Bool.and_eq_true_iff.1 h
    simp only [isPlainInLiteral, Bool.and_eq_true, bne_iff_ne] at hc
    refine ⟨fun _ => rfl, ?_⟩
    rw [if_neg hc.2]
    exact ih hcs

/-- The literals of a script are all closed, whatever stands before it. -/
theorem quoted_script (segments : List Segment) (seen : Bool) : Quoted seen (script segments) := by
  induction segments generalizing seen with
  | nil => trivial
  | cons s rest ih =>
    cases s with
    | code cs plain => exact Quoted.code_append plain ih seen
    | literal cs plain =>
      have hwhole : script (.literal cs plain :: rest) = '"' :: (cs ++ '"' :: script rest) := by
        simp [script, Segment.text]
      rw [hwhole]
      refine ⟨fun hc => by simp at hc, ?_⟩
      have hbehind : Quoted true (cs ++ '"' :: script rest) :=
        Quoted.literal_append plain ⟨fun _ => rfl, ih _⟩
      exact hbehind.mono fun _ => by simp

/-! ## Hidden places -/

/-- What stands between the two parts of a text is taken to lie in a comment. -/
def Hidden (p q : List Char) : Prop :=
  (inBlock false p = true ∧ ['*', '/'] <:+: q) ∨ inLineComment false (dropBlocks false p) = true

def returnWord : List Char := ['r', 'e', 't', 'u', 'r', 'n']

theorem toList_return : "return".toList = returnWord := by
  decide

/-- White space neither begins nor ends a comment. -/
theorem plain_of_isBlank {c : Char} (h : isBlank c = true) : c ≠ '/' ∧ c ≠ '*' := by
  constructor <;> rintro rfl <;> exact absurd h (by decide)

/-- A word may begin behind a blank, and at the beginning. -/
theorem wordMayBegin_of_isBlank {before : Option Char} (h : before.all isBlank = true) :
    wordMayBegin before = true := by
  cases before with
  | none => rfl
  | some c => simp [wordMayBegin, isWord_of_isBlank h]

/-- A text begins plainly if it begins with a blank. -/
theorem beginsPlain_of_blank (h : cs.head?.all isBlank = true) : BeginsPlain cs := by
  intro c hc
  rw [Option.mem_def.1 hc] at h
  exact plain_of_isBlank h

theorem beginsPlain_return : BeginsPlain (returnWord ++ q) := by
  intro c hc
  obtain rfl : 'r' = c := Option.some.inj hc
  decide

/-- The word itself closes no comment. -/
theorem closed_return_iff : ['*', '/'] <:+: returnWord ++ q ↔ ['*', '/'] <:+: q :=
  part_of_append (by decide)

/-- The word is dropped if it stands within a block comment, and kept otherwise. -/
theorem dropBlocks_return (opened : Bool) :
    dropBlocks opened (returnWord ++ q) =
      (if opened then [] else returnWord) ++ dropBlocks opened q := by
  cases opened <;> simp [returnWord, dropBlocks]

/-- The word is dropped if it stands within a line comment, and kept otherwise. -/
theorem dropLineComments_return (commented : Bool) :
    dropLineComments commented (returnWord ++ q) =
      (if commented then [] else returnWord) ++ dropLineComments commented q := by
  cases commented <;> simp [returnWord, dropLineComments]

/-- The blank at the beginning of a text belongs to no block comment. -/
theorem head?_dropBlocks (h : q.head?.all isBlank = true) :
    (dropBlocks false q).head? = q.head? := by
  cases q with
  | nil => rfl
  | cons c rest =>
    have hbegin : ¬ ['/', '*'] <+: c :: rest := by
      rw [List.cons_prefix_cons]
      intro hc
      exact (plain_of_isBlank h).1 hc.1.symm
    rw [dropBlocks_outside hbegin]
    rfl

/-- The blank at the beginning of a text belongs to no line comment. -/
theorem head?_dropLineComments (h : q.head?.all isBlank = true) :
    (dropLineComments false q).head? = q.head? := by
  cases q with
  | nil => rfl
  | cons c rest =>
    have hbegin : ¬ ['/', '/'] <+: c :: rest := by
      rw [List.cons_prefix_cons]
      intro hc
      exact (plain_of_isBlank h).1 hc.1.symm
    rw [dropLineComments_outside hbegin]
    rfl

/-- Where no block is taken out, the blocks before and those behind are taken out one by one. -/
theorem dropBlocks_split (hq : q.head?.all isBlank = true)
    (h : ¬ (inBlock false p = true ∧ ['*', '/'] <:+: q)) :
    dropBlocks false (p ++ q) = dropBlocks false p ++ dropBlocks false q ∧
      dropBlocks false (p ++ (returnWord ++ q)) =
        dropBlocks false p ++ (returnWord ++ dropBlocks false q) := by
  have hopen : inBlock false p = true → ¬ ['*', '/'] <:+: q := fun hp hclosed => h ⟨hp, hclosed⟩
  have hnone : false = true → ['*', '/'] <:+: p := fun h => absurd h Bool.false_ne_true
  refine ⟨dropBlocks_append (beginsPlain_of_blank hq) hopen hnone, ?_⟩
  rw [dropBlocks_append beginsPlain_return (fun hp => by rw [closed_return_iff]; exact hopen hp)
    hnone, dropBlocks_return]
  rfl

/-- A hidden word is taken out together with the comment. -/
theorem withoutComments_of_hidden (hq : q.head?.all isBlank = true) (h : Hidden p q) :
    withoutComments (p ++ (returnWord ++ q)) = withoutComments (p ++ q) := by
  unfold withoutComments
  by_cases hblock : inBlock false p = true ∧ ['*', '/'] <:+: q
  · -- The block that is open goes on to its end behind the statement.
    obtain ⟨kept, hkept⟩ := dropBlocks_append_of_inBlock hblock.1
    have hwithout := hkept q (beginsPlain_of_blank hq) hblock.2
    have hwith := hkept (returnWord ++ q) beginsPlain_return (closed_return_iff.2 hblock.2)
    rw [hwithout, hwith, dropBlocks_return]
    rfl
  · have hline : inLineComment false (dropBlocks false p) = true := h.resolve_left hblock
    obtain ⟨hwithout, hwith⟩ := dropBlocks_split hq hblock
    have hslash : ∀ c ∈ (dropBlocks false q).head?, c ≠ '/' := by
      rw [head?_dropBlocks hq]
      intro c hc
      exact (beginsPlain_of_blank hq c hc).1
    have hreturn : ∀ c ∈ (returnWord ++ dropBlocks false q).head?, c ≠ '/' := by
      intro c hc
      exact (beginsPlain_return c hc).1
    rw [hwithout, hwith, dropLineComments_append hslash, dropLineComments_append hreturn]
    rw [hline, dropLineComments_return]
    rfl

/-- Behind a text that ends with white space, and does not end within a comment, the white space is
still there. -/
theorem getLast?_kept (hp : p.getLast?.all isBlank = true)
    (h : inLineComment false (dropBlocks false p) = false) :
    (dropLineComments false (dropBlocks false p)).getLast? = p.getLast? := by
  cases p using List.reverseRecOn with
  | nil => rfl
  | append_singleton front c =>
    have hblank : isBlank c = true := by simpa using hp
    obtain ⟨hslash, hstar⟩ := plain_of_isBlank hblank
    have hplain : BeginsPlain [c] := by
      intro d hd
      obtain rfl : c = d := Option.some.inj hd
      exact ⟨hslash, hstar⟩
    have hsingle : ¬ ['*', '/'] <:+: [c] := fun hinfix => by simpa using hinfix.length_le
    have hblocks : dropBlocks false (front ++ [c]) = dropBlocks false front ++ [c] := by
      rw [dropBlocks_append hplain (fun _ => hsingle) fun h => absurd h Bool.false_ne_true,
        dropBlocks_outside (not_begins_with_pair fun behind _ heq => by simp at heq)]
      rfl
    have hhead : ∀ d ∈ [c].head?, d ≠ '/' := fun d hd => (hplain d hd).1
    rw [hblocks, inLineComment_append hhead] at h
    rw [hblocks, dropLineComments_append hhead]
    -- The character is kept, as a comment that is open before it ends with it.
    have hkept : dropLineComments (inLineComment false (dropBlocks false front)) [c] = [c] := by
      cases hcommented : inLineComment false (dropBlocks false front) with
      | false =>
        rw [dropLineComments_outside (not_begins_with_pair fun behind _ heq => by simp at heq)]
        rfl
      | true =>
        rw [hcommented] at h
        by_cases hbreak : c = '\n'
        · rw [hbreak]
          rfl
        · have hopen : inLineComment true [c] = true := by
            rw [inLineComment]
            · rfl
            · exact hbreak
          rw [hopen] at h
          exact absurd h (by decide)
    rw [hkept]
    simp

/-- A word that is not hidden is found. -/
theorem hasReturn_of_not_hidden (hp : p.getLast?.all isBlank = true)
    (hq : q.head?.all isBlank = true) (hquoted : Quoted false (p ++ (returnWord ++ q)))
    (h : ¬ Hidden p q) : hasReturn (withoutComments (p ++ (returnWord ++ q))) = true := by
  unfold Hidden at h
  rw [not_or, Bool.not_eq_true] at h
  obtain ⟨hblock, hline⟩ := h
  have hblocks : Quoted (false || false) (dropBlocks false (p ++ (returnWord ++ q))) :=
    hquoted.dropBlocks
  have hkept : Quoted false (dropLineComments false (dropBlocks false (p ++ (returnWord ++ q)))) :=
    hblocks.dropLineComments fun _ => rfl
  have hreturn : ∀ c ∈ (returnWord ++ dropBlocks false q).head?, c ≠ '/' := by
    intro c hc
    exact (beginsPlain_return c hc).1
  -- Neither the text before the word nor the text behind it takes the word along.
  have hparts : withoutComments (p ++ (returnWord ++ q)) =
      dropLineComments false (dropBlocks false p) ++
        ("return".toList ++ dropLineComments false (dropBlocks false q)) := by
    unfold withoutComments
    rw [dropHashComments_eq_self hkept, (dropBlocks_split hq hblock).2]
    rw [dropLineComments_append hreturn, hline, dropLineComments_return, ← toList_return]
    rfl
  unfold hasReturn
  rw [hparts]
  refine hasWord_append ?_ ?_
  · rw [getLast?_kept hp hline]
    exact wordMayBegin_of_isBlank hp
  · refine wordMayBegin_of_isBlank ?_
    have hblank : (dropBlocks false q).head?.all isBlank = true := by rwa [head?_dropBlocks hq]
    rwa [head?_dropLineComments hblank]

/-- Without slashes before it no place is hidden. -/
theorem not_hidden_of_not_mem (h : '/' ∉ p) : ¬ Hidden p q := by
  unfold Hidden
  rw [inBlock_of_not_mem h, dropBlocks_of_not_mem h, inLineComment_of_not_mem h]
  simp

/-! ## The rule -/

/-- The rule reports that the code returns nothing. -/
def MissesReturn (ps : Entries Value) (code : List Char) : Prop :=
  ∃ i ∈ (check (ps.put "jsCode" (.str (String.ofList code)))).issues,
    i.message = "Code must return data for the next node"

/-- The finding on a missing return is there exactly if no return is left without the comments. -/
theorem exists_missingReturn_iff {ps : Entries Value} {field code : String} {indented : Bool} :
    (∃ i ∈ checkText ps field indented code,
        i.message = "Code must return data for the next node") ↔
      hasReturn (withoutComments code.toList) = false := by
  have hothers : (primitiveReturn field).message ≠ "Code must return data for the next node" ∧
      (itemsUnavailable field).message ≠ "Code must return data for the next node" := by
    simp [primitiveReturn, itemsUnavailable, Outcome.error, Outcome.style]
  have hmissing : (missingReturn field indented).message =
      "Code must return data for the next node" := rfl
  unfold checkText
  dsimp only
  cases hreturn : hasReturn (withoutComments code.toList) with
  | false => exact ⟨fun _ => rfl, fun _ => ⟨_, List.mem_cons_self, hmissing⟩⟩
  | true =>
    refine ⟨?_, fun h => absurd h (by decide)⟩
    intro hexists
    rcases hexists with ⟨i, hi, hmessage⟩
    rcases List.mem_append.1 hi with hi | hi
    · split at hi
      · rename_i hnone
        exact absurd hnone (by decide)
      · split at hi
        · exact absurd (List.mem_singleton.1 hi ▸ hmessage) hothers.1
        · exact absurd hi List.not_mem_nil
    · split at hi
      · exact absurd (List.mem_singleton.1 hi ▸ hmessage) hothers.2
      · exact absurd hi List.not_mem_nil

/-- Code that is not empty misses its return exactly if none is left without the comments. -/
theorem missesReturn_iff {ps : Entries Value}
    (hlanguage : isIndentedLanguage ((ps.get? "language").getD (.str "javaScript")) = false)
    (hfilled : allBlank cs = false) :
    MissesReturn ps cs ↔ hasReturn (withoutComments cs) = false := by
  have hset : Parameters.isSet "jsCode" (ps.put "jsCode" (.str (String.ofList cs))) = true := by
    have hnonempty : String.ofList cs ≠ "" := by
      intro hempty
      have hnil : cs = [] := by simpa using congrArg String.toList hempty
      rw [hnil] at hfilled
      exact absurd hfilled (by decide)
    simp [Parameters.isSet, Value.isPresent, hnonempty]
  have htext : Parameters.text? "jsCode" (ps.put "jsCode" (.str (String.ofList cs))) =
      some (String.ofList cs) := by
    simp [Parameters.text?, Value.str?]
  have hcheck : (check (ps.put "jsCode" (.str (String.ofList cs)))).issues =
      checkText (ps.put "jsCode" (.str (String.ofList cs))) "jsCode" false (String.ofList cs) := by
    unfold check
    rw [Entries.get?_put_of_ne _ _ (by decide)]
    simp [hlanguage, hset, htext, hfilled]
  unfold MissesReturn
  rw [hcheck, exists_missingReturn_iff, String.toList_ofList]

/-- A return statement that is hidden makes no difference to whether one is missed; of any other it
is not said that it is missing. -/
theorem missesReturn_iff_hidden {ps : Entries Value}
    (hlanguage : isIndentedLanguage ((ps.get? "language").getD (.str "javaScript")) = false)
    (front back : List Segment) (hbefore : (script front).getLast?.all isBlank = true)
    (hbehind : (script back).head?.all isBlank = true) :
    MissesReturn ps (script front ++ ("return".toList ++ script back)) ↔
      Hidden (script front) (script back) ∧ MissesReturn ps (script front ++ script back) := by
  have hfilled : allBlank (script front ++ ("return".toList ++ script back)) = false := by
    refine List.all_eq_false.2 ⟨'r', ?_, by decide⟩
    rw [toList_return]
    simp [returnWord]
  rw [missesReturn_iff hlanguage hfilled, toList_return]
  by_cases h : Hidden (script front) (script back)
  · have hslash : '/' ∈ script front := by
      by_contra hnone
      exact not_hidden_of_not_mem hnone h
    have hrest : allBlank (script front ++ script back) = false :=
      List.all_eq_false.2 ⟨'/', List.mem_append_left _ hslash, by decide⟩
    rw [missesReturn_iff hlanguage hrest, withoutComments_of_hidden hbehind h]
    simp [h]
  · have hquoted : Quoted false (script front ++ (returnWord ++ script back)) := by
      have hwhole : script front ++ (returnWord ++ script back) =
          script (front ++ .code returnWord (by decide) :: back) := by
        simp [script, Segment.text]
      rw [hwhole]
      exact quoted_script _ false
    rw [hasReturn_of_not_hidden hbefore hbehind hquoted h]
    simp [h]

/-! ## All return statements -/

def behindReturns (parts : List (List Segment)) : List Char :=
  parts.flatMap fun segments => "return".toList ++ script segments

/-- The text behind the last of the parts is the text of one part more. -/
theorem behindReturns_concat (parts : List (List Segment)) (segments : List Segment) :
    behindReturns (parts ++ [segments]) =
      behindReturns parts ++ ("return".toList ++ script segments) := by
  simp [behindReturns]

/-- The text of two lists of segments is that of the first one and that of the second one. -/
theorem script_append (front back : List Segment) :
    script (front ++ back) = script front ++ script back :=
  List.flatMap_append

/-- The text of all parts is the texts of the parts one behind the other. -/
theorem script_flatten (parts : List (List Segment)) :
    script parts.flatten = parts.flatMap script := by
  induction parts with
  | nil => rfl
  | cons first rest ih =>
    calc
      script (first :: rest).flatten
          = script first ++ script rest.flatten := by rw [List.flatten_cons, script_append]
      _ = (first :: rest).flatMap script := by rw [ih, List.flatMap_cons]

/-- Return statements stand between literals. -/
theorem exists_script_behindReturns (parts : List (List Segment)) :
    ∃ segments, behindReturns parts = script segments := by
  induction parts with
  | nil => exact ⟨[], rfl⟩
  | cons first rest ih =>
    obtain ⟨segments, hsegments⟩ := ih
    have hfirst : behindReturns (first :: rest) =
        "return".toList ++ script first ++ behindReturns rest := List.flatMap_cons ..
    refine ⟨.code returnWord (by decide) :: (first ++ segments), ?_⟩
    rw [hfirst, hsegments, toList_return]
    simp [script, Segment.text]

/-- Whether a place is hidden does not depend on the return statements behind it. -/
theorem hidden_return_iff {front : List Char} (hq : q.head?.all isBlank = true) :
    Hidden p (front ++ (returnWord ++ q)) ↔ Hidden p (front ++ q) := by
  have hslash : ∀ c ∈ q.head?, c ≠ '/' := fun c hc => (beginsPlain_of_blank hq c hc).1
  have hreturn : ∀ c ∈ (returnWord ++ q).head?, c ≠ '/' := fun c hc => (beginsPlain_return c hc).1
  have hends : ['*', '/'] <:+: front ++ (returnWord ++ q) ↔ ['*', '/'] <:+: front ++ q := by
    rw [pair_infix_append hreturn, closed_return_iff, ← pair_infix_append hslash]
  unfold Hidden
  rw [hends]

/-- A blank at the beginning stays there when the word behind it is taken out. -/
theorem blank_of_return (h : (front ++ (returnWord ++ q)).head?.all isBlank = true) :
    (front ++ q).head?.all isBlank = true := by
  cases front with
  | nil =>
    have hletter : isBlank 'r' = true := h
    exact absurd hletter (by decide)
  | cons c front => exact h

/-- A place in a list with one more element is its last one, or a place in the list before. -/
theorem forall_split_concat {α : Type} {l : List α} {last : α}
    {holds : List α → α → List α → Prop} :
    (∀ a x b, l ++ [last] = a ++ x :: b → holds a x b) ↔
      holds l last [] ∧ ∀ a x b, l = a ++ x :: b → holds a x (b ++ [last]) := by
  constructor
  · intro h
    refine ⟨h l last [] rfl, fun a x b heq => h a x (b ++ [last]) ?_⟩
    rw [heq, List.append_assoc, List.cons_append]
  · intro hboth a x b heq
    rcases hboth with ⟨hlast, hrest⟩
    cases b using List.reverseRecOn with
    | nil =>
      obtain ⟨rfl, hx⟩ := List.append_inj' heq rfl
      obtain rfl : last = x := List.head_eq_of_cons_eq hx
      exact hlast
    | append_singleton b y =>
      rw [← List.cons_append, ← List.append_assoc] at heq
      obtain ⟨hl, hy⟩ := List.append_inj' heq rfl
      obtain rfl : last = y := List.head_eq_of_cons_eq hy
      exact hrest a x b hl

/-- The statements are taken away one after the other, from the last one on. What stands behind the
last one then belongs to the code behind all parts. -/
theorem missesReturn_append_iff {ps : Entries Value}
    (hlanguage : isIndentedLanguage ((ps.get? "language").getD (.str "javaScript")) = false)
    (first : List Segment) (others : List (List Segment)) (back : List Segment)
    (hbounded : ∀ a segments b, others = a ++ segments :: b →
      (script first ++ behindReturns a).getLast?.all isBlank = true ∧
        (script segments ++ (behindReturns b ++ script back)).head?.all isBlank = true) :
    MissesReturn ps (script first ++ (behindReturns others ++ script back)) ↔
      (∀ a segments b, others = a ++ segments :: b →
        Hidden (script first ++ behindReturns a)
          (script segments ++ (behindReturns b ++ script back))) ∧
      MissesReturn ps (script first ++ (others.flatMap script ++ script back)) := by
  induction others using List.reverseRecOn generalizing back with
  | nil => simp [behindReturns]
  | append_singleton others last ih =>
    rw [forall_split_concat] at hbounded ⊢
    obtain ⟨⟨hbefore, hbehind⟩, hbounded⟩ := hbounded
    obtain ⟨segments, hsegments⟩ := exists_script_behindReturns others
    have hfront : script first ++ behindReturns others = script (first ++ segments) := by
      rw [script_append, hsegments]
    have hback : script last ++ (behindReturns [] ++ script back) = script (last ++ back) :=
      (script_append last back).symm
    rw [hfront] at hbefore
    rw [hback] at hbehind
    -- The last statement is taken away; the part behind it belongs to the part before.
    have hstep := missesReturn_iff_hidden hlanguage _ _ hbefore hbehind
    have hmoved : ∀ b : List (List Segment), behindReturns (b ++ [last]) ++ script back =
        behindReturns b ++ (returnWord ++ script (last ++ back)) := by
      intro b
      rw [behindReturns_concat, script_append, toList_return]
      simp only [List.append_assoc]
    have hrest := ih (last ++ back) fun a part b heq => by
      obtain ⟨hleft, hright⟩ := hbounded a part b heq
      rw [hmoved, ← List.append_assoc] at hright
      rw [← List.append_assoc]
      exact ⟨hleft, blank_of_return hright⟩
    have hhidden : ∀ a part b,
        Hidden (script first ++ behindReturns a)
            (script part ++ (behindReturns (b ++ [last]) ++ script back)) ↔
          Hidden (script first ++ behindReturns a)
            (script part ++ (behindReturns b ++ script (last ++ back))) := by
      intro a part b
      simp only [hmoved, ← List.append_assoc (script part)]
      exact hidden_return_iff hbehind
    have hwhole : script first ++ (behindReturns (others ++ [last]) ++ script back) =
        script (first ++ segments) ++ ("return".toList ++ script (last ++ back)) := by
      rw [hmoved, ← toList_return, ← List.append_assoc, hfront]
    simp only [hhidden]
    rw [hwhole, hstep, ← hfront, List.append_assoc, hrest, hback, and_assoc]
    simp [script_append]

/-- There is white space, or nothing at all, before and behind every return statement. -/
def Bounded (first : List Segment) (others : List (List Segment)) : Prop :=
  ∀ a segments b, others = a ++ segments :: b →
    (script first ++ behindReturns a).getLast?.all isBlank = true ∧
      (script segments ++ behindReturns b).head?.all isBlank = true

/-- One part is bounded if there are blanks around the word in front of it. -/
theorem bounded_single {first segments : List Segment}
    (hbefore : (script first).getLast?.all isBlank = true)
    (hbehind : (script segments).head?.all isBlank = true) : Bounded first [segments] := by
  rw [Bounded, ← List.nil_append [segments], forall_split_concat]
  refine ⟨?_, fun a part b heq => by simp at heq⟩
  simpa [behindReturns] using ⟨hbefore, hbehind⟩

/-- It is said that code returns nothing if all its return statements are hidden, and if it is said
of the code without them. -/
theorem missesReturn_iff_all_hidden {ps : Entries Value}
    (hlanguage : isIndentedLanguage ((ps.get? "language").getD (.str "javaScript")) = false)
    (first : List Segment) (others : List (List Segment)) (hbounded : Bounded first others) :
    MissesReturn ps (script first ++ behindReturns others) ↔
      (∀ a segments b, others = a ++ segments :: b →
        Hidden (script first ++ behindReturns a) (script segments ++ behindReturns b)) ∧
      MissesReturn ps (script (first ++ others.flatten)) := by
  have hnothing : script [] = [] := rfl
  have hwithout : script first ++ others.flatMap script = script (first ++ others.flatten) := by
    rw [script_append, script_flatten]
  have hall := missesReturn_append_iff hlanguage first others []
  simp only [hnothing, List.append_nil, hwithout] at hall
  exact hall hbounded

/-- With a plain literal before it a return statement is not missed. -/
theorem greeting_returned :
    let first : List Segment :=
      [.code "const a = ".toList (by decide), .literal "hello".toList (by decide),
        .code "; ".toList (by decide)]
    let others : List (List Segment) := [[.code " [a];".toList (by decide)]]
    Bounded first others ∧ ¬ MissesReturn [] (script first ++ behindReturns others) := by
  intro front parts
  have hbounded : Bounded front parts := bounded_single (by decide) (by decide)
  refine ⟨hbounded, ?_⟩
  intro h
  have hall := (missesReturn_iff_all_hidden (by decide) front parts hbounded).1 h
  have hhidden := hall.1 [] _ [] rfl
  exact not_hidden_of_not_mem (by decide) hhidden

/-- The address in a literal hides the statement behind it. -/
theorem address_hides_return :
    let first : List Segment :=
      [.code "const url = ".toList (by decide), .literal "http://example.com".toList (by decide),
        .code "; ".toList (by decide)]
    let others : List (List Segment) :=
      [[.code " [\x7bjson: \x7burl\x7d\x7d];".toList (by decide)]]
    Bounded first others ∧ MissesReturn [] (script first ++ behindReturns others) := by
  constructor
  · exact bounded_single (by decide) (by decide)
  · exact (missesReturn_iff (by decide) (by decide)).2 (by decide)

end Code
end Workflows
