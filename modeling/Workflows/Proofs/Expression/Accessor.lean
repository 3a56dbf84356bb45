import Workflows.Proofs.Expression.Template
import Workflows.Proofs.NameSet
import Workflows.Proofs.Text.Pieces

/-!
# Accessor — expressions that name another node

An accessor names a node in quotes. Whatever the name is, as long as it can stand in quotes at all,
the check of an expression finds it, and says exactly once that there is no such node if there is
none.

Main definitions:

* `Accessor`, `Accessor.text` — the written forms of an access to a node;
* `Quotable` — the names that can be written in quotes;
* `Reference.name_mem_nodeNames` — the name is found;
* `Expression.count_nodeErrors` — how often a name is reported;
* `Expression.accessor_recognised` — both, for a whole text.
-/

namespace Workflows

open Text

/-- The accessors that name a node in quotes. -/
inductive AccessForm
  | node
  | call
  | items

namespace AccessForm

def opening : AccessForm → String
  | node => "$node["
  | call => "$("
  | items => "$items("

def ending : AccessForm → Char
  | node => ']'
  | call => ')'
  | items => ')'

/-- The opening of an accessor contains no braces. -/
theorem noBrace_opening (form : AccessForm) :
    ∀ c ∈ form.opening.toList, ¬ Template.IsBrace c := by
  have hall : (form.opening.toList.all fun c => !decide (Template.IsBrace c)) = true := by
    cases form <;> decide
  intro c hc
  exact by simpa using List.all_eq_true.1 hall c hc

/-- The ending of an accessor contains no braces. -/
theorem noBrace_ending (form : AccessForm) :
    ∀ c ∈ form.ending :: ".json ".toList, ¬ Template.IsBrace c := by
  have hall : ((form.ending :: ".json ".toList).all fun c => !decide (Template.IsBrace c)) = true := by
    cases form <;> decide
  intro c hc
  exact by simpa using List.all_eq_true.1 hall c hc

end AccessForm

/-- An accessor as it is written around a name: its form, the kind of its quotes, and the blanks
inside its brackets. -/
structure Accessor where
  form : AccessForm
  quote : Char
  before : List Char
  after : List Char
  quoted : quote = '"' ∨ quote = '\''
  blank_before : ∀ c ∈ before, isBlank c = true
  blank_after : ∀ c ∈ after, isBlank c = true

namespace Accessor

def text (a : Accessor) (name : List Char) : List Char :=
  a.form.opening.toList ++ a.before ++ a.quote :: (name ++ a.quote :: (a.after ++ [a.form.ending]))

/-- The body of an expression that reads from the node of the name. -/
def body (a : Accessor) (name : List Char) : List Char :=
  ' ' :: (a.text name ++ ".json ".toList)

/-- A parameter that consists of that expression. -/
def expression (a : Accessor) (name : String) : String :=
  String.ofList ("=\x7b\x7b".toList ++ a.body name.toList ++ "\x7d\x7d".toList)

end Accessor

/-- A name that can be written in quotes inside an expression. -/
structure Quotable (name : String) : Prop where
  nonempty : name ≠ ""
  oneLine : '\n' ∉ name.toList
  noDouble : '"' ∉ name.toList
  noSingle : '\'' ∉ name.toList
  markFree : Template.MarkFree name.toList

/-! ## The text around a name -/

namespace Template

variable {cs ds : List Char} {c : Char}

/-- Text without braces contains no marks. -/
theorem markFree_of_noBrace (h : ∀ c ∈ cs, ¬ IsBrace c) : MarkFree cs := by
  rw [markFree_iff]
  intro brace hbrace hpart
  exact h brace (hpart.subset List.mem_cons_self) hbrace

/-- No mark arises around a character that is no brace. -/
theorem MarkFree.append_cons (hcs : MarkFree cs) (hc : ¬ IsBrace c) (hds : MarkFree ds) :
    MarkFree (cs ++ c :: ds) := by
  induction cs with
  | nil => exact markFree_cons.2 ⟨fun _ hbrace heq => absurd (heq ▸ hbrace) hc, hds⟩
  | cons d rest ih =>
    rcases markFree_cons.1 hcs with ⟨hhere, hlater⟩
    refine markFree_cons.2 ⟨?_, ih hlater⟩
    intro brace hbrace hd
    cases rest with
    | nil =>
      intro hhead
      obtain rfl : c = brace := by simpa using hhead
      exact hc hbrace
    | cons e more => exact hhere brace hbrace hd

/-- No blank is a brace. -/
theorem not_isBrace_of_isBlank (h : isBlank c = true) : ¬ IsBrace c := by
  intro hcases
  rcases hcases with rfl | rfl
  · exact absurd h (by decide)
  · exact absurd h (by decide)

end Template

namespace Accessor

open Template

variable {a : Accessor} {name : List Char}

/-- No quotation mark is a brace. -/
theorem not_isBrace_quote (a : Accessor) : ¬ IsBrace a.quote := by
  rcases a.quoted with h | h
  · rw [h]
    simp [IsBrace]
  · rw [h]
    simp [IsBrace]

/-- No quotation mark is a blank. -/
theorem not_isBlank_quote (a : Accessor) : isBlank a.quote = false := by
  rcases a.quoted with h | h
  · rw [h]
    decide
  · rw [h]
    decide

/-- The body of an accessor, written out. -/
theorem body_eq (a : Accessor) (name : List Char) :
    a.body name =
      ' ' :: (a.form.opening.toList ++ a.before) ++ a.quote ::
        (name ++ a.quote :: (a.after ++ a.form.ending :: ".json ".toList)) := by
  simp [body, text]

/-- Quotes keep the name apart from the rest of the body, in which there are no braces. -/
theorem markFree_body (h : MarkFree name) : MarkFree (a.body name) := by
  have hfront : MarkFree (' ' :: (a.form.opening.toList ++ a.before)) := by
    refine markFree_of_noBrace ?_
    intro c hc
    rcases List.mem_cons.1 hc with rfl | hc
    · decide
    · rcases List.mem_append.1 hc with hc | hc
      · exact a.form.noBrace_opening c hc
      · exact not_isBrace_of_isBlank (a.blank_before c hc)
  have hback : MarkFree (a.after ++ a.form.ending :: ".json ".toList) := by
    refine markFree_of_noBrace ?_
    intro c hc
    rcases List.mem_append.1 hc with hc | hc
    · exact not_isBrace_of_isBlank (a.blank_after c hc)
    · exact a.form.noBrace_ending c hc
  rw [body_eq]
  exact hfront.append_cons a.not_isBrace_quote (h.append_cons a.not_isBrace_quote hback)

/-- The whole text is a template with the one body. -/
theorem run_expression {name : String} (h : MarkFree name.toList) :
    Scan.run (a.expression name).toList = ⟨[a.body name.toList], []⟩ := by
  have hlast : (a.body name.toList).getLast? ≠ some '\x7d' := by
    rw [body_eq]
    simp [List.getLast?_append, List.getLast?_cons]
  have hwell : (Template.expression ['='] (a.body name.toList) (.literal [])).WellFormed :=
    .expression ⟨markFree_of_noBrace (by simp [IsBrace]), by simp⟩ ⟨markFree_body h, hlast⟩
      (.literal markFree_nil)
  have htext : (a.expression name).toList =
      (Template.expression ['='] (a.body name.toList) (.literal [])).text := by
    refine String.toList_ofList.trans ?_
    rw [Template.text, Template.text, List.append_nil]
    rfl
  rw [htext, Scan.run_text hwell]
  rfl

end Accessor

/-! ## Finding the name -/

namespace Reference

variable {quote : Char} {close : List Char → Option (List Char)} {name rest behind : List Char}

/-- A name without quotes and line breaks is read up to its quote. -/
theorem quotedUntil?_append (hquote : quote ∉ name) (hline : '\n' ∉ name)
    (hclose : close rest = some behind) {done : List Char} (hdone : done ≠ [] ∨ name ≠ []) :
    quotedUntil? quote close done (name ++ quote :: rest) =
      some (done.reverse ++ name, behind) := by
  induction name generalizing done with
  | nil =>
    have hsome : done ≠ [] := hdone.resolve_right (by simp)
    simp [quotedUntil?, hsome, hclose]
  | cons c cs ih =>
    simp only [List.mem_cons, not_or] at hquote hline
    have hother : (c == quote) = false := by simpa using Ne.symm hquote.1
    have hsame : c ≠ '\n' := Ne.symm hline.1
    rw [List.cons_append, quotedUntil?, hother, Bool.and_false]
    simp [hsame, ih hquote.2 hline.2 (.inl (List.cons_ne_nil c done))]

/-- Blanks are passed over up to a character that is none. -/
theorem dropWhile_isBlank {blanks : List Char} {c : Char}
    (h : ∀ b ∈ blanks, isBlank b = true) (hc : isBlank c = false) :
    (blanks ++ c :: rest).dropWhile isBlank = c :: rest := by
  rw [List.dropWhile_append_of_pos h, List.dropWhile_cons_of_neg (by simp [hc])]

/-- What has to follow the quoted name in a form of accessor. -/
def closingOf : AccessForm → List Char → Option (List Char)
  | .node => closing? "]"
  | .call => closing? ")"
  | .items => some

/-- The closing of an accessor is recognised whatever stands behind it. -/
theorem closingOf_append (a : Accessor) (tail : List Char) :
    ∃ behind, closingOf a.form (a.after ++ a.form.ending :: tail) = some behind := by
  cases hform : a.form with
  | items => exact ⟨_, rfl⟩
  | node =>
    refine ⟨tail, ?_⟩
    rw [closingOf, closing?, dropWhile_isBlank a.blank_after (by decide)]
    rfl
  | call =>
    refine ⟨tail, ?_⟩
    rw [closingOf, closing?, dropWhile_isBlank a.blank_after (by decide)]
    rfl

/-- An accessor at the front of a text is recognised with its name. -/
theorem accessor?_text (a : Accessor) {name : String} (h : Quotable name) (tail : List Char) :
    ∃ behind, accessor? a.form.opening (closingOf a.form) (a.text name.toList ++ tail) =
      some (name, behind) := by
  rcases closingOf_append a tail with ⟨behind, hclose⟩
  refine ⟨behind, ?_⟩
  have hquote : a.quote ∉ name.toList := by
    rcases a.quoted with hq | hq
    · exact hq ▸ h.noDouble
    · exact hq ▸ h.noSingle
  have hfilled : name.toList ≠ [] := by simpa using h.nonempty
  have hread := quotedUntil?_append hquote h.oneLine hclose (.inr hfilled : [] ≠ [] ∨ _)
  have hopening : after? a.form.opening (a.text name.toList ++ tail) =
      some (a.before ++ a.quote :: (name.toList ++ a.quote :: (a.after ++ a.form.ending :: tail))) :=
    List.isPrefixOf?_eq_some_iff_append_eq.2 (by simp [Accessor.text])
  rw [accessor?, hopening, Option.map_some, dropWhile_isBlank a.blank_before a.not_isBlank_quote]
  simp [a.quoted, hread]

/-- Where nothing is found the search goes on behind the first character. -/
theorem allMatches_of_none {find : List Char → Option (String × List Char)} {c : Char}
    {cs : List Char} (h : find (c :: cs) = none) (fuel : Nat) :
    allMatches find (fuel + 1) (c :: cs) = allMatches find fuel cs := by
  simp [allMatches, h]

/-- What is found at the beginning is one of the matches. -/
theorem mem_allMatches_of_some {find : List Char → Option (String × List Char)} {name : String}
    {cs behind : List Char} (h : find cs = some (name, behind)) (hcs : cs ≠ []) {fuel : Nat} :
    name ∈ allMatches find (fuel + 1) cs := by
  cases cs with
  | nil => exact absurd rfl hcs
  | cons c rest => simp [allMatches, h]

/-- The names that one form of accessor gives are among the names of nodes. -/
theorem mem_nodeNames_of_form {form : AccessForm} {name : String} {body : List Char}
    (h : name ∈ allMatches (accessor? form.opening (closingOf form)) body.length body) :
    name ∈ nodeNames body := by
  unfold nodeNames
  cases form with
  | node => exact List.mem_append_left _ (List.mem_append_left _ (List.mem_append_left _ h))
  | call => exact List.mem_append_left _ (List.mem_append_right _ h)
  | items => exact List.mem_append_right _ h

/-- The name is among those that the body refers to. -/
theorem name_mem_nodeNames (a : Accessor) {name : String} (h : Quotable name) :
    name ∈ nodeNames (a.body name.toList) := by
  rcases accessor?_text a h ".json ".toList with ⟨behind, hfound⟩
  refine @mem_nodeNames_of_form a.form name _ ?_
  have hnone : accessor? a.form.opening (closingOf a.form)
      (' ' :: (a.text name.toList ++ ".json ".toList)) = none := by
    cases a.form <;> rfl
  rw [Accessor.body, List.length_cons, allMatches_of_none hnone, List.length_append]
  exact mem_allMatches_of_some hfound (by simp)

end Reference

/-! ## Reporting the name -/

namespace ExpressionError

/-- The message on an unknown node begins with its own letter. -/
theorem head?_message_unknownNode (name : String) :
    (unknownNode name).message.toList.head? = some 'R' := by
  unfold message
  exact Text.head?_append (Text.head?_append (by decide))

/-- No message of the scanner begins with that letter. -/
theorem head?_message_scan (fault : ScanFault) :
    (scan fault).message.toList.head? ≠ some 'R' := by
  unfold message ScanFault.message
  cases fault with
  | nested => decide
  | unclosed => decide
  | unmatchedClose position =>
    dsimp only
    rw [Text.head?_append (c := 'U') (by decide)]
    decide

/-- No other error has the message that there is no node of a name. -/
theorem message_eq_unknownNode {e : ExpressionError} {name : String} :
    e.message = (unknownNode name).message ↔ e = unknownNode name := by
  constructor
  · intro h
    have hhead : e.message.toList.head? = some 'R' := by
      rw [h]
      exact head?_message_unknownNode name
    cases e with
    | scan fault => exact absurd hhead (head?_message_scan fault)
    | empty => exact absurd hhead (by decide)
    | noInput => exact absurd hhead (by decide)
    | templateLiteral => exact absurd hhead (by decide)
    | unknownNode other =>
      unfold message at h
      have hnames := congrArg String.toList h
      simp only [String.toList_append] at hnames
      have hsame : other.toList = name.toList :=
        List.append_cancel_left (List.append_cancel_right hnames)
      rw [String.toList_injective hsame]
  · rintro rfl
    rfl

/-- A message about an unknown node stands for no other error. -/
theorem count_message (errors : List ExpressionError) (name : String) :
    (errors.map message).count (unknownNode name).message = errors.count (unknownNode name) := by
  rw [List.count_eq_countP, List.countP_map, List.count_eq_countP]
  refine List.countP_congr ?_
  intro e _
  simp [message_eq_unknownNode]

end ExpressionError

namespace Expression

variable {ctx : ExpressionContext} {available : List String} {name : String}

/-- A name that is used is reported once if it is unknown, unless it is among the errors before. -/
theorem count_nodeErrors (h : ctx.availableNodes = some available) (used : List String)
    (errors : List ExpressionError) :
    (nodeErrors ctx used errors).count (.unknownNode name) =
      if name ∈ used ∧ knowsNode ctx available name = false ∧ .unknownNode name ∉ errors then 1
      else errors.count (.unknownNode name) := by
  simp only [nodeErrors, h]
  induction used generalizing errors with
  | nil => simp
  | cons other rest ih =>
    rw [List.foldl_cons, ih]
    by_cases hother : other = name
    · subst hother
      by_cases hknown : knowsNode ctx available other = true
      · simp [hknown]
      · by_cases hmem : ExpressionError.unknownNode other ∈ errors
        · simp [hknown, hmem]
        · simp [hknown, hmem, List.count_append, List.count_eq_zero.2 hmem]
    · -- Another name leaves these errors as they are.
      have hother' : name ≠ other := Ne.symm hother
      have hstep : ∀ more : List ExpressionError,
          more = errors ∨ more = errors ++ [.unknownNode other] →
            (if name ∈ rest ∧ knowsNode ctx available name = false ∧ .unknownNode name ∉ more
              then 1 else more.count (.unknownNode name)) =
            if name ∈ other :: rest ∧ knowsNode ctx available name = false ∧
                .unknownNode name ∉ errors
              then 1 else errors.count (.unknownNode name) := by
        intro more hcases
        rcases hcases with rfl | rfl
        · simp [hother']
        · simp [hother', hother, List.count_append]
      split
      · exact hstep _ (.inl rfl)
      · exact hstep _ (.inr rfl)

/-- The errors of the body itself are not about nodes. -/
theorem count_bodyErrors (body : List Char) :
    (bodyErrors ctx body).count (.unknownNode name) = 0 := by
  unfold bodyErrors
  rw [List.count_append]
  split <;> split <;> simp

/-- The check of a text whose one expression has a body that is not blank. -/
theorem check_of_body {text : String} {body : List Char} (hbody : allBlank body = false)
    (h : Scan.run text.toList = ⟨[body], []⟩) :
    check ctx text = checkBody ctx { count := 1 } body := by
  simp [check, h, addBody, hbody]

/-- For every name that can stand in quotes, and in every form of accessor, the name is among the
nodes that are used, and it is reported as unknown once if it is neither available nor the node
itself, and not at all if it is. -/
theorem accessor_recognised (a : Accessor) (hname : Quotable name)
    (h : ctx.availableNodes = some available) :
    name ∈ (check ctx (a.expression name)).nodes ∧
      ((check ctx (a.expression name)).errors.map ExpressionError.message).count
          (ExpressionError.unknownNode name).message =
        if name ∈ available ∨ ctx.currentNode = some name then 0 else 1 := by
  have hbody : allBlank (a.body name.toList) = false := by
    refine List.all_eq_false.2 ⟨'.', ?_, by decide⟩
    simp [Accessor.body]
  have hused : name ∈ NameSet.insertAll (Reference.nodeNames (a.body name.toList)) [] :=
    NameSet.mem_insertAll.2 (.inl (Reference.name_mem_nodeNames a hname))
  have hknown : knowsNode ctx available name = true ↔
      name ∈ available ∨ ctx.currentNode = some name := by
    simp [knowsNode]
  rw [check_of_body hbody (a.run_expression hname.markFree)]
  refine ⟨hused, ?_⟩
  rw [ExpressionError.count_message, checkBody, List.count_append, count_nodeErrors h,
    count_bodyErrors]
  by_cases hknows : knowsNode ctx available name = true
  · have hor := hknown.1 hknows
    rw [if_pos hor]
    simp [hknows]
  · have hnone := mt hknown.2 hknows
    rw [if_neg hnone]
    simp [hknows, hused]

def itemsOf : Accessor where
  form := .items
  quote := '\''
  before := [' ', '\n']
  after := ['\t']
  quoted := .inr rfl
  blank_before := List.all_eq_true.1 (by decide)
  blank_after := List.all_eq_true.1 (by decide)

/-- A name that looks like an accessor itself and holds the brackets of all of them is found, and
reported where only another node is available. -/
theorem accessor_in_name_recognised :
    Quotable "$node.x ]) \x7b" ∧
      "$node.x ]) \x7b" ∈
        (check { availableNodes := some ["x"] } (itemsOf.expression "$node.x ]) \x7b")).nodes ∧
      ((check { availableNodes := some ["x"] }
          (itemsOf.expression "$node.x ]) \x7b")).errors.map ExpressionError.message).count
        (ExpressionError.unknownNode "$node.x ]) \x7b").message = 1 := by
  have hname : Quotable "$node.x ]) \x7b" :=
    ⟨by decide, by decide, by decide, by decide, by decide, by decide⟩
  have hfound := @accessor_recognised { availableNodes := some ["x"] } _ _ itemsOf hname rfl
  refine ⟨hname, hfound.1, hfound.2.trans (if_neg ?_)⟩
  decide

end Expression
end Workflows
