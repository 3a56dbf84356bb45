import Mathlib.Data.List.Count
import Mathlib.Data.List.Induction
import Workflows.Proofs.Edit.Run

/-!
# Tags — which tags a batch leaves, and in which order

The tags of a document are a list, which may name a tag twice. An addition does nothing if the tag
is there, but a removal takes away the first copy of the tag alone, so that a tag can stay although
the last operation that names it is a removal. What is left of the old tags are the copies that have
not been removed; new tags come behind them.

Main definitions:

* `Action.tagsAfter`, `Draft.Run.tags` — what operations do to the tags;
* `Tags.mem_after_iff` — when a tag is there after some operations;
* `Editor.TagsAsSet`, `Editor.tags_as_set_iff` — when the tags behave as a set.
-/

namespace Workflows

/-- What an operation does with a tag. -/
inductive TagEdit
  | add
  | remove
  deriving DecidableEq, Repr

namespace Action

def tagEdit? (tag : String) : Action → Option TagEdit
  | addTag t => if t = tag then some .add else none
  | removeTag t => if t = tag then some .remove else none
  | _ => none

def removedTag? : Action → Option String
  | removeTag t => some t
  | _ => none

def tagsAfter (tags : List String) : Action → List String
  | addTag t => if tags.contains t then tags else tags ++ [t]
  | removeTag t => tags.erase t
  | _ => tags

end Action

/-! ## Drafts -/

namespace Draft

variable {catalog : Option Catalog}

theorem tags_carryOutOn {d d' : Document} {a : Action} (h : carryOutOn catalog d a = .ok d') :
    d'.tags = a.tagsAfter d.tags := by
  have hchanged : ∀ {reference f}, changeNode d reference f = .ok d' → d'.tags = d.tags := by
    intro reference f hf
    rcases changeNode_eq_ok hf with ⟨n, -, rfl⟩
    rfl
  -- Only the two actions on tags touch them.
  cases a with
  | addNode n =>
    cases h
    rfl
  | removeNode r =>
    rcases removeNode_eq_ok h with ⟨n, -, rfl⟩
    rfl
  | updateNode r changes =>
    rcases updateNode_eq_ok.1 h with ⟨before, after, -, rfl⟩
    rfl
  | moveNode r position => exact hchanged h
  | enableNode r => exact hchanged h
  | disableNode r => exact hchanged h
  | addConnection l =>
    rcases addable_of_addConnection h with ⟨source, target, -, -, -, rfl⟩
    rfl
  | removeConnection l =>
    rcases removeConnection_eq_ok h with ⟨source, target, -, -, -, rfl⟩
    rfl
  | updateConnection l =>
    obtain ⟨source, target, slot, existing, d₁, -, -, -, -, rfl, -, rfl⟩ :=
      updateConnection_eq_ok h
    rfl
  | updateSettings settings =>
    cases h
    rfl
  | updateName name =>
    cases h
    rfl
  | addTag tag =>
    simp only [carryOutOn, Except.ok.injEq] at h
    rw [← h, Action.tagsAfter]
    split <;> rfl
  | removeTag tag =>
    cases h
    rfl

theorem tags_carryOut {s s' : Draft} {a : Action} (h : s.carryOut catalog a = .ok s') :
    s'.document.tags = a.tagsAfter s.document.tags := by
  by_cases hnode : ∃ n, a = .addNode n
  · rcases hnode with ⟨n, rfl⟩
    rcases addNode_eq_ok h with ⟨node, -, rfl⟩
    rfl
  · have hne : ∀ n, a ≠ .addNode n := fun n heq => hnode ⟨n, heq⟩
    rcases (carryOut_eq_ok_iff hne).1 h with ⟨d, hd, rfl⟩
    exact tags_carryOutOn hd

end Draft

/-! ## Lists of tags -/

namespace Tags

variable {as : List Action} {a : Action} {tags gone now added : List String} {tag : String}

def after (as : List Action) (tags : List String) : List String :=
  as.foldl Action.tagsAfter tags

def removed (as : List Action) : List String :=
  as.filterMap Action.removedTag?

/-- What the last action that names a tag does with it. -/
def lastEdit? (tag : String) (as : List Action) : Option TagEdit :=
  (as.filterMap (Action.tagEdit? tag)).getLast?

theorem after_concat : after (as ++ [a]) tags = a.tagsAfter (after as tags) := by
  simp [after]

theorem removed_append (front back : List Action) :
    removed (front ++ back) = removed front ++ removed back :=
  List.filterMap_append

theorem removed_concat : removed (as ++ [a]) = removed as ++ a.removedTag?.toList := by
  rw [removed_append]
  cases ha : a.removedTag? <;> simp [removed, ha]

theorem lastEdit?_concat :
    lastEdit? tag (as ++ [a]) = (a.tagEdit? tag).or (lastEdit? tag as) := by
  rw [lastEdit?, lastEdit?, List.filterMap_append, List.getLast?_append]
  cases ha : a.tagEdit? tag <;> simp [ha]

theorem mem_removed_of_lastEdit? (h : lastEdit? tag as = some .remove) : tag ∈ removed as := by
  rcases List.mem_filterMap.1 (List.mem_of_getLast? h) with ⟨a, ha, hedit⟩
  refine List.mem_filterMap.2 ⟨a, ha, ?_⟩
  cases a <;> simp_all [Action.tagEdit?, Action.removedTag?]

/-! ### What is left, and what is new -/

/-- The tags are those that are left after some removals, and behind them new ones, each once. -/
structure Split (tags gone now added : List String) : Prop where
  now_eq : now = tags.diff gone ++ added
  nodup : added.Nodup
  apart : ∀ t ∈ added, t ∉ tags.diff gone

theorem Split.addTag (h : Split tags gone now added) (tag : String) :
    ∃ added', Split tags gone ((Action.addTag tag).tagsAfter now) added' := by
  rw [Action.tagsAfter]
  split
  · exact ⟨added, h⟩
  · rename_i hnew
    have hnew : tag ∉ now := by simpa using hnew
    rw [h.now_eq, List.mem_append, not_or] at hnew
    refine ⟨added ++ [tag], ?_, ?_, ?_⟩
    · rw [h.now_eq, List.append_assoc]
    · exact List.concat_eq_append ▸ h.nodup.concat hnew.2
    · intro t ht
      rcases List.mem_append.1 ht with ht | ht
      · exact h.apart t ht
      · exact List.mem_singleton.1 ht ▸ hnew.1

/-- A copy that is left goes before a new one does. -/
theorem Split.removeTag (h : Split tags gone now added) (tag : String) :
    ∃ added', Split tags (gone ++ [tag]) ((Action.removeTag tag).tagsAfter now) added' := by
  have hgone : tags.diff (gone ++ [tag]) = (tags.diff gone).erase tag := by
    rw [List.diff_append, List.diff_cons, List.diff_nil]
  rw [Action.tagsAfter, h.now_eq]
  by_cases hleft : tag ∈ tags.diff gone
  · refine ⟨added, ?_, h.nodup, ?_⟩
    · rw [hgone, List.erase_append_left _ hleft]
    · intro t ht hmem
      exact h.apart t ht (List.mem_of_mem_erase (hgone ▸ hmem))
  · have hsame : tags.diff (gone ++ [tag]) = tags.diff gone := by
      rw [hgone, List.erase_of_not_mem hleft]
    refine ⟨added.erase tag, ?_, h.nodup.erase tag, ?_⟩
    · rw [hsame, List.erase_append_right _ hleft]
    · intro t ht
      exact hsame ▸ h.apart t (List.mem_of_mem_erase ht)

theorem exists_split (tags : List String) (as : List Action) :
    ∃ added, Split tags (removed as) (after as tags) added := by
  induction as using List.reverseRecOn with
  | nil => exact ⟨[], by simp [removed, after], List.nodup_nil, by simp⟩
  | append_singleton as a ih =>
    rcases ih with ⟨added, h⟩
    rw [after_concat, removed_concat]
    cases a with
    | addTag tag => simpa [Action.removedTag?] using h.addTag tag
    | removeTag tag => exact h.removeTag tag
    | _ => exact ⟨added, by simpa [Action.removedTag?, Action.tagsAfter] using h⟩

theorem Split.count (h : Split tags gone now added) (tag : String) :
    now.count tag = tags.count tag - gone.count tag + added.count tag := by
  rw [h.now_eq, List.count_append, List.count_diff]

theorem Split.mem_left_iff (tags gone : List String) (tag : String) :
    tag ∈ tags.diff gone ↔ gone.count tag < tags.count tag := by
  rw [← List.count_pos_iff, List.count_diff]
  omega

/-- Another copy is there if there were more than have been removed, one of them included. -/
theorem Split.two_le_count_iff (h : Split tags gone now added) (tag : String) :
    2 ≤ now.count tag ↔ gone.count tag + 1 < tags.count tag := by
  have hcount := h.count tag
  have hone : added.count tag ≤ 1 := List.nodup_iff_count_le_one.1 h.nodup tag
  by_cases hleft : gone.count tag < tags.count tag
  · have hnone : added.count tag = 0 :=
      List.count_eq_zero.2 fun hmem => h.apart tag hmem ((mem_left_iff tags gone tag).2 hleft)
    omega
  · omega

theorem Split.mem_now (h : Split tags gone now added) (hleft : gone.count tag < tags.count tag) :
    tag ∈ now := by
  rw [h.now_eq]
  exact List.mem_append_left _ ((mem_left_iff tags gone tag).2 hleft)

/-- Of the tags that are left, the first copies stand before everything new. -/
theorem Split.idxOf_now (h : Split tags gone now added) (hleft : gone.count tag < tags.count tag) :
    now.idxOf tag = (tags.diff gone).idxOf tag := by
  rw [h.now_eq]
  exact List.idxOf_append_of_mem ((mem_left_iff tags gone tag).2 hleft)

/-! ### Membership -/

/-- A tag is there if it has been added since it was last removed, if it was there and is not named,
or if it was there more often than it has been removed. -/
theorem mem_after_iff :
    tag ∈ after as tags ↔
      lastEdit? tag as = some .add ∨ (lastEdit? tag as = none ∧ tag ∈ tags) ∨
        (lastEdit? tag as = some .remove ∧ (removed as).count tag < tags.count tag) := by
  -- The induction is on the actions from the last one on, which decides if it names the tag.
  induction as using List.reverseRecOn with
  | nil => simp [after, lastEdit?]
  | append_singleton as a ih =>
    rcases exists_split tags as with ⟨added, hsplit⟩
    rw [after_concat, lastEdit?_concat, removed_concat, List.count_append]
    cases a with
    | addTag t =>
      by_cases ht : t = tag
      · subst ht
        have hmem : t ∈ (Action.addTag t).tagsAfter (after as tags) := by
          rw [Action.tagsAfter]
          split
          · rename_i hthere
            simpa using hthere
          · simp
        simp [Action.tagEdit?, hmem]
      · have hmem : tag ∈ (Action.addTag t).tagsAfter (after as tags) ↔ tag ∈ after as tags := by
          rw [Action.tagsAfter]
          split
          · rfl
          · simp [Ne.symm ht]
        simpa [Action.tagEdit?, ht, Action.removedTag?, hmem] using ih
    | removeTag t =>
      by_cases ht : t = tag
      · subst ht
        have hmem : t ∈ (Action.removeTag t).tagsAfter (after as tags) ↔
            (removed as).count t + 1 < tags.count t := by
          rw [Action.tagsAfter, ← hsplit.two_le_count_iff, ← List.count_pos_iff,
            List.count_erase_self]
          omega
        simpa [Action.tagEdit?, Action.removedTag?] using hmem
      · have hmem : tag ∈ (Action.removeTag t).tagsAfter (after as tags) ↔ tag ∈ after as tags := by
          rw [Action.tagsAfter]
          exact List.mem_erase_of_ne (Ne.symm ht)
        simpa [Action.tagEdit?, ht, Action.removedTag?, hmem] using ih
    | _ => simpa [Action.tagEdit?, Action.tagsAfter, Action.removedTag?] using ih

/-- A tag is there all the time if it was there more often than it is removed. -/
theorem forall_mem_after_iff :
    (∀ front back, as = front ++ back → tag ∈ after front tags) ↔
      (removed as).count tag < tags.count tag := by
  constructor
  · intro h
    induction as using List.reverseRecOn with
    | nil => simpa [removed, after] using List.count_pos_iff.2 (h [] [] rfl)
    | append_singleton as a ih =>
      have hfront : (removed as).count tag < tags.count tag :=
        ih fun front back heq => h front (back ++ [a]) (by simp [heq])
      by_cases ha : a = .removeTag tag
      · have hlast : lastEdit? tag (as ++ [a]) = some .remove := by
          rw [lastEdit?_concat, ha]
          simp [Action.tagEdit?]
        simpa [hlast] using mem_after_iff.1 (h (as ++ [a]) [] (by simp))
      · have hother : tag ∉ a.removedTag?.toList := by
          cases a with
          | removeTag t => simpa [Action.removedTag?, eq_comm] using ha
          | _ => simp [Action.removedTag?]
        rwa [removed_concat, List.count_append, List.count_eq_zero.2 hother, Nat.add_zero]
  · rintro h front back rfl
    rcases exists_split tags front with ⟨added, hsplit⟩
    rw [removed_append, List.count_append] at h
    exact hsplit.mem_now (Nat.lt_of_le_of_lt (Nat.le_add_right _ _) h)

/-! ### Order -/

theorem idxOf_erase_lt {t u v : String} {l : List String} (hv : v ≠ t)
    (h : l.idxOf t < l.idxOf u) : (l.erase v).idxOf t < (l.erase v).idxOf u := by
  induction l with
  | nil => simp at h
  | cons w rest ih =>
    have hu : w ≠ u := by
      rintro rfl
      simp at h
    by_cases ht : w = t
    · have hkept : w ≠ v := fun heq => hv (heq ▸ ht)
      rw [List.erase_cons_tail (by simpa using hkept), ht, List.idxOf_cons_self]
      simp [ht ▸ hu]
    · have hrest : rest.idxOf t < rest.idxOf u := by
        simpa [List.idxOf_cons, ht, hu] using h
      by_cases hremoved : w = v
      · rwa [hremoved, List.erase_cons_head]
      · rw [List.erase_cons_tail (by simpa using hremoved)]
        simpa [List.idxOf_cons, ht, hu] using ih hrest

/-- A tag that is not removed keeps its place before others. -/
theorem idxOf_diff_lt {t u : String} {l gone : List String} (ht : t ∉ gone)
    (h : l.idxOf t < l.idxOf u) : (l.diff gone).idxOf t < (l.diff gone).idxOf u := by
  induction gone generalizing l with
  | nil => simpa using h
  | cons v rest ih =>
    rw [List.mem_cons, not_or] at ht
    rw [List.diff_cons]
    exact ih ht.2 (idxOf_erase_lt (Ne.symm ht.1) h)

end Tags

/-! ## Batches -/

namespace Draft

theorem Run.tags {catalog : Option Catalog} {s u : Draft} {as : List Action}
    (h : Run catalog s as u) : u.document.tags = Tags.after as s.document.tags := by
  induction h with
  | nil => rfl
  | @cons s t u a rest hfirst _ ih =>
    calc u.document.tags
        = Tags.after rest t.document.tags := ih
      _ = Tags.after (a :: rest) s.document.tags := by
          rw [tags_carryOut hfirst]
          rfl

end Draft

namespace Editor

variable {e : Editor} {ids : IdSupply} {nextId : Nat} {d d' : Document} {batch : List Value}
  {tag : String}

/-- The tag is there before the batch and after each of its operations. -/
def HoldsTag (e : Editor) (ids : IdSupply) (nextId : Nat) (d : Document) (batch : List Value)
    (tag : String) : Prop :=
  ∀ front back s, actions batch = front ++ back →
    Draft.Run e.catalog ⟨d, nextId, ids⟩ front s → tag ∈ s.document.tags

/-- A tag is there afterwards exactly if the last operation that names it is an addition, or if none
names it and it was there before. Of two tags that are there all the time, the one that came first
still does. -/
structure TagsAsSet (e : Editor) (ids : IdSupply) (nextId : Nat) (d : Document)
    (batch : List Value) (d' : Document) : Prop where
  membership : ∀ tag, tag ∈ d'.tags ↔
    Tags.lastEdit? tag (actions batch) = some .add ∨
      Tags.lastEdit? tag (actions batch) = none ∧ tag ∈ d.tags
  order : ∀ t u, e.HoldsTag ids nextId d batch t → e.HoldsTag ids nextId d batch u →
    d.tags.idxOf t < d.tags.idxOf u → d'.tags.idxOf t < d'.tags.idxOf u

theorem tags_of_accepts (h : e.Accepts ids nextId d batch d') :
    d'.tags = Tags.after (actions batch) d.tags := by
  rcases run_of_accepts h with ⟨s, hrun, rfl⟩
  exact hrun.tags

theorem holdsTag_iff (h : e.Accepts ids nextId d batch d') :
    e.HoldsTag ids nextId d batch tag ↔
      (Tags.removed (actions batch)).count tag < d.tags.count tag := by
  rcases run_of_accepts h with ⟨u, hrun, -⟩
  rw [← Tags.forall_mem_after_iff]
  constructor
  · intro hholds front back heq
    rcases Draft.Run.split (heq ▸ hrun) with ⟨s, hfront, -⟩
    exact hfront.tags ▸ hholds front back s heq hfront
  · intro hafter front back s heq hfront
    exact hfront.tags ▸ hafter front back heq

/-- The tags behave as a set exactly if each tag that is removed last is removed as often as the
document names it, and if no tag that loses a copy and is still there falls behind another one by
that. Where no tag is named twice, they always do. -/
theorem tags_as_set_iff (h : e.Accepts ids nextId d batch d') :
    (e.TagsAsSet ids nextId d batch d' ↔
      (∀ tag, Tags.lastEdit? tag (actions batch) = some .remove →
        d.tags.count tag ≤ (Tags.removed (actions batch)).count tag) ∧
      ∀ t u, t ∈ Tags.removed (actions batch) →
        (Tags.removed (actions batch)).count t < d.tags.count t →
        (Tags.removed (actions batch)).count u < d.tags.count u →
        d.tags.idxOf t < d.tags.idxOf u →
          (d.tags.diff (Tags.removed (actions batch))).idxOf t <
            (d.tags.diff (Tags.removed (actions batch))).idxOf u) ∧
    (d.tags.Nodup → e.TagsAsSet ids nextId d batch d') := by
  let gone := Tags.removed (actions batch)
  -- The tags afterwards are those that the removals left over, followed by what was added.
  rcases Tags.exists_split d.tags (actions batch) with ⟨added, hsplit⟩
  rw [← tags_of_accepts h] at hsplit
  have hmem : ∀ tag, tag ∈ d'.tags ↔ _ := fun tag =>
    tags_of_accepts h ▸ Tags.mem_after_iff
  have hiff : e.TagsAsSet ids nextId d batch d' ↔
      (∀ tag, Tags.lastEdit? tag (actions batch) = some .remove →
        d.tags.count tag ≤ gone.count tag) ∧
      ∀ t u, t ∈ gone → gone.count t < d.tags.count t → gone.count u < d.tags.count u →
        d.tags.idxOf t < d.tags.idxOf u →
          (d.tags.diff gone).idxOf t < (d.tags.diff gone).idxOf u := by
    constructor
    · intro hboth
      rcases hboth with ⟨hmembership, horder⟩
      constructor
      · intro tag hlast
        by_contra hmore
        have hthere := (hmem tag).2 (Or.inr (Or.inr ⟨hlast, Nat.lt_of_not_le hmore⟩))
        simpa [hlast] using (hmembership tag).1 hthere
      · intro t u _ ht hu hlt
        have hafter := horder t u ((holdsTag_iff h).2 ht) ((holdsTag_iff h).2 hu) hlt
        rwa [hsplit.idxOf_now ht, hsplit.idxOf_now hu] at hafter
    · intro hboth
      rcases hboth with ⟨hoften, hplaces⟩
      refine ⟨fun tag => (hmem tag).trans ?_, ?_⟩
      · -- A tag stays behind a removal only if there are more copies of it than removals.
        have hnever : ¬ (Tags.lastEdit? tag (actions batch) = some .remove ∧
            gone.count tag < d.tags.count tag) :=
          fun hleft => absurd (hoften tag hleft.1) (Nat.not_le.2 hleft.2)
        rw [or_iff_left hnever]
      · intro t u ht hu hlt
        rw [holdsTag_iff h] at ht hu
        rw [hsplit.idxOf_now ht, hsplit.idxOf_now hu]
        by_cases hgone : t ∈ gone
        · exact hplaces t u hgone ht hu hlt
        · exact Tags.idxOf_diff_lt hgone hlt
  -- Without repetitions one removal takes all there is, so both conditions hold.
  refine ⟨hiff, fun hnodup => hiff.2 ⟨?_, ?_⟩⟩
  · intro tag hlast
    have hone : d.tags.count tag ≤ 1 := List.nodup_iff_count_le_one.1 hnodup tag
    have hremoved : 0 < gone.count tag := List.count_pos_iff.2 (Tags.mem_removed_of_lastEdit? hlast)
    omega
  · intro t u hgone ht _ _
    have hone : d.tags.count t ≤ 1 := List.nodup_iff_count_le_one.1 hnodup t
    have hremoved : 0 < gone.count t := List.count_pos_iff.2 hgone
    omega

def tagged (tags : List String) : Document where
  nodes := []
  tags := tags

/-- The tag that is there twice is removed twice; one that is there is added, and a new one, too. -/
def tagBatch : List Value :=
  [.obj [("type", .str "removeTag"), ("tag", .str "ops")],
    .obj [("type", .str "addTag"), ("tag", .str "daily")],
    .obj [("type", .str "addTag"), ("tag", .str "new")],
    .obj [("type", .str "removeTag"), ("tag", .str "ops")]]

theorem twice_removed :
    ∃ d', Accepts {} idText 1 (tagged ["eu", "ops", "daily", "ops"]) tagBatch d' ∧
      d'.tags = ["eu", "daily", "new"] ∧
      TagsAsSet {} idText 1 (tagged ["eu", "ops", "daily", "ops"]) tagBatch d' := by
  have haccepts : ∃ d', Accepts {} idText 1 (tagged ["eu", "ops", "daily", "ops"]) tagBatch d' ∧
      (d'.tags == ["eu", "daily", "new"]) = true := exists_accepts (by decide +kernel)
  rcases haccepts with ⟨d', h, htags⟩
  have hremoved : Tags.removed (actions tagBatch) = ["ops", "ops"] := rfl
  refine ⟨d', h, by simpa using htags, (tags_as_set_iff h).1.2 ⟨?_, ?_⟩⟩
  · intro tag hlast
    have htag : tag = "ops" := by
      simpa [hremoved] using Tags.mem_removed_of_lastEdit? hlast
    rw [htag]
    decide
  · intro t u ht hleft
    rw [hremoved] at ht hleft
    have heq : t = "ops" := by simpa using ht
    rw [heq] at hleft
    exact absurd hleft (by decide)

/-- The only operation removes the tag, and the tag is there all the same. -/
theorem removed_tag_left :
    ∃ d', Accepts {} idText 1 (tagged ["ops", "ops"])
        [.obj [("type", .str "removeTag"), ("tag", .str "ops")]] d' ∧
      d'.tags = ["ops"] ∧
      ¬ TagsAsSet {} idText 1 (tagged ["ops", "ops"])
        [.obj [("type", .str "removeTag"), ("tag", .str "ops")]] d' := by
  have haccepts : ∃ d', Accepts {} idText 1 (tagged ["ops", "ops"])
      [.obj [("type", .str "removeTag"), ("tag", .str "ops")]] d' ∧ (d'.tags == ["ops"]) = true :=
    exists_accepts (by decide +kernel)
  have hlast : Tags.lastEdit? "ops"
      (actions [.obj [("type", .str "removeTag"), ("tag", .str "ops")]]) = some .remove := rfl
  rcases haccepts with ⟨d', h, htags⟩
  have htags : d'.tags = ["ops"] := by simpa using htags
  refine ⟨d', h, htags, ?_⟩
  intro hset
  simpa [htags, hlast] using hset.membership "ops"

end Editor
end Workflows
