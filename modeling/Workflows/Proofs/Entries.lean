import Mathlib.Data.List.Nodup
import Mathlib.Data.List.Perm.Basic
import Workflows.Entries

/-!
# Entries — keys, membership and accounting of objects

What the operations on objects do to the list of their keys and to membership, and to values that
are related key by key (`Entries.Related`). The last section counts: when every entry stands for a
list of items, the items lost and gained by an operation are those of the entry it touches, whatever
the other entries are.
-/

namespace Workflows
namespace Entries

variable {α β : Type}

/-! ## Look-ups and membership -/

theorem mem_of_get? {key : String} {value : α} {es : Entries α} (h : es.get? key = some value) :
    (key, value) ∈ es := by
  induction es with
  | nil => simp at h
  | cons e rest ih =>
    rcases e with ⟨k, v⟩
    by_cases hk : k = key
    · simp only [get?, hk, if_true, Option.some.injEq] at h
      simp [hk, h]
    · simp only [get?, hk, if_false] at h
      exact List.mem_cons_of_mem _ (ih h)

theorem key_mem_keys {e : String × α} {es : Entries α} (h : e ∈ es) : e.1 ∈ es.keys :=
  List.mem_map_of_mem h

theorem get?_eq_none_iff {key : String} {es : Entries α} :
    es.get? key = none ↔ key ∉ es.keys := by
  induction es with
  | nil => simp [keys]
  | cons e rest ih =>
    rcases e with ⟨k, v⟩
    by_cases hk : k = key
    · simp [get?, keys, hk]
    · have hk' : key ≠ k := fun h => hk h.symm
      simpa [get?, keys, hk, hk'] using ih

theorem get?_of_mem {key : String} {value : α} {es : Entries α} (hes : es.Distinct)
    (h : (key, value) ∈ es) : es.get? key = some value := by
  induction es with
  | nil => simp at h
  | cons e rest ih =>
    rcases e with ⟨k, v⟩
    rcases List.nodup_cons.1 hes with ⟨hnew, hrest⟩
    rcases List.mem_cons.1 h with heq | hmem
    · rw [Prod.mk.injEq] at heq
      simp [get?, heq.1, heq.2]
    · have hkey : key ∈ keys rest := key_mem_keys hmem
      have hk : k ≠ key := by
        rintro rfl
        exact hnew hkey
      rw [get?, if_neg hk]
      exact ih hrest hmem

theorem get?_append (key : String) (es fs : Entries α) :
    get? key (es ++ fs) = (es.get? key).or (fs.get? key) := by
  induction es with
  | nil => rfl
  | cons e rest ih =>
    rcases e with ⟨k, v⟩
    by_cases hk : k = key
    · simp [get?, hk]
    · simpa [get?, hk] using ih

theorem get?_putNew (key other : String) (value : α) (es : Entries α) :
    (es.putNew key value).get? other =
      (es.get? other).or (if key = other then some value else none) := by
  unfold putNew has
  cases hkey : es.get? key with
  | none => simp [get?_append, get?]
  | some old =>
    by_cases h : key = other
    · simp [← h, hkey]
    · simp [h]

/-- What is done to all values is done to the one that is looked up. -/
theorem get?_map (f : α → β) (key : String) (es : Entries α) :
    Entries.get? key (es.map fun e => (e.1, f e.2)) = (es.get? key).map f := by
  induction es with
  | nil => rfl
  | cons e rest ih =>
    rcases e with ⟨k, v⟩
    by_cases hk : k = key
    · simp [get?, hk]
    · simp only [List.map_cons, get?, hk, if_false, ih]

theorem keys_map (f : α → β) (es : Entries α) :
    Entries.keys (es.map fun e => (e.1, f e.2)) = es.keys :=
  List.map_map

/-- The same keys in the same order, with related values. -/
def Related (rel : α → β → Prop) (es : Entries α) (es' : Entries β) : Prop :=
  List.Forall₂ (fun e e' => e'.1 = e.1 ∧ rel e.2 e'.2) es es'

namespace Related

variable {rel : α → β → Prop} {es : Entries α} {es' : Entries β}

theorem get? (h : es.Related rel es') (key : String) :
    Option.Rel rel (es.get? key) (es'.get? key) := by
  unfold Related at h
  induction h with
  | nil => exact .none
  | @cons e e' rest rest' hfirst _ ih =>
    rcases e with ⟨k, v⟩
    rcases e' with ⟨k', v'⟩
    obtain ⟨rfl, hv⟩ := hfirst
    unfold Entries.get?
    split
    · exact .some hv
    · exact ih

theorem put {v : α} {v' : β} (h : es.Related rel es') (key : String) (hv : rel v v') :
    (es.put key v).Related rel (es'.put key v') := by
  unfold Related at h ⊢
  induction h with
  | nil => exact .cons ⟨rfl, hv⟩ .nil
  | @cons e e' rest rest' hfirst hrest ih =>
    rcases e with ⟨k, w⟩
    rcases e' with ⟨k', w'⟩
    obtain ⟨rfl, hw⟩ := hfirst
    unfold Entries.put
    split
    · exact .cons ⟨rfl, hv⟩ hrest
    · exact .cons ⟨rfl, hw⟩ ih

theorem map_eq {γ : Type} {f : α → γ} {g : β → γ} (h : es.Related rel es')
    (hrel : ∀ a b, rel a b → g b = f a) :
    es'.map (fun e => (e.1, g e.2)) = es.map fun e => (e.1, f e.2) := by
  unfold Related at h
  induction h with
  | nil => rfl
  | @cons e e' rest rest' hfirst _ ih =>
    rcases hfirst with ⟨hkey, hvalue⟩
    have hitem : (e'.1, g e'.2) = (e.1, f e.2) := by
      rw [hkey, hrel _ _ hvalue]
    rw [List.map_cons, List.map_cons, ih, hitem]

end Related

theorem get?_eq_none_of_sublist {key : String} {es fs : Entries α} (hsub : fs.Sublist es)
    (h : es.get? key = none) : fs.get? key = none := by
  rw [get?_eq_none_iff] at h ⊢
  intro hkey
  exact h ((hsub.map Prod.fst).subset hkey)

/-- A key that is left has the value it had. -/
theorem get?_eq_of_sublist {key : String} {es fs : Entries α} (hes : es.Distinct)
    (hsub : fs.Sublist es) (h : key ∈ fs.keys) : fs.get? key = es.get? key := by
  obtain ⟨value, hvalue⟩ := Option.ne_none_iff_exists'.1 fun hnone => get?_eq_none_iff.1 hnone h
  rw [hvalue, get?_of_mem hes (hsub.subset (mem_of_get? hvalue))]

theorem mem_put {key : String} {value : α} {es : Entries α} {e : String × α}
    (h : e ∈ es.put key value) : e = (key, value) ∨ e ∈ es := by
  induction es with
  | nil => simpa [put] using h
  | cons f rest ih =>
    rcases f with ⟨k, v⟩
    by_cases hk : k = key
    · simp only [put, hk, if_true, List.mem_cons] at h
      rcases h with h | h
      · exact Or.inl h
      · exact Or.inr (List.mem_cons_of_mem _ h)
    · simp only [put, hk, if_false, List.mem_cons] at h
      rcases h with h | h
      · exact Or.inr (h ▸ List.mem_cons_self)
      · exact (ih h).imp_right (List.mem_cons_of_mem _)

/-- To assign what is there changes nothing. -/
theorem put_get? {key : String} {value : α} {es : Entries α} (h : es.get? key = some value) :
    es.put key value = es := by
  induction es with
  | nil => simp at h
  | cons e rest ih =>
    rcases e with ⟨k, v⟩
    by_cases hk : k = key
    · have hvalue : v = value := by simpa [get?, hk] using h
      rw [put, if_pos hk, hvalue]
    · rw [get?, if_neg hk] at h
      rw [put, if_neg hk, ih h]

/-- The second of two assignments to one key wins. -/
theorem put_put (key : String) (v w : α) (es : Entries α) :
    (es.put key v).put key w = es.put key w := by
  induction es with
  | nil => simp [put]
  | cons e rest ih =>
    rcases e with ⟨k, u⟩
    by_cases hk : k = key
    · simp [put, hk]
    · simp [put, hk, ih]

/-- Assignments to two keys can be made in either order if the first key is there: then it keeps
its place. -/
theorem put_comm {key other : String} {u : α} {es : Entries α} (h : es.get? key = some u)
    (hne : key ≠ other) (v w : α) :
    (es.put key v).put other w = (es.put other w).put key v := by
  induction es with
  | nil => simp at h
  | cons e rest ih =>
    rcases e with ⟨k, x⟩
    by_cases hk : k = key
    · simp [put, hk, hne]
    · rw [get?, if_neg hk] at h
      by_cases hk' : k = other
      · simp [put, hk', hne.symm]
      · simp [put, hk, hk', ih h]

theorem put_ne_nil (key : String) (value : α) (es : Entries α) : es.put key value ≠ [] := by
  cases es with
  | nil => simp [put]
  | cons e rest =>
    rcases e with ⟨k, v⟩
    by_cases hk : k = key <;> simp [put, hk]

theorem erase_sublist (key : String) (es : Entries α) : (es.erase key).Sublist es := by
  induction es with
  | nil => exact List.Sublist.slnil
  | cons e rest ih =>
    rcases e with ⟨k, v⟩
    by_cases hk : k = key
    · simp only [erase, hk, if_true]
      exact List.sublist_cons_self _ _
    · simp only [erase, hk, if_false]
      exact ih.cons_cons _

theorem erase_eq_filter {key : String} {es : Entries α} (hes : es.Distinct) :
    es.erase key = es.filter fun e => e.1 != key := by
  induction es with
  | nil => rfl
  | cons e rest ih =>
    rcases e with ⟨k, v⟩
    rcases List.nodup_cons.1 hes with ⟨hnew, hrest⟩
    by_cases hk : k = key
    · -- The first entry was the only one of its key, so the test keeps all that come after it.
      subst hk
      have hkeep : ∀ e ∈ rest, (e.1 != k) = true := by
        intro e he
        have hkey : e.1 ∈ keys rest := key_mem_keys he
        have hne : e.1 ≠ k := fun heq => hnew (heq ▸ hkey)
        simpa using hne
      simp [erase, List.filter_eq_self.2 hkeep]
    · simp [erase, hk, ih hrest]

theorem keys_erase {es : Entries α} (hes : es.Distinct) (key : String) :
    (es.erase key).keys = es.keys.filter (· != key) := by
  unfold keys
  rw [erase_eq_filter hes, List.filter_map]
  rfl

theorem erase_of_not_mem {key : String} {es : Entries α} (h : key ∉ es.keys) :
    es.erase key = es := by
  induction es with
  | nil => rfl
  | cons e rest ih =>
    rcases e with ⟨k, v⟩
    simp only [keys, List.map_cons, List.mem_cons, not_or] at h
    have hk : k ≠ key := fun hk => h.1 hk.symm
    simp [erase, hk, ih h.2]

/-! ## Two operations in a row -/

theorem get?_erase_of_ne {key other : String} (es : Entries α) (h : other ≠ key) :
    (es.erase key).get? other = es.get? other := by
  induction es with
  | nil => rfl
  | cons e rest ih =>
    rcases e with ⟨k, v⟩
    by_cases hk : k = key
    · have hother : k ≠ other := fun heq => h (heq ▸ hk)
      simp [erase, get?, hk, hk ▸ hother]
    · simp [erase, get?, hk, ih]

/-- What was assigned to a key that is erased makes no difference. -/
theorem erase_put_self (key : String) (value : α) (es : Entries α) :
    (es.put key value).erase key = es.erase key := by
  induction es with
  | nil => simp [put, erase]
  | cons e rest ih =>
    rcases e with ⟨k, v⟩
    by_cases hk : k = key <;> simp [put, erase, hk, ih]

theorem erase_put_of_ne {key other : String} (value : α) (es : Entries α) (h : key ≠ other) :
    (es.put key value).erase other = (es.erase other).put key value := by
  induction es with
  | nil => simp [put, erase, h]
  | cons e rest ih =>
    rcases e with ⟨k, v⟩
    by_cases hk : k = key
    · simp [put, erase, hk, h]
    · by_cases hother : k = other
      · simp [put, erase, hother, Ne.symm h]
      · simp [put, erase, hk, hother, ih]

/-- An assignment does not show in a selection that makes the same of the new value as of the old
one, or nothing if there was none. -/
theorem filterMap_put {f : String × α → Option β} {key : String} {value : α} {es : Entries α}
    (h : f (key, value) = (es.get? key).bind fun old => f (key, old)) :
    (es.put key value).filterMap f = es.filterMap f := by
  induction es with
  | nil =>
    have hnone : f (key, value) = none := h
    simp [put, hnone]
  | cons e rest ih =>
    rcases e with ⟨k, v⟩
    by_cases hk : k = key
    · subst hk
      have hsame : f (k, value) = f (k, v) := by simpa [get?] using h
      simp [put, List.filterMap_cons, hsame]
    · have hrest : f (key, value) = (get? key rest).bind fun old => f (key, old) := by
        simpa [get?, hk] using h
      simp [put, hk, List.filterMap_cons, ih hrest]

/-! ## Keys -/

instance (es : Entries α) : Decidable es.Distinct :=
  inferInstanceAs (Decidable es.keys.Nodup)

theorem keys_put (key : String) (value : α) (es : Entries α) :
    (es.put key value).keys = if key ∈ es.keys then es.keys else es.keys ++ [key] := by
  induction es with
  | nil => simp [put, keys]
  | cons e rest ih =>
    rcases e with ⟨k, v⟩
    by_cases hk : k = key
    · simp [put, keys, hk]
    · have hk' : key ≠ k := fun h => hk h.symm
      -- The key is put where it occurs further on, or else behind the last entry.
      by_cases hmem : key ∈ keys rest
      · simp only [hmem, if_true] at ih
        simp only [keys] at ih hmem
        simp [put, keys, hk, ih, hmem]
      · simp only [hmem, if_false] at ih
        simp only [keys] at ih hmem
        simp [put, keys, hk, hk', ih, hmem]

theorem put_of_not_mem {key : String} {es : Entries α} (value : α) (h : key ∉ es.keys) :
    es.put key value = es ++ [(key, value)] := by
  induction es with
  | nil => rfl
  | cons e rest ih =>
    rcases e with ⟨k, v⟩
    simp only [keys, List.map_cons, List.mem_cons, not_or] at h
    have hk : k ≠ key := fun hk => h.1 hk.symm
    simp [put, hk, ih h.2]

theorem put_append_cons {key : String} {front back : Entries α} {old : α} (value : α)
    (h : key ∉ front.keys) :
    put key value (front ++ (key, old) :: back) = front ++ (key, value) :: back := by
  induction front with
  | nil => simp [put]
  | cons e rest ih =>
    rcases e with ⟨k, v⟩
    simp only [keys, List.map_cons, List.mem_cons, not_or] at h
    have hk : k ≠ key := fun hk => h.1 hk.symm
    simp [put, hk, ih h.2]

theorem Distinct.put {es : Entries α} (h : es.Distinct) (key : String) (value : α) :
    (es.put key value).Distinct := by
  unfold Distinct
  rw [keys_put]
  split
  · exact h
  · rename_i hnew
    refine List.nodup_append.2 ⟨h, List.nodup_singleton key, ?_⟩
    intro k hk k' hk' heq
    simp only [List.mem_singleton] at hk'
    exact hnew (hk' ▸ heq ▸ hk)

theorem Distinct.sublist {es fs : Entries α} (h : es.Distinct) (hsub : fs.Sublist es) :
    fs.Distinct :=
  (hsub.map Prod.fst).nodup h

theorem Distinct.erase {es : Entries α} (h : es.Distinct) (key : String) :
    (es.erase key).Distinct :=
  h.sublist (erase_sublist key es)

theorem mem_keys_put {key name : String} {value : α} {es : Entries α}
    (h : name ∈ (es.put key value).keys) : name = key ∨ name ∈ es.keys := by
  rw [keys_put] at h
  split at h
  · exact Or.inr h
  · rcases List.mem_append.1 h with h | h
    · exact Or.inr h
    · exact Or.inl (List.mem_singleton.1 h)

theorem not_mem_keys_erase {es : Entries α} (h : es.Distinct) (key : String) :
    key ∉ (es.erase key).keys := by
  rw [erase_eq_filter h]
  intro hmem
  rcases List.mem_map.1 hmem with ⟨e, he, rfl⟩
  simpa using (List.mem_filter.1 he).2

/-- Entries that are changed or left out, each under its own key, keep the order of their keys. -/
theorem keys_filterMap_sublist {es : Entries α} {f : String × α → Option (String × β)}
    (hf : ∀ e e', f e = some e' → e'.1 = e.1) : (keys (es.filterMap f)).Sublist es.keys := by
  induction es with
  | nil => exact List.Sublist.slnil
  | cons e rest ih =>
    cases he : f e with
    | none =>
      rw [List.filterMap_cons_none he]
      exact ih.cons _
    | some e' =>
      rw [List.filterMap_cons_some he]
      simp only [keys, List.map_cons, hf e e' he]
      exact ih.cons_cons _

/-- Keys with a new one in the place of an old one are distinct if they were and the new one was
none of them. -/
theorem Distinct.nodup_renamed {es : Entries α} (h : es.Distinct) {old new : String}
    (hnew : new ∉ es.keys) : (es.keys.map fun k => if k = old then new else k).Nodup := by
  refine List.Nodup.map_on ?_ h
  intro k hk k' hk' heq
  have hne : k ≠ new := fun h => hnew (h ▸ hk)
  have hne' : k' ≠ new := fun h => hnew (h ▸ hk')
  -- Only the old key can have become the new one.
  by_cases hold : k = old <;> by_cases hold' : k' = old
  · exact hold.trans hold'.symm
  · simp only [hold, hold', if_true, if_false] at heq
    exact absurd heq.symm hne'
  · simp only [hold, hold', if_true, if_false] at heq
    exact absurd heq hne
  · simpa only [hold, hold', if_false] using heq

/-! ## Accounting -/

/-- The items of the entry that a key is looked up to; none when there is no such entry. -/
def itemsAt (items : String × α → List β) (key : String) (es : Entries α) : List β :=
  (es.get? key).elim [] fun value => items (key, value)

/-- Assigning to a key trades the items of its entry for those of the new value. -/
theorem flatMap_put_perm (items : String × α → List β) (key : String) (value : α)
    (es : Entries α) :
    ((es.put key value).flatMap items ++ itemsAt items key es).Perm
      (es.flatMap items ++ items (key, value)) := by
  induction es with
  | nil => simp [put, itemsAt]
  | cons e rest ih =>
    rcases e with ⟨k, v⟩
    by_cases hk : k = key
    · subst hk
      simp only [put, itemsAt, get?, if_true, List.flatMap_cons, Option.elim_some]
      -- The items of the first entry come from the end to the front, the new ones the other way.
      calc
        ((items (k, value) ++ rest.flatMap items) ++ items (k, v)).Perm
            (items (k, v) ++ (items (k, value) ++ rest.flatMap items)) := List.perm_append_comm
        List.Perm _ (items (k, v) ++ (rest.flatMap items ++ items (k, value))) :=
            List.perm_append_comm.append_left _
        List.Perm _ ((items (k, v) ++ rest.flatMap items) ++ items (k, value)) := by
            rw [List.append_assoc]
    · have hitems : itemsAt items key ((k, v) :: rest) = itemsAt items key rest := by
        simp [itemsAt, get?, hk]
      simp only [put, hk, if_false, List.flatMap_cons, List.append_assoc, hitems]
      exact ih.append_left _

/-- Assigning to a key leaves all items as they are if the new value stands for the same ones. -/
theorem flatMap_put {items : String × α → List β} {key : String} {value : α} {es : Entries α}
    (h : items (key, value) = itemsAt items key es) :
    (es.put key value).flatMap items = es.flatMap items := by
  induction es with
  | nil =>
    have hnone : items (key, value) = [] := h
    simp [put, hnone]
  | cons e rest ih =>
    rcases e with ⟨k, v⟩
    by_cases hk : k = key
    · subst hk
      have hsame : items (k, value) = items (k, v) := by simpa [itemsAt, get?] using h
      simp [put, hsame]
    · have hrest : items (key, value) = itemsAt items key rest := by
        simpa [itemsAt, get?, hk] using h
      simp [put, hk, ih hrest]

/-- Erasing a key loses the items of its entry. -/
theorem flatMap_erase_perm (items : String × α → List β) (key : String) (es : Entries α) :
    ((es.erase key).flatMap items ++ itemsAt items key es).Perm (es.flatMap items) := by
  induction es with
  | nil => simp [erase, itemsAt]
  | cons e rest ih =>
    rcases e with ⟨k, v⟩
    by_cases hk : k = key
    · subst hk
      simpa [erase, itemsAt, get?] using List.perm_append_comm
    · have hitems : itemsAt items key ((k, v) :: rest) = itemsAt items key rest := by
        simp [itemsAt, get?, hk]
      simp only [erase, hk, if_false, List.flatMap_cons, List.append_assoc, hitems]
      exact ih.append_left _

/-- A value that stands for no items may be left out instead of assigned. -/
theorem flatMap_putUnless_perm (items : String × α → List β) (key : String) (value : α)
    (es : Entries α) {empty : Bool} (hempty : empty = true → items (key, value) = []) :
    ((if empty then es.erase key else es.put key value).flatMap items
        ++ itemsAt items key es).Perm
      (es.flatMap items ++ items (key, value)) := by
  cases empty with
  | true =>
    rw [hempty rfl, List.append_nil]
    exact flatMap_erase_perm items key es
  | false => exact flatMap_put_perm items key value es

/-- What is exchanged within a part that is itself exchanged is exchanged in the whole. -/
theorem perm_of_exchange {whole whole' part part' old new : List β}
    (houter : (whole' ++ part).Perm (whole ++ part')) (hinner : (part' ++ old).Perm (part ++ new)) :
    (whole' ++ old).Perm (whole ++ new) := by
  -- With the old part added, both sides hold the new part for a moment.
  refine (List.perm_append_right_iff part).1 ?_
  calc
    ((whole' ++ old) ++ part).Perm ((whole' ++ part) ++ old) := by
      rw [List.append_assoc, List.append_assoc]
      exact List.perm_append_comm.append_left _
    List.Perm _ ((whole ++ part') ++ old) := houter.append_right _
    List.Perm _ (whole ++ (part ++ new)) := by
      rw [List.append_assoc]
      exact hinner.append_left _
    List.Perm _ ((whole ++ new) ++ part) := by
      rw [List.append_assoc]
      exact List.perm_append_comm.append_left _

end Entries
end Workflows
