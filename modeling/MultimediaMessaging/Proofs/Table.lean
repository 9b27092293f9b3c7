import MultimediaMessaging.Table

/-!
Entries of tables, and what looking up finds among them.
-/

set_option autoImplicit false

namespace MultimediaMessaging.Table

variable {κ α : Type} [DecidableEq κ] {t : Table κ α} {k : κ} {a : α}

theorem get?_put (t : Table κ α) (k l : κ) (a : α) :
    get? (put t k a) l = if k = l then some a else get? t l := by
  split
  · rename_i h
    rw [h, get?_put_self]
  · exact get?_put_ne t a ‹_›

theorem of_get?_put {l : κ} {b : α} (h : get? (put t k a) l = some b) :
    k = l ∧ a = b ∨ k ≠ l ∧ get? t l = some b := by
  rw [get?_put] at h
  split at h
  · exact .inl ⟨‹_›, Option.some.inj h⟩
  · exact .inr ⟨‹_›, h⟩

@[simp] theorem put_put (t : Table κ α) (k : κ) (a b : α) : put (put t k a) k b = put t k b := by
  induction t with
  | nil => simp [put]
  | cons first t ih => by_cases h : first.1 = k <;> simp [put, h, ih]

theorem mem_put {entry : κ × α} (h : entry ∈ put t k a) : entry = (k, a) ∨ entry ∈ t := by
  induction t with
  | nil => exact .inl (List.mem_singleton.1 h)
  | cons first t ih =>
    obtain ⟨l, b⟩ := first
    unfold put at h
    split at h
    · rcases List.mem_cons.1 h with h | h
      · exact .inl h
      · exact .inr (List.mem_cons_of_mem _ h)
    · rcases List.mem_cons.1 h with rfl | h
      · exact .inr List.mem_cons_self
      · exact (ih h).imp_right (List.mem_cons_of_mem _)

theorem mem_of_get? (h : get? t k = some a) : (k, a) ∈ t := by
  induction t with
  | nil => cases h
  | cons first t ih =>
    obtain ⟨l, b⟩ := first
    unfold get? at h
    split at h
    · rename_i hl
      cases h
      rw [hl]
      exact List.mem_cons_self
    · exact List.mem_cons_of_mem _ (ih h)

theorem get?_of_mem (hn : (keys t).Nodup) (h : (k, a) ∈ t) : get? t k = some a := by
  induction t with
  | nil => cases h
  | cons first t ih =>
    obtain ⟨hfirst, hrest⟩ := List.nodup_cons.1 hn
    rcases List.mem_cons.1 h with rfl | h
    · simp [get?]
    · have hne : first.1 ≠ k := fun he => hfirst (he ▸ List.mem_map_of_mem h)
      simpa [get?, hne] using ih hrest h

theorem get?_filter {p : κ × α → Bool} (h : get? t k = some a) (hp : p (k, a) = true) :
    get? (t.filter p) k = some a := by
  induction t with
  | nil => cases h
  | cons first t ih =>
    obtain ⟨l, b⟩ := first
    by_cases hl : l = k
    · obtain rfl : b = a := by simpa [get?, hl] using h
      simp [hl, hp, get?]
    · have hrest := ih (by simpa [get?, hl] using h)
      by_cases hb : p (l, b) = true <;> simp [hb, get?, hl, hrest]

theorem put_of_notMem (h : k ∉ keys t) : put t k a = t ++ [(k, a)] := by
  induction t with
  | nil => rfl
  | cons first t ih =>
    obtain ⟨hne, hrest⟩ := not_or.1 (mt List.mem_cons.2 h)
    simp [put, Ne.symm hne, ih hrest]

theorem erase_append_cons {before after : Table κ α}
    (h : (keys (before ++ (k, a) :: after)).Nodup) :
    erase (before ++ (k, a) :: after) k = before ++ after := by
  simp only [keys, List.map_append, List.map_cons, List.nodup_append, List.nodup_cons] at h
  obtain ⟨-, ⟨hafter, -⟩, hbefore⟩ := h
  have hkeep : ∀ t : Table κ α, k ∉ t.map Prod.fst → t.filter (fun entry => entry.1 ≠ k) = t := by
    intro t ht
    refine List.filter_eq_self.2 fun entry hentry => ?_
    exact decide_eq_true fun hkey => ht (hkey ▸ List.mem_map_of_mem hentry)
  rw [erase, List.filter_append, List.filter_cons_of_neg (by simp), hkeep after hafter,
    hkeep before fun hk => hbefore k hk k List.mem_cons_self rfl]

theorem get?_erase (t : Table κ α) (k l : κ) :
    get? (erase t k) l = if k = l then none else get? t l := by
  split
  · rename_i h
    rw [h, get?_erase_self]
  · exact get?_erase_ne t ‹_›

omit [DecidableEq κ] in
theorem length_keys (t : Table κ α) : (keys t).length = t.length := List.length_map _

theorem length_erase (hn : (keys t).Nodup) (h : get? t k = some a) :
    (erase t k).length + 1 = t.length := by
  obtain ⟨before, after, rfl⟩ := List.append_of_mem (mem_of_get? h)
  rw [erase_append_cons hn, List.length_append, List.length_append, List.length_cons,
    Nat.add_assoc]

theorem length_put (t : Table κ α) (k : κ) (a : α) :
    (put t k a).length = if k ∈ keys t then t.length else t.length + 1 := by
  rw [← length_keys, keys_put]
  split
  · exact length_keys t
  · rw [List.length_append, length_keys, List.length_singleton]

theorem notMem_keys_iff : k ∉ keys t ↔ get? t k = none := by
  rw [mem_keys_iff, Bool.not_eq_true, Option.isSome_eq_false_iff, Option.isNone_iff_eq_none]

theorem get?_filter_eq (hn : (keys t).Nodup) (p : κ × α → Bool) (k : κ) :
    get? (t.filter p) k = (get? t k).filter fun a => p (k, a) := by
  induction t with
  | nil => rfl
  | cons entry t ih =>
    obtain ⟨l, b⟩ := entry
    obtain ⟨hfirst, hrest⟩ := List.nodup_cons.1 hn
    by_cases hl : l = k
    · subst hl
      have hnone : get? t l = none := notMem_keys_iff.1 hfirst
      by_cases hb : p (l, b) = true
      · simp [hb, get?, Option.filter]
      · simp [hb, get?, Option.filter, ih hrest, hnone]
    · by_cases hb : p (l, b) = true <;> simp [hb, get?, hl, ih hrest]

end MultimediaMessaging.Table
