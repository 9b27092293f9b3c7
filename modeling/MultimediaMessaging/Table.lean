/-!
Finite tables in the order in which their keys came in. Storing under a key that is there keeps its
place. Every table built with `put` and `erase` holds a key once.
-/

set_option autoImplicit false

namespace MultimediaMessaging

abbrev Table (κ α : Type) := List (κ × α)

namespace Table

variable {κ α : Type} [DecidableEq κ]

def get? : Table κ α → κ → Option α
  | [], _ => none
  | (l, a) :: t, k => if l = k then some a else get? t k

def put : Table κ α → κ → α → Table κ α
  | [], k, a => [(k, a)]
  | (l, b) :: t, k, a => if l = k then (k, a) :: t else (l, b) :: put t k a

def erase (t : Table κ α) (k : κ) : Table κ α := t.filter fun entry => entry.1 ≠ k

def contains (t : Table κ α) (k : κ) : Bool := (get? t k).isSome

def keys (t : Table κ α) : List κ := t.map Prod.fst

@[simp] theorem get?_nil (k : κ) : get? ([] : Table κ α) k = none := rfl

@[simp] theorem get?_put_self (t : Table κ α) (k : κ) (a : α) : get? (put t k a) k = some a := by
  induction t with
  | nil => simp [put, get?]
  | cons entry t ih => by_cases h : entry.1 = k <;> simp [put, get?, h, ih]

theorem get?_put_ne (t : Table κ α) {k l : κ} (a : α) (h : k ≠ l) :
    get? (put t k a) l = get? t l := by
  induction t with
  | nil => simp [put, get?, h]
  | cons entry t ih =>
    by_cases hk : entry.1 = k
    · have hl : entry.1 ≠ l := hk ▸ h
      simp [put, get?, hk, h]
    · simp [put, get?, hk, ih]

@[simp] theorem get?_erase_self (t : Table κ α) (k : κ) : get? (erase t k) k = none := by
  induction t with
  | nil => rfl
  | cons entry t ih =>
    by_cases h : entry.1 = k
    · simpa [erase, h] using ih
    · simpa [erase, get?, h] using ih

theorem get?_erase_ne (t : Table κ α) {k l : κ} (h : k ≠ l) :
    get? (erase t k) l = get? t l := by
  induction t with
  | nil => rfl
  | cons entry t ih =>
    by_cases hk : entry.1 = k
    · have hl : entry.1 ≠ l := hk ▸ h
      simpa [erase, get?, hk, h] using ih
    · by_cases hl : entry.1 = l
      · simp [erase, get?, hl, Ne.symm h]
      · simpa [erase, get?, hk, hl] using ih

theorem mem_keys_iff (t : Table κ α) (k : κ) : k ∈ keys t ↔ (get? t k).isSome = true := by
  induction t with
  | nil => simp [keys]
  | cons entry t ih =>
    by_cases h : entry.1 = k
    · simp [keys, get?, h]
    · simpa [keys, get?, h, Ne.symm h] using ih

theorem keys_put (t : Table κ α) (k : κ) (a : α) :
    keys (put t k a) = if k ∈ keys t then keys t else keys t ++ [k] := by
  induction t with
  | nil => simp [keys, put]
  | cons entry t ih =>
    by_cases h : entry.1 = k
    · simp [put, keys, h]
    · simp only [keys] at ih
      by_cases hk : k ∈ t.map Prod.fst <;> simp [put, keys, h, Ne.symm h, ih, hk]

theorem nodup_keys_put {t : Table κ α} (h : (keys t).Nodup) (k : κ) (a : α) :
    (keys (put t k a)).Nodup := by
  rw [keys_put]
  split
  · exact h
  · rename_i hk
    exact List.nodup_append.2 ⟨h, by simp, by
      intro l hl m hm
      simp only [List.mem_singleton] at hm
      exact fun e => hk (hm ▸ e ▸ hl)⟩

theorem nodup_keys_erase {t : Table κ α} (h : (keys t).Nodup) (k : κ) :
    (keys (erase t k)).Nodup :=
  h.sublist ((List.filter_sublist (l := t)).map Prod.fst)

end Table

end MultimediaMessaging
