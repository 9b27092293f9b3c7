import Mathlib.Data.Nat.Digits.Defs
import MultimediaMessaging.Text.Decimal
import MultimediaMessaging.Text.Hexadecimal

/-!
Digits as they are written: never padded, and read back as the number they were written for.
-/

set_option autoImplicit false

namespace MultimediaMessaging.Text

theorem takeWhile_of_head {p : Char → Bool} {cs : List Char} (h : ∀ c ∈ cs.head?, p c = false) :
    cs.takeWhile p = [] ∧ cs.dropWhile p = cs := by
  cases cs with
  | nil => exact ⟨rfl, rfl⟩
  | cons c cs =>
    have hc : p c = false := h c rfl
    simp [hc]

/-- A run ends where the first character is that does not belong to it. -/
theorem takeWhile_run {p : Char → Bool} {run rest : List Char} (hrun : ∀ c ∈ run, p c = true)
    (hrest : ∀ c ∈ rest.head?, p c = false) :
    (run ++ rest).takeWhile p = run ∧ (run ++ rest).dropWhile p = rest := by
  obtain ⟨htake, hdrop⟩ := takeWhile_of_head hrest
  rw [List.takeWhile_append_of_pos hrun, List.dropWhile_append_of_pos hrun, htake, hdrop,
    List.append_nil]
  exact ⟨rfl, rfl⟩

theorem head?_digits_ne_zero {n : Nat} (hn : 0 < n) : (digits n).head? ≠ some '0' := by
  induction n using Nat.strongRecOn with
  | ind n ih =>
    rcases Nat.lt_or_ge n 10 with hlt | hge
    · rw [digits, Nat.toDigits_of_lt_base hlt]
      simp
      omega
    · have hhead := ih (n / 10) (by omega) (by omega)
      obtain ⟨d, ds, hds⟩ := List.exists_cons_of_ne_nil (digits_ne_nil (n / 10))
      rw [hds] at hhead
      rw [digits] at hds
      rwa [digits, Nat.toDigits_of_base_le (by decide) hge, hds]

theorem head?_digits_cases (n : Nat) : (digits n).head? ≠ some '0' ∨ digits n = ['0'] := by
  rcases Nat.eq_zero_or_pos n with rfl | hpos
  · exact .inr rfl
  · exact .inl (head?_digits_ne_zero hpos)

theorem length_digits_le_iff {n k : Nat} (hk : 0 < k) :
    (digits n).length ≤ k ↔ n < 10 ^ k := Nat.length_toDigits_le_iff (by decide) hk

theorem hexValue_digitChar {d : Nat} (h : d < 16) : hexValue d.digitChar = some d := by
  revert d
  decide

theorem ofHexDigits_hexDigits (n : Nat) : ofHexDigits (hexDigits n) = some n := by
  induction n using Nat.strongRecOn with
  | ind n ih =>
    rcases Nat.lt_or_ge n 16 with hlt | hge
    · rw [hexDigits, Nat.toDigits_of_lt_base hlt]
      simp [ofHexDigits, hexValue_digitChar hlt]
    · have hrest := ih (n / 16) (by omega)
      rw [hexDigits] at hrest
      rw [hexDigits, Nat.toDigits_of_base_le (by decide) hge, ofHexDigits, List.foldlM_append]
      rw [ofHexDigits] at hrest
      rw [hrest]
      simp [hexValue_digitChar (Nat.mod_lt n (by decide))]
      omega

theorem length_hexDigits_le_iff {n k : Nat} (hk : 0 < k) :
    (hexDigits n).length ≤ k ↔ n < 16 ^ k := Nat.length_toDigits_le_iff (by decide) hk

theorem exists_of_mem_hexDigits {n : Nat} {c : Char} (h : c ∈ hexDigits n) :
    ∃ d < 16, c = Nat.digitChar d := by
  induction n using Nat.strongRecOn with
  | ind n ih =>
    rcases Nat.lt_or_ge n 16 with hlt | hge
    · rw [hexDigits, Nat.toDigits_of_lt_base hlt, List.mem_singleton] at h
      exact ⟨n, hlt, h⟩
    · rw [hexDigits, Nat.toDigits_of_base_le (by decide) hge, List.mem_append,
        List.mem_singleton] at h
      rcases h with h | h
      · exact ih (n / 16) (by omega) h
      · exact ⟨n % 16, Nat.mod_lt n (by decide), h⟩

end MultimediaMessaging.Text
