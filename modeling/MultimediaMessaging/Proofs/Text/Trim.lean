import MultimediaMessaging.Text.Blank
import MultimediaMessaging.Text.Decimal

/-!
Trimming: what it takes away, and the texts that it leaves as they are.
-/

set_option autoImplicit false

namespace MultimediaMessaging.Text

theorem trimEnd_append_blank (cs : List Char) {c : Char} (h : isBlank c = true) :
    trimEnd (cs ++ [c]) = trimEnd cs := by
  simp [trimEnd, h]

theorem trim_append_blank (cs : List Char) {c : Char} (h : isBlank c = true) :
    trim (cs ++ [c]) = trim cs := by
  simp only [trim, trimStart, List.dropWhile_append]
  split
  · rename_i he
    rw [List.isEmpty_iff.1 he]
    simp [h]
  · exact trimEnd_append_blank _ h

theorem trim_cons_blank {c : Char} (h : isBlank c = true) (cs : List Char) :
    trim (c :: cs) = trim cs := by
  simp [trim, trimStart, h]

theorem trimStart_of_head {cs : List Char} (h : ∀ c ∈ cs.head?, isBlank c = false) :
    trimStart cs = cs := by
  cases cs with
  | nil => rfl
  | cons c cs =>
    have hc := h c (by simp)
    simp [trimStart, hc]

theorem trimEnd_of_getLast {cs : List Char} (h : ∀ c ∈ cs.getLast?, isBlank c = false) :
    trimEnd cs = cs := by
  rw [List.getLast?_eq_head?_reverse] at h
  have hs := trimStart_of_head h
  rw [trimStart] at hs
  rw [trimEnd, hs, List.reverse_reverse]

theorem trim_eq_self {cs : List Char} (hh : ∀ c ∈ cs.head?, isBlank c = false)
    (hl : ∀ c ∈ cs.getLast?, isBlank c = false) : trim cs = cs := by
  rw [trim, trimStart_of_head hh, trimEnd_of_getLast hl]

theorem trim_append {first : Char} {before : List Char} (hh : isBlank first = false)
    (hl : ∀ c ∈ (first :: before).getLast?, isBlank c = false) (cs : List Char) :
    trim (first :: before ++ cs) = first :: before ++ trimEnd cs := by
  have hstart : trimStart (first :: before ++ cs) = first :: before ++ cs :=
    trimStart_of_head (by simpa using hh)
  have hkept : (first :: before).reverse.dropWhile isBlank = (first :: before).reverse :=
    trimStart_of_head (by rwa [List.head?_reverse])
  rw [trim, hstart, trimEnd, List.reverse_append, List.dropWhile_append]
  split
  · rename_i hblank
    rw [hkept, trimEnd, List.isEmpty_iff.1 hblank]
    simp
  · simp [trimEnd]

theorem trimEnd_subset (cs : List Char) : trimEnd cs ⊆ cs := fun c hc => by
  rw [trimEnd, List.mem_reverse] at hc
  exact List.mem_reverse.1 ((List.dropWhile_suffix isBlank).subset hc)

theorem trim_subset (cs : List Char) : trim cs ⊆ cs := fun _ hc =>
  (List.dropWhile_suffix isBlank).subset (trimEnd_subset _ hc)

theorem getLast?_trimEnd (cs : List Char) : ∀ c ∈ (trimEnd cs).getLast?, isBlank c = false := by
  intro c hc
  have hkept := List.head?_dropWhile_not isBlank cs.reverse
  rw [trimEnd, List.getLast?_reverse] at hc
  rwa [Option.mem_def.1 hc] at hkept

theorem head?_trim (cs : List Char) : ∀ c ∈ (trim cs).head?, isBlank c = false := by
  intro c hc
  have hkept := List.head?_dropWhile_not isBlank cs
  obtain ⟨rest, hrest⟩ : trim cs <+: trimStart cs := by
    rw [trim, trimEnd, ← List.reverse_suffix, List.reverse_reverse]
    exact List.dropWhile_suffix _
  rwa [← trimStart, ← hrest, List.head?_append, Option.mem_def.1 hc] at hkept

theorem trimEnd_eq_self_iff {cs : List Char} :
    trimEnd cs = cs ↔ ∀ c ∈ cs.getLast?, isBlank c = false := by
  refine ⟨fun h => ?_, trimEnd_of_getLast⟩
  rw [← h]
  exact getLast?_trimEnd cs

theorem isBlank_eq_false_of_all {o : Option Char} (h : o.all (fun c => !isBlank c) = true) :
    ∀ c ∈ o, isBlank c = false := by
  rintro c ⟨⟩
  simpa using h

theorem isBlank_eq_false_of_isDigit {c : Char} (h : c.isDigit = true) : isBlank c = false := by
  simp only [Char.isDigit, Bool.and_eq_true, decide_eq_true_eq] at h
  have h1 : 48 ≤ c.toNat := h.1
  have h2 : c.toNat ≤ 57 := h.2
  simp only [isBlank, Bool.or_eq_false_iff, Bool.and_eq_false_iff, decide_eq_false_iff_not,
    beq_eq_false_iff_ne]
  omega

theorem trim_digits (n : Nat) : trim (digits n) = digits n :=
  trim_eq_self
    (fun _ hc => isBlank_eq_false_of_isDigit (isDigit_of_mem_digits (List.mem_of_mem_head? hc)))
    (fun _ hc => isBlank_eq_false_of_isDigit (isDigit_of_mem_digits (List.mem_of_mem_getLast? hc)))

end MultimediaMessaging.Text
