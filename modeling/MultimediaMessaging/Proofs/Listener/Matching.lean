import Mathlib.Data.List.Forall2
import MultimediaMessaging.Listener.Filter

/-!
Sender filters as a language. Main statement: a pattern fits a text exactly when the text can be cut
into parts that its characters stand for, and a filter asks this of the phone number alone. That it
is enough to come back to the last star is `splits_of_atStar`: what an earlier star could skip, the
last one can skip too.
-/

set_option autoImplicit false

namespace MultimediaMessaging

namespace Glob

def Stands (p : Char) (part : List Char) : Prop :=
  if p = '*' then True else if p = '?' then part.length = 1 else part = [p]

/-- The text is made of parts, one for each character of the pattern. -/
def Splits (pattern text : List Char) : Prop :=
  ∃ parts, List.Forall₂ Stands pattern parts ∧ parts.flatten = text

variable {pattern text rest p t : List Char} {c : Char}

@[simp] theorem splits_nil : Splits [] text ↔ text = [] := by
  constructor
  · rintro ⟨parts, hparts, rfl⟩
    cases hparts
    rfl
  · rintro rfl
    exact ⟨[], .nil, rfl⟩

theorem splits_star : Splits ('*' :: p) text ↔ ∃ rest, rest <:+ text ∧ Splits p rest := by
  constructor
  · rintro ⟨parts, hparts, rfl⟩
    cases hparts with
    | cons _ htail => exact ⟨_, List.suffix_append _ _, _, htail, rfl⟩
  · rintro ⟨rest, ⟨skipped, rfl⟩, parts, hparts, rfl⟩
    exact ⟨skipped :: parts, .cons (by simp [Stands]) hparts, rfl⟩

theorem stands_iff {q : Char} {part : List Char} (hq : q ≠ '*') :
    Stands q part ↔ ∃ c, part = [c] ∧ (q = '?' ∨ q = c) := by
  rw [Stands, if_neg hq]
  by_cases hany : q = '?'
  · simp [hany, List.length_eq_one_iff]
  · simp [hany]

theorem splits_cons {q : Char} (hq : q ≠ '*') :
    Splits (q :: p) text ↔ ∃ c rest, text = c :: rest ∧ (q = '?' ∨ q = c) ∧ Splits p rest := by
  constructor
  · rintro ⟨parts, hparts, rfl⟩
    cases hparts with
    | cons hpart htail =>
      obtain ⟨c, rfl, hc⟩ := (stands_iff hq).1 hpart
      exact ⟨c, _, rfl, hc, _, htail, rfl⟩
  · rintro ⟨c, rest, rfl, hc, parts, hparts, rfl⟩
    exact ⟨[c] :: parts, .cons ((stands_iff hq).2 ⟨c, rfl, hc⟩) hparts, rfl⟩

theorem splits_cons_cons {q : Char} (hq : q ≠ '*') :
    Splits (q :: p) (c :: t) ↔ (q = '?' ∨ q = c) ∧ Splits p t := by
  rw [splits_cons hq]
  constructor
  · rintro ⟨d, rest, heq, h⟩
    cases heq
    exact h
  · intro h
    exact ⟨c, t, rfl, h⟩

theorem suffix_of_cons {d : Char} (h : d :: rest <:+ c :: t) : rest <:+ t := by
  rcases List.suffix_cons_iff.1 h with heq | hs
  · cases heq
    exact List.suffix_rfl
  · exact (List.suffix_cons d rest).trans hs

theorem splits_of_text_nil : Splits pattern [] ↔ pattern.all (· == '*') = true := by
  induction pattern with
  | nil => simp
  | cons q p ih =>
    by_cases hq : q = '*'
    · subst hq
      rw [splits_star]
      simp [ih]
    · rw [splits_cons hq]
      simp [hq]

/-- A star that can skip some text can skip more before it. -/
theorem splits_star_of_suffix (hs : rest <:+ text) (h : Splits ('*' :: p) rest) :
    Splits ('*' :: p) text := by
  obtain ⟨tail, htail, h⟩ := splits_star.1 h
  exact splits_star.2 ⟨tail, htail.trans hs, h⟩

theorem splits_star_cons :
    Splits ('*' :: p) (c :: t) ↔ Splits p (c :: t) ∨ Splits ('*' :: p) t := by
  simp only [splits_star, List.suffix_cons_iff]
  constructor
  · rintro ⟨rest, rfl | hrest, h⟩
    · exact .inl h
    · exact .inr ⟨rest, hrest, h⟩
  · rintro (h | ⟨rest, hrest, h⟩)
    · exact ⟨_, .inl rfl, h⟩
    · exact ⟨rest, .inr hrest, h⟩

theorem splits_of_ended (h : run pattern text = .ended true) : Splits pattern text := by
  fun_induction run pattern text with
  | case1 pattern =>
    rw [Run.ended.injEq] at h
    exact splits_of_text_nil.2 h
  | case2 => cases h
  | case3 => cases h
  | case4 q p c t hq hc ih => exact (splits_cons_cons hq).2 ⟨hc, ih h⟩
  | case5 => cases h

/-- A pattern that needs more than the text also needs more than any end of it. -/
theorem not_splits_of_ended (h : run pattern text = .ended false) (hs : rest <:+ text) :
    ¬ Splits pattern rest := by
  fun_induction run pattern text generalizing rest with
  | case1 pattern =>
    rw [Run.ended.injEq] at h
    rw [List.suffix_nil.1 hs, splits_of_text_nil, h]
    decide
  | case2 => cases h
  | case3 => cases h
  | case4 q p c t hq hc ih =>
    intro hsplits
    obtain ⟨d, tail, rfl, -, htail⟩ := (splits_cons hq).1 hsplits
    exact ih h (suffix_of_cons hs) htail
  | case5 => cases h

theorem not_splits_of_mismatch (h : run pattern text = .mismatch) : ¬ Splits pattern text := by
  fun_induction run pattern text with
  | case1 => cases h
  | case2 => simp
  | case3 => cases h
  | case4 q p c t hq hc ih =>
    rw [splits_cons_cons hq]
    exact fun hsplits => ih h hsplits.2
  | case5 q p c t hq hc =>
    rw [splits_cons_cons hq]
    exact fun hsplits => hc hsplits.1

theorem splits_of_splits_star (h : run pattern text = .atStar p t) (hp : Splits ('*' :: p) t) :
    Splits pattern text := by
  fun_induction run pattern text with
  | case1 => cases h
  | case2 => cases h
  | case3 =>
    cases h
    exact hp
  | case4 q p c t hq hc ih => exact (splits_cons_cons hq).2 ⟨hc, ih h⟩
  | case5 => cases h

/-- The first star is reached as early as can be: from whatever end of the text the pattern fits,
the rest of it from that star on fits here. -/
theorem splits_of_atStar (h : run pattern text = .atStar p t) (hs : rest <:+ text)
    (hr : Splits pattern rest) : Splits ('*' :: p) t := by
  fun_induction run pattern text generalizing rest with
  | case1 => cases h
  | case2 => cases h
  | case3 =>
    cases h
    exact splits_star_of_suffix hs hr
  | case4 q p c t hq hc ih =>
    obtain ⟨d, tail, rfl, -, htail⟩ := (splits_cons hq).1 hr
    exact ih h (suffix_of_cons hs) htail
  | case5 => cases h

theorem afterStar_iff : afterStar pattern text = true ↔ Splits ('*' :: pattern) text := by
  fun_induction afterStar pattern text with
  | case1 pattern text fit hrun =>
    cases fit with
    | true => simpa using splits_star.2 ⟨text, List.suffix_rfl, splits_of_ended hrun⟩
    | false =>
      simp only [Bool.false_eq_true, false_iff, splits_star, not_exists, not_and]
      exact fun rest hs => not_splits_of_ended hrun hs
  | case2 pattern text p t hrun ih =>
    rw [ih]
    constructor
    · intro h
      exact splits_star.2 ⟨text, List.suffix_rfl, splits_of_splits_star hrun h⟩
    · intro h
      obtain ⟨rest, hs, hr⟩ := splits_star.1 h
      exact splits_of_atStar hrun hs hr
  | case3 pattern hrun =>
    simp [run] at hrun
  | case4 pattern c text hrun ih =>
    rw [ih, splits_star_cons]
    simp [not_splits_of_mismatch hrun]

theorem fits_iff : fits pattern text = true ↔ Splits pattern text := by
  unfold fits
  split
  · rename_i fit hrun
    cases fit with
    | true => simp [splits_of_ended hrun]
    | false => simp [not_splits_of_ended hrun List.suffix_rfl]
  · rename_i p t hrun
    rw [afterStar_iff]
    exact ⟨splits_of_splits_star hrun, splits_of_atStar hrun List.suffix_rfl⟩
  · rename_i hrun
    simp [not_splits_of_mismatch hrun]

end Glob

namespace Subscriber

variable {phone : List Char}

theorem takeWhile_colon (hp : ':' ∉ phone) (rest : List Char) :
    (phone ++ rest).takeWhile (· != ':') = phone ++ rest.takeWhile (· != ':') := by
  refine List.takeWhile_append_of_pos fun c hc => ?_
  rw [bne_iff_ne]
  rintro rfl
  exact hp hc

theorem bareChars_plain (hp : ':' ∉ phone) : bareChars phone = phone := by
  have hdrop : dropScheme phone = phone := by
    rw [dropScheme]
    cases h : Text.after? scheme phone with
    | none => rfl
    | some rest =>
      rw [Text.after?_eq_some_iff] at h
      rw [h] at hp
      simp [scheme] at hp
  have htake := takeWhile_colon hp []
  rwa [bareChars, hdrop, List.append_nil, List.takeWhile_nil, List.append_nil] at *

theorem bareChars_scheme (hp : ':' ∉ phone) : bareChars (scheme ++ phone) = phone := by
  have htake := takeWhile_colon hp []
  rw [List.takeWhile_nil, List.append_nil] at htake
  rw [bareChars, dropScheme, Text.after?_append]
  exact htake

theorem bareChars_replyTo (hp : ':' ∉ phone) (replyTo : List Char) :
    bareChars (scheme ++ phone ++ ':' :: replyTo) = phone := by
  rw [bareChars, dropScheme, List.append_assoc, Text.after?_append, Option.getD_some,
    takeWhile_colon hp]
  simp

end Subscriber

namespace SenderFilter

/-- Neither the scheme nor an application to reply to takes part in the match. -/
theorem accepts_iff_splits :
    (∀ pattern text : List Char, Glob.fits pattern text = true ↔ Glob.Splits pattern text) ∧
    ∀ (f : SenderFilter) (phone replyTo : String), ':' ∉ phone.toList →
      (f.accepts phone = true ↔ Glob.Splits f.pattern.toList phone.toList) ∧
      (f.accepts ("mms://" ++ phone) = true ↔ Glob.Splits f.pattern.toList phone.toList) ∧
      (f.accepts ("mms://" ++ phone ++ ":" ++ replyTo) = true ↔
        Glob.Splits f.pattern.toList phone.toList) := by
  refine ⟨fun pattern text => Glob.fits_iff, fun f phone replyTo hp => ?_⟩
  have hscheme : ("mms://" ++ phone).toList = Subscriber.scheme ++ phone.toList := by
    rw [String.toList_append]
    rfl
  have hreply : ("mms://" ++ phone ++ ":" ++ replyTo).toList =
      Subscriber.scheme ++ phone.toList ++ ':' :: replyTo.toList := by
    rw [String.toList_append, String.toList_append, hscheme]
    simp
  simp only [accepts, hscheme, hreply, Subscriber.bareChars_plain hp,
    Subscriber.bareChars_scheme hp, Subscriber.bareChars_replyTo hp, Glob.fits_iff, and_self]

/-- The second star has to skip a `4` that no `9` follows. -/
theorem accepts_iff_splits_inner :
    ':' ∉ "+1234549".toList ∧
      (⟨"+1*4*9"⟩ : SenderFilter).accepts "mms://+1234549:mail" = true := by
  have hphone : ':' ∉ "+1234549".toList := by decide
  refine ⟨hphone, (accepts_iff_splits.2 ⟨"+1*4*9"⟩ "+1234549" "mail" hphone).2.2.2 ?_⟩
  refine ⟨[['+'], ['1'], ['2', '3'], ['4'], ['5', '4'], ['9']], ?_, by decide⟩
  change List.Forall₂ Glob.Stands ['+', '1', '*', '4', '*', '9'] _
  simp [Glob.Stands]

end SenderFilter

end MultimediaMessaging
