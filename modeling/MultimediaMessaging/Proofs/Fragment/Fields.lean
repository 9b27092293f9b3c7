import Mathlib.Data.List.Induction
import Mathlib.Data.List.TakeWhile
import MultimediaMessaging.Fragment.Header
import MultimediaMessaging.Proofs.Text.Trim

/-!
The fields of a header and the lines that set them. Each key has one field, that of a sender address
two; a value sets it to what the text says, and leaves all other fields as they are.
-/

set_option autoImplicit false

namespace MultimediaMessaging

namespace Text

/-- `text` is what lies between the blanks at both ends of `value`. -/
structure Trims (value text : List Char) : Prop where
  split : ∃ before after, value = before ++ (text ++ after) ∧
    (∀ c ∈ before, isBlank c = true) ∧ ∀ c ∈ after, isBlank c = true
  first : ∀ c ∈ text.head?, isBlank c = false
  last : ∀ c ∈ text.getLast?, isBlank c = false

/-- Digits, perhaps behind a plus sign, that stand for `n`. -/
structure Numeral (limit : Nat) (text : List Char) (n : Nat) : Prop where
  digits : ∃ ds, (text = ds ∨ text = '+' :: ds) ∧ ds ≠ [] ∧ (∀ c ∈ ds, c.isDigit = true) ∧
    Nat.ofDigitChars 10 ds 0 = n
  le : n ≤ limit

variable {value text before after cs ds : List Char} {limit n : Nat}

theorem trim_append_blanks (hafter : ∀ c ∈ after, isBlank c = true) :
    trim (cs ++ after) = trim cs := by
  induction after using List.reverseRecOn with
  | nil => rw [List.append_nil]
  | append_singleton after c ih =>
    rw [← List.append_assoc, trim_append_blank _ (hafter c (by simp))]
    exact ih fun d hd => hafter d (List.mem_append_left _ hd)

theorem trim_blanks_append (hbefore : ∀ c ∈ before, isBlank c = true) :
    trim (before ++ cs) = trim cs := by
  induction before with
  | nil => rfl
  | cons c before ih =>
    rw [List.forall_mem_cons] at hbefore
    rw [List.cons_append, trim_cons_blank hbefore.1, ih hbefore.2]

theorem trims_trim (value : List Char) : Trims value (trim value) where
  split := by
    refine ⟨value.takeWhile isBlank, ((trimStart value).reverse.takeWhile isBlank).reverse,
      ?_, fun c hc => List.mem_takeWhile_imp hc,
      fun c hc => List.mem_takeWhile_imp (List.mem_reverse.1 hc)⟩
    rw [trim, trimEnd, ← List.reverse_append, List.takeWhile_append_dropWhile, List.reverse_reverse,
      trimStart, List.takeWhile_append_dropWhile]
  first := head?_trim value
  last := getLast?_trimEnd _

theorem trims_iff : Trims value text ↔ trim value = text := by
  refine ⟨fun h => ?_, fun h => h ▸ trims_trim value⟩
  obtain ⟨before, after, rfl, hbefore, hafter⟩ := h.split
  rw [trim_blanks_append hbefore, trim_append_blanks hafter, trim_eq_self h.first h.last]

theorem readDigits_eq_some_iff :
    readDigits limit ds = some n ↔
      (ds ≠ [] ∧ (∀ c ∈ ds, c.isDigit = true) ∧ Nat.ofDigitChars 10 ds 0 = n) ∧ n ≤ limit := by
  rw [readDigits, Option.ite_none_right_eq_some, List.all_eq_true, Option.some.injEq]
  constructor
  · rintro ⟨⟨hne, hdigits, hle⟩, rfl⟩
    exact ⟨⟨hne, hdigits, rfl⟩, hle⟩
  · rintro ⟨⟨hne, hdigits, rfl⟩, hle⟩
    exact ⟨⟨hne, hdigits, hle⟩, rfl⟩

theorem readNumber_of_digits (hds : ∀ c ∈ ds, c.isDigit = true) :
    readNumber limit ds = readDigits limit ds := by
  unfold readNumber
  split
  · simp [Char.isDigit] at hds
  · rfl

theorem numeral_iff : Numeral limit text n ↔ readNumber limit text = some n := by
  constructor
  · rintro ⟨⟨ds, htext, hds⟩, hle⟩
    have hread : readDigits limit ds = some n := readDigits_eq_some_iff.2 ⟨hds, hle⟩
    rcases htext with rfl | rfl
    · rw [readNumber_of_digits hds.2.1, hread]
    · exact hread
  · intro hread
    unfold readNumber at hread
    split at hread
    · rename_i ds
      obtain ⟨hds, hle⟩ := readDigits_eq_some_iff.1 hread
      exact ⟨⟨ds, .inr rfl, hds⟩, hle⟩
    · obtain ⟨hds, hle⟩ := readDigits_eq_some_iff.1 hread
      exact ⟨⟨_, .inl rfl, hds⟩, hle⟩

theorem readNumber_eq_none_iff : readNumber limit text = none ↔ ∀ n, ¬ Numeral limit text n := by
  simp only [Option.eq_none_iff_forall_ne_some, numeral_iff, ne_eq]

end Text

namespace Subscriber

/-- How a sender address falls into sender and reply-to application: at the last of its colons,
if it has more than that of the scheme. -/
inductive Sends (text : List Char) : List Char → List Char → Prop
  | alone (few : text.count ':' < 2) : Sends text text []
  | answered {sender replyTo : List Char} (split : text = sender ++ ':' :: replyTo)
    (colon : ':' ∈ sender) (last : ':' ∉ replyTo) : Sends text sender replyTo

/-- `app` is what follows the last colon behind the scheme. The scheme may be missing. -/
def Names (text app : List Char) : Prop :=
  ∃ address before, (text = scheme ++ address ∨ ¬ scheme <+: text ∧ text = address) ∧
    address = before ++ ':' :: app ∧ ':' ∉ app ∧ app ≠ []

variable {text before after sender replyTo app : List Char}

theorem splitLast_eq_some_iff :
    splitLast text = some (before, after) ↔ text = before ++ ':' :: after ∧ ':' ∉ after := by
  refine ⟨fun h => ?_, fun ⟨htext, hafter⟩ => htext ▸ splitLast_append hafter⟩
  induction text generalizing before with
  | nil => cases h
  | cons c cs ih =>
    cases hrest : splitLast cs with
    | some split =>
      simp only [splitLast, hrest, Option.some.injEq, Prod.mk.injEq] at h
      obtain ⟨rfl, rfl⟩ := h
      obtain ⟨htext, hafter⟩ := ih hrest
      exact ⟨congrArg (c :: ·) htext, hafter⟩
    | none =>
      simp only [splitLast, hrest, Option.ite_none_right_eq_some, Option.some.injEq,
        Prod.mk.injEq] at h
      obtain ⟨rfl, rfl, rfl⟩ := h
      exact ⟨rfl, splitLast_eq_none_iff.1 hrest⟩

theorem sends_iff :
    Sends text sender replyTo ↔
      splitSender (String.ofList text) = (String.ofList sender, String.ofList replyTo) := by
  unfold splitSender
  rw [String.toList_ofList]
  split
  · rename_i hfew
    constructor
    · intro h
      cases h with
      | alone => rfl
      | answered split colon last =>
        have := List.count_pos_iff.2 colon
        rw [split, List.count_append, List.count_cons_self] at hfew
        omega
    · intro h
      simp only [Prod.mk.injEq, String.ofList_inj] at h
      obtain ⟨rfl, hreply⟩ := h
      obtain rfl : replyTo = [] := by simpa using hreply.symm
      exact .alone hfew
  · rename_i hmany
    cases hsplit : splitLast text with
    | none =>
      have := List.count_eq_zero.2 (splitLast_eq_none_iff.1 hsplit)
      omega
    | some parts =>
      obtain ⟨before, after⟩ := parts
      obtain ⟨rfl, hafter⟩ := splitLast_eq_some_iff.1 hsplit
      simp only [Prod.mk.injEq, String.ofList_inj]
      constructor
      · intro h
        cases h with
        | alone few => exact absurd few hmany
        | answered split colon last =>
          rw [splitLast_eq_some_iff.2 ⟨split, last⟩, Option.some.injEq, Prod.mk.injEq] at hsplit
          exact ⟨hsplit.1.symm, hsplit.2.symm⟩
      · rintro ⟨rfl, rfl⟩
        refine .answered rfl (List.count_pos_iff.1 ?_) hafter
        have := List.count_eq_zero.2 hafter
        simp only [List.count_append, List.count_cons_self] at hmany
        omega

theorem dropScheme_eq_iff {address : List Char} :
    dropScheme text = address ↔
      text = scheme ++ address ∨ ¬ scheme <+: text ∧ text = address := by
  unfold dropScheme
  cases hafter : Text.after? scheme text with
  | some rest =>
    obtain rfl := Text.after?_eq_some_iff.1 hafter
    simp [eq_comm]
  | none =>
    have hnot : ¬ scheme <+: text := by
      rintro ⟨rest, rfl⟩
      simp at hafter
    constructor
    · rintro rfl
      exact .inr ⟨hnot, rfl⟩
    · rintro (rfl | ⟨-, rfl⟩)
      · exact absurd (List.prefix_append _ _) hnot
      · rfl

theorem names_iff : Names text app ↔ app? (String.ofList text) = some (String.ofList app) := by
  unfold app?
  rw [String.toList_ofList]
  constructor
  · rintro ⟨address, before, hscheme, rfl, hlast, hne⟩
    obtain ⟨c, cs, rfl⟩ := List.exists_cons_of_ne_nil hne
    rw [dropScheme_eq_iff.2 hscheme, splitLast_append hlast]
  · intro h
    split at h
    · rename_i before c cs hsplit
      rw [Option.some.injEq, String.ofList_inj] at h
      subst h
      obtain ⟨hrest, hlast⟩ := splitLast_eq_some_iff.1 hsplit
      exact ⟨_, before, dropScheme_eq_iff.1 rfl, hrest, hlast, List.cons_ne_nil c cs⟩
    · cases h

theorem app?_eq_none_iff : app? (String.ofList text) = none ↔ ∀ app, ¬ Names text app := by
  rw [Option.eq_none_iff_forall_ne_some]
  constructor
  · exact fun h app hnames => h _ (names_iff.1 hnames)
  · intro h app happ
    rw [← String.ofList_toList (s := app)] at happ
    exact h _ (names_iff.2 happ)

end Subscriber

open Text

/-- The largest number that a line with this key may hold. The other keys take any text. -/
def HeaderKey.limit? : HeaderKey → Option Nat
  | .senderAddress | .address | .ackCookie => none
  | .ackPort => some limit16
  | _ => some limit64

namespace Header

/-- What becomes of `h` by the text of a key. An empty cookie leaves the one before it; an address
that names no application takes away the one before it. -/
inductive Sets (h : Header) (text : List Char) : HeaderKey → Header → Prop
  | date {n : Nat} (number : Numeral limit64 text n) : Sets h text .date { h with date := some n }
  | contentLength {n : Nat} (number : Numeral limit64 text n) :
    Sets h text .contentLength { h with contentLength := some n }
  | segments {n : Nat} (number : Numeral limit64 text n) :
    Sets h text .segments { h with segments := n }
  | fragment {n : Nat} (number : Numeral limit64 text n) :
    Sets h text .fragment { h with fragment := n }
  | fragmentSize {n : Nat} (number : Numeral limit64 text n) :
    Sets h text .fragmentSize { h with fragmentSize := some n }
  | fragmentOffset {n : Nat} (number : Numeral limit64 text n) :
    Sets h text .fragmentOffset { h with fragmentOffset := n }
  | ackPort {n : Nat} (number : Numeral limit16 text n) :
    Sets h text .ackPort { h with ackPort := some n.toUInt16 }
  | cookie (filled : text ≠ []) :
    Sets h text .ackCookie { h with ackCookie := some (String.ofList text) }
  | noCookie (empty : text = []) : Sets h text .ackCookie h
  | sender {sender replyTo : List Char} (sends : Subscriber.Sends text sender replyTo) :
    Sets h text .senderAddress
      { h with sender := some (String.ofList sender), replyTo := String.ofList replyTo }
  | app {app : List Char} (names : Subscriber.Names text app) :
    Sets h text .address { h with app := some (String.ofList app) }
  | noApp (unnamed : ∀ app, ¬ Subscriber.Names text app) :
    Sets h text .address { h with app := none }

variable {h h' : Header} {key : HeaderKey} {text : List Char} {limit n : Nat}

theorem readValue_eq_ok_iff : readValue key limit text = .ok n ↔ Numeral limit text n := by
  rw [numeral_iff, readValue]
  cases readNumber limit text <;> simp

theorem readValue_map_eq_ok_iff {f : Nat → Header} :
    (readValue key limit text).map f = .ok h' ↔ ∃ n, Numeral limit text n ∧ f n = h' := by
  constructor
  · intro h
    cases hread : readValue key limit text with
    | error e =>
      rw [hread] at h
      cases h
    | ok n =>
      rw [hread] at h
      cases h
      exact ⟨n, readValue_eq_ok_iff.1 hread, rfl⟩
  · rintro ⟨n, number, rfl⟩
    rw [readValue_eq_ok_iff.2 number]
    rfl

theorem Sets.set (hs : Sets h text key h') : h.set key text = .ok h' := by
  cases hs with
  | date number => exact readValue_map_eq_ok_iff.2 ⟨_, number, rfl⟩
  | contentLength number => exact readValue_map_eq_ok_iff.2 ⟨_, number, rfl⟩
  | segments number => exact readValue_map_eq_ok_iff.2 ⟨_, number, rfl⟩
  | fragment number => exact readValue_map_eq_ok_iff.2 ⟨_, number, rfl⟩
  | fragmentSize number => exact readValue_map_eq_ok_iff.2 ⟨_, number, rfl⟩
  | fragmentOffset number => exact readValue_map_eq_ok_iff.2 ⟨_, number, rfl⟩
  | ackPort number => exact readValue_map_eq_ok_iff.2 ⟨_, number, rfl⟩
  | cookie filled => rw [Header.set, if_neg filled]
  | noCookie empty => rw [Header.set, if_pos empty]
  | sender sends => simp only [Header.set, Subscriber.sends_iff.1 sends]
  | app names => rw [Header.set, Subscriber.names_iff.1 names]
  | noApp unnamed => rw [Header.set, Subscriber.app?_eq_none_iff.2 unnamed]

theorem sets_of_set (hs : h.set key text = .ok h') : Sets h text key h' := by
  cases key with
  | date =>
    obtain ⟨n, number, rfl⟩ := readValue_map_eq_ok_iff.1 hs
    exact .date number
  | contentLength =>
    obtain ⟨n, number, rfl⟩ := readValue_map_eq_ok_iff.1 hs
    exact .contentLength number
  | segments =>
    obtain ⟨n, number, rfl⟩ := readValue_map_eq_ok_iff.1 hs
    exact .segments number
  | fragment =>
    obtain ⟨n, number, rfl⟩ := readValue_map_eq_ok_iff.1 hs
    exact .fragment number
  | fragmentSize =>
    obtain ⟨n, number, rfl⟩ := readValue_map_eq_ok_iff.1 hs
    exact .fragmentSize number
  | fragmentOffset =>
    obtain ⟨n, number, rfl⟩ := readValue_map_eq_ok_iff.1 hs
    exact .fragmentOffset number
  | ackPort =>
    obtain ⟨n, number, rfl⟩ := readValue_map_eq_ok_iff.1 hs
    exact .ackPort number
  | ackCookie =>
    cases hs
    by_cases hempty : text = []
    · rw [if_pos hempty]
      exact .noCookie hempty
    · rw [if_neg hempty]
      exact .cookie hempty
  | senderAddress =>
    cases hs
    have hsends : Subscriber.Sends text (Subscriber.splitSender (String.ofList text)).1.toList
        (Subscriber.splitSender (String.ofList text)).2.toList :=
      Subscriber.sends_iff.2 (by simp only [String.ofList_toList])
    have hsets := Sets.sender (h := h) hsends
    rwa [String.ofList_toList, String.ofList_toList] at hsets
  | address =>
    cases hs
    cases happ : Subscriber.app? (String.ofList text) with
    | none => exact .noApp (Subscriber.app?_eq_none_iff.1 happ)
    | some app =>
      have hnames : Subscriber.Names text app.toList :=
        Subscriber.names_iff.2 (by rw [String.ofList_toList, happ])
      have hsets := Sets.app (h := h) hnames
      rwa [String.ofList_toList] at hsets

theorem sets_or_not_numeral (h : Header) (key : HeaderKey) (text : List Char) :
    (∃ h', Sets h text key h') ∨
      ∃ limit, key.limit? = some limit ∧ ∀ n, ¬ Numeral limit text n := by
  cases hlimit : key.limit? with
  | none =>
    cases key with
    | senderAddress => exact .inl ⟨_, sets_of_set rfl⟩
    | address => exact .inl ⟨_, sets_of_set rfl⟩
    | ackCookie => exact .inl ⟨_, sets_of_set rfl⟩
    | _ => cases hlimit
  | some limit =>
    by_cases hnumber : ∃ n, Numeral limit text n
    · obtain ⟨n, number⟩ := hnumber
      refine .inl ?_
      cases key <;> cases hlimit <;>
        exact ⟨_, sets_of_set (readValue_map_eq_ok_iff.2 ⟨n, number, rfl⟩)⟩
    · exact .inr ⟨limit, rfl, not_exists.1 hnumber⟩

theorem set_of_not_numeral (h : Header) (hlimit : key.limit? = some limit)
    (hnot : ∀ n, ¬ Numeral limit text n) :
    h.set key text = .error (.invalidNumber key (String.ofList text)) := by
  have hread := readNumber_eq_none_iff.2 hnot
  cases key <;> cases hlimit <;> simp [set, readValue, hread, Except.map]

end Header

end MultimediaMessaging
