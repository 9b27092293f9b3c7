import MultimediaMessaging.Proofs.Fragment.Fields
import MultimediaMessaging.Proofs.Fragment.Printed

/-!
The addresses in a printed fragment. What is read of an application or of a phone number is what was
printed, less the blanks at the end of its line; and of an application with a colon, the part behind
the last one.
-/

set_option autoImplicit false

namespace MultimediaMessaging

open Text

namespace Text

/-- No blank at the end, where it would be lost with the end of the line. -/
def IsUnpadded (text : String) : Prop := ∀ c ∈ text.toList.getLast?, isBlank c = false

def trimmed (text : String) : String := String.ofList (trimEnd text.toList)

@[simp] theorem toList_trimmed (text : String) : (trimmed text).toList = trimEnd text.toList :=
  String.toList_ofList

@[simp] theorem trimmed_eq_self_iff {text : String} : trimmed text = text ↔ IsUnpadded text := by
  rw [← String.toList_inj, toList_trimmed, trimEnd_eq_self_iff, IsUnpadded]

@[simp] theorem isUnpadded_empty : IsUnpadded "" := by
  rintro c ⟨⟩

theorem notMem_trimmed {c : Char} {text : String} (h : c ∉ text.toList) :
    c ∉ (trimmed text).toList := by
  rw [toList_trimmed]
  exact fun hc => h (trimEnd_subset _ hc)

theorem trim_scheme_append {before : String} (hb : IsUnpadded before) (text : String) :
    String.ofList (trim ("mms://" ++ before ++ text).toList) =
      "mms://" ++ before ++ trimmed text := by
  have hfront : ("mms://" ++ before).toList = 'm' :: ("ms://".toList ++ before.toList) := by
    rw [String.toList_append]
    rfl
  have hlast : ∀ c ∈ ("mms://" ++ before).toList.getLast?, isBlank c = false := by
    intro c hc
    rw [String.toList_append, List.getLast?_append] at hc
    rcases Option.or_eq_some_iff.1 hc with hbefore | ⟨-, hscheme⟩
    · exact hb c hbefore
    · cases hscheme
      decide
  have htext : ∀ text, ("mms://" ++ before ++ text).toList =
      ("mms://" ++ before).toList ++ text.toList := fun _ => String.toList_append
  rw [← String.toList_inj, String.toList_ofList, htext, htext, toList_trimmed]
  rw [hfront] at hlast ⊢
  exact trim_append (by decide) hlast text.toList

end Text

namespace Subscriber

theorem splitSender_plain {value : String} (h : value.toList.count ':' < 2) :
    splitSender value = (value, "") := by
  rw [splitSender, if_pos h]

theorem splitSender_append {before after : String} (hb : ':' ∈ before.toList)
    (ha : ':' ∉ after.toList) : splitSender (before ++ ":" ++ after) = (before, after) := by
  have htext : (before ++ ":" ++ after).toList = before.toList ++ ':' :: after.toList := by simp
  have hsplit := sends_iff.1 (.answered htext hb ha)
  simpa only [String.ofList_toList] using hsplit

theorem app?_append {app : String} (hne : app ≠ "") (hc : ':' ∉ app.toList) :
    app? ("mms://:" ++ app) = some app := by
  have htext : ("mms://:" ++ app).toList = scheme ++ ([] ++ ':' :: app.toList) := by
    rw [String.toList_append]
    rfl
  have hnames : Names ("mms://:" ++ app).toList app.toList :=
    ⟨_, [], .inl htext, rfl, hc, mt String.toList_eq_nil_iff.1 hne⟩
  simpa only [String.ofList_toList] using names_iff.1 hnames

theorem app?_eq_some {address app : String} (h : app? address = some app) :
    app ≠ "" ∧ ':' ∉ app.toList := by
  rw [← String.ofList_toList (s := address), ← String.ofList_toList (s := app)] at h
  obtain ⟨-, -, -, -, hcolon, hne⟩ := names_iff.2 h
  exact ⟨mt String.toList_eq_nil_iff.2 hne, hcolon⟩

end Subscriber

namespace Encoder

variable {e : Encoder} {m : Outgoing}

theorem readApp?_eq_app? (m : Outgoing) :
    readApp? m = Subscriber.app? ("mms://:" ++ trimmed m.dest) := by
  have hcolon : IsUnpadded ":" := isBlank_eq_false_of_all (by decide)
  rw [readApp?]
  exact congrArg _ (trim_scheme_append hcolon m.dest)

/-- The application of the address line is the destination only if nothing in it is lost. -/
theorem readApp?_eq_some_dest_iff (hne : m.dest ≠ "") :
    readApp? m = some m.dest ↔ ':' ∉ m.dest.toList ∧ IsUnpadded m.dest := by
  rw [readApp?_eq_app?]
  constructor
  · intro h
    have hcolon := (Subscriber.app?_eq_some h).2
    refine ⟨hcolon, trimmed_eq_self_iff.1 ?_⟩
    by_cases hempty : trimmed m.dest = ""
    · rw [hempty, show Subscriber.app? ("mms://:" ++ "") = none by decide] at h
      cases h
    · rw [Subscriber.app?_append hempty (notMem_trimmed hcolon)] at h
      exact Option.some.inj h
  · rintro ⟨hcolon, hunpadded⟩
    rw [trimmed_eq_self_iff.2 hunpadded, Subscriber.app?_append hne hcolon]

theorem colon_notMem_of_isLineSafe {app : String} (h : isLineSafe false app = true) :
    ':' ∉ app.toList := by
  intro hm
  have := List.all_eq_true.1 h _ hm
  simp at this

theorem readSender_eq_trimmed (hphone : ':' ∉ e.phone.toList)
    (hsource : isLineSafe false m.source = true) :
    e.readSender m =
      ("mms://" ++ if m.source = "" then trimmed e.phone else e.phone, trimmed m.source) := by
  rw [readSender, senderAddress]
  by_cases hempty : m.source = ""
  · rw [if_pos hempty, if_pos hempty, hempty, trimmed_eq_self_iff.2 isUnpadded_empty]
    refine (congrArg _ (trim_scheme_append isUnpadded_empty e.phone)).trans ?_
    refine Subscriber.splitSender_plain ?_
    rw [String.toList_append, List.count_append, List.count_eq_zero.2 (notMem_trimmed hphone)]
    decide
  · rw [if_neg hempty, if_neg hempty]
    have hbefore : IsUnpadded (e.phone ++ ":") := by
      intro c hc
      simp only [String.toList_append, List.getLast?_append] at hc
      cases hc
      decide
    have hline := trim_scheme_append hbefore m.source
    simp only [← String.append_assoc] at hline
    refine (congrArg _ hline).trans (Subscriber.splitSender_append ?_ ?_)
    · rw [String.toList_append]
      exact List.mem_append_left _ (by decide)
    · exact notMem_trimmed (colon_notMem_of_isLineSafe hsource)

end Encoder

end MultimediaMessaging
