import MultimediaMessaging.Text.Opening

/-!
Addresses of subscribers: `mms://PHONE:APP`, where either part may be missing. None of these readers
fails on a malformed address; each gives the part that is there.
-/

set_option autoImplicit false

namespace MultimediaMessaging.Subscriber

def scheme : List Char := ['m', 'm', 's', ':', '/', '/']

def dropScheme (cs : List Char) : List Char := (Text.after? scheme cs).getD cs

def splitLast : List Char → Option (List Char × List Char)
  | [] => none
  | c :: cs =>
    match splitLast cs with
    | some (before, after) => some (c :: before, after)
    | none => if c = ':' then some ([], cs) else none

theorem splitLast_eq_none_iff {cs : List Char} : splitLast cs = none ↔ ':' ∉ cs := by
  induction cs with
  | nil => simp [splitLast]
  | cons c cs ih =>
    cases h : splitLast cs with
    | some p => simp [splitLast, h] at ih ⊢; simp [ih]
    | none =>
      have : ':' ∉ cs := ih.1 h
      by_cases hc : c = ':' <;> simp [splitLast, h, hc, this, eq_comm]

theorem splitLast_append {before after : List Char} (h : ':' ∉ after) :
    splitLast (before ++ ':' :: after) = some (before, after) := by
  induction before with
  | nil => simp [splitLast, splitLast_eq_none_iff.2 h]
  | cons c before ih => simp [splitLast, ih]

/-- Sender and reply-to application of a sender address. The colon of the scheme alone separates
nothing. -/
def splitSender (value : String) : String × String :=
  if value.toList.count ':' < 2 then (value, "")
  else
    match splitLast value.toList with
    | some (sender, replyTo) => (String.ofList sender, String.ofList replyTo)
    | none => (value, "")

def app? (address : String) : Option String :=
  match splitLast (dropScheme address.toList) with
  | some (_, c :: cs) => some (String.ofList (c :: cs))
  | _ => none

def bareChars (address : List Char) : List Char := (dropScheme address).takeWhile (· != ':')

def bare (address : String) : String := String.ofList (bareChars address.toList)

end MultimediaMessaging.Subscriber
