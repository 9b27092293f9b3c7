import MultimediaMessaging.Subscriber
import MultimediaMessaging.Text.Quoted

/-!
Sender filters: patterns over the bare phone number, in which `*` stands for any run of characters
and `?` for exactly one. Nothing else is special, and nothing can be escaped.
-/

set_option autoImplicit false

namespace MultimediaMessaging

namespace Glob

/-- How far a pattern gets without skipping text: to its first star, to an end, or to a character
that does not fit. -/
inductive Run where
  | atStar (pattern text : List Char)
  | ended (fit : Bool)
  | mismatch
  deriving DecidableEq, Repr

/-- Once the text is used up, only stars may be left. -/
def run : (pattern text : List Char) → Run
  | pattern, [] => .ended (pattern.all (· == '*'))
  | [], _ :: _ => .mismatch
  | p :: pattern, c :: text =>
    if p = '*' then .atStar pattern (c :: text)
    else if p = '?' ∨ p = c then run pattern text
    else .mismatch

theorem length_lt_of_run {pattern text p t : List Char} (h : run pattern text = .atStar p t) :
    p.length < pattern.length := by
  fun_induction run pattern text with
  | case1 => simp at h
  | case2 => simp at h
  | case3 pattern c text => simp only [Run.atStar.injEq] at h; simp [h.1]
  | case4 p' pattern c text _ _ ih => have := ih h; simp only [List.length_cons]; omega
  | case5 => simp at h

/-- Matches what follows a star: the text is skipped until the pattern fits as far as its next star,
and that star is then the only one to come back to. -/
def afterStar (pattern text : List Char) : Bool :=
  match _reached : run pattern text with
  | .ended fit => fit
  | .atStar p t => afterStar p t
  | .mismatch =>
    match text with
    | [] => false
    | _ :: text => afterStar pattern text
  termination_by (pattern.length, text.length)
  decreasing_by
    · exact Prod.Lex.left _ _ (length_lt_of_run _reached)
    · exact Prod.Lex.right _ (by simp)

def fits (pattern text : List Char) : Bool :=
  match run pattern text with
  | .ended fit => fit
  | .atStar p t => afterStar p t
  | .mismatch => false

end Glob

structure SenderFilter where
  pattern : String
  deriving DecidableEq, Repr

namespace SenderFilter

def accepts (f : SenderFilter) (sender : String) : Bool :=
  Glob.fits f.pattern.toList (Subscriber.bareChars sender.toList)

def describe (f : SenderFilter) : String :=
  let chars := ", ".intercalate (f.pattern.toList.map Text.quotedChar)
  s!"SenderFilter \x7b pattern: [{chars}], source: {Text.quoted f.pattern} \x7d"

end SenderFilter

end MultimediaMessaging
