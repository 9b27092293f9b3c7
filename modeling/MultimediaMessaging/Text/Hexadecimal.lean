/-!
Hexadecimal digits: written in lower case, read in either.
-/

set_option autoImplicit false

namespace MultimediaMessaging.Text

def hexDigits (n : Nat) : List Char := Nat.toDigits 16 n

def hexValue (c : Char) : Option Nat :=
  if '0' ≤ c ∧ c ≤ '9' then some (c.toNat - '0'.toNat)
  else if 'a' ≤ c ∧ c ≤ 'f' then some (c.toNat - 'a'.toNat + 10)
  else if 'A' ≤ c ∧ c ≤ 'F' then some (c.toNat - 'A'.toNat + 10)
  else none

def ofHexDigits (cs : List Char) : Option Nat :=
  cs.foldlM (fun n c => (hexValue c).map (n * 16 + ·)) 0

end MultimediaMessaging.Text
