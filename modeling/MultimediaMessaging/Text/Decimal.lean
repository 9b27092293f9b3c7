/-!
Natural numbers in decimal digits. Writing never pads; reading takes one leading plus sign and any
number of leading zeros, and refuses what exceeds a given limit.
-/

set_option autoImplicit false

namespace MultimediaMessaging.Text

def limit16 : Nat := 0xFFFF

def limit32 : Nat := 0xFFFFFFFF

def limit64 : Nat := 0xFFFFFFFFFFFFFFFF

def digits (n : Nat) : List Char := Nat.toDigits 10 n

theorem isDigit_of_mem_digits {n : Nat} {c : Char} (h : c ∈ digits n) : c.isDigit = true :=
  Nat.isDigit_of_mem_toDigits (by decide) (by decide) h

theorem digits_ne_nil (n : Nat) : digits n ≠ [] := Nat.toDigits_ne_nil

def readDigits (limit : Nat) (cs : List Char) : Option Nat :=
  if cs ≠ [] ∧ cs.all Char.isDigit ∧ Nat.ofDigitChars 10 cs 0 ≤ limit then
    some (Nat.ofDigitChars 10 cs 0)
  else none

theorem readDigits_digits {limit n : Nat} (h : n ≤ limit) :
    readDigits limit (digits n) = some n := by
  have hd : (digits n).all Char.isDigit = true :=
    List.all_eq_true.2 fun _ hc => isDigit_of_mem_digits hc
  have hv : Nat.ofDigitChars 10 (digits n) 0 = n := Nat.ofDigitChars_ten_toDigits
  simp [readDigits, hd, hv, digits_ne_nil, h]

def readNumber (limit : Nat) : List Char → Option Nat
  | '+' :: cs => readDigits limit cs
  | cs => readDigits limit cs

theorem readNumber_digits {limit n : Nat} (h : n ≤ limit) :
    readNumber limit (digits n) = some n := by
  unfold readNumber
  split
  · rename_i cs hcs
    have : Char.isDigit '+' = true := isDigit_of_mem_digits (n := n) (by simp [hcs])
    simp [Char.isDigit] at this
  · exact readDigits_digits h

end MultimediaMessaging.Text
