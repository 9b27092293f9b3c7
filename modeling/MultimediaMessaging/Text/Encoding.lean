/-!
Text as bytes in UTF-8. `decode` accepts exactly the well-formed byte strings; `decodeLossy` accepts
any, and stands one replacement character for each maximal ill-formed run.
-/

set_option autoImplicit false

namespace MultimediaMessaging.Text

abbrev Bytes := List UInt8

def encodeChars (cs : List Char) : Bytes := cs.flatMap String.utf8EncodeChar

@[simp] theorem encodeChars_nil : encodeChars [] = [] := rfl

@[simp] theorem encodeChars_append (a b : List Char) :
    encodeChars (a ++ b) = encodeChars a ++ encodeChars b := by
  simp [encodeChars]

def encode (s : String) : Bytes := encodeChars s.toList

@[simp] theorem encode_append (a b : String) : encode (a ++ b) = encode a ++ encode b := by
  simp [encode]

def decode (bytes : Bytes) : Option String := String.fromUTF8? bytes.toByteArray

theorem toByteArray_encode (s : String) : (encode s).toByteArray = s.toByteArray := by
  rw [← String.utf8Encode_toList, encode, encodeChars, List.utf8Encode]

theorem decode_encode (s : String) : decode (encode s) = some s := by
  simp [decode, toByteArray_encode, String.fromUTF8?, String.fromUTF8, s.isValidUTF8]

theorem eq_encode_of_decode {bytes : Bytes} {s : String} (h : decode bytes = some s) :
    bytes = encode s := by
  simp only [decode, String.fromUTF8?, Option.dite_none_right_eq_some, Option.some.injEq] at h
  obtain ⟨valid, rfl⟩ := h
  rw [← List.toByteArray_inj, toByteArray_encode, String.fromUTF8]

theorem decode_eq_some_iff {bytes : Bytes} {s : String} :
    decode bytes = some s ↔ bytes = encode s :=
  ⟨eq_encode_of_decode, fun h => h ▸ decode_encode s⟩

/-- How a byte that is not ASCII opens a character: the bytes that follow it, and the range that the
first of those must lie in. `none` if no character opens with it. -/
def leadRange (b : UInt8) : Option (Nat × UInt8 × UInt8) :=
  if 0xC2 ≤ b ∧ b ≤ 0xDF then some (1, 0x80, 0xBF)
  else if b = 0xE0 then some (2, 0xA0, 0xBF)
  else if b = 0xED then some (2, 0x80, 0x9F)
  else if 0xE1 ≤ b ∧ b ≤ 0xEF then some (2, 0x80, 0xBF)
  else if b = 0xF0 then some (3, 0x90, 0xBF)
  else if 0xF1 ≤ b ∧ b ≤ 0xF3 then some (3, 0x80, 0xBF)
  else if b = 0xF4 then some (3, 0x80, 0x8F)
  else none

/-- Consumes up to `need` continuation bytes; gives what is still owed, the bits gathered and the
rest. -/
def continuation : Nat → UInt8 × UInt8 → Nat → Bytes → Nat × Nat × Bytes
  | 0, _, bits, bytes => (0, bits, bytes)
  | need + 1, _, bits, [] => (need + 1, bits, [])
  | need + 1, (lo, hi), bits, b :: bytes =>
    if lo ≤ b ∧ b ≤ hi then
      continuation need (0x80, 0xBF) (bits * 64 + (b.toNat - 0x80)) bytes
    else (need + 1, bits, b :: bytes)

theorem continuation_length (need : Nat) (range : UInt8 × UInt8) (bits : Nat) (bytes : Bytes) :
    (continuation need range bits bytes).2.2.length ≤ bytes.length := by
  induction need generalizing range bits bytes with
  | zero => simp [continuation]
  | succ need ih =>
    cases bytes with
    | nil => simp [continuation]
    | cons b bytes =>
      simp only [continuation]
      split
      · have := ih (0x80, 0xBF) (bits * 64 + (b.toNat - 0x80)) bytes
        simp only [List.length_cons]; omega
      · simp

def replacement : Char := '\uFFFD'

def leadBits (need : Nat) (b : UInt8) : Nat := b.toNat % (64 >>> need)

def decodeLossyChars : Bytes → List Char
  | [] => []
  | b :: bytes =>
    if b < 0x80 then Char.ofNat b.toNat :: decodeLossyChars bytes
    else
      match leadRange b with
      | none => replacement :: decodeLossyChars bytes
      | some (need, range) =>
        match _taken : continuation need range (leadBits need b) bytes with
        | (owed, bits, rest) =>
          (if owed = 0 then Char.ofNat bits else replacement) :: decodeLossyChars rest
  termination_by bytes => bytes.length
  decreasing_by
    · simp
    · simp
    · have := continuation_length need range (leadBits need b) bytes
      simp only [_taken] at this
      simp only [List.length_cons]; omega

def decodeLossy (bytes : Bytes) : String := String.ofList (decodeLossyChars bytes)

end MultimediaMessaging.Text
