import MultimediaMessaging.Json.Value
import MultimediaMessaging.Text.Hexadecimal

/-!
Reading JSON: one value, with nothing but white space around it. Values may nest as deep as they
like, and an object may name a member twice; what that means is for the reader of the value to say.
-/

set_option autoImplicit false

namespace MultimediaMessaging.Json

def isBlank (c : Char) : Bool := c == ' ' || c == '\t' || c == '\n' || c == '\r'

def skipBlank (cs : List Char) : List Char := cs.dropWhile isBlank

/-- What one step through a string gives: a character, or half of a surrogate pair. -/
inductive Piece where
  | char (c : Char)
  | half (code : Nat)
  deriving DecidableEq, Repr

def pieceOfCode (n : Nat) : Piece :=
  if 0xD800 ≤ n ∧ n < 0xE000 then .half n else .char (Char.ofNat n)

def readEscape : List Char → Option (Piece × List Char)
  | '"' :: cs => some (.char '"', cs)
  | '\\' :: cs => some (.char '\\', cs)
  | '/' :: cs => some (.char '/', cs)
  | 'b' :: cs => some (.char '\x08', cs)
  | 'f' :: cs => some (.char '\x0c', cs)
  | 'n' :: cs => some (.char '\n', cs)
  | 'r' :: cs => some (.char '\r', cs)
  | 't' :: cs => some (.char '\t', cs)
  | 'u' :: a :: b :: c :: d :: cs =>
    (Text.ofHexDigits [a, b, c, d]).map fun n => (pieceOfCode n, cs)
  | _ => none

theorem length_lt_of_readEscape {cs rest : List Char} {p : Piece}
    (h : readEscape cs = some (p, rest)) : rest.length < cs.length := by
  unfold readEscape at h
  split at h <;>
    simp only [Option.map_eq_some_iff, Option.some.injEq, Prod.mk.injEq, reduceCtorEq] at h
  all_goals first
    | (obtain ⟨_, rfl⟩ := h; simp)
    | (obtain ⟨_, _, _, rfl⟩ := h; simp; omega)

/-- The pieces up to the closing quote. Control characters have to be escaped. -/
def readPieces (cs : List Char) : Option (List Piece × List Char) :=
  match cs with
  | [] => none
  | c :: cs =>
    if c = '"' then some ([], cs)
    else if c = '\\' then
      match _read : readEscape cs with
      | none => none
      | some (piece, rest) => (readPieces rest).map fun (pieces, rest) => (piece :: pieces, rest)
    else if c.toNat < 0x20 then none
    else (readPieces cs).map fun (pieces, rest) => (.char c :: pieces, rest)
  termination_by cs.length
  decreasing_by
    · have := length_lt_of_readEscape _read
      simp only [List.length_cons]; omega
    · simp

def joinHalves (high low : Nat) : Option Char :=
  if high < 0xDC00 ∧ 0xDC00 ≤ low then
    some (Char.ofNat (0x10000 + (high - 0xD800) * 0x400 + (low - 0xDC00)))
  else none

/-- The text of the pieces, if every half has its other half behind it. -/
def joinPieces : List Piece → Option (List Char)
  | [] => some []
  | .char c :: pieces => (joinPieces pieces).map (c :: ·)
  | .half high :: .half low :: pieces =>
    match joinHalves high low, joinPieces pieces with
    | some c, some cs => some (c :: cs)
    | _, _ => none
  | .half _ :: _ => none

def readString (cs : List Char) : Option (Option String × List Char) :=
  (readPieces cs).map fun (pieces, rest) => ((joinPieces pieces).map String.ofList, rest)

def takeDigits (cs : List Char) : List Char × List Char :=
  (cs.takeWhile Char.isDigit, cs.dropWhile Char.isDigit)

/-- At least one digit, and no zero in front of another. -/
def readInteger (cs : List Char) : Option (List Char × List Char) :=
  match takeDigits cs with
  | ([], _) => none
  | ('0' :: _ :: _, _) => none
  | found => some found

def readFraction : List Char → Option (List Char × List Char)
  | '.' :: cs =>
    match takeDigits cs with
    | ([], _) => none
    | (ds, rest) => some ('.' :: ds, rest)
  | cs => some ([], cs)

def readSign : List Char → List Char × List Char
  | '+' :: cs => (['+'], cs)
  | '-' :: cs => (['-'], cs)
  | cs => ([], cs)

def readExponent : List Char → Option (List Char × List Char)
  | c :: cs =>
    if c = 'e' ∨ c = 'E' then
      match takeDigits (readSign cs).2 with
      | ([], _) => none
      | (ds, rest) => some (c :: (readSign cs).1 ++ ds, rest)
    else some ([], c :: cs)
  | [] => some ([], [])

def readMinus : List Char → List Char × List Char
  | '-' :: cs => (['-'], cs)
  | cs => ([], cs)

def readNumber (cs : List Char) : Option (Json × List Char) := do
  let (integer, rest) ← readInteger (readMinus cs).2
  let (fraction, rest) ← readFraction rest
  let (exponent, rest) ← readExponent rest
  return (.number ((readMinus cs).1 ++ integer ++ fraction ++ exponent), rest)

mutual

/-- One value; `fuel` bounds the number of characters it may take. -/
def readValue : (fuel : Nat) → List Char → Option (Json × List Char)
  | 0, _ => none
  | fuel + 1, cs =>
    match skipBlank cs with
    | '"' :: cs => (readString cs).map fun (s, rest) => (.string s, rest)
    | '[' :: cs =>
      match skipBlank cs with
      | ']' :: rest => some (.array [], rest)
      | cs => (readElements fuel cs).map fun (elements, rest) => (.array elements, rest)
    | '\x7b' :: cs =>
      match skipBlank cs with
      | '\x7d' :: rest => some (.object [], rest)
      | cs => (readMembers fuel cs).map fun (members, rest) => (.object members, rest)
    | 'n' :: 'u' :: 'l' :: 'l' :: rest => some (.null, rest)
    | 't' :: 'r' :: 'u' :: 'e' :: rest => some (.bool true, rest)
    | 'f' :: 'a' :: 'l' :: 's' :: 'e' :: rest => some (.bool false, rest)
    | cs => readNumber cs

def readElements : (fuel : Nat) → List Char → Option (List Json × List Char)
  | 0, _ => none
  | fuel + 1, cs => do
    let (element, rest) ← readValue fuel cs
    match skipBlank rest with
    | ',' :: rest =>
      let (elements, rest) ← readElements fuel rest
      return (element :: elements, rest)
    | ']' :: rest => return ([element], rest)
    | _ => none

def readMembers : (fuel : Nat) → List Char → Option (List (Option String × Json) × List Char)
  | 0, _ => none
  | fuel + 1, cs =>
    match skipBlank cs with
    | '"' :: cs => do
      let (name, rest) ← readString cs
      match skipBlank rest with
      | ':' :: rest =>
        let (value, rest) ← readValue fuel rest
        match skipBlank rest with
        | ',' :: rest =>
          let (members, rest) ← readMembers fuel rest
          return ((name, value) :: members, rest)
        | '\x7d' :: rest => return ([(name, value)], rest)
        | _ => none
      | _ => none
    | _ => none

end

def parse (text : String) : Option Json :=
  match readValue (text.toList.length + 1) text.toList with
  | some (value, rest) => if skipBlank rest = [] then some value else none
  | none => none

end MultimediaMessaging.Json
