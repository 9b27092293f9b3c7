import Mathlib.Data.List.DropRight
import MultimediaMessaging.Json.Printer
import MultimediaMessaging.Json.Reader
import MultimediaMessaging.Proofs.Text.Digits

/-!
JSON read back from what is written: every string from its escaped form, every number from its
digits, and an object from lines with one member each.
-/

set_option autoImplicit false

namespace MultimediaMessaging.Json

open Text

section Strings

variable {rest : List Char}

theorem ofHexDigits_padded (k n : Nat) :
    ofHexDigits (List.replicate k '0' ++ hexDigits n) = some n := by
  induction k with
  | zero => exact ofHexDigits_hexDigits n
  | succ k ih => exact ih

theorem readEscape_code {code : List Char} {n : Nat} (hlength : code.length = 4)
    (hcode : ofHexDigits code = some n) :
    readEscape ('u' :: (code ++ rest)) = some (pieceOfCode n, rest) := by
  match code, hlength with
  | [a, b, c, d], _ => simp [readEscape, hcode]

theorem readEscape_control {c : Char} {k : Nat} (hc : c.toNat < 0x20)
    (hlength : k + (hexDigits c.toNat).length = 4) (rest : List Char) :
    readEscape ('u' :: (List.replicate k '0' ++ hexDigits c.toNat ++ rest)) =
      some (.char c, rest) := by
  rw [readEscape_code (by simpa using hlength) (ofHexDigits_padded k c.toNat), pieceOfCode,
    if_neg (by omega), Char.ofNat_toNat]

theorem readPieces_escape {cs : List Char} {piece : Piece}
    (h : readEscape cs = some (piece, rest)) :
    readPieces ('\\' :: cs) =
      (readPieces rest).map fun (pieces, rest) => (piece :: pieces, rest) := by
  rw [readPieces, if_neg (by decide), if_pos rfl]
  split
  · rename_i hnone
    rw [h] at hnone
    cases hnone
  · rename_i hsome
    rw [h] at hsome
    cases hsome
    rfl

theorem readPieces_plain {c : Char} (hquote : c ≠ '"') (hslash : c ≠ '\\') (hc : 0x20 ≤ c.toNat) :
    readPieces (c :: rest) =
      (readPieces rest).map fun (pieces, rest) => (.char c :: pieces, rest) := by
  rw [readPieces, if_neg hquote, if_neg hslash, if_neg (by omega)]

theorem escapeChar_cases (c : Char) :
    (∃ escape, escapeChar c = '\\' :: escape ∧
        ∀ rest, readEscape (escape ++ rest) = some (.char c, rest)) ∨
      (escapeChar c = [c] ∧ c ≠ '"' ∧ c ≠ '\\' ∧ 0x20 ≤ c.toNat) := by
  by_cases hnamed : c ∈ ['"', '\\', '\x08', '\x0c', '\n', '\r', '\t']
  · left
    simp only [List.mem_cons, List.not_mem_nil, or_false] at hnamed
    rcases hnamed with rfl | rfl | rfl | rfl | rfl | rfl | rfl <;>
      exact ⟨_, rfl, fun _ => rfl⟩
  · simp only [List.mem_cons, List.not_mem_nil, or_false, not_or] at hnamed
    simp only [escapeChar, hnamed, if_false]
    split
    · refine .inl ⟨_, rfl, readEscape_control (k := 3) (by omega) ?_⟩
      have hlength := (length_hexDigits_le_iff (n := c.toNat) (k := 1) (by decide)).2 (by omega)
      have hpos : 0 < (hexDigits c.toNat).length := Nat.length_toDigits_pos
      omega
    split
    · refine .inl ⟨_, rfl, readEscape_control (k := 2) (by omega) ?_⟩
      have hle := (length_hexDigits_le_iff (n := c.toNat) (k := 2) (by decide)).2 (by omega)
      have hlt : ¬(hexDigits c.toNat).length ≤ 1 :=
        mt (length_hexDigits_le_iff (by decide)).1 (by omega)
      omega
    · exact .inr ⟨rfl, hnamed.1, hnamed.2.1, by omega⟩

theorem readPieces_escapeChar (c : Char) (rest : List Char) :
    readPieces (escapeChar c ++ rest) =
      (readPieces rest).map fun (pieces, rest) => (.char c :: pieces, rest) := by
  rcases escapeChar_cases c with ⟨escape, hescape, hread⟩ | ⟨hplain, hquote, hslash, hc⟩
  · rw [hescape, List.cons_append, readPieces_escape (hread rest)]
  · rw [hplain, List.singleton_append, readPieces_plain hquote hslash hc]

theorem readPieces_escaped (s rest : List Char) :
    readPieces (s.flatMap escapeChar ++ '"' :: rest) = some (s.map .char, rest) := by
  induction s with
  | nil => rw [List.flatMap_nil, List.nil_append, readPieces, if_pos rfl]; rfl
  | cons c s ih =>
    rw [List.flatMap_cons, List.append_assoc, readPieces_escapeChar, ih]
    rfl

theorem joinPieces_chars (s : List Char) : joinPieces (s.map .char) = some s := by
  induction s with
  | nil => rfl
  | cons c s ih => simp [joinPieces, ih]

/-- A string is read back from its escaped form, whatever its characters. -/
theorem readString_escaped (s : String) (rest : List Char) :
    readString (s.toList.flatMap escapeChar ++ '"' :: rest) = some (some s, rest) := by
  simp [readString, readPieces_escaped, joinPieces_chars]

end Strings

section Values

/-- What comes behind a value on its line: a comma, or the end of the line. -/
inductive Delimited : List Char → Prop
  | comma (cs : List Char) : Delimited (',' :: cs)
  | lineEnd (cs : List Char) : Delimited ('\n' :: cs)

/-- A value is read from its text, however much fuel there is. -/
def Reads (text : List Char) (value : Json) : Prop :=
  ∀ fuel rest, Delimited rest → readValue (fuel + 1) (text ++ rest) = some (value, rest)

variable {n : Nat} {text rest : List Char} {value : Json}

theorem readInteger_digits (hrest : ∀ c ∈ rest.head?, c.isDigit = false) :
    readInteger (digits n ++ rest) = some (digits n, rest) := by
  obtain ⟨htake, hdrop⟩ := takeWhile_run (fun c hc => isDigit_of_mem_digits (n := n) hc) hrest
  rw [readInteger, takeDigits, htake, hdrop]
  split
  · rename_i hnil
    exact absurd (Prod.mk.inj hnil).1 (digits_ne_nil n)
  · rename_i hzero
    rcases head?_digits_cases n with hhead | hhead
    · exact absurd (by rw [(Prod.mk.inj hzero).1]; rfl) hhead
    · simp [hhead] at hzero
  · rfl

theorem exists_digits_cons (n : Nat) : ∃ d ds, digits n = d :: ds ∧ d.isDigit = true := by
  obtain ⟨d, ds, hds⟩ := List.exists_cons_of_ne_nil (digits_ne_nil n)
  exact ⟨d, ds, hds, isDigit_of_mem_digits (n := n) (by rw [hds]; exact List.mem_cons_self)⟩

theorem readNumber_digits (hrest : Delimited rest) :
    readNumber (digits n ++ rest) = some (.number (digits n), rest) := by
  have hminus : readMinus (digits n ++ rest) = ([], digits n ++ rest) := by
    obtain ⟨d, ds, hds, hd⟩ := exists_digits_cons n
    rw [hds, List.cons_append]
    unfold readMinus
    split
    · rename_i h
      cases h
      cases hd
    · rfl
  have hinteger : readInteger (digits n ++ rest) = some (digits n, rest) :=
    readInteger_digits fun c hc => by cases hrest <;> cases hc <;> rfl
  have hfraction : readFraction rest = some ([], rest) := by cases hrest <;> rfl
  have hexponent : readExponent rest = some ([], rest) := by cases hrest <;> rfl
  simp [readNumber, hminus, hinteger, hfraction, hexponent]

theorem isBlank_of_isDigit {c : Char} (hc : c.isDigit = true) : isBlank c = false := by
  simp only [isBlank, Bool.or_eq_false_iff, beq_eq_false_iff_ne]
  refine ⟨⟨⟨?_, ?_⟩, ?_⟩, ?_⟩ <;>
    (rintro rfl; cases hc)

theorem reads_digits (n : Nat) : Reads (digits n) (.number (digits n)) := by
  intro fuel rest hrest
  have hnumber := readNumber_digits (n := n) hrest
  obtain ⟨d, ds, hds, hd⟩ := exists_digits_cons n
  rw [hds, List.cons_append] at hnumber ⊢
  generalize ds ++ rest = more at hnumber ⊢
  have hblank : skipBlank (d :: more) = d :: more :=
    List.dropWhile_cons_of_neg (by simp [isBlank_of_isDigit hd])
  rw [readValue, hblank]
  -- every other kind of value begins with a character that is no digit
  split
  case h_7 => exact hnumber
  all_goals
    rename_i h
    cases h
    cases hd

theorem reads_stringText (s : String) : Reads (stringText s).toList (.string (some s)) := by
  intro fuel rest _
  have hread : readValue (fuel + 1) ('"' :: (s.toList.flatMap escapeChar ++ '"' :: rest)) =
      (readString (s.toList.flatMap escapeChar ++ '"' :: rest)).map fun read =>
        (.string read.1, read.2) := rfl
  simp [stringText, hread, readString_escaped]

theorem Reads.blank (h : Reads text value) : Reads (' ' :: text) value :=
  fun fuel rest hrest => h fuel rest hrest

end Values

section Members

def memberLine (name : String) (text : List Char) : List Char :=
  ' ' :: ' ' :: '"' :: (name.toList ++ '"' :: ':' :: ' ' :: text)

variable {name : String} {text : List Char} {value : Json}

theorem skipBlank_memberLine (name : String) (text rest : List Char) :
    skipBlank (memberLine name text ++ rest) =
      '"' :: (name.toList ++ '"' :: ':' :: ' ' :: (text ++ rest)) := by
  simp [memberLine, skipBlank, isBlank]

theorem skipBlank_colon (cs : List Char) : skipBlank (':' :: cs) = ':' :: cs := rfl

theorem readString_name (hname : name.toList.flatMap escapeChar = name.toList)
    (rest : List Char) : readString (name.toList ++ '"' :: rest) = some (some name, rest) := by
  have hread := readString_escaped name rest
  rwa [hname] at hread

theorem readMembers_comma (hname : name.toList.flatMap escapeChar = name.toList)
    (hvalue : Reads text value) (fuel : Nat) (cs : List Char) :
    readMembers (fuel + 2) (memberLine name text ++ ',' :: cs) =
      (readMembers (fuel + 1) cs).map fun read => ((some name, value) :: read.1, read.2) := by
  have hblank : readValue (fuel + 1) (' ' :: (text ++ ',' :: cs)) = some (value, ',' :: cs) :=
    hvalue.blank fuel _ (.comma cs)
  rw [readMembers, skipBlank_memberLine, Option.map_eq_bind]
  simp only [readString_name hname, skipBlank_colon, hblank, Option.bind_eq_bind,
    Option.bind_some]
  rfl

theorem readMembers_close (hname : name.toList.flatMap escapeChar = name.toList)
    (hvalue : Reads text value) (fuel : Nat) (rest : List Char) :
    readMembers (fuel + 2) (memberLine name text ++ '\n' :: '\x7d' :: rest) =
      some ([(some name, value)], rest) := by
  have hblank : readValue (fuel + 1) (' ' :: (text ++ '\n' :: '\x7d' :: rest)) =
      some (value, '\n' :: '\x7d' :: rest) := hvalue.blank fuel _ (.lineEnd _)
  rw [readMembers, skipBlank_memberLine]
  simp only [readString_name hname, skipBlank_colon, hblank, Option.bind_eq_bind,
    Option.bind_some]
  rfl

theorem readMembers_skipBlank (fuel : Nat) (cs : List Char) :
    readMembers fuel (skipBlank cs) = readMembers fuel cs := by
  cases fuel with
  | zero => rfl
  | succ fuel => rw [readMembers, readMembers, skipBlank, skipBlank, List.dropWhile_idempotent]

theorem readMembers_lineEnd (fuel : Nat) (cs : List Char) :
    readMembers fuel ('\n' :: cs) = readMembers fuel cs := by
  rw [← readMembers_skipBlank, ← readMembers_skipBlank fuel cs]
  rfl

theorem readValue_object {fuel : Nat} {cs rest : List Char} {members : List (Option String × Json)}
    (h : readMembers fuel cs = some (members, rest)) :
    readValue (fuel + 1) ('\x7b' :: cs) = some (.object members, rest) := by
  have hbrace : skipBlank ('\x7b' :: cs) = '\x7b' :: cs := rfl
  rw [← readMembers_skipBlank] at h
  rw [readValue, hbrace]
  simp only
  split
  -- an object that ends here would have no member to read
  · rename_i hclosed
    rw [hclosed] at h
    cases fuel <;> cases h
  · rw [h]
    rfl

section Lines

variable {α : Type} {name : α → String} {text : α → List Char} {value : α → Json}

def memberLines (name : α → String) (text : α → List Char) (ks : List α) : List Char :=
  [',', '\n'].intercalate (ks.map fun k => memberLine (name k) (text k))

theorem memberLines_cons_cons (k k' : α) (ks : List α) :
    memberLines name text (k :: k' :: ks) =
      memberLine (name k) (text k) ++ ',' :: '\n' :: memberLines name text (k' :: ks) := by
  simp [memberLines, List.intercalate_cons_cons]

theorem length_le_memberLines (name : α → String) (text : α → List Char) (ks : List α) :
    ks.length ≤ (memberLines name text ks).length := by
  induction ks with
  | nil => exact Nat.zero_le _
  | cons k ks ih =>
    cases ks with
    | nil => simp [memberLines, memberLine]
    | cons k' ks =>
      rw [memberLines_cons_cons]
      simp at ih ⊢
      omega

theorem readMembers_memberLines
    (hname : ∀ k, (name k).toList.flatMap escapeChar = (name k).toList)
    (hvalue : ∀ k, Reads (text k) (value k)) {ks : List α} (hks : ks ≠ []) (fuel : Nat)
    (hfuel : ks.length < fuel) (rest : List Char) :
    readMembers fuel (memberLines name text ks ++ '\n' :: '\x7d' :: rest) =
      some (ks.map fun k => (some (name k), value k), rest) := by
  induction ks generalizing fuel with
  | nil => exact absurd rfl hks
  | cons k ks ih =>
    -- one for the member, one for its value
    obtain ⟨fuel, rfl⟩ : ∃ n, fuel = n + 2 := ⟨fuel - 2, by simp at hfuel; omega⟩
    cases ks with
    | nil =>
      rw [memberLines, List.map_singleton, List.intercalate_singleton]
      exact readMembers_close (hname k) (hvalue k) fuel rest
    | cons k' ks =>
      have hmore := ih (List.cons_ne_nil k' ks) (fuel + 1) (by simp at hfuel ⊢; omega)
      rw [← readMembers_lineEnd] at hmore
      rw [memberLines_cons_cons, List.append_assoc, List.cons_append, List.cons_append,
        readMembers_comma (hname k) (hvalue k), hmore]
      rfl

theorem parse_memberLines
    (hname : ∀ k, (name k).toList.flatMap escapeChar = (name k).toList)
    (hvalue : ∀ k, Reads (text k) (value k)) {ks : List α} (hks : ks ≠ []) {document : String}
    (hdocument : document.toList =
      '\x7b' :: '\n' :: (memberLines name text ks ++ ['\n', '\x7d'])) :
    parse document = some (.object (ks.map fun k => (some (name k), value k))) := by
  have hlength := length_le_memberLines name text ks
  have hmembers := readMembers_memberLines hname hvalue hks document.toList.length
    (by rw [hdocument]; simp; omega) []
  rw [← readMembers_lineEnd] at hmembers
  have hobject := readValue_object hmembers
  rw [← hdocument] at hobject
  rw [parse, hobject]
  rfl

end Lines

end Members

end MultimediaMessaging.Json
