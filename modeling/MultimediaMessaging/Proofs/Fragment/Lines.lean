import MultimediaMessaging.Fragment.Encoder
import MultimediaMessaging.Proofs.Text.Trim

/-!
Header lines read back. A printed line is taken off the front of a datagram whole, and what is read
is its value less the blanks around it, whatever bytes come after the line.
-/

set_option autoImplicit false

namespace MultimediaMessaging

namespace Text

/-- An ASCII byte stands in the UTF-8 form of no character but its own. -/
theorem toNat_eq_of_mem_utf8EncodeChar {b : UInt8} {c : Char} (hb : b < 0x80)
    (h : b ∈ String.utf8EncodeChar c) : c.toNat = b.toNat := by
  have hb : b.toNat < 128 := hb
  -- the longer forms are made of bytes from 128 on only
  have high : ∀ n, 128 ≤ n → n < 256 → b ≠ UInt8.ofNat n := by
    rintro n hn hlt rfl
    simp only [UInt8.toNat_ofNat'] at hb
    omega
  simp only [String.utf8EncodeChar] at h
  by_cases h1 : c.val.toNat ≤ 127
  · simp only [h1, if_true, List.mem_singleton] at h
    simp only [h, UInt8.toNat_ofNat']
    change c.val.toNat = _
    omega
  · exfalso
    simp only [h1, if_false] at h
    by_cases h2 : c.val.toNat ≤ 2047
    · simp only [h2, if_true, List.mem_cons, List.not_mem_nil, or_false] at h
      rcases h with h | h <;> exact high _ (by omega) (by omega) h
    · by_cases h3 : c.val.toNat ≤ 65535
      · simp only [h2, h3, if_true, if_false, List.mem_cons, List.not_mem_nil, or_false] at h
        rcases h with h | h | h <;> exact high _ (by omega) (by omega) h
      · simp only [h2, h3, if_false, List.mem_cons, List.not_mem_nil, or_false] at h
        rcases h with h | h | h | h <;> exact high _ (by omega) (by omega) h

theorem mem_of_mem_encodeChars {b : UInt8} {cs : List Char} (hb : b < 0x80)
    (h : b ∈ encodeChars cs) : Char.ofNat b.toNat ∈ cs := by
  obtain ⟨c, hc, hm⟩ := List.mem_flatMap.1 h
  rw [← toNat_eq_of_mem_utf8EncodeChar hb hm, Char.ofNat_toNat]
  exact hc

end Text

namespace Header

open Text

@[simp] theorem parseFrom_marker (h : Header) (body : Bytes) :
    parseFrom h (marker ++ body) = .ok (h, body) := by
  rw [parseFrom, after?_append]

theorem parseFrom_line {h : Header} {line rest : Bytes} (hl : lineFeed ∉ line)
    (hm : after? marker (line ++ lineFeed :: rest) = none) :
    parseFrom h (line ++ lineFeed :: rest) =
      (h.applyLine line).bind fun h => parseFrom h rest := by
  have hne : ∀ b ∈ line, (b != lineFeed) = true := fun b hb => by
    rw [bne_iff_ne]
    rintro rfl
    exact hl hb
  have hd : (line ++ lineFeed :: rest).dropWhile (· != lineFeed) = lineFeed :: rest := by
    rw [List.dropWhile_append_of_pos hne]
    simp
  have ht : (line ++ lineFeed :: rest).takeWhile (· != lineFeed) = line := by
    rw [List.takeWhile_append_of_pos hne]
    simp
  rw [parseFrom, hm]
  dsimp only
  split
  · rename_i hn
    rw [hd] at hn
    cases hn
  · rename_i hn
    rw [hd] at hn
    cases hn
    rw [ht]
    cases h.applyLine line <;> rfl

theorem parseFrom_of_lineFeed_notMem {h : Header} {bytes : Bytes} (hl : lineFeed ∉ bytes)
    (hm : after? marker bytes = none) : parseFrom h bytes = .error .missingBufferMarker := by
  have hne : ∀ b ∈ bytes, (b != lineFeed) = true := fun b hb => by
    rw [bne_iff_ne]
    rintro rfl
    exact hl hb
  have hd : bytes.dropWhile (· != lineFeed) = [] := by
    rw [← List.append_nil bytes, List.dropWhile_append_of_pos hne, List.dropWhile_nil]
  rw [parseFrom, hm]
  dsimp only
  split
  · rfl
  · rename_i hn
    rw [hd] at hn
    cases hn

/-- Of a header cut short nothing is read, or all that was in it. -/
theorem parseFrom_take {h h' : Header} {bytes body : Bytes}
    (hp : parseFrom h bytes = .ok (h', body)) (k : Nat) :
    (∃ err, parseFrom h (bytes.take k) = .error err) ∨
      ∃ rest, parseFrom h (bytes.take k) = .ok (h', rest) := by
  induction hn : bytes.length using Nat.strongRecOn generalizing h bytes k with
  | ind n ih =>
    cases hm : after? marker bytes with
    | some rest =>
      rw [after?_eq_some_iff] at hm
      rw [hm, parseFrom_marker] at hp
      cases hp
      cases hk : after? marker (bytes.take k) with
      | some cut =>
        rw [after?_eq_some_iff] at hk
        exact .inr ⟨cut, by rw [hk, parseFrom_marker]⟩
      | none =>
        -- the cut goes through the marker, so no line ends before it
        refine .inl ⟨_, parseFrom_of_lineFeed_notMem ?_ hk⟩
        have hshort : k ≤ marker.length := by
          refine Nat.le_of_not_lt fun hlt => ?_
          rw [hm, List.take_append, List.take_of_length_le (by omega), after?_append] at hk
          cases hk
        rw [hm, List.take_append_of_le_length hshort]
        exact fun hmem => absurd (List.mem_of_mem_take hmem) (by decide)
    | none =>
      have hcut : after? marker (bytes.take k) = none := by
        cases hk : after? marker (bytes.take k) with
        | none => rfl
        | some cut =>
          rw [after?_eq_some_iff] at hk
          rw [← List.take_append_drop k bytes, hk, List.append_assoc, after?_append] at hm
          cases hm
      by_cases hl : lineFeed ∈ bytes
      · obtain ⟨line, rest, rfl, hline⟩ := List.eq_append_cons_of_mem hl
        rw [parseFrom_line hline hm] at hp
        rcases Nat.lt_or_ge line.length k with hlt | hge
        · obtain ⟨j, rfl⟩ : ∃ j, k = line.length + (j + 1) := ⟨k - line.length - 1, by omega⟩
          rw [List.take_append, List.take_of_length_le (by omega), Nat.add_sub_cancel_left,
            List.take_succ_cons] at hcut ⊢
          rw [parseFrom_line hline hcut]
          cases ha : h.applyLine line with
          | error err => simp [ha, Except.bind] at hp
          | ok h1 =>
            simp only [ha, Except.bind] at hp ⊢
            refine ih rest.length ?_ hp j rfl
            rw [← hn, List.length_append, List.length_cons]
            omega
        · rw [List.take_append_of_le_length hge] at hcut ⊢
          exact .inl ⟨_, parseFrom_of_lineFeed_notMem
            (fun hmem => hline (List.mem_of_mem_take hmem)) hcut⟩
      · rw [parseFrom_of_lineFeed_notMem hl hm] at hp
        cases hp
theorem after?_marker_eq_none {c : Char} (hc : c ≠ 'B') (cs : List Char) (rest : Bytes) :
    after? marker (encodeChars (c :: cs) ++ rest) = none := by
  have hm : marker = 66 :: marker.drop 1 := by decide
  have hne : (String.utf8EncodeChar c) ≠ [] := String.utf8EncodeChar_ne_nil
  obtain ⟨b, bs, hb⟩ := List.exists_cons_of_ne_nil hne
  have hb66 : b ≠ 66 := by
    rintro rfl
    have h := toNat_eq_of_mem_utf8EncodeChar (b := 66) (by decide) (hb ▸ List.mem_cons_self)
    exact hc (Char.toNat_inj.1 h)
  rw [hm, encodeChars, List.flatMap_cons, hb]
  simp [after?, Ne.symm hb66]

theorem applyLine_encodeChars (h : Header) (cs : List Char) :
    h.applyLine (encodeChars cs) = h.setField (dropReturn cs) := by
  have hd : decode (encodeChars cs) = some (String.ofList cs) := by
    rw [decode_eq_some_iff, encode, String.toList_ofList]
  rw [applyLine, hd]
  simp

theorem trim_dropReturn (cs : List Char) : trim (dropReturn cs) = trim cs := by
  unfold dropReturn
  split
  · rename_i h
    obtain ⟨before, rfl⟩ := List.getLast?_eq_some_iff.1 h
    rw [List.dropLast_concat, trim_append_blank before (by decide)]
  · rfl

theorem dropReturn_append_cons {c : Char} (hc : c ≠ '\r') (before value : List Char) :
    dropReturn (before ++ c :: value) = before ++ c :: dropReturn value := by
  cases value with
  | nil => simp [dropReturn, hc]
  | cons d value =>
    have hl : (before ++ c :: d :: value).getLast? = (d :: value).getLast? := by
      rw [List.getLast?_append, List.getLast?_cons_cons, List.getLast?_cons]
      rfl
    have hi : (before ++ c :: d :: value).dropLast = before ++ c :: (d :: value).dropLast := by
      simp [List.dropLast_append_of_ne_nil]
    simp only [dropReturn, hl, hi]
    split <;> rfl

theorem setField_of_name {h : Header} {name value : List Char} (hn : ':' ∉ name) :
    h.setField (name ++ ':' :: value) =
      match HeaderKey.ofChars? name with
      | some key => h.set key (trim value)
      | none => .ok h := by
  have hne : ∀ c ∈ name, (c != ':') = true := fun c hc => by
    rw [bne_iff_ne]
    rintro rfl
    exact hn hc
  rw [setField, List.dropWhile_append_of_pos hne, List.takeWhile_append_of_pos hne]
  simp only [bne_self_eq_false, Bool.false_eq_true, not_false_eq_true, List.dropWhile_cons_of_neg,
    List.takeWhile_cons_of_neg, List.append_nil]
  cases HeaderKey.ofChars? name <;> rfl

/-- A name that a line can begin with: it ends at the first colon, and no marker begins like it. -/
structure IsLineName (name : List Char) : Prop where
  head : ∃ c cs, name = c :: cs ∧ c ≠ 'B'
  colon : ':' ∉ name
  lineEnd : '\n' ∉ name

theorem isLineName_key (key : HeaderKey) : IsLineName key.name.toList := by
  cases key <;> exact ⟨⟨_, _, rfl, by decide⟩, by decide, by decide⟩

theorem isLineName_contentType : IsLineName "Content-Type".toList :=
  ⟨⟨_, _, rfl, by decide⟩, by decide, by decide⟩

theorem toList_headerLine (name value : String) :
    (Encoder.headerLine name value).toList =
      name.toList ++ ':' :: ' ' :: value.toList ++ ['\n'] := by
  change (name ++ ": " ++ value ++ "\n").toList = _
  simp

theorem parseFrom_headerLine {h : Header} {name value : String} {rest : Bytes}
    (hn : IsLineName name.toList) (hv : '\n' ∉ value.toList) :
    parseFrom h (encode (Encoder.headerLine name value) ++ rest) =
      (match HeaderKey.ofChars? name.toList with
        | some key => h.set key (trim value.toList)
        | none => .ok h).bind fun h => parseFrom h rest := by
  have hbytes : encode (Encoder.headerLine name value) =
      encodeChars (name.toList ++ ':' :: ' ' :: value.toList) ++ [lineFeed] := by
    rw [encode, toList_headerLine, encodeChars_append]
    rfl
  have hl : lineFeed ∉ encodeChars (name.toList ++ ':' :: ' ' :: value.toList) := fun hm => by
    have hmem := mem_of_mem_encodeChars (b := 10) (by decide) hm
    simp [hv, hn.lineEnd] at hmem
  have hm : after? marker (encodeChars (name.toList ++ ':' :: ' ' :: value.toList) ++
      lineFeed :: rest) = none := by
    obtain ⟨c, cs, hname, hc⟩ := hn.head
    rw [hname]
    exact after?_marker_eq_none hc _ _
  rw [hbytes, List.append_assoc, List.singleton_append, parseFrom_line hl hm,
    applyLine_encodeChars, dropReturn_append_cons (by decide), setField_of_name hn.colon,
    trim_dropReturn, trim_cons_blank (by decide)]

/-- The line of a key is taken in as that key's value. -/
theorem parseFrom_keyLine {h : Header} {key : HeaderKey} {value : String} {rest : Bytes}
    (hv : '\n' ∉ value.toList) :
    parseFrom h (encode (Encoder.headerLine key.name value) ++ rest) =
      (h.set key (trim value.toList)).bind fun h => parseFrom h rest := by
  rw [parseFrom_headerLine (isLineName_key key) hv,
    HeaderKey.ofChars?_eq_some_iff.2 rfl]

theorem readValue_digits {key : HeaderKey} {limit n : Nat} (hn : n ≤ limit) :
    readValue key limit (trim (toString n).toList) = .ok n := by
  have ht : (toString n).toList = digits n := by simp [digits]
  rw [ht, trim_digits, readValue, readNumber_digits hn]

theorem lineEnd_notMem_toString (n : Nat) : '\n' ∉ (toString n).toList := by
  intro h
  have ht : (toString n).toList = digits n := by simp [digits]
  exact absurd (isDigit_of_mem_digits (ht ▸ h)) (by decide)

end Header

end MultimediaMessaging
