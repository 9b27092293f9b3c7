import Mathlib.Data.List.DropRight
import MultimediaMessaging.Proofs.Fragment.Grammar
import MultimediaMessaging.Proofs.Fragment.Repetition

/-!
Acknowledgements as their reader takes them. Main statement: a cookie is read from exactly those
datagrams that are made of the opening, the cookie and line ends, and a decoder never asks for an
acknowledgement whose cookie would not be read back.
-/

set_option autoImplicit false

namespace MultimediaMessaging

open Text

namespace Acknowledgement

structure IsCookie (cookie : String) : Prop where
  nonempty : cookie ≠ ""
  lineFeed : '\n' ∉ cookie.toList
  last : cookie.toList.getLast? ≠ some '\r'

def Written (datagram : Bytes) (cookie : String) : Prop :=
  ∃ ends : List Char, (∀ c ∈ ends, c = '\r' ∨ c = '\n') ∧
    datagram = opening ++ encode cookie ++ encodeChars ends

variable {datagram : Bytes} {cookie : String} {cs kept ends : List Char}

theorem isLineEnd_iff {c : Char} : isLineEnd c = true ↔ c = '\r' ∨ c = '\n' := by
  simp [isLineEnd]

theorem dropLineEnds_append (hends : ∀ c ∈ ends, isLineEnd c = true)
    (hkept : ∀ c ∈ kept.getLast?, isLineEnd c = false) : dropLineEnds (kept ++ ends) = kept := by
  have hdropped : (kept ++ ends).reverse.dropWhile isLineEnd =
      kept.reverse.dropWhile isLineEnd := by
    rw [List.reverse_append]
    exact List.dropWhile_append_of_pos fun c hc => hends c (List.mem_reverse.1 hc)
  have hself : kept.rdropWhile isLineEnd = kept := by
    refine List.rdropWhile_eq_self_iff.2 fun hne => ?_
    rw [hkept _ (List.getLast?_eq_some_getLast hne)]
    exact Bool.false_ne_true
  rw [dropLineEnds, hdropped]
  exact hself

theorem exists_lineEnds (cs : List Char) :
    ∃ ends, (∀ c ∈ ends, isLineEnd c = true) ∧ cs = dropLineEnds cs ++ ends :=
  ⟨cs.rtakeWhile isLineEnd, fun _ => List.mem_rtakeWhile_imp,
    (List.rdropWhile_append_rtakeWhile (p := isLineEnd)).symm⟩

theorem getLast?_dropLineEnds (cs : List Char) :
    ∀ c ∈ (dropLineEnds cs).getLast?, isLineEnd c = false := by
  intro c hc
  obtain ⟨hne, rfl⟩ := List.mem_getLast?_eq_getLast hc
  exact Bool.eq_false_iff.2 (List.rdropWhile_last_not isLineEnd cs hne)

theorem read_opening (cs : List Char) :
    read (opening ++ encodeChars cs) =
      if dropLineEnds cs = [] ∨ '\n' ∈ dropLineEnds cs then none
      else some (String.ofList (dropLineEnds cs)) := by
  have htext : decode (encodeChars cs) = some (String.ofList cs) := by
    rw [decode_eq_some_iff, encode, String.toList_ofList]
  simp only [read, after?_append, Option.bind_eq_bind, Option.bind_some, htext,
    String.toList_ofList]

theorem exists_text_of_read (hr : read datagram = some cookie) :
    ∃ cs, datagram = opening ++ encodeChars cs := by
  simp only [read, Option.bind_eq_bind, Option.bind_eq_some_iff] at hr
  obtain ⟨rest, hrest, text, htext, -⟩ := hr
  exact ⟨text.toList, by rw [after?_eq_some_iff.1 hrest, eq_encode_of_decode htext, encode]⟩

theorem read_eq_some_iff :
    read datagram = some cookie ↔ IsCookie cookie ∧ Written datagram cookie := by
  constructor
  · intro hr
    obtain ⟨cs, rfl⟩ := exists_text_of_read hr
    rw [read_opening] at hr
    split at hr
    · cases hr
    rename_i hkept
    obtain ⟨hne, hlineFeed⟩ := not_or.1 hkept
    obtain rfl := Option.some.inj hr
    obtain ⟨ends, hends, hcs⟩ := exists_lineEnds cs
    refine ⟨⟨by simpa using hne, by simpa using hlineFeed, fun hlast => ?_⟩,
      ends, fun c hc => isLineEnd_iff.1 (hends c hc), ?_⟩
    · rw [String.toList_ofList] at hlast
      exact absurd (getLast?_dropLineEnds cs _ hlast) (by decide)
    · rw [encode, String.toList_ofList, List.append_assoc, ← encodeChars_append, ← hcs]
  · rintro ⟨hcookie, ends, hends, rfl⟩
    have hkept : dropLineEnds (cookie.toList ++ ends) = cookie.toList := by
      refine dropLineEnds_append (fun c hc => isLineEnd_iff.2 (hends c hc)) fun c hc => ?_
      refine Bool.eq_false_iff.2 fun hend => ?_
      rcases isLineEnd_iff.1 hend with rfl | rfl
      · exact hcookie.last hc
      · exact hcookie.lineFeed (List.mem_of_mem_getLast? hc)
    rw [List.append_assoc, encode, ← encodeChars_append, read_opening, hkept,
      if_neg (not_or.2 ⟨by simpa using hcookie.nonempty, hcookie.lineFeed⟩), String.ofList_toList]

/-- What is written for a cookie is read as that cookie, or is not read at all. -/
theorem read_write_iff : read (write cookie) = some cookie ↔ IsCookie cookie :=
  read_eq_some_iff.trans (and_iff_left ⟨['\n'], by simp, rfl⟩)

theorem isCookie_of_isToken (h : IsToken cookie) : IsCookie cookie where
  nonempty := h.nonempty
  lineFeed := h.lineEnd
  last hlast := absurd (h.last _ hlast) (by decide)

end Acknowledgement

namespace Header

open Acknowledgement

variable {h h' : Header} {key : HeaderKey} {value : List Char} {line body datagram : Bytes}
  {lines : List Bytes}

/-- A line sets the cookie to what its value says, if anything, or leaves it as it was. -/
theorem ackCookie_of_sets {text : List Char} (hs : Sets h text key h') :
    h'.ackCookie = h.ackCookie ∨ text ≠ [] ∧ h'.ackCookie = some (String.ofList text) := by
  cases hs with
  | cookie filled => exact .inr ⟨filled, rfl⟩
  | _ => exact .inl rfl

/-- The text of a line has no line end in it. -/
theorem lineEnd_notMem_of_reads {text : List Char} (hl : lineFeed ∉ line) (hr : Reads line text) :
    '\n' ∉ text := by
  obtain ⟨whole, rfl, hwhole⟩ := hr
  intro hmem
  have hsubset : '\n' ∈ whole := by
    rcases hwhole with rfl | ⟨rfl, -⟩
    · exact List.mem_append_left _ hmem
    · exact hmem
  exact hl (List.mem_flatMap.2 ⟨'\n', hsubset, by decide⟩)

theorem isToken_of_applies (ha : Applies h line h') (hl : lineFeed ∉ line)
    (hh : ∀ cookie ∈ h.ackCookie, IsToken cookie) : ∀ cookie ∈ h'.ackCookie, IsToken cookie := by
  cases ha with
  | plain reads colon => exact hh
  | unknown reads colon unknown => exact hh
  | @known key value text h' reads trims sets =>
    rcases ackCookie_of_sets sets with hsame | ⟨hne, hcookie⟩
    · rwa [hsame]
    · obtain rfl := trims_iff.1 trims
      have hvalue : '\n' ∉ trim value := fun hmem => lineEnd_notMem_of_reads hl reads
        (List.mem_append_right _ (List.mem_cons_of_mem _ (trim_subset _ hmem)))
      rw [hcookie]
      rintro _ ⟨⟩
      refine ⟨by simpa using hne, ?_, ?_, ?_⟩
      all_goals rw [String.toList_ofList]
      · exact hvalue
      · exact trims.first
      · exact trims.last

theorem isToken_of_appliesAll (ha : AppliesAll h lines h') (hl : ∀ line ∈ lines, IsLine line)
    (hh : ∀ cookie ∈ h.ackCookie, IsToken cookie) : ∀ cookie ∈ h'.ackCookie, IsToken cookie := by
  induction ha with
  | nil h => exact hh
  | cons head tail ih =>
    obtain ⟨hfirst, hrest⟩ := List.forall_mem_cons.1 hl
    exact ih hrest (isToken_of_applies head hfirst.lineEnd hh)

/-- A header has a cookie that acknowledgements carry, if it has any. -/
theorem isToken_of_parse (hp : parse datagram = .ok (h, body)) :
    ∀ cookie ∈ h.ackCookie, IsToken cookie := by
  obtain ⟨lines, -, hlines, happlies⟩ := parse_eq_ok_iff.1 hp
  exact isToken_of_appliesAll happlies hlines nofun

end Header

theorem Transfer.of_ackRequest {t : Transfer} {request : AckRequest}
    (hr : t.ackRequest = .ok request) :
    t.cookie = some request.cookie ∧ t.port = some request.port := by
  unfold ackRequest at hr
  split at hr
  · cases hr
  · cases hr
  · rename_i cookie port hcookie hport
    cases hr
    exact ⟨hcookie, hport⟩

namespace Decoder

open Acknowledgement

variable {d : Decoder} {datagram : Bytes} {request : AckRequest}

/-- A decoder asks for the cookie of the datagram that it answers, also when it answers a
repetition. -/
theorem isToken_of_decode_more (hd : (d.decode datagram).1 = .ok (.more request)) :
    IsToken request.cookie := by
  obtain ⟨h, body, t, hp, -, -, hrepeat, hack⟩ := of_decode_more hd
  obtain ⟨-, -, hcookie⟩ := Transfer.isRepeatedBy_iff.1 hrepeat
  refine Header.isToken_of_parse hp _ ?_
  rw [hcookie, (Transfer.of_ackRequest hack).1]
  rfl

theorem read_write_of_decode_more (hd : (d.decode datagram).1 = .ok (.more request)) :
    read (write request.cookie) = some request.cookie :=
  read_write_iff.2 (isCookie_of_isToken (isToken_of_decode_more hd))

/-- Whatever a decoder has taken before, it asks for acknowledgements that are understood; and an
acknowledgement is understood if and only if it is written as it should be. -/
theorem understood_of_decode (d : Decoder) :
    (∀ datagram request, (d.decode datagram).1 = .ok (.more request) →
      request.cookie ≠ "" ∧ read (write request.cookie) = some request.cookie) ∧
    ∀ bytes cookie, read bytes = some cookie ↔ IsCookie cookie ∧ Written bytes cookie :=
  ⟨fun _ _ hd => ⟨(isToken_of_decode_more hd).nonempty, read_write_of_decode_more hd⟩,
    fun _ _ => read_eq_some_iff⟩

def oddLetter : Outgoing := { letter with ack := some ⟨4000, "7:\r fé"⟩ }

def oddWire : Bytes := (letterEncoder.encode oddLetter 0 2).toOption.getD []

theorem printed_oddLetter : letterEncoder.Printed oddLetter 0 2 oddWire := by
  have hin : 0 * letterEncoder.fragmentSize < oddLetter.payload.length := by decide
  obtain ⟨wire, hw⟩ := Encoder.exists_encode (e := letterEncoder) (m := oddLetter) (by decide)
    (show 0 < 2 by decide) (by decide) (by decide) (by decide) (fun _ => hin)
    (fun _ => ⟨_, rfl⟩) rfl
  have hwire : oddWire = wire := by
    rw [oddWire, hw]
    rfl
  have htoken : ∀ ack ∈ oddLetter.ack, IsToken ack.cookie := by
    rintro ack ⟨⟩
    exact ⟨by decide, by decide, isBlank_eq_false_of_all (by decide),
      isBlank_eq_false_of_all (by decide)⟩
  exact Encoder.printed_of_encode ⟨by decide, htoken⟩ ⟨by decide, by decide⟩ (by decide)
    (hwire ▸ hw)

theorem readApp?_oddLetter : Encoder.readApp? oddLetter = some "chat" :=
  (Encoder.readApp?_eq_some_dest_iff (by decide)).2
    ⟨legible_letter.dest_colon, legible_letter.dest_last⟩

theorem decode_oddLetter :
    (Decoder.decode { limit := 3 } oddWire).1 = .ok (.more ⟨"7:\r fé", 4000⟩) := by
  rw [decode_first printed_oddLetter rfl (by decide) (by simp) readApp?_oddLetter (by decide)]

theorem understood_of_decode_oddLetter :
    (Decoder.decode { limit := 3 } oddWire).1 = .ok (.more ⟨"7:\r fé", 4000⟩) ∧
      read (write "7:\r fé") = some "7:\r fé" ∧
      read (opening ++ encode "7:\r fé" ++ encodeChars ['\n', '\r']) = some "7:\r fé" := by
  obtain ⟨hasked, hread⟩ := understood_of_decode { limit := 3 }
  obtain ⟨-, hunderstood⟩ := hasked _ _ decode_oddLetter
  obtain ⟨hcookie, -⟩ := (hread _ _).1 hunderstood
  exact ⟨decode_oddLetter, hunderstood,
    (hread _ _).2 ⟨hcookie, ['\n', '\r'], by simp, rfl⟩⟩

end Decoder

end MultimediaMessaging
