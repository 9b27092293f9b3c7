import MultimediaMessaging.Proofs.Fragment.Addresses
import MultimediaMessaging.Proofs.Fragment.Decoding
import MultimediaMessaging.Proofs.Fragment.Run

/-!
A message cut into datagrams and put together again. Main statement: fed in order to a new decoder,
the datagrams of all fragments give back the message, and each but the last is to be acknowledged
where the sender waits for it.
-/

set_option autoImplicit false

namespace MultimediaMessaging

open Text

namespace Encoder

/-- Addresses that come back as they were: no colon splits them in the wrong place, and neither a
line nor a blank at the end of a line is lost. What the encoder itself refuses is not repeated. -/
structure Legible (e : Encoder) (m : Outgoing) : Prop where
  dest_colon : ':' ∉ m.dest.toList
  dest_last : ∀ c ∈ m.dest.toList.getLast?, isBlank c = false
  source_last : ∀ c ∈ m.source.toList.getLast?, isBlank c = false
  phone_colon : ':' ∉ e.phone.toList
  phone_lineEnd : '\n' ∉ e.phone.toList
  phone_last : m.source = "" → ∀ c ∈ e.phone.toList.getLast?, isBlank c = false

def message (e : Encoder) (m : Outgoing) : Message :=
  ⟨"mms://" ++ e.phone, m.dest, m.source, m.timestamp, m.payload⟩

theorem readApp?_eq {e : Encoder} {m : Outgoing} (h : e.Legible m) (hne : m.dest ≠ "") :
    readApp? m = some m.dest :=
  (readApp?_eq_some_dest_iff hne).2 ⟨h.dest_colon, h.dest_last⟩

theorem readSender_eq {e : Encoder} {m : Outgoing} (h : e.Legible m)
    (hs : isLineSafe false m.source = true) :
    e.readSender m = ("mms://" ++ e.phone, m.source) := by
  rw [readSender_eq_trimmed h.phone_colon hs, trimmed_eq_self_iff.2 h.source_last]
  by_cases hsource : m.source = ""
  · rw [if_pos hsource, trimmed_eq_self_iff.2 (h.phone_last hsource)]
  · rw [if_neg hsource]

theorem readMessage_eq {e : Encoder} {m : Outgoing} (h : e.Legible m)
    (hs : isLineSafe false m.source = true) : e.readMessage m m.dest = e.message m := by
  rw [readMessage, readSender_eq h hs, message]

end Encoder

namespace Decoder

open Encoder

variable {e : Encoder} {m : Outgoing} {ack : AckEndpoint} {app : String} {wires : Nat → Bytes}
  {n limit : Nat}

/-- Before the last fragment every answer asks for the next one, and the transfer has all that came
before. -/
theorem run_fragments (hw : ∀ i < n, e.Printed m i n (wires i)) (hack : m.ack = some ack)
    (happ : readApp? m = some app) (hl : m.payload.length ≤ limit) (k : Nat) (hk : k + 1 < n) :
    Decoder.run { limit } (((List.range (k + 1)).map wires).map .decode) =
        ⟨limit, some (e.transfer m ack app n k)⟩ ∧
      Decoder.answers { limit } ((List.range (k + 1)).map wires) =
        List.replicate (k + 1) (.ok (.more ⟨ack.cookie, ack.port⟩)) := by
  induction k with
  | zero =>
    have hfirst := decode_first (d := { limit }) (hw 0 (by omega)) hack (by omega)
      (by simp) happ hl
    have hone : (List.range (0 + 1)).map wires = [wires 0] := rfl
    rw [hone]
    constructor
    · change (Decoder.decode { limit } (wires 0)).2 = _
      rw [hfirst]
    · change [(Decoder.decode { limit } (wires 0)).1] = _
      rw [hfirst]
      rfl
  | succ k ih =>
    obtain ⟨hrun, hanswers⟩ := ih (by omega)
    have hnext := decode_next (d := ⟨limit, some (e.transfer m ack app n k)⟩)
      (hw (k + 1) (by omega)) hack rfl hk
    rw [List.range_succ, List.map_append, List.map_append, List.map_singleton, List.map_singleton,
      run_concat, answers_concat, hrun, hanswers]
    constructor
    · rw [apply, hnext]
    · rw [hnext, ← List.replicate_succ']

theorem answers_fragments (hw : ∀ i < n, e.Printed m i n (wires i)) (hack : m.ack = some ack)
    (happ : readApp? m = some app) (hl : m.payload.length ≤ limit) (hn : 1 < n) :
    Decoder.answers { limit } ((List.range n).map wires) =
      List.replicate (n - 1) (.ok (.more ⟨ack.cookie, ack.port⟩)) ++
        [.ok (.complete (e.readMessage m app))] := by
  obtain ⟨k, rfl⟩ : ∃ k, n = k + 2 := ⟨n - 2, by omega⟩
  obtain ⟨hrun, hanswers⟩ := run_fragments hw hack happ hl k (by omega)
  have hlast := decode_last (d := ⟨limit, some (e.transfer m ack app (k + 2) k)⟩)
    (hw (k + 1) (by omega)) hack rfl rfl
  rw [List.range_succ, List.map_append, List.map_singleton, answers_concat, hrun, hanswers, hlast]
  rfl

/-- A fragment that can be made begins inside the payload, so there are no more than its bytes. -/
theorem segments_le (hm : m.Sized) (hn : 1 ≤ n) (hw : ∀ i < n, e.encode m i n = .ok (wires i)) :
    n ≤ limit64 := by
  by_cases h1 : n = 1
  · rw [h1]
    decide
  · have hlast := encodes_of_encode (hw (n - 1) (by omega))
    have hsize := hlast.fragmentSize_pos
    have hin := hlast.offset_lt h1
    have hlength := hm.length
    have hmul : n - 1 ≤ (n - 1) * e.fragmentSize := Nat.le_mul_of_pos_right _ hsize
    omega

/-- All fragments in order give the message back; each before the last is to be acknowledged with
the cookie, at the port, that the sender gave. -/
theorem answers_of_encode (hlegible : e.Legible m) (hc : ∀ ack ∈ m.ack, IsToken ack.cookie)
    (hm : m.Sized) (hl : m.payload.length ≤ limit) (hn : 1 ≤ n)
    (hw : ∀ i < n, e.encode m i n = .ok (wires i)) :
    (∀ i, i + 1 < n → ∃ ack, m.ack = some ack ∧
      (Decoder.answers { limit } ((List.range n).map wires))[i]? =
        some (.ok (.more ⟨ack.cookie, ack.port⟩))) ∧
    (Decoder.answers { limit } ((List.range n).map wires))[n - 1]? =
      some (.ok (.complete (e.message m))) := by
  have hlimit := segments_le hm hn hw
  have hprinted : ∀ i < n, e.Printed m i n (wires i) := fun i hi =>
    printed_of_encode ⟨hlegible.phone_lineEnd, hc⟩ hm hlimit (hw i hi)
  have hfirst := (hprinted 0 hn).encodes
  have happ := readApp?_eq hlegible hfirst.dest_ne
  have hmessage := readMessage_eq hlegible hfirst.source_safe
  by_cases h1 : n = 1
  · subst h1
    have hwhole := decode_whole (d := { limit }) (hprinted 0 hn) (by simp) happ hl
    have hanswers : Decoder.answers { limit } ((List.range 1).map wires) =
        [(Decoder.decode { limit } (wires 0)).1] := rfl
    refine ⟨fun i hi => absurd hi (by omega), ?_⟩
    rw [hanswers, hwhole, hmessage]
    rfl
  · obtain ⟨ack, hack⟩ := hfirst.ack (by omega)
    have hanswers := answers_fragments hprinted hack happ hl (by omega)
    rw [hmessage] at hanswers
    rw [hanswers]
    refine ⟨fun i hi => ⟨ack, hack, ?_⟩, ?_⟩
    · rw [List.getElem?_append_left (by rw [List.length_replicate]; omega),
        List.getElem?_replicate_of_lt (by omega)]
    · rw [List.getElem?_append_right (by simp), List.length_replicate,
        Nat.sub_self]
      rfl

def letter : Outgoing := ⟨[1, 2, 3], "chat", "mail", 1700000000, some ⟨4000, "7f"⟩⟩

def letterEncoder : Encoder := { fragmentSize := 2, phone := "79990000001" }

def letterWire (i : Nat) : Bytes := (letterEncoder.encode letter i 2).toOption.getD []

theorem legible_letter : letterEncoder.Legible letter where
  dest_colon := by decide
  dest_last := isBlank_eq_false_of_all (by decide)
  source_last := isBlank_eq_false_of_all (by decide)
  phone_colon := by decide
  phone_lineEnd := by decide
  phone_last _ := isBlank_eq_false_of_all (by decide)

theorem isToken_letter : ∀ ack ∈ letter.ack, IsToken ack.cookie := by
  rintro ack ⟨⟩
  exact ⟨by decide, by decide, isBlank_eq_false_of_all (by decide),
    isBlank_eq_false_of_all (by decide)⟩

theorem encode_letter (i : Nat) (hi : i < 2) :
    letterEncoder.encode letter i 2 = .ok (letterWire i) := by
  have hin : i * 2 < 3 := by omega
  obtain ⟨wire, hw⟩ := exists_encode (e := letterEncoder) (m := letter) (by decide) hi (by decide)
    (by decide) (by decide) (fun _ => hin) (fun _ => ⟨_, rfl⟩) rfl
  rw [letterWire, hw]
  rfl

theorem printed_letter (i : Nat) (hi : i < 2) :
    letterEncoder.Printed letter i 2 (letterWire i) :=
  printed_of_encode ⟨by decide, isToken_letter⟩ ⟨by decide, by decide⟩ (by decide)
    (encode_letter i hi)

theorem answers_of_encode_letter :
    (Decoder.answers { limit := 3 } ((List.range 2).map letterWire))[0]? =
        some (.ok (.more ⟨"7f", 4000⟩)) ∧
      (Decoder.answers { limit := 3 } ((List.range 2).map letterWire))[1]? =
        some (.ok (.complete ⟨"mms://79990000001", "chat", "mail", 1700000000, [1, 2, 3]⟩)) := by
  obtain ⟨hmore, hlast⟩ := @answers_of_encode letterEncoder letter letterWire 2 3 legible_letter
    isToken_letter ⟨by decide, by decide⟩ (by decide) (by decide) encode_letter
  obtain ⟨ack, hack, hfirst⟩ := hmore 0 (by decide)
  cases hack
  exact ⟨hfirst, hlast⟩

end Decoder

end MultimediaMessaging
