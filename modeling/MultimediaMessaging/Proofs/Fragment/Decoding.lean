import MultimediaMessaging.Fragment.Decoder
import MultimediaMessaging.Proofs.Fragment.Printed

/-!
A decoder that is given the fragments of one printed message: what it answers to each of them, in
every state that these fragments themselves can bring it to.
-/

set_option autoImplicit false

namespace MultimediaMessaging

open Text

theorem Transfer.write_slice {t : Transfer} {payload : Bytes} {offset size : Nat}
    (hc : t.contentLength = payload.length) (hr : t.received = payload.take offset)
    (hs : offset + size ≤ payload.length) :
    t.write offset size ((payload.drop offset).take size) =
      .ok { t with received := payload.take (offset + size) } := by
  have hlength : t.received.length = offset := by
    rw [hr, List.length_take]
    omega
  have hbody : ((payload.drop offset).take size).length = size := by
    rw [List.length_take, List.length_drop]
    omega
  rw [write, if_neg (by omega), if_neg (by omega), if_neg (by omega), List.take_take, Nat.min_self,
    hr, ← List.take_add]

theorem Transfer.extend_eq {t : Transfer} {h : Header} {body received : Bytes} {size : Nat}
    {port : UInt16} (hs : h.segments = t.segments) (hc : h.contentLength = some t.contentLength)
    (hf : h.fragment = t.index + 1) (hz : h.fragmentSize = some size)
    (hp : h.ackPort = some port)
    (hw : t.write h.fragmentOffset size body = .ok { t with received }) :
    t.extend h body =
      .ok { t with received, index := t.index + 1, cookie := h.ackCookie, port := some port } := by
  rw [extend, if_neg (by simp [hs]), if_neg (by simp [hc]), if_neg (by simp [hf]), hz]
  simp [hw, hp, hf, bind, Except.bind]

def Transfer.opening (h : Header) (contentLength : Nat) (app : String) : Transfer :=
  { segments := h.segments
    index := 0
    contentLength
    received := []
    cookie := h.ackCookie
    port := h.ackPort
    sender := h.sender.getD ""
    app
    replyTo := h.replyTo
    timestamp := h.date.getD 0 }

theorem Transfer.start_eq {limit contentLength : Nat} {h : Header} {body : Bytes} {app : String}
    (hc : h.contentLength = some contentLength) (hl : contentLength ≤ limit)
    (ha : h.app = some app) (hp : h.isMoreExpected = true → h.ackPort ≠ none) :
    start limit h body =
      (opening h contentLength app).write h.fragmentOffset (h.fragmentSize.getD contentLength)
        body := by
  have hport : ¬ (h.isMoreExpected = true ∧ h.ackPort = none) := fun hm => hp hm.1 hm.2
  simp only [start, hc, ha, hport, if_false, opening]
  rw [if_neg (by omega)]

namespace Encoder

/-- `wire` is a fragment of `m`, and a receiver can read it. -/
structure Printed (e : Encoder) (m : Outgoing) (index segments : Nat) (wire : Bytes) : Prop where
  encodes : e.Encodes m index segments wire
  parse : Header.parse wire = .ok (e.fragmentHeader m index segments, e.body m index segments)

theorem printed_of_encode {e : Encoder} {m : Outgoing} {index segments : Nat} {wire : Bytes}
    (hu : e.Unbroken m) (hm : m.Sized) (hn : segments ≤ limit64)
    (h : e.encode m index segments = .ok wire) : e.Printed m index segments wire :=
  ⟨encodes_of_encode h, parse_encode hu hm hn h⟩

theorem Encodes.ack {e : Encoder} {m : Outgoing} {index segments : Nat} {wire : Bytes}
    (h : e.Encodes m index segments wire) (hn : 1 < segments) : ∃ ack, m.ack = some ack := by
  obtain ⟨text, htext, -⟩ := h.bytes
  rw [headerText, if_neg (by omega)] at htext
  cases hack : m.ack with
  | none => simp [hack] at htext
  | some ack => exact ⟨ack, rfl⟩

theorem fragmentHeader_common (e : Encoder) (m : Outgoing) (index segments : Nat) :
    (e.fragmentHeader m index segments).segments = segments ∧
      (e.fragmentHeader m index segments).contentLength = some m.payload.length ∧
      (e.fragmentHeader m index segments).app = readApp? m := by
  unfold fragmentHeader
  repeat' split
  all_goals exact ⟨rfl, rfl, rfl⟩

theorem fragmentHeader_fragment_zero (e : Encoder) (m : Outgoing) (segments : Nat) :
    (e.fragmentHeader m 0 segments).fragment = 0 := by
  unfold fragmentHeader
  repeat' split
  all_goals rfl

theorem fragmentHeader_of_lt {e : Encoder} {m : Outgoing} {ack : AckEndpoint}
    {segments : Nat} (hack : m.ack = some ack) (hn : 1 < segments) (index : Nat) :
    e.fragmentHeader m index segments =
      { e.commonHeader m segments with
        fragment := index
        fragmentSize := some (e.size m.payload.length index segments)
        fragmentOffset := index * e.fragmentSize
        ackPort := some ack.port
        ackCookie := some ack.cookie } := by
  rw [fragmentHeader, if_neg (by omega), hack, offset, if_neg (by omega)]

theorem body_of_lt {e : Encoder} {m : Outgoing} {index segments : Nat} (hn : 1 < segments) :
    e.body m index segments =
      (m.payload.drop (index * e.fragmentSize)).take (e.size m.payload.length index segments) := by
  rw [body, offset, if_neg (by omega)]

def transfer (e : Encoder) (m : Outgoing) (ack : AckEndpoint) (app : String)
    (segments index : Nat) : Transfer :=
  { segments
    index
    contentLength := m.payload.length
    received := m.payload.take ((index + 1) * e.fragmentSize)
    cookie := some ack.cookie
    port := some ack.port
    sender := (e.readSender m).1
    app
    replyTo := (e.readSender m).2
    timestamp := m.timestamp }

def readMessage (e : Encoder) (m : Outgoing) (app : String) : Message :=
  ⟨(e.readSender m).1, app, (e.readSender m).2, m.timestamp, m.payload⟩

theorem take_offset_add_size {e : Encoder} {m : Outgoing} {index segments : Nat}
    (hi : index + 1 < segments) :
    m.payload.take (index * e.fragmentSize + e.size m.payload.length index segments) =
      m.payload.take ((index + 1) * e.fragmentSize) := by
  rw [size, if_neg (by omega), if_neg (by omega), List.take_eq_take_iff, Nat.succ_mul]
  omega

theorem offset_add_size_le {e : Encoder} {m : Outgoing} {index segments : Nat}
    (ho : index * e.fragmentSize < m.payload.length) (hn : 1 < segments) :
    index * e.fragmentSize + e.size m.payload.length index segments ≤ m.payload.length := by
  rw [size, if_neg (by omega)]
  split <;> omega

end Encoder

namespace Header

structure Admissible (h : Header) : Prop where
  fragment_lt : h.fragment < h.segments
  cookie : 1 < h.segments → h.ackCookie ≠ none

end Header

namespace Decoder

open Encoder

section Accept

variable {d : Decoder} {h : Header} {body : Bytes} {t : Transfer}

theorem accept_of_admissible (ha : h.Admissible) :
    d.accept h body =
      match d.transfer? with
      | some t =>
        if t.isRepeatedBy h then repeatAck t
        else if h.fragment = 0 then (Transfer.start d.limit h body).bind (settle h)
        else (t.extend h body).bind (settle h)
      | none =>
        if h.fragment = 0 then (Transfer.start d.limit h body).bind (settle h)
        else .error (.noTransfer h.fragment) := by
  have hfragment : ¬ h.segments ≤ h.fragment := Nat.not_le_of_lt ha.fragment_lt
  have hcookie : ¬ (1 < h.segments ∧ h.ackCookie = none) := fun hc => ha.cookie hc.1 hc.2
  cases ht : d.transfer? with
  | none => simp only [accept, hfragment, hcookie, ht, if_false]
  | some t => simp only [accept, hfragment, hcookie, ht, if_false]

theorem accept_repeated (ha : h.Admissible) (ht : d.transfer? = some t)
    (hr : t.isRepeatedBy h = true) : d.accept h body = repeatAck t := by
  rw [accept_of_admissible ha, ht]
  simp only [hr, if_true]

theorem accept_first (ha : h.Admissible) (hr : ∀ t ∈ d.transfer?, t.isRepeatedBy h = false)
    (h0 : h.fragment = 0) :
    d.accept h body = (Transfer.start d.limit h body).bind (settle h) := by
  rw [accept_of_admissible ha]
  cases ht : d.transfer? with
  | none => simp only [h0, if_true]
  | some t => simp only [hr t ht, h0, Bool.false_eq_true, if_false, if_true]

theorem accept_next (ha : h.Admissible) (ht : d.transfer? = some t)
    (hr : t.isRepeatedBy h = false) (h0 : h.fragment ≠ 0) :
    d.accept h body = (t.extend h body).bind (settle h) := by
  rw [accept_of_admissible ha, ht]
  simp only [hr, h0, Bool.false_eq_true, if_false]

theorem accept_none (ha : h.Admissible) (ht : d.transfer? = none) (h0 : h.fragment ≠ 0) :
    d.accept h body = .error (.noTransfer h.fragment) := by
  rw [accept_of_admissible ha, ht]
  simp only [h0, if_false]

end Accept

theorem decode_eq_of_parse {d : Decoder} {wire body : Bytes} {h : Header}
    (hp : Header.parse wire = .ok (h, body)) :
    d.decode wire =
      match d.accept h body with
      | .ok (progress, transfer?) => (.ok progress, { d with transfer? })
      | .error e => (.error e, d.abandon) := by
  rw [decode, hp]
  rfl

variable {e : Encoder} {m : Outgoing} {ack : AckEndpoint} {app : String} {wire : Bytes} {n i : Nat}
  {d : Decoder}

theorem admissible_fragmentHeader (hw : e.Encodes m i n wire) :
    (e.fragmentHeader m i n).Admissible := by
  by_cases hn : 1 < n
  · obtain ⟨ack, hack⟩ := hw.ack hn
    rw [fragmentHeader_of_lt hack hn]
    exact ⟨hw.index_lt, by simp⟩
  · have hi := hw.index_lt
    have hf : (e.fragmentHeader m i n).fragment = 0 := by
      rw [fragmentHeader, if_pos (by omega)]
      rfl
    have hs := (fragmentHeader_common e m i n).1
    exact ⟨by omega, fun h => by omega⟩

theorem isRepeatedBy_transfer (hack : m.ack = some ack) (hn : 1 < n) (k : Nat) :
    (e.transfer m ack app n k).isRepeatedBy (e.fragmentHeader m i n) = decide (i = k) := by
  simp [Transfer.isRepeatedBy, fragmentHeader_of_lt hack hn, transfer, commonHeader]

/-- The last fragment taken is acknowledged again. -/
theorem decode_same (hw : e.Printed m i n wire) (hack : m.ack = some ack) (hn : 1 < n)
    (ht : d.transfer? = some (e.transfer m ack app n i)) :
    d.decode wire = (.ok (.more ⟨ack.cookie, ack.port⟩), d) := by
  have hr : (e.transfer m ack app n i).isRepeatedBy (e.fragmentHeader m i n) = true := by
    rw [isRepeatedBy_transfer hack hn]
    exact decide_eq_true rfl
  have hrepeat : repeatAck (e.transfer m ack app n i) =
      .ok (.more ⟨ack.cookie, ack.port⟩, some (e.transfer m ack app n i)) := rfl
  rw [decode_eq_of_parse hw.parse,
    accept_repeated (admissible_fragmentHeader hw.encodes) ht hr, hrepeat, ← ht]

/-- A fragment that does not come next ends the transfer. -/
theorem decode_astray {k : Nat} (hw : e.Printed m i n wire) (hack : m.ack = some ack)
    (hn : 1 < n) (ht : d.transfer? = some (e.transfer m ack app n k)) (h0 : i ≠ 0) (hk : i ≠ k)
    (hnext : i ≠ k + 1) : d.decode wire = (.error (.outOfOrder (k + 1) i), d.abandon) := by
  have hr : (e.transfer m ack app n k).isRepeatedBy (e.fragmentHeader m i n) = false := by
    rw [isRepeatedBy_transfer hack hn]
    exact decide_eq_false hk
  have hf : (e.fragmentHeader m i n).fragment ≠ 0 := by
    rwa [fragmentHeader_of_lt hack hn]
  have hext : (e.transfer m ack app n k).extend (e.fragmentHeader m i n) (e.body m i n) =
      .error (.outOfOrder (k + 1) i) := by
    simp [Transfer.extend, fragmentHeader_of_lt hack hn, transfer, commonHeader, hnext]
  rw [decode_eq_of_parse hw.parse,
    accept_next (admissible_fragmentHeader hw.encodes) ht hr hf, hext]
  rfl

theorem decode_none (hw : e.Printed m i n wire) (ht : d.transfer? = none) (h0 : i ≠ 0) :
    d.decode wire = (.error (.noTransfer i), d.abandon) := by
  have hi := hw.encodes.index_lt
  obtain ⟨ack, hack⟩ := hw.encodes.ack (by omega)
  have hf : (e.fragmentHeader m i n).fragment = i := by
    rw [fragmentHeader_of_lt hack (by omega)]
  rw [decode_eq_of_parse hw.parse,
    accept_none (admissible_fragmentHeader hw.encodes) ht (by rwa [hf]), hf]

theorem extend_transfer (hw : e.Encodes m (i + 1) n wire) (hack : m.ack = some ack) :
    (e.transfer m ack app n i).extend (e.fragmentHeader m (i + 1) n) (e.body m (i + 1) n) =
      .ok { e.transfer m ack app n (i + 1) with
        received := m.payload.take ((i + 1) * e.fragmentSize +
          e.size m.payload.length (i + 1) n) } := by
  have hi := hw.index_lt
  have hn : 1 < n := by omega
  have hh := fragmentHeader_of_lt (e := e) (m := m) hack hn (i + 1)
  have hwrite : (e.transfer m ack app n i).write (e.fragmentHeader m (i + 1) n).fragmentOffset
      (e.size m.payload.length (i + 1) n) (e.body m (i + 1) n) =
      .ok { e.transfer m ack app n i with
        received := m.payload.take ((i + 1) * e.fragmentSize +
          e.size m.payload.length (i + 1) n) } := by
    rw [hh, body_of_lt hn]
    exact Transfer.write_slice rfl rfl (offset_add_size_le (hw.offset_lt (by omega)) hn)
  rw [Transfer.extend_eq (fragmentHeader_common e m (i + 1) n).1 (by rw [hh]; rfl) (by rw [hh]; rfl)
    (by rw [hh]) (by rw [hh]) hwrite, hh]
  rfl

theorem isMoreExpected_fragmentHeader (hack : m.ack = some ack) (hn : 1 < n) :
    (e.fragmentHeader m i n).isMoreExpected = decide (i + 1 < n) := by
  rw [fragmentHeader_of_lt hack hn]
  rfl

theorem settle_more (hack : m.ack = some ack) (hi : i + 1 < n) :
    settle (e.fragmentHeader m i n)
        { e.transfer m ack app n i with
          received := m.payload.take (i * e.fragmentSize + e.size m.payload.length i n) } =
      .ok (.more ⟨ack.cookie, ack.port⟩, some (e.transfer m ack app n i)) := by
  have hmore := isMoreExpected_fragmentHeader (e := e) (i := i) hack (show 1 < n by omega)
  rw [settle, hmore, if_pos (decide_eq_true hi), take_offset_add_size hi]
  rfl

theorem settle_last (hw : e.Encodes m i n wire) (hack : m.ack = some ack) (hn : 1 < n)
    (hi : i + 1 = n) :
    settle (e.fragmentHeader m i n)
        { e.transfer m ack app n i with
          received := m.payload.take (i * e.fragmentSize + e.size m.payload.length i n) } =
      .ok (.complete (e.readMessage m app), none) := by
  have hmore := isMoreExpected_fragmentHeader (e := e) (i := i) hack hn
  have ho := hw.offset_lt (by omega)
  have hall : m.payload.take (i * e.fragmentSize + e.size m.payload.length i n) = m.payload := by
    rw [size, if_neg (by omega), if_pos hi]
    exact List.take_of_length_le (by omega)
  rw [settle, hmore, if_neg (by simp [hi]), hall]
  simp [Transfer.finish, transfer, readMessage, Except.map]

/-- A first fragment opens its transfer, whatever other transfer is in progress. -/
theorem decode_first (hw : e.Printed m 0 n wire) (hack : m.ack = some ack) (hn : 1 < n)
    (hr : ∀ t ∈ d.transfer?, t.isRepeatedBy (e.fragmentHeader m 0 n) = false)
    (happ : readApp? m = some app) (hl : m.payload.length ≤ d.limit) :
    d.decode wire =
      (.ok (.more ⟨ack.cookie, ack.port⟩),
        { d with transfer? := some (e.transfer m ack app n 0) }) := by
  have hh := fragmentHeader_of_lt (e := e) hack hn 0
  have hstart : Transfer.start d.limit (e.fragmentHeader m 0 n) (e.body m 0 n) =
      .ok { e.transfer m ack app n 0 with
        received := m.payload.take (0 * e.fragmentSize + e.size m.payload.length 0 n) } := by
    rw [Transfer.start_eq (by rw [hh]; rfl) hl (by rw [hh]; exact happ) (by simp [hh]), hh,
      body_of_lt hn]
    exact Transfer.write_slice rfl (by simp [Transfer.opening])
      (offset_add_size_le (hw.encodes.offset_lt (by omega)) hn)
  rw [decode_eq_of_parse hw.parse, accept_first (admissible_fragmentHeader hw.encodes) hr
    (by rw [hh]), hstart, Except.bind, settle_more hack hn]

theorem decode_refused (hw : e.Printed m 0 n wire)
    (hr : ∀ t ∈ d.transfer?, t.isRepeatedBy (e.fragmentHeader m 0 n) = false)
    (h : readApp? m = none ∨ d.limit < m.payload.length) :
    ∃ err, d.decode wire = (.error err, d.abandon) := by
  have hfirst : d.accept (e.fragmentHeader m 0 n) (e.body m 0 n) =
      (Transfer.start d.limit (e.fragmentHeader m 0 n) (e.body m 0 n)).bind
        (settle (e.fragmentHeader m 0 n)) :=
    accept_first (admissible_fragmentHeader hw.encodes) hr (fragmentHeader_fragment_zero e m n)
  have hstart : ∃ err, Transfer.start d.limit (e.fragmentHeader m 0 n) (e.body m 0 n) =
      .error err := by
    rw [Transfer.start, (fragmentHeader_common e m 0 n).2.1]
    by_cases hl : d.limit < m.payload.length
    · exact ⟨_, if_pos hl⟩
    · have happ : (e.fragmentHeader m 0 n).app = none := by
        rw [(fragmentHeader_common e m 0 n).2.2]
        exact h.resolve_right hl
      simp only [hl, happ, if_false]
      exact ⟨_, rfl⟩
  obtain ⟨err, herr⟩ := hstart
  refine ⟨err, ?_⟩
  rw [decode_eq_of_parse hw.parse, hfirst, herr]
  rfl

theorem accept_following (hw : e.Encodes m (i + 1) n wire) (hack : m.ack = some ack)
    (ht : d.transfer? = some (e.transfer m ack app n i)) :
    d.accept (e.fragmentHeader m (i + 1) n) (e.body m (i + 1) n) =
      settle (e.fragmentHeader m (i + 1) n)
        { e.transfer m ack app n (i + 1) with
          received := m.payload.take ((i + 1) * e.fragmentSize +
            e.size m.payload.length (i + 1) n) } := by
  have hi := hw.index_lt
  have hn : 1 < n := by omega
  have hr : (e.transfer m ack app n i).isRepeatedBy (e.fragmentHeader m (i + 1) n) = false := by
    rw [isRepeatedBy_transfer hack hn]
    exact decide_eq_false (by omega)
  have hf : (e.fragmentHeader m (i + 1) n).fragment ≠ 0 := by
    rw [fragmentHeader_of_lt hack hn]
    exact Nat.succ_ne_zero i
  rw [accept_next (admissible_fragmentHeader hw) ht hr hf, extend_transfer hw hack, Except.bind]

theorem decode_next (hw : e.Printed m (i + 1) n wire) (hack : m.ack = some ack)
    (ht : d.transfer? = some (e.transfer m ack app n i)) (hi : i + 2 < n) :
    d.decode wire =
      (.ok (.more ⟨ack.cookie, ack.port⟩),
        { d with transfer? := some (e.transfer m ack app n (i + 1)) }) := by
  rw [decode_eq_of_parse hw.parse, accept_following hw.encodes hack ht, settle_more hack hi]

theorem decode_last (hw : e.Printed m (i + 1) n wire) (hack : m.ack = some ack)
    (ht : d.transfer? = some (e.transfer m ack app n i)) (hi : i + 2 = n) :
    d.decode wire = (.ok (.complete (e.readMessage m app)), d.abandon) := by
  rw [decode_eq_of_parse hw.parse, accept_following hw.encodes hack ht,
    settle_last hw.encodes hack (by omega) hi]
  rfl

theorem decode_whole (hw : e.Printed m 0 1 wire)
    (hr : ∀ t ∈ d.transfer?, t.isRepeatedBy (e.fragmentHeader m 0 1) = false)
    (happ : readApp? m = some app) (hl : m.payload.length ≤ d.limit) :
    d.decode wire = (.ok (.complete (e.readMessage m app)), d.abandon) := by
  have hh : e.fragmentHeader m 0 1 = e.commonHeader m 1 := rfl
  have hbody : e.body m 0 1 = (m.payload.drop 0).take m.payload.length := rfl
  have hstart : Transfer.start d.limit (e.commonHeader m 1) (e.body m 0 1) =
      .ok { Transfer.opening (e.commonHeader m 1) m.payload.length app with
        received := m.payload.take (0 + m.payload.length) } := by
    rw [Transfer.start_eq rfl hl happ (fun hm => by cases hm), hbody]
    exact @Transfer.write_slice _ m.payload 0 _ rfl rfl (Nat.le_of_eq (Nat.zero_add _))
  rw [decode_eq_of_parse hw.parse, accept_first (admissible_fragmentHeader hw.encodes) hr rfl, hh,
    hstart, Except.bind]
  simp [settle, Header.isMoreExpected, commonHeader, Transfer.finish, Transfer.opening, readMessage,
    Except.map, abandon]

end Decoder

end MultimediaMessaging
