import MultimediaMessaging.Proofs.Assembly
import MultimediaMessaging.Proofs.Transport.Sending
import MultimediaMessaging.Stack.Inbound

/-!
The fragments of one delivery at a receiver that may cut datagrams short. Only what headers say is
looked at: of a datagram cut short the whole header is read, or nothing.
-/

set_option autoImplicit false

namespace MultimediaMessaging

open Text

namespace Delivery

variable {d : Delivery} {h : Header} {body wire : Bytes} {t t' : Transfer} {i k : Nat}

structure Announces (d : Delivery) (h : Header) (index : Nat) : Prop where
  segments : h.segments = d.segments
  fragment : h.fragment = index
  cookie : h.ackCookie = some d.cookie
  port : h.ackPort ≠ none

theorem Readable.announces (hr : d.Readable) (hn : 1 < d.segments)
    (he : d.encoder.encode d.message i d.segments = .ok wire) :
    d.Announces (d.encoder.fragmentHeader d.message i d.segments) i := by
  obtain ⟨ack, hack⟩ := (hr.printed he).encodes.ack hn
  have hcookie : d.cookie = ack.cookie := by rw [cookie, hack]; rfl
  rw [Encoder.fragmentHeader_of_lt hack hn]
  exact ⟨rfl, rfl, by rw [hcookie], Option.some_ne_none _⟩

theorem Readable.announces_of_parse (hr : d.Readable) (hn : 1 < d.segments)
    (he : d.encoder.encode d.message i d.segments = .ok wire) {limit : Nat}
    (hp : Header.parse (wire.take limit) = .ok (h, body)) : d.Announces h i := by
  rcases Header.parseFrom_take (hr.printed he).parse limit with ⟨err, herr⟩ | ⟨rest, hok⟩
  · rw [Header.parse, herr] at hp
    cases hp
  · rw [Header.parse, hok] at hp
    cases hp
    exact hr.announces hn he

/-- A transfer as it stands after fragment `index`; of its bytes nothing is said. -/
structure Tracks (d : Delivery) (t : Transfer) (index : Nat) : Prop where
  segments : t.segments = d.segments
  index : t.index = index
  cookie : t.cookie = some d.cookie
  port : t.port ≠ none

theorem tracks_start {limit : Nat} (hs : Transfer.start limit h body = .ok t)
    (hannounced : d.Announces h i) : d.Tracks t 0 := by
  obtain ⟨length, app, -, -, -, -, -, -, rfl⟩ := Transfer.start_ok hs
  exact ⟨hannounced.segments, rfl, hannounced.cookie, hannounced.port⟩

theorem Tracks.extend (ht : d.Tracks t k) (hannounced : d.Announces h i)
    (he : t.extend h body = .ok t') : i = k + 1 ∧ d.Tracks t' i := by
  obtain ⟨size, -, -, -, hindex, -, -, -, rfl⟩ := Transfer.extend_ok he
  have hi : i = k + 1 := by rw [← hannounced.fragment, hindex, ht.index]
  refine ⟨hi, ht.segments, hannounced.fragment, hannounced.cookie, fun hnone => ?_⟩
  exact hannounced.port (Option.or_eq_none_iff.1 hnone).1

theorem Tracks.isRepeatedBy_iff (ht : d.Tracks t k) (hannounced : d.Announces h i) :
    t.isRepeatedBy h = true ↔ i = k := by
  rw [Transfer.isRepeatedBy, decide_eq_true_iff, hannounced.fragment, hannounced.segments,
    hannounced.cookie, ht.index, ht.segments, ht.cookie]
  simp

theorem Tracks.decode {r : Decoder} (ht : d.Tracks t i) (hr : r.transfer? = some t)
    (hi : i < d.segments) (hannounced : d.Announces h i) (hp : Header.parse wire = .ok (h, body)) :
    ∃ request, r.decode wire = (.ok (.more request), r) := by
  have hadmissible : h.Admissible :=
    ⟨by rw [hannounced.fragment, hannounced.segments]; exact hi,
      fun _ => by simp [hannounced.cookie]⟩
  obtain ⟨port, hport⟩ := Option.ne_none_iff_exists'.1 ht.port
  have hack : Decoder.repeatAck t = .ok (.more ⟨d.cookie, port⟩, some t) := by
    rw [Decoder.repeatAck, Transfer.ackRequest, ht.cookie, hport]
    rfl
  refine ⟨⟨d.cookie, port⟩, ?_⟩
  rw [Decoder.decode_eq_of_parse hp,
    Decoder.accept_repeated hadmissible hr ((ht.isRepeatedBy_iff hannounced).2 rfl), hack, ← hr]

end Delivery

namespace Stack

variable {τ : Type} [DecidableEq τ] {s : Stack τ} {source : SocketAddress}
  {datagram : Bytes}

/-- What a stack gets of a datagram: as much as its buffer holds. -/
def cut (s : Stack τ) (wire : Bytes) : Bytes := wire.take s.config.maxDatagramSize.toNat

def transfer? (s : Stack τ) (source : SocketAddress) : Option Transfer :=
  (s.assembler.decoderFor source).transfer?

inductive Reception where
  | taken
  | repeated
  | refused
  deriving DecidableEq, Repr

/-- A fragment that is acknowledged and changes nothing repeats one that was taken. -/
def reception (s : Stack τ) (now : Time) (source : SocketAddress) (datagram : Bytes) : Reception :=
  match s.onDatagram now source datagram with
  | (.needMore _, after) =>
    if after.transfer? source = s.transfer? source then .repeated else .taken
  | (.dispatched _, _) => .taken
  | (.aborted _, _) => .refused

theorem assembler_onDatagram (now : Time) :
    (s.onDatagram now source datagram).2.assembler =
      (s.assembler.onFragment now source datagram).2 := by
  simp only [onDatagram]
  split <;> rfl

theorem config_onDatagram (now : Time) :
    (s.onDatagram now source datagram).2.config = s.config := by
  simp only [onDatagram]
  split <;> rfl

theorem transfer?_onDatagram (now : Time) :
    (s.onDatagram now source datagram).2.transfer? source =
      ((s.assembler.decoderFor source).decode datagram).2.transfer? := by
  rw [transfer?, assembler_onDatagram]
  exact Assembler.transfer?_onFragment

theorem onDatagram_error (now : Time) {err : DecodeError}
    (hd : ((s.assembler.decoderFor source).decode datagram).1 = .error err) :
    (s.onDatagram now source datagram).1 = .aborted err := by
  rw [← Assembler.onFragment_fst s.assembler now source datagram] at hd
  simp only [onDatagram, hd]

theorem onDatagram_more (now : Time) {request : AckRequest}
    (hd : ((s.assembler.decoderFor source).decode datagram).1 = .ok (.more request)) :
    (s.onDatagram now source datagram).1 = .needMore request := by
  rw [← Assembler.onFragment_fst s.assembler now source datagram] at hd
  simp only [onDatagram, hd]

theorem onDatagram_complete (now : Time) {m : Message}
    (hd : ((s.assembler.decoderFor source).decode datagram).1 = .ok (.complete m)) :
    ∃ disposition, (s.onDatagram now source datagram).1 = .dispatched disposition := by
  rw [← Assembler.onFragment_fst s.assembler now source datagram] at hd
  simp only [onDatagram, hd]
  exact ⟨_, rfl⟩

theorem reception_error (now : Time) {err : DecodeError}
    (hd : ((s.assembler.decoderFor source).decode datagram).1 = .error err) :
    s.reception now source datagram = .refused := by
  have h := onDatagram_error now hd
  unfold reception
  split <;> simp_all

theorem reception_complete (now : Time) {m : Message}
    (hd : ((s.assembler.decoderFor source).decode datagram).1 = .ok (.complete m)) :
    s.reception now source datagram = .taken := by
  obtain ⟨disposition, h⟩ := onDatagram_complete now hd
  unfold reception
  split <;> simp_all

theorem reception_more (now : Time) {request : AckRequest}
    (hd : ((s.assembler.decoderFor source).decode datagram).1 = .ok (.more request)) :
    s.reception now source datagram =
      if ((s.assembler.decoderFor source).decode datagram).2.transfer? = s.transfer? source then
        .repeated
      else .taken := by
  have h := onDatagram_more now hd
  have ht := @transfer?_onDatagram _ _ s source datagram now
  unfold reception
  split <;> simp_all

end Stack

end MultimediaMessaging
