import MultimediaMessaging.Proofs.Fragment.Cutting
import MultimediaMessaging.Proofs.Transport.Discipline

/-!
Messages that turn out not to be encodable while they are sent. Main statement: nothing at all was
sent then, unless it is the numbers in the header of a later fragment that make it too long, when
all fragments before it were sent and acknowledged.
-/

set_option autoImplicit false

namespace MultimediaMessaging

open Text

namespace Encoder

variable {e : Encoder} {m : Outgoing} {n index : Nat} {first : Bytes} {err : EncodeError}

theorem length_digits_le {k l : Nat} (h : k ≤ l) : (digits k).length ≤ (digits l).length := by
  have hpos : 0 < (digits l).length := List.length_pos_iff.2 (digits_ne_nil l)
  have hl : l < 10 ^ (digits l).length := (length_digits_le_iff hpos).1 (Nat.le_refl _)
  exact (length_digits_le_iff hpos).2 (Nat.lt_of_le_of_lt h hl)

theorem length_piece_le (e : Encoder) (payload : Bytes) (index : Nat) :
    (e.piece payload index).length ≤ (e.piece payload 0).length := by
  rw [length_piece, length_piece]
  omega

/-- No fragment is longer than the first but by the digits of its index and its offset. -/
theorem length_datagram_le_first (e : Encoder) (m : Outgoing) (n index : Nat) :
    (e.datagram m n index).length + 2 ≤
      (e.datagram m n 0).length + (digits index).length +
        (digits (index * e.fragmentSize)).length := by
  have hpiece := length_piece_le e m.payload index
  have hsize := length_digits_le hpiece
  have hzero : (digits 0).length = 1 := rfl
  have hindex : 0 < (digits index).length := List.length_pos_iff.2 (digits_ne_nil _)
  have hoffset : 0 < (digits (index * e.fragmentSize)).length :=
    List.length_pos_iff.2 (digits_ne_nil _)
  rw [datagram, datagram, headerLines, headerLines]
  simp only [encode_append, List.length_append]
  split
  · omega
  · cases m.ack with
    | none =>
      simp only [Option.elim_none]
      omega
    | some ack =>
      simp only [Option.elim_some, fragmentLines, encode_append, List.length_append,
        length_encode_headerLine, length_encode_number, Nat.zero_mul]
      omega

/-- A fragment is too long for the limit, though the first of `n` is not. The digits of its index
and its offset are to blame. -/
structure Oversize (e : Encoder) (m : Outgoing) (n index limit : Nat) : Prop where
  bound : e.maxDatagram = some limit
  first : (e.datagram m n 0).length ≤ limit
  exceeds : limit < (e.datagram m n index).length
  growth : (e.datagram m n index).length + 2 ≤
    (e.datagram m n 0).length + (digits index).length + (digits (index * e.fragmentSize)).length

theorem oversize_of_encode (hfirst : e.encode m 0 (e.segmentCount m.payload.length) = .ok first)
    (hi : index < e.segmentCount m.payload.length)
    (h : e.encode m index (e.segmentCount m.payload.length) = .error err) :
    ∃ limit, e.Oversize m (e.segmentCount m.payload.length) index limit ∧
      err = .datagramTooLarge (e.datagram m (e.segmentCount m.payload.length) index).length
        limit := by
  obtain ⟨hwire, hbound⟩ := eq_datagram_of_encode (Nat.zero_lt_of_lt hi) hfirst
  rw [encode_of_lt (Nat.zero_lt_of_lt hi)] at hfirst
  rw [encode_of_lt hi] at h
  split at hfirst
  · cases hfirst
  split at hfirst
  · cases hfirst
  split at hfirst
  · cases hfirst
  split at hfirst
  · cases hfirst
  rename_i hsize hdest hsource hack
  rw [if_neg hsize, if_neg hdest, if_neg hsource, if_neg hack, bounded] at h
  split at h
  · rename_i limit hlimit
    split at h
    · rename_i hlt
      cases h
      exact ⟨limit, ⟨hlimit, hwire ▸ hbound limit hlimit, hlt,
        length_datagram_le_first e m _ index⟩, rfl⟩
    · cases h
  · cases h

end Encoder

namespace Delivery

open Socket

variable {d : Delivery} {calls : List Entry} {call : Entry} {done : List (List Handing)}
  {current : List Handing} {turn : Turn} {index : Nat} {err : EncodeError} {answer : Answer}

/-- A delivery that ended because a fragment could not be encoded; `rounds` are the sendings of the
fragments before it. -/
structure CutShort (d : Delivery) (calls : List Entry) (err : EncodeError)
    (rounds : List (List Handing)) : Prop where
  handings : handings calls = rounds.flatten
  past : ∀ i round, rounds[i]? = some round → d.Past i round
  length_lt : rounds.length < d.segments
  encode : d.encoder.encode d.message rounds.length d.segments = .error err

theorem enter_eq_encode_error (h : d.enter index = .ended (.error (.encode err))) :
    index < d.segments ∧ d.encoder.encode d.message index d.segments = .error err := by
  unfold enter at h
  split at h
  · cases h
  · rename_i hindex
    split at h
    · cases h
    · rename_i herr
      cases h
      exact ⟨Nat.lt_of_not_le hindex, herr⟩

theorem Account.cutShort (h : d.Account calls done [])
    (henter : d.enter done.length = .ended (.error (.encode err))) : d.CutShort calls err done := by
  obtain ⟨hlt, herr⟩ := enter_eq_encode_error henter
  exact ⟨by rw [h.handings, List.append_nil], h.past, hlt, herr⟩

theorem onSilence_ne_encode_error : d.onSilence turn ≠ .ended (.error (.encode err)) := by
  unfold onSilence
  split <;> exact nofun

theorem onSent_ne_encode_error {deadline : Time} (outcome : IoOutcome Unit) :
    d.onSent turn deadline outcome ≠ .ended (.error (.encode err)) := by
  cases outcome with
  | success taken =>
    unfold onSent
    dsimp only
    split
    · exact nofun
    · rename_i hlast
      rw [enter_of_le (Nat.le_of_not_lt hlast)]
      exact nofun
  | wouldBlock => exact nofun
  | fail e => exact nofun

/-- The next fragment is encoded when the one before it is acknowledged, and not earlier. -/
theorem resume_eq_encode_error (h : d.resume turn answer = .ended (.error (.encode err))) :
    ∃ deadline datagram source, turn.stage = .receive deadline ∧
      answer = .received (.ok (datagram, source)) ∧
      d.isAcknowledgedBy datagram source = true ∧
      d.enter (turn.index + 1) = .ended (.error (.encode err)) := by
  unfold resume at h
  split at h
  · cases h
  · exact absurd h (onSent_ne_encode_error _)
  · split at h <;> cases h
  · cases h
  · cases h
  · split at h
    · cases h
    · exact absurd h onSilence_ne_encode_error
  · rename_i deadline result hstage
    cases result with
    | ok received =>
      obtain ⟨datagram, source⟩ := received
      simp only [IoOutcome.classify_ok, onReceived] at h
      split at h
      · exact ⟨deadline, datagram, source, hstage, rfl, ‹_›, h⟩
      · cases h
    | error e =>
      cases hr : IoOutcome.classify (.error e : Except IoError (Bytes × SocketAddress)) with
      | success received => simp [IoOutcome.classify_eq_success_iff] at hr
      | wouldBlock => simp [hr, onReceived] at h
      | fail e => simp [hr, onReceived] at h
  · cases h

theorem AtWork.cutShort (h : d.AtWork calls turn done current)
    (hstanding : d.Standing turn current) (hex : d.Exchange turn.query call answer)
    (hresume : d.resume turn answer = .ended (.error (.encode err))) :
    ∃ rounds, rounds ≠ [] ∧ d.CutShort (calls ++ [call]) err rounds := by
  obtain ⟨deadline, datagram, source, hstage, rfl, hack, henter⟩ := resume_eq_encode_error hresume
  rw [Turn.query, hstage] at hex
  rw [Standing, hstage] at hstanding
  obtain ⟨earlier, last, hawaits, hopen⟩ := hstanding
  cases hex with
  | receive limit result =>
    refine ⟨_, by simp, (h.acknowledged hawaits hopen limit hack).cutShort ?_⟩
    simpa [h.index] using henter

section Run

variable {σ : Type} {socket : Socket (StateM σ)} {s last : σ} {later : List Entry}

theorem Invariant.cutShort (h : d.Invariant calls (.running turn)) {fuel : Nat}
    (hrun : d.run socket.recorded fuel (.running turn) (s, calls) =
      (.ended (.error (.encode err)), last, later)) :
    ∃ rounds, rounds ≠ [] ∧ d.CutShort later err rounds := by
  induction fuel generalizing turn s calls with
  | zero => cases hrun
  | succ fuel ih =>
    obtain ⟨done, current, hwork, hstanding⟩ := h
    obtain ⟨call, answer, s', hex, -, hrecorded⟩ := ask_recorded socket d turn.query s calls
    rw [run_succ hrecorded] at hrun
    have hnext := hwork.resume hstanding hex
    cases hstate : d.resume turn answer with
    | running turn' =>
      rw [hstate] at hrun hnext
      exact ih hnext hrun
    | ended result =>
      rw [hstate, run_ended] at hrun
      cases hrun
      exact hwork.cutShort hstanding hex hstate

end Run

end Delivery

namespace Sender

open Socket Delivery

variable {σ : Type} {s : Sender} {socket : Socket (StateM σ)} {parcel : Parcel} {timestamp : Nat}
  {cookie : String} {fuel : Nat} {start : σ} {err : EncodeError}

/-- A message that could not be encoded was not sent, not even in part, or a fragment is too long
for the limit that comes after others, which were acknowledged. -/
theorem cutShort_of_encode_error
    (h : (s.send socket parcel timestamp cookie fuel start).1 = .ended (.error (.encode err))) :
    ∃ last calls, s.send socket.recorded parcel timestamp cookie fuel (start, []) =
        (.ended (.error (.encode err)), last, calls) ∧
      (calls = [.address (socket.address start).1] ∨
        ∃ d rounds limit, s.prepare parcel timestamp cookie (socket.address start).1 = .ok d ∧
          d.CutShort calls err rounds ∧ rounds ≠ [] ∧
          s.encoder.Oversize d.message d.segments rounds.length limit ∧
          err = .datagramTooLarge
            (s.encoder.datagram d.message d.segments rounds.length).length limit) := by
  obtain ⟨address, next, haddress⟩ : ∃ address next, socket.address start = (address, next) :=
    ⟨_, _, rfl⟩
  have hrecorded : socket.recorded.address (start, []) = (address, next, [.address address]) :=
    congrArg (fun p : Except IoError SocketAddress × σ => (p.1, p.2, [Entry.address p.1])) haddress
  obtain ⟨state, last, calls, hsend, hplain, -⟩ :=
    disciplined_send s socket parcel timestamp cookie fuel start
  obtain rfl : state = .ended (.error (.encode err)) := by rw [← h, hplain]
  refine ⟨last, calls, hsend, ?_⟩
  rw [haddress]
  cases hd : s.prepare parcel timestamp cookie address with
  | error e =>
    obtain ⟨io, -, rfl⟩ := address_of_prepare hd
    rw [send_of_prepare_error hrecorded hd] at hsend
    cases hsend
  | ok d =>
    rw [send_of_prepare_ok hrecorded hd] at hsend
    have haccount : d.Account [.address address] [] [] :=
      { handings := rfl, length_le := Nat.zero_le _, past := nofun, current := .nil }
    have hinvariant : d.Invariant [.address address] d.start := haccount.enter rfl
    cases hstart : d.start with
    | ended result =>
      rw [hstart, run_ended] at hsend
      cases hsend
      exact .inl rfl
    | running turn =>
      rw [hstart] at hsend hinvariant
      obtain ⟨rounds, hne, hcut⟩ := hinvariant.cutShort hsend
      obtain ⟨hindex, hunderway⟩ := enter_eq_running hstart
      obtain ⟨limit, hoversize, herr⟩ :=
        Encoder.oversize_of_encode (hindex ▸ hunderway.encode) hcut.length_lt hcut.encode
      rw [← encoder_of_prepare hd]
      exact .inr ⟨d, rounds, limit, rfl, hcut, hne, hoversize, herr⟩

/-- The first datagram is as long as is allowed. In the second the offset has one digit more. -/
def tightCourier : Sender :=
  { encoder := { fragmentSize := 10, phone := "79990000001", maxDatagram := some 212 }
    ackTimeout := 1
    ackRetries := 0 }

def tightParcel : Parcel := ⟨courierAddress, "chat", "", List.replicate 20 0⟩

def tightScript : Script :=
  { address := .ok courierAddress
    budget := 1
    sends := []
    receipts := [.datagram courierAddress (Acknowledgement.write "c")] }

def tightDelivery : Delivery := tightCourier.delivery tightParcel 0 (some ⟨4000, "c"⟩)

theorem length_datagram_tight {index : Nat} (hi : index < 2) :
    (tightDelivery.encoder.datagram tightDelivery.message 2 index).length =
      210 + (digits index).length + (digits (index * 10)).length := by
  have hpiece : (tightDelivery.encoder.piece tightDelivery.message.payload index).length = 10 := by
    rw [Encoder.length_piece]
    change min 10 (20 - index * 10) = 10
    omega
  have hcommon :
      (Text.encode (tightDelivery.encoder.commonLines tightDelivery.message 2)).length = 117 := by
    simp only [Encoder.commonLines, encode_append, List.length_append,
      Encoder.length_encode_headerLine]
    rfl
  have hnames : (Text.encode HeaderKey.fragment.name).length = 8 ∧
      (Text.encode HeaderKey.fragmentSize.name).length = 13 ∧
      (Text.encode HeaderKey.fragmentOffset.name).length = 15 ∧
      (Text.encode HeaderKey.ackPort.name).length = 8 ∧
      (Text.encode HeaderKey.ackCookie.name).length = 10 := by decide
  have hvalues : (digits 10).length = 2 ∧ (digits (4000 : UInt16).toNat).length = 4 ∧
      (Text.encode "c").length = 1 := by decide
  have hmarker : Header.marker.length = 7 := by decide
  have hfragment : (Text.encode (Encoder.fragmentLines index (index * 10) 10 ⟨4000, "c"⟩)).length =
      76 + (digits index).length + (digits (index * 10)).length := by
    simp only [Encoder.fragmentLines, encode_append, List.length_append,
      Encoder.length_encode_headerLine, Encoder.length_encode_number]
    omega
  have hlines : tightDelivery.encoder.headerLines tightDelivery.message 2 index (index * 10) 10 =
      tightDelivery.encoder.commonLines tightDelivery.message 2 ++
        Encoder.fragmentLines index (index * 10) 10 ⟨4000, "c"⟩ := rfl
  have hsize : tightDelivery.encoder.fragmentSize = 10 := rfl
  rw [Encoder.datagram, List.length_append, List.length_append, hpiece, hsize, hlines,
    encode_append, List.length_append, hcommon, hfragment, hmarker]
  omega

theorem encode_tight {index : Nat} (hi : index < 2) :
    tightDelivery.encoder.encode tightDelivery.message index tightDelivery.segments =
      tightDelivery.encoder.bounded
        (tightDelivery.encoder.datagram tightDelivery.message 2 index) := by
  have hdest : ¬ (tightDelivery.message.dest = "" ∨
      Encoder.isLineSafe true tightDelivery.message.dest = false) := by decide
  have hsource : ¬ Encoder.isLineSafe false tightDelivery.message.source = false := by decide
  have hack : ¬ (1 < tightDelivery.segments ∧ tightDelivery.message.ack = none) := by decide
  have hlt : index < tightDelivery.encoder.segmentCount tightDelivery.message.payload.length := hi
  have hencode := Encoder.encode_of_lt hlt
  rw [if_neg (by decide), if_neg hdest, if_neg hsource] at hencode
  exact hencode.trans (if_neg hack)

theorem enter_tight_first : tightDelivery.start = .running
    ⟨0, 1, tightDelivery.encoder.datagram tightDelivery.message 2 0, .noteSend⟩ := by
  have hlength := @length_datagram_tight 0 (by decide)
  refine enter_of_encode ((encode_tight (by decide)).trans (Encoder.bounded_eq fun limit hl => ?_))
  obtain rfl : 212 = limit := Option.some.inj hl
  rw [hlength]
  decide

theorem enter_tight_second :
    tightDelivery.enter 1 = .ended (.error (.encode (.datagramTooLarge 213 212))) := by
  have hlength := @length_datagram_tight 1 (by decide)
  have hdigits : 210 + (digits 1).length + (digits (1 * 10)).length = 213 := by decide
  have hlimit : tightDelivery.encoder.maxDatagram = some 212 := rfl
  rw [enter, if_neg (by decide), encode_tight (by decide), Encoder.bounded, hlimit, hlength,
    hdigits]
  rfl

theorem run_tight (wire : Bytes) (calls : List Entry) : ∃ last since,
    tightDelivery.run Script.socket.recorded 5 (.running ⟨0, 1, wire, .noteSend⟩)
        (tightScript, calls) = (tightDelivery.enter 1, last, calls ++ since) ∧
      last.sent = [(courierAddress, wire)] ∧ since ≠ [] := by
  let ack := (Acknowledgement.write "c").take receiveLimit
  have hack : tightDelivery.isAcknowledgedBy ack courierAddress = true := by decide
  have hresume : tightDelivery.resume ⟨0, 1, wire, .receive 1⟩
      (.received (.ok (ack, courierAddress))) = tightDelivery.enter 1 := by
    simp only [resume, IoOutcome.classify_ok, onReceived, hack, if_true]
  have hreceive : tightDelivery.run Script.socket.recorded 5 (.running ⟨0, 1, wire, .noteSend⟩)
        (tightScript, calls) =
      (tightDelivery.resume ⟨0, 1, wire, .receive 1⟩
          (.received (.ok (ack, courierAddress))),
        { tightScript with receipts := [], sent := [(courierAddress, wire)], now := 1 },
        calls ++ [.read 0] ++ [.send wire courierAddress (.ok ())] ++ [.read 0] ++ [.read 0] ++
          [.receive receiveLimit (.ok (ack, courierAddress))]) := rfl
  rw [hresume] at hreceive
  simp only [List.append_assoc] at hreceive
  exact ⟨_, _, hreceive, rfl, List.cons_ne_nil _ _⟩

theorem send_tight : ∃ last since,
    tightCourier.send Script.socket.recorded tightParcel 0 "c" 5 (tightScript, []) =
        (.ended (.error (.encode (.datagramTooLarge 213 212))), last,
          [.address (.ok courierAddress)] ++ since) ∧
      tightCourier.send Script.socket tightParcel 0 "c" 5 tightScript =
        (.ended (.error (.encode (.datagramTooLarge 213 212))), last) ∧
      last.sent ≠ [] ∧ since ≠ [] := by
  obtain ⟨last, since, hrun, hsent, hsince⟩ :=
    run_tight (tightDelivery.encoder.datagram tightDelivery.message 2 0)
      [.address (.ok courierAddress)]
  have haddress : Script.socket.recorded.address (tightScript, []) =
      (.ok courierAddress, tightScript, [.address (.ok courierAddress)]) := rfl
  have hprepare : tightCourier.prepare tightParcel 0 "c" (.ok courierAddress) =
      .ok tightDelivery := rfl
  have hsend : tightCourier.send Script.socket.recorded tightParcel 0 "c" 5 (tightScript, []) =
      (.ended (.error (.encode (.datagramTooLarge 213 212))), last,
        [.address (.ok courierAddress)] ++ since) := by
    rw [send_of_prepare_ok haddress hprepare, enter_tight_first, hrun, enter_tight_second]
  obtain ⟨state, last', calls, hrecorded, hplain, -⟩ :=
    disciplined_send tightCourier Script.socket tightParcel 0 "c" 5 tightScript
  cases hrecorded.symm.trans hsend
  exact ⟨last, since, hsend, hplain, by simp [hsent], hsince⟩

theorem cutShort_tightParcel :
    (tightCourier.send Script.socket tightParcel 0 "c" 5 tightScript).1 =
        .ended (.error (.encode (.datagramTooLarge 213 212))) ∧
      ∃ d index limit, tightCourier.prepare tightParcel 0 "c" (.ok courierAddress) = .ok d ∧
        0 < index ∧ tightCourier.encoder.Oversize d.message d.segments index limit := by
  obtain ⟨last, since, hsend, hplain, -, hsince⟩ := send_tight
  have hended : (tightCourier.send Script.socket tightParcel 0 "c" 5 tightScript).1 =
      .ended (.error (.encode (.datagramTooLarge 213 212))) := congrArg Prod.fst hplain
  obtain ⟨last', calls, hrecorded, halternatives⟩ := cutShort_of_encode_error hended
  cases hrecorded.symm.trans hsend
  refine ⟨hended, ?_⟩
  rcases halternatives with hnothing | ⟨d, rounds, limit, hprepare, -, hne, hoversize, -⟩
  · exact absurd (List.append_cancel_left (hnothing.trans (List.append_nil _).symm)) hsince
  · exact ⟨d, rounds.length, limit, hprepare, List.length_pos_iff.2 hne, hoversize⟩

/-- The receiver is left with one half of a message of which the other cannot be sent. -/
theorem partly_sent_tightParcel :
    ∃ last, tightCourier.send Script.socket tightParcel 0 "c" 5 tightScript =
        (.ended (.error (.encode (.datagramTooLarge 213 212))), last) ∧ last.sent ≠ [] := by
  obtain ⟨last, since, -, hplain, hsent, -⟩ := send_tight
  exact ⟨last, hplain, hsent⟩

end Sender

end MultimediaMessaging
