import MultimediaMessaging.Proofs.Fragment.RoundTrip
import MultimediaMessaging.Transport.Socket
import MultimediaMessaging.Proofs.Text.Digits

/-!
The sender of a message: whatever its surroundings answer, it stays at its fragment, takes the next
one after an acknowledgement, or ends; and it has ended once the last fragment is sent.
-/

set_option autoImplicit false

namespace MultimediaMessaging

open Text

namespace Text

theorem isBlank_digitChar : ∀ n < 16, isBlank n.digitChar = false := by
  decide

theorem isBlank_of_mem_hexDigits {n : Nat} {c : Char} (h : c ∈ hexDigits n) :
    isBlank c = false := by
  obtain ⟨d, hd, rfl⟩ := exists_of_mem_hexDigits h
  exact isBlank_digitChar d hd

end Text

namespace Delivery

theorem isToken_cookieText (millis : Nat) (counter : UInt32) :
    IsToken (cookieText millis counter) := by
  have hblank : ∀ c ∈ (cookieText millis counter).toList, isBlank c = false := by
    intro c hc
    rw [cookieText, String.toList_ofList] at hc
    rcases List.mem_append.1 hc with hc | hc
    · exact isBlank_of_mem_hexDigits hc
    · rcases List.mem_cons.1 hc with rfl | hc
      · decide
      · exact isBlank_of_mem_hexDigits hc
  exact
    { nonempty := by
        intro h
        have : (cookieText millis counter).toList = [] := by rw [h]; rfl
        rw [cookieText, String.toList_ofList] at this
        simp at this
      lineEnd := fun hm => absurd (hblank _ hm) (by decide)
      head := fun c hc => hblank c (List.mem_of_mem_head? hc)
      last := fun c hc => hblank c (List.mem_of_mem_getLast? hc) }

structure Readable (d : Delivery) : Prop where
  unbroken : d.encoder.Unbroken d.message
  sized : d.message.Sized

theorem segments_le {d : Delivery} (h : d.message.Sized) : d.segments ≤ limit64 := by
  have hlength := h.length
  rw [segments, Encoder.segmentCount]
  split
  · decide
  · refine Nat.le_trans (Nat.div_le_of_le_mul ?_) hlength
    have hmul : d.message.payload.length + d.encoder.fragmentSize - 1 ≤
        d.encoder.fragmentSize * d.message.payload.length := by
      obtain ⟨a, ha⟩ := Nat.exists_eq_add_of_le' (show 1 ≤ d.encoder.fragmentSize by omega)
      obtain ⟨b, hb⟩ := Nat.exists_eq_add_of_le' (show 1 ≤ d.message.payload.length by omega)
      rw [ha, hb, Nat.add_mul, Nat.mul_add]
      omega
    exact hmul

theorem Readable.printed {d : Delivery} (h : d.Readable) {index : Nat} {wire : Bytes}
    (he : d.encoder.encode d.message index d.segments = .ok wire) :
    d.encoder.Printed d.message index d.segments wire :=
  Encoder.printed_of_encode h.unbroken h.sized (segments_le h.sized) he

end Delivery

namespace Sender

variable {s : Sender} {parcel : Parcel} {timestamp : Nat} {cookie : String}
  {address : Except IoError SocketAddress} {d : Delivery}

theorem prepare_ok (hd : s.prepare parcel timestamp cookie address = .ok d) :
    ∃ ack, d = s.delivery parcel timestamp ack ∧ ∀ endpoint ∈ ack, endpoint.cookie = cookie := by
  unfold prepare at hd
  cases hend : Delivery.endpoint? (s.encoder.segmentCount parcel.payload.length) address cookie with
  | error err => simp [hend, Except.map] at hd
  | ok ack =>
    simp only [hend, Except.map, Except.ok.injEq] at hd
    refine ⟨ack, hd.symm, fun endpoint hack => ?_⟩
    unfold Delivery.endpoint? at hend
    split at hend
    · cases hend
      cases hack
    · split at hend
      · cases hend
        cases hack
        rfl
      · cases hend

theorem encoder_of_prepare (hd : s.prepare parcel timestamp cookie address = .ok d) :
    d.encoder = s.encoder := by
  obtain ⟨ack, rfl, -⟩ := prepare_ok hd
  rfl

theorem readable_of_prepare {millis : Nat} {counter : UInt32}
    (hd : s.prepare parcel timestamp (Delivery.cookieText millis counter) address = .ok d)
    (hp : '\n' ∉ s.encoder.phone.toList) (hm : d.message.Sized) : d.Readable := by
  obtain ⟨ack, rfl, hcookie⟩ := prepare_ok hd
  refine ⟨⟨hp, fun endpoint hack => ?_⟩, hm⟩
  rw [hcookie endpoint hack]
  exact Delivery.isToken_cookieText millis counter

end Sender

namespace Delivery

variable {d : Delivery} {turn turn' : Turn}

structure Underway (d : Delivery) (turn : Turn) : Prop where
  index_lt : turn.index < d.segments
  encode : d.encoder.encode d.message turn.index d.segments = .ok turn.wire

theorem enter_eq_running {index : Nat} (h : d.enter index = .running turn) :
    turn.index = index ∧ d.Underway turn := by
  unfold enter at h
  split at h
  · cases h
  · rename_i hindex
    split at h
    · rename_i hw
      cases h
      exact ⟨rfl, Nat.lt_of_not_le hindex, hw⟩
    · cases h

theorem enter_of_encode {index : Nat} {wire : Bytes}
    (h : d.encoder.encode d.message index d.segments = .ok wire) :
    d.enter index = .running ⟨index, 1, wire, .noteSend⟩ := by
  have hlt := (Encoder.encodes_of_encode h).index_lt
  rw [enter, if_neg (by omega), h]

theorem enter_of_le {index : Nat} (h : d.segments ≤ index) :
    d.enter index = .ended (.ok d.segments) := by
  rw [enter, if_pos h]

structure Transmission where
  index : Nat
  wire : Bytes
  deriving DecidableEq, Repr

def Turn.transmission (turn : Turn) : Transmission := ⟨turn.index, turn.wire⟩

/-- The sender waits for the acknowledgement of its fragment, and this is one. -/
def Acknowledges (d : Delivery) (turn : Turn) (answer : Answer) : Prop :=
  ∃ deadline datagram source, turn.stage = .receive deadline ∧
    answer = .received (.ok (datagram, source)) ∧ d.isAcknowledgedBy datagram source = true

def Transmits (turn : Turn) (answer : Answer) : Prop :=
  ∃ deadline, turn.stage = .send deadline ∧ answer = .sent (.ok ())

inductive Move (d : Delivery) (turn : Turn) (answer : Answer) : State → Prop
  | ended (result : Except TransportError Nat) : Move d turn answer (.ended result)
  | stays (turn' : Turn) (index : turn'.index = turn.index) (wire : turn'.wire = turn.wire) :
    Move d turn answer (.running turn')
  | next (acknowledged : d.Acknowledges turn answer) : Move d turn answer (d.enter (turn.index + 1))

theorem move_resume (d : Delivery) (turn : Turn) (answer : Answer) :
    d.Move turn answer (d.resume turn answer) := by
  unfold resume
  split
  · exact .stays _ rfl rfl
  · rename_i deadline result hstage
    cases hr : IoOutcome.classify result with
    | success =>
      simp only [onSent]
      split
      · exact .stays _ rfl rfl
      · rw [enter_of_le (by omega)]
        exact .ended _
    | wouldBlock => exact .stays _ rfl rfl
    | fail e => exact .ended _
  · split
    · exact .stays _ rfl rfl
    · exact .ended _
  · exact .stays _ rfl rfl
  · exact .stays _ rfl rfl
  · split
    · exact .stays _ rfl rfl
    · unfold onSilence
      split
      · exact .ended _
      · exact .stays _ rfl rfl
  · rename_i deadline result hstage
    cases hr : IoOutcome.classify result with
    | success received =>
      obtain ⟨datagram, source⟩ := received
      simp only [onReceived]
      split
      · rename_i hack
        rw [IoOutcome.classify_eq_success_iff] at hr
        exact .next ⟨deadline, datagram, source, hstage, congrArg _ hr, hack⟩
      · exact .stays _ rfl rfl
    | wouldBlock => exact .stays _ rfl rfl
    | fail e => exact .ended _
  · exact .stays _ rfl rfl

theorem Underway.resume (h : d.Underway turn) {answer : Answer}
    (hr : d.resume turn answer = .running turn') : d.Underway turn' := by
  have hmove := move_resume d turn answer
  rw [hr] at hmove
  generalize hs : State.running turn' = s at hmove
  cases hmove with
  | ended result => cases hs
  | stays next index wire =>
    cases hs
    exact ⟨index ▸ h.index_lt, by rw [index, wire]; exact h.encode⟩
  | next acknowledged => exact (enter_eq_running hs.symm).2

theorem index_resume {answer : Answer} (hr : d.resume turn answer = .running turn') :
    turn'.index = turn.index ∨ d.Acknowledges turn answer ∧ turn'.index = turn.index + 1 := by
  have hmove := move_resume d turn answer
  rw [hr] at hmove
  generalize hs : State.running turn' = s at hmove
  cases hmove with
  | ended result => cases hs
  | stays next index wire =>
    cases hs
    exact .inl index
  | next acknowledged => exact .inr ⟨acknowledged, (enter_eq_running hs.symm).1⟩

/-- The last fragment is sent once: nothing is awaited after it. -/
theorem resume_last {answer : Answer} (ht : Transmits turn answer)
    (hl : d.segments ≤ turn.index + 1) : d.resume turn answer = .ended (.ok d.segments) := by
  obtain ⟨deadline, hstage, rfl⟩ := ht
  simp only [Delivery.resume, hstage, IoOutcome.classify_ok, onSent]
  rw [if_neg (by omega), enter_of_le hl]

section Resume

variable {index attempts : Nat} {wire next datagram : Bytes} {source : SocketAddress}
  {now deadline : Time}

theorem resume_sent (hi : index + 1 < d.segments) :
    d.resume ⟨index, attempts, wire, .send deadline⟩ (.sent (.ok ())) =
      .running ⟨index, attempts, wire, .noteWait⟩ := by
  simp only [Delivery.resume, IoOutcome.classify_ok, onSent, hi, if_true]

theorem resume_early (h : now < deadline) :
    d.resume ⟨index, attempts, wire, .checkWait deadline⟩ (.time now) =
      .running ⟨index, attempts, wire, .receive deadline⟩ := by
  simp only [Delivery.resume, h, if_true]

theorem resume_late (h : deadline ≤ now) (ha : attempts ≤ d.ackRetries) :
    d.resume ⟨index, attempts, wire, .checkWait deadline⟩ (.time now) =
      .running ⟨index, attempts + 1, wire, .noteSend⟩ := by
  simp only [Delivery.resume, onSilence]
  rw [if_neg (Nat.not_lt.2 h), if_neg (by omega)]

theorem resume_acknowledged (hack : d.isAcknowledgedBy datagram source = true)
    (hnext : d.encoder.encode d.message (index + 1) d.segments = .ok next) :
    d.resume ⟨index, attempts, wire, .receive deadline⟩ (.received (.ok (datagram, source))) =
      .running ⟨index + 1, 1, next, .noteSend⟩ := by
  simp only [Delivery.resume, IoOutcome.classify_ok, onReceived, hack, if_true]
  exact enter_of_encode hnext

/-- What a sender can do while nothing is acknowledged; `sent` goes out on the way. -/
inductive Runs (d : Delivery) : State → List Transmission → State → Prop
  | rest (s : State) : Runs d s [] s
  | proceed {turn : Turn} {answer : Answer} {sent : List Transmission} {last : State}
    (unsent : ¬ Transmits turn answer) (silent : ¬ d.Acknowledges turn answer)
    (runs : Runs d (d.resume turn answer) sent last) : Runs d (.running turn) sent last
  | transmit {turn : Turn} {answer : Answer} {sent : List Transmission} {last : State}
    (transmits : Transmits turn answer) (runs : Runs d (d.resume turn answer) sent last) :
    Runs d (.running turn) (turn.transmission :: sent) last

theorem Runs.silent {sent : List Transmission} {last : State} (answer : Answer)
    (hsent : ∀ result, answer ≠ .sent result)
    (hreceived : ∀ result, answer ≠ .received (.ok result))
    (h : Runs d (d.resume turn answer) sent last) : Runs d (.running turn) sent last := by
  refine .proceed ?_ ?_ h
  · rintro ⟨_, -, hanswer⟩
    exact hsent _ hanswer
  · rintro ⟨_, _, _, -, hanswer, -⟩
    exact hreceived _ hanswer

theorem Runs.time {sent : List Transmission} {last : State} (now : Time)
    (h : Runs d (d.resume turn (.time now)) sent last) : Runs d (.running turn) sent last :=
  .silent (.time now) nofun nofun h

theorem runs_attempt (ht : 0 < d.ackTimeout) (hi : index + 1 < d.segments) :
    Runs d (.running ⟨index, attempts, wire, .noteSend⟩) [⟨index, wire⟩]
      (.running ⟨index, attempts, wire, .receive (0 + d.ackTimeout)⟩) := by
  have hwait : Runs d (.running ⟨index, attempts, wire, .noteWait⟩) []
      (.running ⟨index, attempts, wire, .receive (0 + d.ackTimeout)⟩) := by
    refine .time 0 (.time 0 ?_)
    rw [resume_early (Nat.lt_of_lt_of_eq ht (Nat.zero_add _).symm)]
    exact .rest _
  have htransmits : Transmits ⟨index, attempts, wire, .send (0 + d.ackTimeout)⟩ (.sent (.ok ())) :=
    ⟨_, rfl, rfl⟩
  refine .time 0 (.transmit htransmits ?_)
  rw [resume_sent hi]
  exact hwait

theorem runs_timeout (ha : attempts ≤ d.ackRetries) :
    Runs d (.running ⟨index, attempts, wire, .receive deadline⟩) []
      (.running ⟨index, attempts + 1, wire, .noteSend⟩) := by
  refine .silent (.received (.error ⟨.wouldBlock, none⟩)) nofun nofun (.time deadline ?_)
  rw [resume_late (Nat.le_refl deadline) ha]
  exact .rest _

theorem runs_last (hi : index + 1 = d.segments) :
    Runs d (.running ⟨index, attempts, wire, .noteSend⟩) [⟨index, wire⟩]
      (.ended (.ok d.segments)) := by
  have htransmits : Transmits ⟨index, attempts, wire, .send (0 + d.ackTimeout)⟩ (.sent (.ok ())) :=
    ⟨_, rfl, rfl⟩
  refine .time 0 (.transmit htransmits ?_)
  rw [resume_last htransmits (Nat.le_of_eq hi.symm)]
  exact .rest _

end Resume

end Delivery

namespace Sender

def courier : Sender :=
  { encoder := { fragmentSize := 1, phone := "79990000001" }
    ackTimeout := milliseconds 100
    ackRetries := 1 }

def courierAddress : SocketAddress := { ip := .v4 10 0 0 1, port := 4000 }

def errandParcel : Parcel := ⟨{ ip := .v4 10 0 0 9, port := 2948 }, "chat", "mail", [1, 2, 3]⟩

def errand : Delivery :=
  courier.delivery errandParcel 1700000000 (some ⟨4000, Delivery.cookieText 1 1⟩)

def errandWire (i : Nat) : Bytes := (errand.encoder.encode errand.message i 3).toOption.getD []

theorem prepare_errand :
    courier.prepare errandParcel 1700000000 (Delivery.cookieText 1 1) (.ok courierAddress) =
      .ok errand := rfl

theorem sized_errand : errand.message.Sized := ⟨by decide, by decide⟩

theorem encode_errand (i : Nat) (hi : i < 3) :
    errand.encoder.encode errand.message i errand.segments = .ok (errandWire i) := by
  have hin : i * 1 < 3 := by omega
  obtain ⟨wire, hw⟩ := Encoder.exists_encode (e := errand.encoder) (m := errand.message) (by decide)
    hi (by decide) (by decide) (by decide) (fun _ => hin) (fun _ => ⟨_, rfl⟩) rfl
  have hsegments : errand.segments = 3 := rfl
  rw [hsegments, errandWire, hw]
  rfl

theorem printed_errand (i : Nat) (hi : i < 3) :
    errand.encoder.Printed errand.message i errand.segments (errandWire i) :=
  (readable_of_prepare prepare_errand (by decide) sized_errand).printed (encode_errand i hi)

theorem legible_errand : errand.encoder.Legible errand.message where
  dest_colon := by decide
  dest_last := isBlank_eq_false_of_all (by decide)
  source_last := isBlank_eq_false_of_all (by decide)
  phone_colon := by decide
  phone_lineEnd := by decide
  phone_last _ := isBlank_eq_false_of_all (by decide)

theorem isAcknowledgedBy_errand :
    errand.isAcknowledgedBy
      ((Acknowledgement.write (Delivery.cookieText 1 1)).take Delivery.receiveLimit)
      errand.dest = true := by
  decide

end Sender

end MultimediaMessaging
