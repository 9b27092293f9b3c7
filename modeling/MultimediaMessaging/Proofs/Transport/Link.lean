import MultimediaMessaging.Proofs.Transport.Receiving

/-!
One delivery to a receiver over a network that loses and delays datagrams but keeps their order:
what can happen next, and what it does to the receiver and to what is on its way.
-/

set_option autoImplicit false

namespace MultimediaMessaging

open Text

/-- A sender, a receiver and what is on its way between them, the oldest first. `accepted` are the
fragments that the receiver took, in order, and `repeats` says how often it acknowledged one
again. -/
structure Link (τ : Type) where
  sender : Delivery.State
  receiver : Stack τ
  outward : List Delivery.Transmission := []
  homeward : List Acknowledgement.Return := []
  accepted : List Nat := []
  repeats : Nat := 0

namespace Link

variable {τ : Type}

def reply (source : SocketAddress) (request : AckRequest) : Acknowledgement.Return :=
  ⟨source, { ip := source.ip, port := request.port }, Acknowledgement.write request.cookie⟩

/-- The oldest datagram arrives, `rest` being what is still on its way. -/
def arrive [DecidableEq τ] (l : Link τ) (now : Time) (source : SocketAddress)
    (first : Delivery.Transmission) (rest : List Delivery.Transmission) : Link τ :=
  let (ack?, receiver) :=
    Inbound.onReceived l.receiver now (.success (l.receiver.cut first.wire, source))
  let l' := { l with receiver, outward := rest, homeward := l.homeward ++ ack?.toList }
  match l.receiver.reception now source (l.receiver.cut first.wire) with
  | .taken => { l' with accepted := l.accepted ++ [first.index] }
  | .repeated => { l' with repeats := l.repeats + 1 }
  | .refused => l'

inductive Step [DecidableEq τ] (d : Delivery) (source : SocketAddress) (l : Link τ) : Link τ → Prop
  /-- The sender gets an answer that is neither an acknowledgement nor to a datagram sent. -/
  | proceed (turn : Delivery.Turn) (answer : Delivery.Answer) (running : l.sender = .running turn)
    (unsent : ¬ Delivery.Transmits turn answer) (silent : ¬ d.Acknowledges turn answer) :
    Step d source l { l with sender := d.resume turn answer }
  | transmit (turn : Delivery.Turn) (answer : Delivery.Answer) (running : l.sender = .running turn)
    (sent : Delivery.Transmits turn answer) :
    Step d source l
      { l with sender := d.resume turn answer, outward := l.outward ++ [turn.transmission] }
  | loseDatagram (before after : List Delivery.Transmission) (lost : Delivery.Transmission)
    (outward : l.outward = before ++ lost :: after) :
    Step d source l { l with outward := before ++ after }
  | arrive (now : Time) (first : Delivery.Transmission) (rest : List Delivery.Transmission)
    (outward : l.outward = first :: rest) : Step d source l (l.arrive now source first rest)
  | loseReturn (before after : List Acknowledgement.Return) (lost : Acknowledgement.Return)
    (homeward : l.homeward = before ++ lost :: after) :
    Step d source l { l with homeward := before ++ after }
  | acknowledge (turn : Delivery.Turn) (deadline : Time) (first : Acknowledgement.Return)
    (rest : List Acknowledgement.Return) (running : l.sender = .running turn)
    (waiting : turn.stage = .receive deadline) (homeward : l.homeward = first :: rest) :
    Step d source l
      { l with
        sender := d.resume turn (.received (.ok (first.bytes.take Delivery.receiveLimit, d.dest)))
        homeward := rest }
  /-- The receiver does anything that leaves it as it was towards `source`. -/
  | elsewhere (receiver : Stack τ)
    (decoder : receiver.assembler.decoderFor source = l.receiver.assembler.decoderFor source)
    (config : receiver.config = l.receiver.config) : Step d source l { l with receiver }

structure Fresh (d : Delivery) (source : SocketAddress) (l : Link τ) : Prop where
  sender : l.sender = d.start
  outward : l.outward = []
  homeward : l.homeward = []
  accepted : l.accepted = []
  repeats : l.repeats = 0
  cookie : ∀ t ∈ l.receiver.transfer? source, t.cookie ≠ some d.cookie

inductive Reachable [DecidableEq τ] (d : Delivery) (source : SocketAddress) : Link τ → Prop
  | fresh {l : Link τ} (h : Fresh d source l) : Reachable d source l
  | step {l l' : Link τ} (h : Reachable d source l) (hs : Step d source l l') :
    Reachable d source l'

variable {d : Delivery} {source : SocketAddress} {l l' : Link τ}

section Arrival

variable [DecidableEq τ]

theorem arrive_error (now : Time) (first : Delivery.Transmission)
    (rest : List Delivery.Transmission) {err : DecodeError} {after : Decoder}
    (hd : (l.receiver.assembler.decoderFor source).decode (l.receiver.cut first.wire) =
      (.error err, after)) :
    ∃ receiver, receiver.config = l.receiver.config ∧
      receiver.transfer? source = after.transfer? ∧
      l.arrive now source first rest = { l with receiver, outward := rest } := by
  have hfst := congrArg Prod.fst hd
  refine ⟨(l.receiver.onDatagram now source (l.receiver.cut first.wire)).2,
    Stack.config_onDatagram now, by rw [Stack.transfer?_onDatagram, hd], ?_⟩
  simp only [arrive, Stack.reception_error now hfst, Inbound.onReceived,
    Stack.onDatagram_error now hfst, Inbound.reply, Option.toList_none, List.append_nil]

theorem arrive_repeated (now : Time) (first : Delivery.Transmission)
    (rest : List Delivery.Transmission) {request : AckRequest} {after : Decoder}
    (hd : (l.receiver.assembler.decoderFor source).decode (l.receiver.cut first.wire) =
      (.ok (.more request), after)) (hsame : after.transfer? = l.receiver.transfer? source) :
    ∃ receiver, receiver.config = l.receiver.config ∧
      receiver.transfer? source = after.transfer? ∧
      l.arrive now source first rest =
        { l with
          receiver
          outward := rest
          homeward := l.homeward ++ [reply source request]
          repeats := l.repeats + 1 } := by
  have hfst := congrArg Prod.fst hd
  refine ⟨(l.receiver.onDatagram now source (l.receiver.cut first.wire)).2,
    Stack.config_onDatagram now, by rw [Stack.transfer?_onDatagram, hd], ?_⟩
  simp only [arrive, Stack.reception_more now hfst, Inbound.onReceived, hd, hsame, if_true,
    Stack.onDatagram_more now hfst, Inbound.reply, Option.toList_some, reply]

theorem arrive_taken (now : Time) (first : Delivery.Transmission)
    (rest : List Delivery.Transmission) {request : AckRequest} {after : Decoder}
    (hd : (l.receiver.assembler.decoderFor source).decode (l.receiver.cut first.wire) =
      (.ok (.more request), after)) (hnew : after.transfer? ≠ l.receiver.transfer? source) :
    ∃ receiver, receiver.config = l.receiver.config ∧
      receiver.transfer? source = after.transfer? ∧
      l.arrive now source first rest =
        { l with
          receiver
          outward := rest
          homeward := l.homeward ++ [reply source request]
          accepted := l.accepted ++ [first.index] } := by
  have hfst := congrArg Prod.fst hd
  refine ⟨(l.receiver.onDatagram now source (l.receiver.cut first.wire)).2,
    Stack.config_onDatagram now, by rw [Stack.transfer?_onDatagram, hd], ?_⟩
  simp only [arrive, Stack.reception_more now hfst, Inbound.onReceived, hd, hnew, if_false,
    Stack.onDatagram_more now hfst, Inbound.reply, Option.toList_some, reply]

theorem arrive_complete (now : Time) (first : Delivery.Transmission)
    (rest : List Delivery.Transmission) {m : Message} {after : Decoder}
    (hd : (l.receiver.assembler.decoderFor source).decode (l.receiver.cut first.wire) =
      (.ok (.complete m), after)) :
    ∃ receiver, receiver.config = l.receiver.config ∧
      receiver.transfer? source = after.transfer? ∧
      l.arrive now source first rest =
        { l with receiver, outward := rest, accepted := l.accepted ++ [first.index] } := by
  have hfst := congrArg Prod.fst hd
  obtain ⟨disposition, hincoming⟩ := Stack.onDatagram_complete now hfst
  refine ⟨(l.receiver.onDatagram now source (l.receiver.cut first.wire)).2,
    Stack.config_onDatagram now, by rw [Stack.transfer?_onDatagram, hd], ?_⟩
  simp only [arrive, Stack.reception_complete now hfst, Inbound.onReceived, hincoming,
    Inbound.reply, Option.toList_none, List.append_nil]

end Arrival

section Sender

variable [DecidableEq τ] {index attempts : Nat} {wire : Bytes} {deadline : Time}

theorem Reachable.runs {sent : List Delivery.Transmission} {last : Delivery.State}
    (h : Reachable d source l) (hruns : d.Runs l.sender sent last) :
    Reachable d source { l with sender := last, outward := l.outward ++ sent } := by
  generalize hs : l.sender = s at hruns
  induction hruns generalizing l with
  | rest s =>
    rw [← hs, List.append_nil]
    exact h
  | proceed unsent silent runs ih =>
    have hstep := h.step (.proceed _ _ hs unsent silent)
    have hlast := ih hstep rfl
    exact hlast
  | transmit transmits runs ih =>
    have hstep := h.step (.transmit _ _ hs transmits)
    have hsent := ih hstep rfl
    rwa [List.append_assoc] at hsent

theorem Reachable.acknowledged (h : Reachable d source l) {first : Acknowledgement.Return}
    {rest : List Acknowledgement.Return} {next : Bytes}
    (running : l.sender = .running ⟨index, attempts, wire, .receive deadline⟩)
    (homeward : l.homeward = first :: rest)
    (hack : d.isAcknowledgedBy (first.bytes.take Delivery.receiveLimit) d.dest = true)
    (hnext : d.encoder.encode d.message (index + 1) d.segments = .ok next) :
    Reachable d source
      { l with sender := .running ⟨index + 1, 1, next, .noteSend⟩, homeward := rest } := by
  have hstep := h.step (.acknowledge _ deadline first rest running rfl homeward)
  rw [Delivery.resume_acknowledged hack hnext] at hstep
  exact hstep

end Sender

end Link

end MultimediaMessaging
