import MultimediaMessaging.Proofs.Assembly
import MultimediaMessaging.Proofs.Transport.Sending

/-!
One delivery over a network that loses, delays, reorders and duplicates datagrams. Main statement:
whatever arrives, only the message sent is ever completed, and no more often than the network
duplicated a datagram: the last fragment is sent once, and nothing is complete without it.
-/

set_option autoImplicit false

namespace MultimediaMessaging

open Text

namespace Delivery

variable {d : Delivery} {r : Decoder} {wire : Bytes} {i : Nat}

/-- A decoder has nothing of the delivery, or all up to one of its fragments. -/
def Precedes (d : Delivery) (r : Decoder) : Prop :=
  r.transfer? = none ∨ ∃ ack k, d.message.ack = some ack ∧ k + 1 < d.segments ∧
    r.transfer? = some (d.encoder.transfer d.message ack d.message.dest d.segments k)

structure Carries (d : Delivery) (r : Decoder) (wire : Bytes) (i : Nat) : Prop where
  after : d.Precedes (r.decode wire).2
  complete : ∀ m, (r.decode wire).1 = .ok (.complete m) →
    m = d.encoder.readMessage d.message d.message.dest ∧ i + 1 = d.segments

theorem carries_error {err : DecodeError} (hd : r.decode wire = (.error err, r.abandon)) :
    d.Carries r wire i where
  after := by
    rw [hd]
    exact .inl rfl
  complete m hm := by
    rw [hd] at hm
    cases hm

theorem carries_complete (hi : i + 1 = d.segments)
    (hd : r.decode wire =
      (.ok (.complete (d.encoder.readMessage d.message d.message.dest)), r.abandon)) :
    d.Carries r wire i where
  after := by
    rw [hd]
    exact .inl rfl
  complete m hm := by
    rw [hd] at hm
    cases hm
    exact ⟨rfl, hi⟩

theorem carries_more {request : AckRequest} {after : Decoder} (ha : d.Precedes after)
    (hd : r.decode wire = (.ok (.more request), after)) : d.Carries r wire i where
  after := by
    rw [hd]
    exact ha
  complete m hm := by
    rw [hd] at hm
    cases hm

theorem carries_first (hw : d.encoder.Printed d.message 0 d.segments wire)
    (happ : Encoder.readApp? d.message = some d.message.dest)
    (hr : ∀ t ∈ r.transfer?,
      t.isRepeatedBy (d.encoder.fragmentHeader d.message 0 d.segments) = false) :
    d.Carries r wire 0 := by
  by_cases hl : d.message.payload.length ≤ r.limit
  · by_cases hn : 1 < d.segments
    · obtain ⟨ack, hack⟩ := hw.encodes.ack hn
      exact carries_more (.inr ⟨ack, 0, hack, hn, rfl⟩) (Decoder.decode_first hw hack hn hr happ hl)
    · have hi := hw.encodes.index_lt
      have hone : d.segments = 1 := by omega
      rw [hone] at hw hr
      exact carries_complete hone.symm (Decoder.decode_whole hw hr happ hl)
  · obtain ⟨err, hd⟩ := Decoder.decode_refused hw hr (.inr (Nat.lt_of_not_le hl))
    exact carries_error hd

/-- Every fragment is refused, repeated or taken for what it is, whatever came before it. -/
theorem Precedes.carries (hr : d.Precedes r)
    (hw : d.encoder.Printed d.message i d.segments wire)
    (happ : Encoder.readApp? d.message = some d.message.dest) : d.Carries r wire i := by
  have hi := hw.encodes.index_lt
  rcases hr with hnone | ⟨ack, k, hack, hk, hsome⟩
  · by_cases h0 : i = 0
    · subst h0
      exact carries_first hw happ (by simp [hnone])
    · exact carries_error (Decoder.decode_none hw hnone h0)
  · have hn : 1 < d.segments := by omega
    by_cases hsame : i = k
    · subst hsame
      exact carries_more (.inr ⟨ack, i, hack, hk, hsome⟩) (Decoder.decode_same hw hack hn hsome)
    by_cases h0 : i = 0
    · subst h0
      refine carries_first hw happ fun t ht => ?_
      rw [hsome] at ht
      cases ht
      rw [Decoder.isRepeatedBy_transfer hack hn]
      exact decide_eq_false hsame
    by_cases hnext : i = k + 1
    · subst hnext
      by_cases hlast : k + 2 < d.segments
      · exact carries_more (.inr ⟨ack, k + 1, hack, hlast, rfl⟩)
          (Decoder.decode_next hw hack hsome hlast)
      · exact carries_complete (by omega) (Decoder.decode_last hw hack hsome (by omega))
    · exact carries_error (Decoder.decode_astray hw hack hn hsome h0 hsame hnext)

end Delivery

/-- A sender and the assembler of its receiver. `sent` is all that the sender sent; `delivered` says
which of it the network delivered, by its position there, in the order of delivery. -/
structure Passage where
  sender : Delivery.State
  receiver : Assembler
  sent : List Delivery.Transmission := []
  delivered : List Nat := []
  completed : List Message := []

namespace Passage

def completion : Except DecodeError Progress → List Message
  | .ok (.complete m) => [m]
  | _ => []

def deliver (x : Passage) (now : Time) (source : SocketAddress) (k : Nat)
    (t : Delivery.Transmission) : Passage :=
  let (result, receiver) := x.receiver.onFragment now source t.wire
  { x with
    receiver
    delivered := x.delivered ++ [k]
    completed := x.completed ++ completion result }

inductive Step (d : Delivery) (source : SocketAddress) (x : Passage) : Passage → Prop
  | proceed (turn : Delivery.Turn) (answer : Delivery.Answer) (running : x.sender = .running turn)
    (unsent : ¬ Delivery.Transmits turn answer) :
    Step d source x { x with sender := d.resume turn answer }
  | transmit (turn : Delivery.Turn) (answer : Delivery.Answer) (running : x.sender = .running turn)
    (sent : Delivery.Transmits turn answer) :
    Step d source x
      { x with sender := d.resume turn answer, sent := x.sent ++ [turn.transmission] }
  | deliver (now : Time) (k : Nat) (t : Delivery.Transmission) (sent : x.sent[k]? = some t) :
    Step d source x (x.deliver now source k t)
  | other (now : Time) (stranger : SocketAddress) (datagram : Bytes) (ne : stranger ≠ source) :
    Step d source x { x with receiver := (x.receiver.onFragment now stranger datagram).2 }
  | abandon (anyone : SocketAddress) :
    Step d source x { x with receiver := (x.receiver.abandon anyone).2 }
  | tick (now : Time) : Step d source x { x with receiver := (x.receiver.tick now).2 }

structure Fresh (d : Delivery) (source : SocketAddress) (x : Passage) : Prop where
  sender : x.sender = d.start
  sent : x.sent = []
  delivered : x.delivered = []
  completed : x.completed = []
  slots : ∀ slot, (source, slot) ∉ x.receiver.slots

inductive Reachable (d : Delivery) (source : SocketAddress) : Passage → Prop
  | fresh {x : Passage} (h : Fresh d source x) : Reachable d source x
  | step {x x' : Passage} (h : Reachable d source x) (hs : Step d source x x') :
    Reachable d source x'

def SentLast (d : Delivery) (x : Passage) (k : Nat) : Prop :=
  ∃ t, x.sent[k]? = some t ∧ t.index + 1 = d.segments

structure Invariant (d : Delivery) (source : SocketAddress) (x : Passage) : Prop where
  underway : ∀ turn, x.sender = .running turn → d.Underway turn
  sent : ∀ t ∈ x.sent, d.encoder.encode d.message t.index d.segments = .ok t.wire
  /-- While the sender is running the last fragment is still to be sent. -/
  pending : ∀ turn, x.sender = .running turn → ∀ k, ¬ SentLast d x k
  last : ∀ j k, SentLast d x j → SentLast d x k → j = k
  slots : ∀ slot, (source, slot) ∈ x.receiver.slots → d.Precedes slot.decoder
  completed : ∀ m ∈ x.completed, m = d.encoder.message d.message
  /-- Each completion is due to a delivery of the last fragment. -/
  due : ∃ ks : List Nat, ks.Sublist x.delivered ∧ ks.length = x.completed.length ∧
    ∀ k ∈ ks, SentLast d x k

variable {d : Delivery} {source : SocketAddress} {x x' : Passage}

theorem SentLast.append {k : Nat} (h : SentLast d x k) (ts : List Delivery.Transmission) :
    SentLast d { x with sent := x.sent ++ ts } k := by
  obtain ⟨t, ht, hlast⟩ := h
  refine ⟨t, ?_, hlast⟩
  change (x.sent ++ ts)[k]? = some t
  rw [List.getElem?_append_left (List.getElem?_eq_some_iff.1 ht).1]
  exact ht

theorem sentLast_concat {t : Delivery.Transmission} {k : Nat}
    (h : SentLast d { x with sent := x.sent ++ [t] } k) :
    SentLast d x k ∨ k = x.sent.length ∧ t.index + 1 = d.segments := by
  obtain ⟨u, hu, hlast⟩ := h
  rcases getElem?_concat_iff.1 hu with hold | ⟨hk, rfl⟩
  · exact .inl ⟨u, hold, hlast⟩
  · exact .inr ⟨hk, hlast⟩

theorem Invariant.proceed (h : Invariant d source x) {turn : Delivery.Turn}
    (running : x.sender = .running turn) (answer : Delivery.Answer) :
    Invariant d source { x with sender := d.resume turn answer } where
  underway _ hr := (h.underway turn running).resume hr
  sent := h.sent
  pending _ _ := h.pending turn running
  last := h.last
  slots := h.slots
  completed := h.completed
  due := h.due

theorem Invariant.transmit (h : Invariant d source x) {turn : Delivery.Turn}
    {answer : Delivery.Answer} (running : x.sender = .running turn)
    (sent : Delivery.Transmits turn answer) :
    Invariant d source
      { x with sender := d.resume turn answer, sent := x.sent ++ [turn.transmission] } := by
  have hunderway := h.underway turn running
  have hpending := h.pending turn running
  exact
    { underway := fun _ hr => hunderway.resume hr
      sent := fun t ht => by
        rcases List.mem_append.1 ht with ht | ht
        · exact h.sent t ht
        · rw [List.mem_singleton.1 ht]
          exact hunderway.encode
      pending := fun _ hr k hk => by
        rcases sentLast_concat hk with hk | ⟨-, hlast⟩
        · exact hpending k hk
        · -- after the last fragment the sender would have ended
          have hended := Delivery.resume_last sent (Nat.le_of_eq hlast.symm)
          cases hended.symm.trans hr
      last := fun j k hj hk => by
        rcases sentLast_concat hj with hj | ⟨hj, -⟩
        · exact absurd hj (hpending j)
        · rcases sentLast_concat hk with hk | ⟨hk, -⟩
          · exact absurd hk (hpending k)
          · rw [hj, hk]
      slots := h.slots
      completed := h.completed
      due := by
        obtain ⟨ks, hsub, hlength, hlast⟩ := h.due
        exact ⟨ks, hsub, hlength, fun k hk => (hlast k hk).append _⟩ }

theorem Invariant.withReceiver (h : Invariant d source x) {receiver : Assembler}
    (hs : ∀ slot, (source, slot) ∈ receiver.slots → (source, slot) ∈ x.receiver.slots) :
    Invariant d source { x with receiver } where
  underway := h.underway
  sent := h.sent
  pending := h.pending
  last := h.last
  slots slot hslot := h.slots slot (hs slot hslot)
  completed := h.completed
  due := h.due

theorem Invariant.precedes (h : Invariant d source x) :
    d.Precedes (x.receiver.decoderFor source) := by
  cases hslot : x.receiver.slots.get? source with
  | none => exact .inl (Assembler.transfer?_decoderFor_of_none hslot)
  | some slot =>
    rw [Assembler.decoderFor, hslot]
    exact h.slots slot (Table.mem_of_get? hslot)

/-- A datagram completes nothing, or the message if it is the last fragment. -/
theorem completed_deliver (now : Time) (k : Nat) {t : Delivery.Transmission}
    (hc : d.Carries (x.receiver.decoderFor source) t.wire t.index) :
    (x.deliver now source k t).completed = x.completed ∨
      t.index + 1 = d.segments ∧ (x.deliver now source k t).completed =
        x.completed ++ [d.encoder.readMessage d.message d.message.dest] := by
  have hall : (x.deliver now source k t).completed =
      x.completed ++ completion ((x.receiver.decoderFor source).decode t.wire).1 := rfl
  rw [hall]
  match hresult : ((x.receiver.decoderFor source).decode t.wire).1 with
  | .ok (.complete m) =>
    obtain ⟨rfl, hlast⟩ := hc.complete m hresult
    exact .inr ⟨hlast, rfl⟩
  | .ok (.more request) => exact .inl (List.append_nil _)
  | .error err => exact .inl (List.append_nil _)

theorem Invariant.deliver (h : Invariant d source x) (hr : d.Readable)
    (hl : d.encoder.Legible d.message) (now : Time) {k : Nat}
    {t : Delivery.Transmission} (sent : x.sent[k]? = some t) :
    Invariant d source (x.deliver now source k t) := by
  have hwire := h.sent t (List.mem_of_getElem? sent)
  have hencodes := Encoder.encodes_of_encode hwire
  have happ := Encoder.readApp?_eq hl hencodes.dest_ne
  have hmessage := Encoder.readMessage_eq hl hencodes.source_safe
  have hcarries := h.precedes.carries (hr.printed hwire) happ
  have hcompleted := completed_deliver now k hcarries
  exact
    { underway := h.underway
      sent := h.sent
      pending := h.pending
      last := h.last
      slots := fun slot hslot => by
        rcases Assembler.mem_slots_onFragment hslot with hold | ⟨-, hnew⟩
        · exact h.slots slot hold
        · cases hnew
          exact hcarries.after
      completed := fun m hm => by
        rcases hcompleted with hsame | ⟨-, hmore⟩
        · rw [hsame] at hm
          exact h.completed m hm
        · rw [hmore] at hm
          rcases List.mem_append.1 hm with hm | hm
          · exact h.completed m hm
          · exact (List.mem_singleton.1 hm).trans hmessage
      due := by
        obtain ⟨ks, hsub, hlength, hlast⟩ := h.due
        rcases hcompleted with hsame | ⟨hindex, hmore⟩
        · exact ⟨ks, hsub.trans (List.sublist_append_left _ _), by rw [hsame, hlength], hlast⟩
        · refine ⟨ks ++ [k], hsub.append (List.Sublist.refl [k]), ?_, fun j hj => ?_⟩
          · rw [hmore, List.length_append, List.length_append, hlength]
            rfl
          · rcases List.mem_append.1 hj with hj | hj
            · exact hlast j hj
            · rw [List.mem_singleton.1 hj]
              exact ⟨t, sent, hindex⟩ }

theorem Invariant.step (h : Invariant d source x) (hr : d.Readable)
    (hl : d.encoder.Legible d.message) (hs : Step d source x x') :
    Invariant d source x' := by
  cases hs with
  | proceed turn answer running unsent => exact h.proceed running answer
  | transmit turn answer running sent => exact h.transmit running sent
  | deliver now k t sent => exact h.deliver hr hl now sent
  | other now stranger datagram ne =>
    refine h.withReceiver fun slot hslot => ?_
    rcases Assembler.mem_slots_onFragment hslot with hold | ⟨-, hnew⟩
    · exact hold
    · cases hnew
      exact absurd rfl ne
  | abandon anyone => exact h.withReceiver fun slot hslot => Assembler.mem_slots_abandon hslot
  | tick now => exact h.withReceiver fun slot hslot => Assembler.mem_slots_tick hslot

theorem invariant_of_fresh (h : Fresh d source x) : Invariant d source x := by
  obtain ⟨hsender, hsent, hdelivered, hcompleted, hslots⟩ := h
  have hnone : ∀ k, ¬ SentLast d x k := by
    rintro k ⟨t, ht, -⟩
    rw [hsent] at ht
    cases ht
  exact
    { underway := fun turn hr => (Delivery.enter_eq_running (hsender.symm.trans hr)).2
      sent := by simp [hsent]
      pending := fun _ _ => hnone
      last := fun j _ hj _ => absurd hj (hnone j)
      slots := fun slot hslot => absurd hslot (hslots slot)
      completed := by simp [hcompleted]
      due := ⟨[], List.nil_sublist _, by rw [hcompleted]; rfl, by simp⟩ }

theorem invariant_of_reachable (hr : d.Readable) (hl : d.encoder.Legible d.message)
    (h : Reachable d source x) : Invariant d source x := by
  induction h with
  | fresh h => exact invariant_of_fresh h
  | step _ hs ih => exact ih.step hr hl hs

/-- Every message completed is the one sent, and it is completed once if no datagram is delivered
twice. -/
theorem completed_of_reachable {s : Sender} {parcel : Parcel} {timestamp millis : Nat}
    {counter : UInt32} {address : Except IoError SocketAddress}
    (hd : s.prepare parcel timestamp (Delivery.cookieText millis counter) address = .ok d)
    (hl : s.encoder.Legible d.message) (hm : d.message.Sized) (h : Reachable d source x) :
    (∀ m ∈ x.completed, m = s.encoder.message d.message) ∧
      (x.delivered.Nodup → x.completed.length ≤ 1) := by
  have hencoder := Sender.encoder_of_prepare hd
  rw [← hencoder] at hl ⊢
  have hr := Sender.readable_of_prepare hd (hencoder ▸ hl.phone_lineEnd) hm
  have hinv := invariant_of_reachable hr hl h
  refine ⟨hinv.completed, fun hnodup => ?_⟩
  obtain ⟨ks, hsub, hlength, hlast⟩ := hinv.due
  have hks : ks.Nodup := hnodup.sublist hsub
  rw [← hlength]
  match ks, hks, hlast with
  | [], _, _ => exact Nat.zero_le 1
  | [_], _, _ => exact Nat.le_refl 1
  | j :: k :: _, hks, hlast =>
    have hsame := hinv.last j k (hlast j (by simp)) (hlast k (by simp))
    rw [hsame] at hks
    exact absurd hks (by simp)

section Errand

open Sender

variable {now : Time} {k : Nat} {t : Delivery.Transmission} {after : Decoder}

theorem Reachable.runs {sent : List Delivery.Transmission} {last : Delivery.State}
    (h : Reachable d source x) (hruns : d.Runs x.sender sent last) :
    Reachable d source { x with sender := last, sent := x.sent ++ sent } := by
  generalize hs : x.sender = s at hruns
  induction hruns generalizing x with
  | rest s =>
    rw [← hs, List.append_nil]
    exact h
  | proceed unsent silent runs ih =>
    have hstep := h.step (.proceed _ _ hs unsent)
    have hlast := ih hstep rfl
    exact hlast
  | transmit transmits runs ih =>
    have hstep := h.step (.transmit _ _ hs transmits)
    have hsent := ih hstep rfl
    rwa [List.append_assoc] at hsent

theorem Reachable.acknowledged {index attempts : Nat} {wire next datagram : Bytes}
    {deadline : Time} (h : Reachable d source x)
    (running : x.sender = .running ⟨index, attempts, wire, .receive deadline⟩)
    (hack : d.isAcknowledgedBy datagram d.dest = true)
    (hnext : d.encoder.encode d.message (index + 1) d.segments = .ok next) :
    Reachable d source { x with sender := .running ⟨index + 1, 1, next, .noteSend⟩ } := by
  have hstep := h.step (.proceed _ (.received (.ok (datagram, d.dest))) running
    fun ⟨_, hstage, _⟩ => by cases hstage)
  rw [Delivery.resume_acknowledged hack hnext] at hstep
  exact hstep

theorem deliver_of_decode {result : Except DecodeError Progress}
    (hd : (x.receiver.decoderFor source).decode t.wire = (result, after)) :
    x.deliver now source k t =
      { x with
        receiver := (x.receiver.onFragment now source t.wire).2
        delivered := x.delivered ++ [k]
        completed := x.completed ++ completion result } := by
  have hresult : (x.receiver.onFragment now source t.wire).1 = result := congrArg Prod.fst hd
  subst hresult
  rfl

theorem Reachable.deliver_more {request : AckRequest} (h : Reachable d source x)
    (sent : x.sent[k]? = some t)
    (hd : (x.receiver.decoderFor source).decode t.wire = (.ok (.more request), after)) :
    ∃ receiver : Assembler, receiver.limit = x.receiver.limit ∧
      (receiver.decoderFor source).transfer? = after.transfer? ∧
      Reachable d source { x with receiver, delivered := x.delivered ++ [k] } := by
  have hstep := h.step (.deliver 0 k t sent)
  have hnone : completion (.ok (.more request)) = [] := rfl
  rw [deliver_of_decode hd, hnone, List.append_nil] at hstep
  exact ⟨(x.receiver.onFragment 0 source t.wire).2, rfl,
    by rw [Assembler.transfer?_onFragment, hd], hstep⟩

theorem Reachable.deliver_complete {m : Message} (h : Reachable d source x)
    (sent : x.sent[k]? = some t)
    (hd : (x.receiver.decoderFor source).decode t.wire = (.ok (.complete m), after)) :
    ∃ receiver : Assembler, receiver.limit = x.receiver.limit ∧
      receiver.decoderFor source = { limit := x.receiver.limit } ∧
      Reachable d source
        { x with
          receiver
          delivered := x.delivered ++ [k]
          completed := x.completed ++ [m] } := by
  have hstep := h.step (.deliver 0 k t sent)
  rw [deliver_of_decode hd, completion] at hstep
  exact ⟨(x.receiver.onFragment 0 source t.wire).2, rfl,
    Assembler.decoderFor_onFragment_complete hd, hstep⟩

def errandInbox : Assembler := { maxPending := 16, timeout := milliseconds 30000, limit := 307200 }

/-- The first fragment is sent twice, since its acknowledgement comes late. -/
def errandSent : List Delivery.Transmission :=
  [⟨0, errandWire 0⟩, ⟨0, errandWire 0⟩, ⟨1, errandWire 1⟩, ⟨2, errandWire 2⟩]

theorem reachable_errand_sent :
    Reachable errand courierAddress
      { sender := .ended (.ok 3), receiver := errandInbox, sent := errandSent } := by
  have hstart : Reachable errand courierAddress
      { sender := .running ⟨0, 1, errandWire 0, .noteSend⟩, receiver := errandInbox } :=
    .fresh ⟨(Delivery.enter_of_encode (encode_errand 0 (by decide))).symm, rfl, rfl, rfl,
      fun _ hslot => by cases hslot⟩
  have hagain := ((hstart.runs (Delivery.runs_attempt (by decide) (by decide))).runs
    (Delivery.runs_timeout (by decide))).runs (Delivery.runs_attempt (by decide) (by decide))
  have hsecond := (hagain.acknowledged rfl isAcknowledgedBy_errand
    (encode_errand 1 (by decide))).runs (Delivery.runs_attempt (by decide) (by decide))
  exact (hsecond.acknowledged rfl isAcknowledgedBy_errand
    (encode_errand 2 (by decide))).runs (Delivery.runs_last rfl)

def errandTransfer (i : Nat) : Transfer :=
  errand.encoder.transfer errand.message ⟨4000, Delivery.cookieText 1 1⟩ "chat" 3 i

def errandMessage : Message := errand.encoder.readMessage errand.message "chat"

theorem Reachable.errand_first (h : Reachable errand courierAddress x)
    (sent : x.sent[k]? = some ⟨0, errandWire 0⟩)
    (hfresh : x.receiver.decoderFor courierAddress = { limit := 307200 }) :
    ∃ receiver : Assembler, receiver.limit = x.receiver.limit ∧
      (receiver.decoderFor courierAddress).transfer? = some (errandTransfer 0) ∧
      Reachable errand courierAddress
        { x with receiver, delivered := x.delivered ++ [k] } :=
  h.deliver_more sent (Decoder.decode_first (printed_errand 0 (by decide)) rfl (by decide)
    (by simp [hfresh]) (Encoder.readApp?_eq legible_errand (by decide)) (by rw [hfresh]; decide))

theorem Reachable.errand_repeated (h : Reachable errand courierAddress x)
    (sent : x.sent[k]? = some ⟨0, errandWire 0⟩)
    (htransfer : (x.receiver.decoderFor courierAddress).transfer? = some (errandTransfer 0)) :
    ∃ receiver : Assembler, receiver.limit = x.receiver.limit ∧
      (receiver.decoderFor courierAddress).transfer? = some (errandTransfer 0) ∧
      Reachable errand courierAddress
        { x with receiver, delivered := x.delivered ++ [k] } := by
  rw [← htransfer]
  exact h.deliver_more sent
    (Decoder.decode_same (printed_errand 0 (by decide)) rfl (by decide) htransfer)

theorem Reachable.errand_rest (h : Reachable errand courierAddress x) (sent : x.sent = errandSent)
    (htransfer : (x.receiver.decoderFor courierAddress).transfer? = some (errandTransfer 0)) :
    ∃ receiver : Assembler,
      receiver.decoderFor courierAddress = { limit := x.receiver.limit } ∧
      Reachable errand courierAddress
        { x with
          receiver
          delivered := x.delivered ++ [2] ++ [3]
          completed := x.completed ++ [errandMessage] } := by
  have hnext : x.sent[2]? = some ⟨1, errandWire 1⟩ := by rw [sent]; rfl
  have hlast : x.sent[3]? = some ⟨2, errandWire 2⟩ := by rw [sent]; rfl
  obtain ⟨second, hlimit, hsecond, hmore⟩ := h.deliver_more hnext
    (Decoder.decode_next (printed_errand 1 (by decide)) rfl htransfer (by decide))
  obtain ⟨third, -, hfresh, hcomplete⟩ := hmore.deliver_complete hlast
    (Decoder.decode_last (printed_errand 2 (by decide)) rfl hsecond rfl)
  exact ⟨third, by rw [hfresh, hlimit], hcomplete⟩

/-- The late fragment comes twice, and the message is completed. Then all of it comes again, since
the network duplicated it, and the message is completed again. -/
theorem reachable_errand_twice :
    ∃ once twice : Passage, Reachable errand courierAddress once ∧
      Reachable errand courierAddress twice ∧ once.sent = errandSent ∧ twice.sent = errandSent ∧
      once.delivered = [1, 0, 2, 3] ∧ once.completed = [errandMessage] ∧
      twice.delivered = [1, 0, 2, 3, 0, 2, 3] ∧
      twice.completed = [errandMessage, errandMessage] := by
  obtain ⟨first, hlimit, htransfer, hfirst⟩ :=
    reachable_errand_sent.errand_first (k := 1) rfl rfl
  obtain ⟨second, hlimit', htransfer', hrepeated⟩ := hfirst.errand_repeated (k := 0) rfl htransfer
  obtain ⟨third, hfresh, honce⟩ := hrepeated.errand_rest rfl htransfer'
  have hsame : second.limit = 307200 := hlimit'.trans hlimit
  have hlast : third.decoderFor courierAddress = { limit := 307200 } :=
    hfresh.trans (congrArg (fun limit => ({ limit } : Decoder)) hsame)
  obtain ⟨fourth, -, hagain, hfourth⟩ := honce.errand_first (k := 0) rfl hlast
  obtain ⟨fifth, -, htwice⟩ := hfourth.errand_rest rfl hagain
  exact ⟨_, _, honce, htwice, rfl, rfl, rfl, rfl, rfl, rfl⟩

theorem completed_errand :
    ∃ once twice : Passage, once.sent.map (·.index) = [0, 0, 1, 2] ∧
      once.delivered = [1, 0, 2, 3] ∧ once.completed ≠ [] ∧
      (∀ m ∈ once.completed, m = ⟨"mms://79990000001", "chat", "mail", 1700000000, [1, 2, 3]⟩) ∧
      once.delivered.Nodup ∧ once.completed.length ≤ 1 ∧
      twice.delivered = [1, 0, 2, 3, 0, 2, 3] ∧ twice.completed.length = 2 ∧
      ∀ m ∈ twice.completed, m = ⟨"mms://79990000001", "chat", "mail", 1700000000, [1, 2, 3]⟩ := by
  obtain ⟨once, twice, honce, htwice, hsent, -, hdelivered, hcompleted, hdelivered', hcompleted'⟩ :=
    reachable_errand_twice
  obtain ⟨hsame, hatMostOnce⟩ :=
    completed_of_reachable prepare_errand legible_errand sized_errand honce
  obtain ⟨hsame', -⟩ := completed_of_reachable prepare_errand legible_errand sized_errand htwice
  have hnodup : once.delivered.Nodup := by
    rw [hdelivered]
    decide
  exact ⟨once, twice, by rw [hsent]; rfl, hdelivered, by simp [hcompleted], hsame, hnodup,
    hatMostOnce hnodup, hdelivered', by rw [hcompleted']; rfl, hsame'⟩

end Errand

end Passage

end MultimediaMessaging
