import MultimediaMessaging.Proofs.Fragment.Acknowledgement
import MultimediaMessaging.Proofs.Isolation
import MultimediaMessaging.Proofs.Stack.Registrations
import MultimediaMessaging.Proofs.Transport.Discipline
import MultimediaMessaging.Proofs.Transport.Receiving

/-!
Receiving in a loop, whatever the socket does. Main statement: the datagrams that are to be
acknowledged are, each once and in their order, and nothing else is sent; a sender whose
acknowledgement cannot be sent loses its transfer and has to begin again, and nobody else notices.
-/

set_option autoImplicit false

namespace MultimediaMessaging

open Text

def Opens (datagram : Bytes) : Prop :=
  ∃ h body, Header.parse datagram = .ok (h, body) ∧ h.fragment = 0

/-- Why a datagram that opens nothing is refused where nothing is open: its header cannot be taken,
or there is nothing that it continues. -/
inductive Strays (datagram : Bytes) : DecodeError → Prop
  | header {e : DecodeError} (parse : Header.parse datagram = .error e) : Strays datagram e
  | range {h : Header} {body : Bytes} (parse : Header.parse datagram = .ok (h, body))
      (hrange : h.segments ≤ h.fragment) :
      Strays datagram (.fragmentOutOfRange h.fragment h.segments)
  | cookie {h : Header} {body : Bytes} (parse : Header.parse datagram = .ok (h, body))
      (hcookie : 1 < h.segments ∧ h.ackCookie = none) :
      Strays datagram (.missingCookie h.fragment)
  | noTransfer {h : Header} {body : Bytes} (parse : Header.parse datagram = .ok (h, body))
      (hnext : h.fragment ≠ 0) : Strays datagram (.noTransfer h.fragment)

theorem Decoder.strays {d : Decoder} {datagram : Bytes} (hnone : d.transfer? = none)
    (hopens : ¬ Opens datagram) :
    ∃ e, (d.decode datagram).1 = .error e ∧ Strays datagram e := by
  cases hp : Header.parse datagram with
  | error e => exact ⟨e, by simp [decode, hp, Except.bind], .header hp⟩
  | ok read =>
    obtain ⟨h, body⟩ := read
    have hnext : h.fragment ≠ 0 := fun hzero => hopens ⟨h, body, hp, hzero⟩
    rw [decode_eq_of_parse hp]
    by_cases hrange : h.segments ≤ h.fragment
    · exact ⟨_, by rw [accept, if_pos hrange], .range hp hrange⟩
    by_cases hcookie : 1 < h.segments ∧ h.ackCookie = none
    · exact ⟨_, by rw [accept, if_neg hrange, if_pos hcookie], .cookie hp hcookie⟩
    · have hadmissible : h.Admissible :=
        ⟨Nat.lt_of_not_le hrange, fun hmany hcookieless => hcookie ⟨hmany, hcookieless⟩⟩
      exact ⟨_, by rw [accept_none hadmissible hnone hnext], .noTransfer hp hnext⟩

namespace Stack

variable {τ : Type} {s : Stack τ} {source other : SocketAddress} {datagram : Bytes}

/-- What is left of a stack that has given up what came from `source`: of all transfers only that
one is gone, and nothing but transfers is touched. -/
structure Forgets (s : Stack τ) (source : SocketAddress) (s' : Stack τ) : Prop where
  gone : s'.assembler.slots.get? source = none
  others : ∀ other, source ≠ other →
    s'.assembler.slots.get? other = s.assembler.slots.get? other
  rest : s' = { s with assembler := s'.assembler }

theorem forgets_abandon (s : Stack τ) (source : SocketAddress) :
    s.Forgets source (s.abandon source).2 where
  gone := (congrArg (Table.get? · source) (Assembler.slots_abandon _ _)).trans
    (Table.get?_erase_self _ _)
  others other hne := (congrArg (Table.get? · other) (Assembler.slots_abandon _ _)).trans
    (Table.get?_erase_ne _ hne)
  rest := rfl

theorem Forgets.get?_eq_none {s' : Stack τ} (h : s.Forgets other s')
    (hnone : s.assembler.slots.get? source = none) : s'.assembler.slots.get? source = none := by
  by_cases hsame : other = source
  · exact hsame ▸ h.gone
  · rw [h.others source hsame, hnone]

variable [DecidableEq τ]

/-- The datagrams of one sender open no transfer of another. -/
theorem get?_onDatagram_ne (now : Time) (hne : other ≠ source)
    (hnone : s.assembler.slots.get? source = none) :
    (s.onDatagram now other datagram).2.assembler.slots.get? source = none := by
  rw [assembler_onDatagram, ← Table.notMem_keys_iff]
  intro hmem
  obtain ⟨entry, hentry, rfl⟩ := List.mem_map.1 hmem
  rcases Assembler.mem_slots_onFragment hentry with hold | ⟨-, rfl⟩
  · exact Table.notMem_keys_iff.2 hnone (List.mem_map_of_mem hold)
  · exact hne rfl

theorem get?_onDatagram_error (now : Time) {e : DecodeError}
    (hd : ((s.assembler.decoderFor source).decode datagram).1 = .error e) :
    (s.onDatagram now source datagram).2.assembler.slots.get? source = none := by
  rw [assembler_onDatagram, Assembler.slots_onFragment, hd]
  exact Table.get?_erase_self _ _

theorem decode_of_needMore {now : Time} {request : AckRequest}
    (h : (s.onDatagram now source datagram).1 = .needMore request) :
    ((s.assembler.decoderFor source).decode datagram).1 = .ok (.more request) := by
  rw [← Assembler.onFragment_fst s.assembler now source datagram]
  simp only [onDatagram] at h
  split at h <;> simp_all

/-- Nothing that a sender without a transfer sends is taken, until it begins a new one. -/
theorem strays_onDatagram (now : Time) (hnone : s.assembler.slots.get? source = none)
    (hopens : ¬ Opens datagram) :
    (∃ e, (s.onDatagram now source datagram).1 = .aborted e ∧ Strays datagram e) ∧
      (s.onDatagram now source datagram).2.assembler.slots.get? source = none := by
  obtain ⟨e, hd, hstrays⟩ :=
    Decoder.strays (Assembler.transfer?_decoderFor_of_none hnone) hopens
  exact ⟨⟨e, onDatagram_error now hd, hstrays⟩, get?_onDatagram_error now hd⟩

end Stack

namespace Inbound

/-- One round of the loop: the stack that it found, what the socket gave and when, what was sent
with what result, and the stack that it left. -/
structure Turn (τ : Type) where
  before : Stack τ
  received : Except IoError (Bytes × SocketAddress)
  now : Time
  sent : List (Bytes × SocketAddress × Except IoError Unit)
  after : Stack τ

namespace Turn

variable {τ : Type}

def calls (turn : Turn τ) : List Socket.Entry :=
  .receive turn.before.config.maxDatagramSize.toNat turn.received :: .read turn.now ::
    turn.sent.map fun (wire, dest, result) => .send wire dest result

def Opens (turn : Turn τ) (source : SocketAddress) : Prop :=
  ∃ datagram, turn.received = .ok (datagram, source) ∧ MultimediaMessaging.Opens datagram

def Fails (turn : Turn τ) (source : SocketAddress) : Prop :=
  ∃ datagram wire dest e, turn.received = .ok (datagram, source) ∧
    (wire, dest, .error e) ∈ turn.sent

variable [DecidableEq τ]

structure Answers (turn : Turn τ) (source : SocketAddress) (datagram : Bytes) (incoming : Incoming)
    (taken : Stack τ) : Prop where
  received : turn.received = .ok (datagram, source)
  answer : turn.before.onDatagram turn.now source datagram = (incoming, taken)

structure Acknowledges (wire : Bytes) (dest source : SocketAddress) (request : AckRequest) :
    Prop where
  dest : dest = { ip := source.ip, port := request.port }
  wire : Acknowledgement.read wire = some request.cookie

inductive Settled (turn : Turn τ) : Prop
  | idle {e : IoError} (received : turn.received = .error e) (sent : turn.sent = [])
      (after : turn.after = turn.before)
  | quiet {source : SocketAddress} {datagram : Bytes} {incoming : Incoming}
      (answers : turn.Answers source datagram incoming turn.after)
      (unasked : ∀ request, incoming ≠ .needMore request) (sent : turn.sent = [])
  | acknowledged {source dest : SocketAddress} {datagram wire : Bytes} {request : AckRequest}
      (answers : turn.Answers source datagram (.needMore request) turn.after)
      (acknowledges : Acknowledges wire dest source request)
      (sent : turn.sent = [(wire, dest, .ok ())])
  | failed {source dest : SocketAddress} {datagram wire : Bytes} {request : AckRequest}
      {e : IoError} {taken : Stack τ}
      (answers : turn.Answers source datagram (.needMore request) taken)
      (acknowledges : Acknowledges wire dest source request)
      (sent : turn.sent = [(wire, dest, .error e)]) (forgets : taken.Forgets source turn.after)

namespace Settled

variable {turn : Turn τ} {source : SocketAddress}

theorem get?_after (h : turn.Settled) (hfails : turn.Fails source) :
    turn.after.assembler.slots.get? source = none := by
  obtain ⟨datagram, wire, dest, e, hreceived, hmem⟩ := hfails
  cases h with
  | idle received sent after => simp [sent] at hmem
  | quiet answers unasked sent => simp [sent] at hmem
  | acknowledged answers acknowledges sent => simp [sent] at hmem
  | failed answers acknowledges sent forgets =>
    obtain ⟨-, rfl⟩ := Prod.mk.inj (Except.ok.inj (hreceived.symm.trans answers.received))
    exact forgets.gone

end Settled

structure Refuses (turn : Turn τ) (source : SocketAddress) : Prop where
  none : turn.before.assembler.slots.get? source = none
  aborted : ∀ datagram, turn.received = .ok (datagram, source) →
    ∃ e, (turn.before.onDatagram turn.now source datagram).1 = .aborted e ∧ Strays datagram e

theorem Answers.get?_eq_none {turn : Turn τ} {source other : SocketAddress} {datagram : Bytes}
    {incoming : Incoming} {taken : Stack τ} (h : turn.Answers other datagram incoming taken)
    (hnone : turn.before.assembler.slots.get? source = none) (hopens : ¬ turn.Opens source) :
    taken.assembler.slots.get? source = none := by
  obtain rfl : (turn.before.onDatagram turn.now other datagram).2 = taken := congrArg (·.2) h.answer
  by_cases hsame : other = source
  · subst hsame
    exact (Stack.strays_onDatagram _ hnone fun hd => hopens ⟨datagram, h.received, hd⟩).2
  · exact Stack.get?_onDatagram_ne _ hsame hnone

/-- Who has no transfer gets none without a first fragment. -/
theorem Settled.refuses {turn : Turn τ} {source : SocketAddress} (h : turn.Settled)
    (hnone : turn.before.assembler.slots.get? source = none) (hopens : ¬ turn.Opens source) :
    turn.Refuses source ∧ turn.after.assembler.slots.get? source = none := by
  refine ⟨⟨hnone, fun datagram hreceived => ?_⟩, ?_⟩
  · exact (Stack.strays_onDatagram _ hnone fun hd => hopens ⟨datagram, hreceived, hd⟩).1
  · cases h with
    | idle received sent after => rw [after, hnone]
    | quiet answers unasked sent => exact answers.get?_eq_none hnone hopens
    | acknowledged answers acknowledges sent => exact answers.get?_eq_none hnone hopens
    | failed answers acknowledges sent forgets =>
      exact forgets.get?_eq_none (answers.get?_eq_none hnone hopens)

end Turn

section Round

variable {σ τ : Type} [DecidableEq τ] {socket : Socket (StateM σ)} {stack after : Stack τ}
  {start heard told next : σ} {received : Except IoError (Bytes × SocketAddress)} {now : Time}
  {ack : Acknowledgement.Return} {result : Except IoError Unit}

theorem round_of_none
    (hreceive : socket.receive stack.config.maxDatagramSize.toNat start = (received, heard))
    (hnow : socket.now heard = (now, told))
    (h : onReceived stack now (.classify received) = (none, after)) :
    round socket stack start = (after, told) := by
  simp only [round, bind, StateT.bind, hreceive, hnow, h]
  rfl

theorem round_of_some
    (hreceive : socket.receive stack.config.maxDatagramSize.toNat start = (received, heard))
    (hnow : socket.now heard = (now, told))
    (h : onReceived stack now (.classify received) = (some ack, after))
    (hsend : socket.send ack.bytes ack.dest told = (result, next)) :
    round socket stack start = (onReplied after ack result, next) := by
  simp only [round, bind, StateT.bind, hreceive, hnow, h, hsend]
  rfl

theorem onReceived_error (stack : Stack τ) (now : Time) (e : IoError) :
    onReceived stack now (.classify (.error e)) = (none, stack) := by
  unfold onReceived
  split
  · rename_i hr
    simp [IoOutcome.classify_eq_success_iff] at hr
  · rfl

theorem onReceived_ok {source : SocketAddress} {datagram : Bytes} {incoming : Incoming}
    (h : stack.onDatagram now source datagram = (incoming, after)) :
    onReceived stack now (.classify (.ok (datagram, source))) = (reply source incoming, after) := by
  simp only [IoOutcome.classify_ok, onReceived, h]

/-- An answer that asks for nothing gets no reply. -/
theorem reply_eq_none {source : SocketAddress} {incoming : Incoming}
    (h : ∀ request, incoming ≠ .needMore request) : reply source incoming = none := by
  cases incoming with
  | needMore request => exact absurd rfl (h request)
  | dispatched disposition => rfl
  | aborted e => rfl

theorem exists_reply {source : SocketAddress} {datagram : Bytes} {request : AckRequest}
    (h : stack.onDatagram now source datagram = (.needMore request, after)) :
    ∃ ack, reply source (.needMore request) = some ack ∧ ack.source = source ∧
      Turn.Acknowledges ack.bytes ack.dest source request := by
  have hdecode := Stack.decode_of_needMore (congrArg (·.1) h)
  exact ⟨_, rfl, rfl, rfl, Decoder.read_write_of_decode_more hdecode⟩

/-- The round that begins at `start` is `turn`, and a record of its calls changes nothing else. -/
structure Performs (socket : Socket (StateM σ)) (stack : Stack τ) (start : σ) (turn : Turn τ)
    (next : σ) : Prop where
  before : turn.before = stack
  settled : turn.Settled
  recorded : ∀ calls,
    round socket.recorded stack (start, calls) = (turn.after, next, calls ++ turn.calls)
  plain : round socket stack start = (turn.after, next)

theorem performs_of_none
    (hreceive : socket.receive stack.config.maxDatagramSize.toNat start = (received, heard))
    (hnow : socket.now heard = (now, told))
    (h : onReceived stack now (.classify received) = (none, after))
    (hsettled : Turn.Settled ⟨stack, received, now, [], after⟩) :
    Performs socket stack start ⟨stack, received, now, [], after⟩ told where
  before := rfl
  settled := hsettled
  recorded calls := by
    have hrecorded : round socket.recorded stack (start, calls) = _ :=
      round_of_none (Socket.record_eq hreceive _ calls) (Socket.record_eq hnow .read _) h
    rw [hrecorded, List.append_assoc]
    rfl
  plain := round_of_none hreceive hnow h

theorem performs_of_some
    (hreceive : socket.receive stack.config.maxDatagramSize.toNat start = (received, heard))
    (hnow : socket.now heard = (now, told))
    (h : onReceived stack now (.classify received) = (some ack, after))
    (hsend : socket.send ack.bytes ack.dest told = (result, next))
    (hsettled : Turn.Settled
      ⟨stack, received, now, [(ack.bytes, ack.dest, result)], onReplied after ack result⟩) :
    Performs socket stack start
      ⟨stack, received, now, [(ack.bytes, ack.dest, result)], onReplied after ack result⟩ next where
  before := rfl
  settled := hsettled
  recorded calls := by
    have hrecorded : round socket.recorded stack (start, calls) = _ :=
      round_of_some (Socket.record_eq hreceive _ calls) (Socket.record_eq hnow .read _) h
        (Socket.record_eq hsend _ _)
    rw [hrecorded, List.append_assoc, List.append_assoc]
    rfl
  plain := round_of_some hreceive hnow h hsend

theorem exists_turn (socket : Socket (StateM σ)) (stack : Stack τ) (start : σ) :
    ∃ turn next, Performs socket stack start turn next := by
  obtain ⟨received, heard, hreceive⟩ : ∃ received heard,
    socket.receive stack.config.maxDatagramSize.toNat start = (received, heard) := ⟨_, _, rfl⟩
  obtain ⟨now, told, hnow⟩ : ∃ now told, socket.now heard = (now, told) := ⟨_, _, rfl⟩
  cases received with
  | error e =>
    exact ⟨_, _, performs_of_none hreceive hnow (onReceived_error stack now e) (.idle rfl rfl rfl)⟩
  | ok pair =>
    obtain ⟨datagram, source⟩ := pair
    obtain ⟨incoming, taken, hanswer⟩ : ∃ incoming taken,
      stack.onDatagram now source datagram = (incoming, taken) := ⟨_, _, rfl⟩
    have hreply := onReceived_ok hanswer
    by_cases hasked : ∃ request, incoming = .needMore request
    · obtain ⟨request, rfl⟩ := hasked
      obtain ⟨ack, hack, hsource, hacknowledges⟩ := exists_reply hanswer
      rw [hack] at hreply
      obtain ⟨result, next, hsend⟩ : ∃ result next,
        socket.send ack.bytes ack.dest told = (result, next) := ⟨_, _, rfl⟩
      refine ⟨_, _, performs_of_some hreceive hnow hreply hsend ?_⟩
      cases result with
      | ok sent => exact .acknowledged ⟨rfl, hanswer⟩ hacknowledges rfl
      | error e =>
        exact .failed ⟨rfl, hanswer⟩ hacknowledges rfl (hsource ▸ Stack.forgets_abandon _ _)
    · have hunasked := not_exists.1 hasked
      rw [reply_eq_none hunasked] at hreply
      exact ⟨_, _, performs_of_none hreceive hnow hreply (.quiet ⟨rfl, hanswer⟩ hunasked rfl)⟩

inductive Turns : Stack τ → List (Turn τ) → Stack τ → Prop
  | nil (stack : Stack τ) : Turns stack [] stack
  | cons {turn : Turn τ} {turns : List (Turn τ)} {final : Stack τ} (settled : turn.Settled)
      (later : Turns turn.after turns final) : Turns turn.before (turn :: turns) final

namespace Turns

variable {final : Stack τ} {earlier turns between : List (Turn τ)} {turn : Turn τ}
  {source : SocketAddress}

theorem settled (h : Turns stack (turn :: turns) final) : turn.Settled := by
  cases h with
  | cons settled later => exact settled

theorem later (h : Turns stack (turn :: turns) final) : Turns turn.after turns final := by
  cases h with
  | cons settled later => exact later

theorem of_append (h : Turns stack (earlier ++ turns) final) :
    ∃ middle, Turns middle turns final := by
  induction earlier generalizing stack with
  | nil => exact ⟨stack, h⟩
  | cons turn earlier ih => exact ih h.later

/-- As long as no first fragment comes from `source`, nothing from there is taken. -/
theorem refuses (h : Turns stack (between ++ turns) final)
    (hnone : stack.assembler.slots.get? source = none)
    (hopens : ∀ turn ∈ between, ¬ turn.Opens source) : ∀ turn ∈ between, turn.Refuses source := by
  induction between generalizing stack with
  | nil => exact List.forall_mem_nil _
  | cons first between ih =>
    obtain ⟨hfirst, hrest⟩ := List.forall_mem_cons.1 hopens
    cases h with
    | cons settled later =>
      obtain ⟨hrefuses, hnone⟩ := settled.refuses hnone hfirst
      exact List.forall_mem_cons.2 ⟨hrefuses, ih later hnone hrest⟩

end Turns

theorem serve_succ {ρ : Type} {socket : Socket (StateM ρ)} {s s' : ρ}
    (h : round socket stack s = (after, s')) (rounds : Nat) :
    serve socket (rounds + 1) stack s = serve socket rounds after s' := by
  simp only [serve, bind, StateT.bind, h]

theorem exists_turns (socket : Socket (StateM σ)) (rounds : Nat) (stack : Stack τ) (start : σ)
    (calls : List Socket.Entry) :
    ∃ (turns : List (Turn τ)) (final : Stack τ) (last : σ), turns.length = rounds ∧
      Turns stack turns final ∧
      serve socket.recorded rounds stack (start, calls) =
        (final, last, calls ++ turns.flatMap Turn.calls) ∧
      serve socket rounds stack start = (final, last) := by
  induction rounds generalizing stack start calls with
  | zero =>
    refine ⟨[], stack, start, rfl, .nil stack, ?_, rfl⟩
    rw [List.flatMap_nil, List.append_nil]
    rfl
  | succ rounds ih =>
    obtain ⟨turn, next, hturn⟩ := exists_turn socket stack start
    obtain ⟨turns, final, last, hlength, hturns, hserved, hplain⟩ :=
      ih turn.after next (calls ++ turn.calls)
    refine ⟨turn :: turns, final, last, congrArg (· + 1) hlength, ?_, ?_, ?_⟩
    · rw [← hturn.before]
      exact .cons hturn.settled hturns
    · rw [List.flatMap_cons, ← List.append_assoc, ← hserved]
      exact serve_succ (hturn.recorded calls) rounds
    · rw [← hplain]
      exact serve_succ hturn.plain rounds

/-- Whatever the socket does. A sender whose acknowledgement could not be sent is refused in all
rounds from there on, until a first fragment comes from it. -/
theorem acknowledges_serve (socket : Socket (StateM σ)) (rounds : Nat) (stack : Stack τ)
    (start : σ) :
    ∃ (turns : List (Turn τ)) (final : Stack τ) (last : σ), turns.length = rounds ∧
      serve socket.recorded rounds stack (start, []) = (final, last, turns.flatMap Turn.calls) ∧
      serve socket rounds stack start = (final, last) ∧ Turns stack turns final ∧
      ∀ source earlier failed between later, turns = earlier ++ failed :: (between ++ later) →
        failed.Fails source → (∀ turn ∈ between, ¬ turn.Opens source) →
        failed.after.assembler.slots.get? source = none ∧
          ∀ turn ∈ between, turn.Refuses source := by
  obtain ⟨turns, final, last, hlength, hturns, hserved, hplain⟩ :=
    exists_turns socket rounds stack start []
  refine ⟨turns, final, last, hlength, hserved, hplain, hturns, ?_⟩
  rintro source earlier failed between later rfl hfails hopens
  obtain ⟨middle, hfailed⟩ := hturns.of_append
  have hnone := hfailed.settled.get?_after hfails
  exact ⟨hnone, hfailed.later.refuses hnone hopens⟩

end Round

section Lossy

open Assembler

deriving instance DecidableEq for Socket.Entry

def lossy : Script :=
  { address := .ok Sender.courierAddress
    budget := 5
    sends := [.fail .other]
    receipts := [.datagram firstSender (Decoder.letterWire 0),
      .datagram firstSender (Decoder.letterWire 1)] }

theorem calls_lossy :
    (serve Script.socket.recorded 2 Stack.blank (lossy, [])).2.2 =
      [.receive 1500 (.ok (Decoder.letterWire 0, firstSender)), .read 1,
        .send (Acknowledgement.write "7f") { ip := firstSender.ip, port := 4000 }
          (.error ⟨.other, none⟩),
        .receive 1500 (.ok (Decoder.letterWire 1, firstSender)), .read 2] := by
  decide +kernel

theorem not_opens_letter_last : ¬ MultimediaMessaging.Opens (Decoder.letterWire 1) := by
  rintro ⟨h, body, hp, hzero⟩
  have hprinted := Decoder.printed_letter 1 (by decide)
  cases hprinted.parse.symm.trans hp
  cases hzero

theorem fails_of_serve_lossy {failed refused : Turn Nat} {final : Stack Nat} {last : Script}
    (h : serve Script.socket.recorded 2 Stack.blank (lossy, []) =
      (final, last, [failed, refused].flatMap Turn.calls)) :
    failed.Fails firstSender ∧ refused.received = .ok (Decoder.letterWire 1, firstSender) := by
  have hcalls := calls_lossy
  rw [h] at hcalls
  obtain ⟨before, received, now, sent, after⟩ := failed
  rcases sent with _ | ⟨⟨wire, dest, result⟩, _ | ⟨more, sent⟩⟩
  all_goals simp [Turn.calls] at hcalls
  obtain ⟨⟨-, rfl⟩, -, ⟨-, -, rfl⟩, ⟨-, hreceived⟩, -⟩ := hcalls
  exact ⟨⟨Decoder.letterWire 0, wire, dest, ⟨.other, none⟩, rfl, List.mem_singleton_self _⟩,
    hreceived⟩

theorem acknowledges_serve_lossy :
    ∃ failed refused : Turn Nat, ∃ final last,
      serve Script.socket.recorded 2 Stack.blank (lossy, []) =
        (final, last, [failed, refused].flatMap Turn.calls) ∧
      failed.Fails firstSender ∧ ¬ refused.Opens firstSender ∧
      refused.received = .ok (Decoder.letterWire 1, firstSender) ∧ refused.Refuses firstSender := by
  obtain ⟨turns, final, last, hlength, hserved, -, -, hrefuses⟩ :=
    acknowledges_serve Script.socket 2 Stack.blank lossy
  obtain ⟨failed, refused, rfl⟩ := List.length_eq_two.1 hlength
  obtain ⟨hfails, hreceived⟩ := fails_of_serve_lossy hserved
  have hopens : ¬ refused.Opens firstSender := by
    rintro ⟨datagram, hdatagram, hopen⟩
    obtain ⟨rfl, -⟩ := Prod.mk.inj (Except.ok.inj (hreceived.symm.trans hdatagram))
    exact not_opens_letter_last hopen
  obtain ⟨-, hrefused⟩ := hrefuses firstSender [] failed [refused] [] rfl hfails
    (List.forall_mem_singleton.2 hopens)
  exact ⟨failed, refused, final, last, hserved, hfails, hopens, hreceived,
    hrefused refused (List.mem_singleton_self _)⟩

end Lossy

end Inbound

end MultimediaMessaging
