import MultimediaMessaging.Proofs.Transport.Discipline
import MultimediaMessaging.Transport.Isolated

/-!
When a delivery ends. Main statement: where all that a socket lets happen is used up step by step,
and a wait in vain lasts until nobody waits any longer, a delivery ends within a number of steps
that is known when it begins; sockets that follow a script are like that, and so is a network that
nothing gets through.
-/

set_option autoImplicit false

namespace MultimediaMessaging

open Text

structure Cues where
  sends : Nat
  receipts : Nat
  now : Time

namespace Delivery

inductive Answers (d : Delivery) (c : Cues) : Query → Answer → Cues → Prop
  | time : Answers d c .time (.time c.now) c
  | taken {wire : Bytes} {sends : Nat} (fewer : sends ≤ c.sends) :
    Answers d c (.send wire) (.sent (.ok ())) { c with sends }
  | blocked {wire : Bytes} {e : IoError} {sends : Nat} {now : Time} (fewer : sends < c.sends) :
    Answers d c (.send wire) (.sent (.error e)) { c with sends, now }
  | refused {wire : Bytes} {e : IoError} {c' : Cues} (fatal : e.kind.isTransient = false) :
    Answers d c (.send wire) (.sent (.error e)) c'
  | rested {now : Time} : Answers d c .rest .rested { c with now }
  | heard {result : Except IoError (Bytes × SocketAddress)} {receipts : Nat} {now : Time}
    (fewer : receipts < c.receipts) (later : c.now ≤ now) :
    Answers d c .receive (.received result) { c with receipts, now }
  | silent {e : IoError} {now : Time} (none : c.receipts = 0) (late : c.now + d.ackTimeout ≤ now)
    (transient : e.kind.isTransient = true) :
    Answers d c .receive (.received (.error e)) { c with now }

/-- No cue is used up while a fragment is sent again. -/
def Hasty (d : Delivery) (c : Cues) : Prop := c.receipts = 0 ∨ d.ackTimeout = 0

instance (d : Delivery) (c : Cues) : Decidable (d.Hasty c) :=
  inferInstanceAs (Decidable (_ ∨ _))

/-- The price of what is left of an attempt. A wait that is over costs as much as a new attempt, but
that one is paid for where no cue is. -/
def weight (d : Delivery) (c : Cues) : Stage → Nat
  | .noteSend => 6
  | .send _ => 5
  | .checkSend _ => 7
  | .rest _ => 6
  | .noteWait => 4
  | .checkWait deadline => if c.now < deadline then 3 else if d.Hasty c then 1 else 7
  | .receive _ => 2

/-- A cue pays for the attempts that it can lead to, and the attempts without one for themselves. -/
def toll (d : Delivery) (c : Cues) (turn : Turn) : Nat :=
  3 * c.sends + 6 * c.receipts +
    6 * (if d.Hasty c then d.ackRetries + 1 - turn.attempts else d.ackRetries) +
    d.weight c turn.stage

/-- No wait is longer than it should be, and none goes on when its time is up. -/
structure Timely (d : Delivery) (c : Cues) (turn : Turn) : Prop where
  attempts : 1 ≤ turn.attempts
  check : ∀ deadline, turn.stage = .checkWait deadline → deadline ≤ c.now + d.ackTimeout
  receive : ∀ deadline, turn.stage = .receive deadline →
    c.now < deadline ∧ deadline ≤ c.now + d.ackTimeout

variable {d : Delivery} {c c' : Cues} {turn turn' : Turn} {answer : Answer}
  {index attempts receipts : Nat} {wire : Bytes} {deadline now : Time}

theorem weight_pos (d : Delivery) (c : Cues) (stage : Stage) : 0 < d.weight c stage := by
  cases stage <;> grind [weight]

theorem stage_of_enter (h : d.enter index = .running turn) :
    turn = ⟨index, 1, turn.wire, .noteSend⟩ ∧ index < d.segments := by
  unfold enter at h
  split at h
  · cases h
  · split at h
    · cases h
      exact ⟨rfl, by omega⟩
    · cases h

theorem toll_lt (hreceipts : c'.receipts = c.receipts) (hattempts : turn'.attempts = turn.attempts)
    (hweight : 3 * c'.sends + d.weight c' turn'.stage < 3 * c.sends + d.weight c turn.stage) :
    d.toll c' turn' < d.toll c turn := by
  have hhasty : d.Hasty c' ↔ d.Hasty c := by rw [Hasty, Hasty, hreceipts]
  simp only [toll, hhasty, hreceipts, hattempts]
  omega

theorem toll_sent {sends : Nat} (ha : 1 ≤ attempts) (fewer : sends ≤ c.sends)
    (hr : d.onSent ⟨index, attempts, wire, .send deadline⟩ deadline (.success ()) =
      .running turn') :
    d.Timely { c with sends } turn' ∧
      d.toll { c with sends } turn' < d.toll c ⟨index, attempts, wire, .send deadline⟩ := by
  simp only [onSent] at hr
  split at hr
  · cases hr
    exact ⟨⟨ha, by simp, by simp⟩, toll_lt rfl rfl (by simp only [weight]; omega)⟩
  · have := (stage_of_enter hr).2
    omega

/-- A fragment is sent again at the cost of an attempt, or of the cues used up in the last one. -/
theorem toll_late (late : deadline ≤ c.now)
    (hr : d.onSilence ⟨index, attempts, wire, .checkWait deadline⟩ = .running turn') :
    d.Timely c turn' ∧ d.toll c turn' < d.toll c ⟨index, attempts, wire, .checkWait deadline⟩ := by
  simp only [onSilence] at hr
  split at hr
  · cases hr
  · rename_i hle
    cases hr
    refine ⟨⟨Nat.succ_pos attempts, by simp, by simp⟩, ?_⟩
    by_cases hhasty : d.Hasty c
    · simp only [toll, weight, if_pos hhasty, if_neg (Nat.not_lt.2 late)]
      omega
    · simp only [toll, weight, if_neg hhasty, if_neg (Nat.not_lt.2 late)]
      omega

/-- What is heard is paid for by its cue, whether it is the acknowledgement or not. -/
theorem toll_heard (ht : d.Timely c ⟨index, attempts, wire, .receive deadline⟩)
    (fewer : receipts < c.receipts) (hattempts : 1 ≤ turn'.attempts)
    (hweight : d.weight { c with receipts, now } turn'.stage ≤ 7) :
    d.toll { c with receipts, now } turn' <
      d.toll c ⟨index, attempts, wire, .receive deadline⟩ := by
  obtain ⟨hwithin, hdeadline⟩ := ht.receive deadline rfl
  have hpatient : ¬ d.Hasty c := by
    rintro (hnone | hzero)
    · omega
    · rw [hzero] at hdeadline
      exact absurd hwithin (Nat.not_lt.2 hdeadline)
  simp only [toll, if_neg hpatient]
  change _ < 3 * c.sends + 6 * c.receipts + 6 * d.ackRetries + 2
  by_cases hlast : d.Hasty { c with receipts, now }
  · rw [if_pos hlast]
    omega
  · rw [if_neg hlast]
    omega

theorem resume_send_error (e : IoError) :
    d.resume ⟨index, attempts, wire, .send deadline⟩ (.sent (.error e)) =
      if e.kind.isTransient then .running ⟨index, attempts, wire, .checkSend deadline⟩
      else .ended (.error (.io e)) := by
  simp only [Delivery.resume, IoOutcome.classify]
  split <;> rfl

/-- What comes while a sender waits ends the delivery, leads to the next fragment or to another look
at the clock. -/
theorem resume_received {result : Except IoError (Bytes × SocketAddress)}
    (hr : d.resume ⟨index, attempts, wire, .receive deadline⟩ (.received result) =
      .running turn') :
    turn' = ⟨index + 1, 1, turn'.wire, .noteSend⟩ ∨
      turn' = ⟨index, attempts, wire, .checkWait deadline⟩ := by
  simp only [Delivery.resume] at hr
  cases hresult : IoOutcome.classify result with
  | success received =>
    rw [hresult] at hr
    simp only [onReceived] at hr
    split at hr
    · exact .inl (stage_of_enter hr).1
    · exact .inr (State.running.inj hr).symm
  | wouldBlock =>
    rw [hresult] at hr
    exact .inr (State.running.inj hr).symm
  | fail e =>
    rw [hresult] at hr
    cases hr

theorem toll_receive (ht : d.Timely c ⟨index, attempts, wire, .receive deadline⟩)
    (ha : d.Answers c .receive answer c')
    (hr : d.resume ⟨index, attempts, wire, .receive deadline⟩ answer = .running turn') :
    d.Timely c' turn' ∧ d.toll c' turn' < d.toll c ⟨index, attempts, wire, .receive deadline⟩ := by
  obtain ⟨hwithin, hdeadline⟩ := ht.receive deadline rfl
  have hpos : 1 ≤ attempts := ht.attempts
  cases ha with
  | @heard result receipts now fewer later =>
    rcases resume_received hr with hnext | rfl
    · rw [hnext]
      exact ⟨⟨Nat.le_refl 1, by simp, by simp⟩,
        toll_heard ht fewer (Nat.le_refl 1) (Nat.le_succ 6)⟩
    · refine ⟨⟨hpos, fun _ hstage => ?_, by simp⟩, toll_heard ht fewer hpos ?_⟩
      · cases hstage
        exact Nat.le_trans hdeadline (Nat.add_le_add_right later _)
      · simp only [weight]
        split
        · omega
        · split <;> omega
  | @silent e now none late transient =>
    have hover : deadline ≤ now := Nat.le_trans hdeadline late
    have hhasty : d.Hasty { c with now } := .inl none
    have hturn : turn' = ⟨index, attempts, wire, .checkWait deadline⟩ := by
      simp only [Delivery.resume, IoOutcome.classify, transient] at hr
      exact (State.running.inj hr).symm
    subst hturn
    refine ⟨⟨hpos, fun _ hstage => ?_, by simp⟩, toll_lt rfl rfl ?_⟩
    · cases hstage
      exact Nat.le_add_right_of_le hover
    · simp only [weight, if_neg (Nat.not_lt.2 hover), if_pos hhasty]
      omega

/-- Each answer is one step nearer to the end. -/
theorem toll_resume (ht : d.Timely c turn) (ha : d.Answers c turn.query answer c')
    (hr : d.resume turn answer = .running turn') :
    d.Timely c' turn' ∧ d.toll c' turn' < d.toll c turn := by
  obtain ⟨index, attempts, wire, stage⟩ := turn
  have hpos : 1 ≤ attempts := ht.attempts
  cases stage with
  | noteSend =>
    cases ha
    cases hr
    exact ⟨⟨hpos, by simp, by simp⟩, toll_lt rfl rfl (by simp only [weight]; omega)⟩
  | send deadline =>
    cases ha with
    | taken fewer => exact toll_sent hpos fewer hr
    | blocked fewer =>
      rw [resume_send_error] at hr
      split at hr
      · cases hr
        exact ⟨⟨hpos, by simp, by simp⟩, toll_lt rfl rfl (by simp only [weight]; omega)⟩
      · cases hr
    | refused fatal =>
      rw [resume_send_error, fatal] at hr
      cases hr
  | checkSend deadline =>
    cases ha
    simp only [Delivery.resume] at hr
    split at hr
    · cases hr
      exact ⟨⟨hpos, by simp, by simp⟩, toll_lt rfl rfl (by simp only [weight]; omega)⟩
    · cases hr
  | rest deadline =>
    cases ha
    cases hr
    exact ⟨⟨hpos, by simp, by simp⟩, toll_lt rfl rfl (by simp only [weight]; omega)⟩
  | noteWait =>
    cases ha
    cases hr
    refine ⟨⟨hpos, fun _ hstage => ?_, by simp⟩, toll_lt rfl rfl ?_⟩
    · cases hstage
      exact Nat.le_refl _
    · by_cases hzero : d.ackTimeout = 0
      · simp only [weight, hzero, Nat.add_zero, Nat.lt_irrefl, if_false,
          if_pos (show d.Hasty c from .inr hzero)]
        omega
      · simp only [weight, Nat.lt_add_of_pos_right (Nat.pos_of_ne_zero hzero), if_true]
        omega
  | checkWait deadline =>
    cases ha
    simp only [Delivery.resume] at hr
    split at hr
    · rename_i hwithin
      cases hr
      refine ⟨⟨hpos, by simp, fun _ hstage => ?_⟩, toll_lt rfl rfl ?_⟩
      · cases hstage
        exact ⟨hwithin, ht.check deadline rfl⟩
      · simp only [weight, hwithin, if_true]
        omega
    · rename_i hlate
      exact toll_late (Nat.not_lt.1 hlate) hr
  | receive deadline => exact toll_receive ht ha hr

section Run

variable {σ : Type} {socket : Socket (StateM σ)} {cues : σ → Cues} {holds : σ → Prop}

/-- A socket whose cues are used up. `holds` is what is true of it all along. -/
def Exhausts (d : Delivery) (socket : Socket (StateM σ)) (cues : σ → Cues) (holds : σ → Prop) :
    Prop :=
  ∀ query s answer s', holds s → d.ask socket query s = (answer, s') →
    holds s' ∧ d.Answers (cues s) query answer (cues s')

variable {fuel : Nat} {s : σ}

theorem Exhausts.run_running (h : d.Exhausts socket cues holds) (hs : holds s)
    (ht : d.Timely (cues s) turn) (hfuel : d.toll (cues s) turn ≤ fuel) :
    ∃ result, (d.run socket fuel (.running turn) s).1 = .ended result := by
  induction fuel generalizing turn s with
  | zero =>
    have := d.weight_pos (cues s) turn.stage
    rw [toll] at hfuel
    omega
  | succ fuel ih =>
    obtain ⟨answer, s', hask⟩ : ∃ answer s', d.ask socket turn.query s = (answer, s') :=
      ⟨_, _, rfl⟩
    obtain ⟨hnext, hanswers⟩ := h _ _ _ _ hs hask
    rw [run_succ hask fuel]
    cases hr : d.resume turn answer with
    | ended result => exact ⟨result, by rw [run_ended]⟩
    | running next =>
      obtain ⟨htimely, hlt⟩ := toll_resume ht hanswers hr
      exact ih hnext htimely (by omega)

theorem Exhausts.run_start (h : d.Exhausts socket cues holds) (hs : holds s)
    (hfuel : 3 * (cues s).sends + 6 * (cues s).receipts + 6 * d.ackRetries + 6 ≤ fuel) :
    ∃ result, (d.run socket fuel d.start s).1 = .ended result := by
  cases hstart : d.start with
  | ended result => exact ⟨result, by rw [run_ended]⟩
  | running turn =>
    obtain ⟨hturn, -⟩ := stage_of_enter hstart
    rw [hturn]
    refine h.run_running hs ⟨Nat.le_refl 1, by simp, by simp⟩ (Nat.le_trans ?_ hfuel)
    simp only [toll, weight]
    split <;> omega

end Run

end Delivery

namespace Sender

variable {σ : Type} {socket : Socket (StateM σ)} {cues : σ → Cues} {holds : σ → Prop}

theorem ended_of_exhausts {s : Sender} {parcel : Parcel} {timestamp : Nat} {cookie : String}
    {start next : σ} {address : Except IoError SocketAddress} {fuel : Nat}
    (haddress : socket.address start = (address, next))
    (h : ∀ d : Delivery, d.ackTimeout = s.ackTimeout → d.Exhausts socket cues holds)
    (hs : holds next)
    (hfuel : 3 * (cues next).sends + 6 * (cues next).receipts + 6 * s.ackRetries + 6 ≤ fuel) :
    ∃ result, (s.send socket parcel timestamp cookie fuel start).1 = .ended result := by
  cases hd : s.prepare parcel timestamp cookie address with
  | error e => exact ⟨_, congrArg Prod.fst (send_of_prepare_error haddress hd fuel)⟩
  | ok d =>
    obtain ⟨ack, rfl, -⟩ := prepare_ok hd
    rw [send_of_prepare_ok haddress hd fuel]
    exact (h _ rfl).run_start hs hfuel

end Sender

namespace Script

def cues (s : Script) : Cues := ⟨s.sends.length, s.receipts.length, s.now⟩

theorem answers_onSend (d : Delivery) (s : Script) (wire : Bytes) (dest : SocketAddress) :
    d.Answers s.cues (.send wire) (.sent (onSend wire dest s).1) (onSend wire dest s).2.cues := by
  obtain ⟨address, budget, sends, receipts, now, sent⟩ := s
  cases sends with
  | nil => exact .taken (Nat.le_refl 0)
  | cons cue sends =>
    have hfewer : sends.length < (cue :: sends).length := Nat.lt_succ_self _
    cases cue with
    | ok => exact .taken (Nat.le_of_lt hfewer)
    | block => exact .blocked hfewer
    | blockLate => exact .blocked hfewer
    | fail kind => exact .blocked hfewer

/-- Where nothing is left to come a call for a datagram takes as long as a wait, or longer. -/
theorem answers_onReceive {d : Delivery} {s : Script} (hs : d.ackTimeout ≤ s.budget)
    (limit : Nat) :
    d.Answers s.cues .receive (.received (onReceive limit s).1) (onReceive limit s).2.cues := by
  obtain ⟨address, budget, sends, receipts, now, sent⟩ := s
  cases receipts with
  | nil => exact .silent rfl (Nat.add_le_add_left hs now) rfl
  | cons cue receipts =>
    have hfewer : receipts.length < (cue :: receipts).length := Nat.lt_succ_self _
    cases cue with
    | datagram source bytes => exact .heard hfewer (Nat.le_add_right now 1)
    | block => exact .heard hfewer (Nat.le_refl now)
    | timeout => exact .heard hfewer (Nat.le_add_right now budget)
    | fail kind => exact .heard hfewer (Nat.le_refl now)

theorem budget_onSend (s : Script) (wire : Bytes) (dest : SocketAddress) :
    (onSend wire dest s).2.budget = s.budget := by
  simp only [onSend]
  split <;> rfl

theorem budget_onReceive (s : Script) (limit : Nat) :
    (onReceive limit s).2.budget = s.budget := by
  unfold onReceive
  split <;> rfl

theorem exhausts (d : Delivery) :
    d.Exhausts socket cues fun s => d.ackTimeout ≤ s.budget := by
  intro query s answer s' hs hask
  cases query with
  | time =>
    cases hask
    exact ⟨hs, .time⟩
  | rest =>
    cases hask
    exact ⟨hs, .rested⟩
  | send wire =>
    cases hask
    exact ⟨Nat.le_trans hs (Nat.le_of_eq (budget_onSend s wire d.dest).symm),
      answers_onSend d s wire d.dest⟩
  | receive =>
    cases hask
    exact ⟨Nat.le_trans hs (Nat.le_of_eq (budget_onReceive s Delivery.receiveLimit).symm),
      answers_onReceive hs Delivery.receiveLimit⟩

/-- A script is enough for a delivery to end, if calls that take long take no less than a wait. -/
theorem ended_send (s : Script) (sender : Sender) (parcel : Parcel) (timestamp : Nat)
    (cookie : String) (hbudget : sender.ackTimeout ≤ s.budget) :
    ∃ result, (s.send sender parcel timestamp cookie).1 = .ended result := by
  have hexhausts (d : Delivery) (hd : d.ackTimeout = sender.ackTimeout) :
      d.Exhausts socket cues fun s => sender.ackTimeout ≤ s.budget := hd ▸ exhausts d
  refine Sender.ended_of_exhausts rfl hexhausts hbudget ?_
  simp only [fuel, cues]
  omega

end Script

namespace Isolated

variable {source : IpAddress} {readTimeout : Time}

theorem answers_send (d : Delivery) (c : Cues) (dest : SocketAddress) (wire : Bytes) :
    d.Answers c (.send wire) (.sent (send source dest wire.length)) c := by
  have hok : d.Answers c (.send wire) (.sent (.ok ())) c := .taken (Nat.le_refl c.sends)
  unfold send
  split
  · exact .refused rfl
  split
  · exact .refused rfl
  split
  · exact .refused rfl
  split
  · exact hok
  · exact .refused rfl

theorem exhausts (d : Delivery) (hd : d.ackTimeout = readTimeout) :
    d.Exhausts (socket source readTimeout) (fun now => ⟨0, 0, now⟩) fun _ => True := by
  intro query now answer later _ hask
  refine ⟨trivial, ?_⟩
  cases query with
  | time =>
    cases hask
    exact .time
  | rest =>
    cases hask
    exact .rested
  | send wire =>
    cases hask
    exact answers_send d _ d.dest wire
  | receive =>
    cases hask
    exact .silent rfl (Nat.le_of_eq (by rw [hd])) rfl

theorem ended_send (sender : Sender) (parcel : Parcel) (millis : Nat) (cookie : String) :
    ∃ result, (sender.send (socket source sender.ackTimeout) parcel millis cookie
      (8 * (sender.ackRetries + 2)) 0).1 = .ended result :=
  Sender.ended_of_exhausts rfl exhausts trivial (by simp only; omega)

end Isolated

end MultimediaMessaging
