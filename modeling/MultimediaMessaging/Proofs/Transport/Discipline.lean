import MultimediaMessaging.Proofs.Transport.Sending
import MultimediaMessaging.Transport.Script

/-!
The sender's discipline, whatever its socket and its clock do. Main statement: the datagrams that
the network takes are those of the fragments in their order, each repeated at most as often as is
allowed; none is sent before the one ahead of it is acknowledged; and the sender gives up exactly
when it waited for one fragment as often as is allowed, and each time in vain.
-/

set_option autoImplicit false

namespace MultimediaMessaging

open Text

namespace Socket

inductive Entry where
  | address (result : Except IoError SocketAddress)
  | send (wire : Bytes) (dest : SocketAddress) (result : Except IoError Unit)
  | receive (limit : Nat) (result : Except IoError (Bytes × SocketAddress))
  | read (now : Time)
  | rest

section Record

variable {σ α : Type}

def record (call : StateM σ α) (entry : α → Entry) : StateM (σ × List Entry) α :=
  fun (s, calls) =>
    let (result, s) := call s
    (result, s, calls ++ [entry result])

theorem record_eq {call : StateM σ α} {s s' : σ} {result : α} (h : call s = (result, s'))
    (entry : α → Entry) (calls : List Entry) :
    record call entry (s, calls) = (result, s', calls ++ [entry result]) := by
  simp only [record, h]

def recorded (socket : Socket (StateM σ)) : Socket (StateM (σ × List Entry)) where
  address := record socket.address .address
  send wire dest := record (socket.send wire dest) (.send wire dest)
  receive limit := record (socket.receive limit) (.receive limit)
  now := record socket.now .read
  rest := record socket.rest fun () => .rest

end Record

/-- A datagram that the network took, and all calls since. -/
structure Handing where
  wire : Bytes
  dest : SocketAddress
  since : List Entry

def Handing.after (call : Entry) (h : Handing) : Handing := { h with since := h.since ++ [call] }

def handings : List Entry → List Handing
  | [] => []
  | .send wire dest (.ok ()) :: since => ⟨wire, dest, since⟩ :: handings since
  | _ :: since => handings since

theorem handings_concat (calls : List Entry) (call : Entry) :
    handings (calls ++ [call]) = (handings calls).map (·.after call) ++ handings [call] := by
  induction calls with
  | nil => rfl
  | cons first calls ih =>
    cases first with
    | send wire dest result =>
      cases result with
      | ok taken => exact congrArg (List.cons _) ih
      | error e => exact ih
    | address result => exact ih
    | receive limit result => exact ih
    | read now => exact ih
    | rest => exact ih

/-- A call during a wait until `deadline`: for a datagram, or for the time while some is left. -/
def Entry.Within (deadline : Time) : Entry → Prop
  | .read now => now < deadline
  | .receive _ _ => True
  | _ => False

/-- A datagram could not be received, and trying again does not help. -/
def Entry.Fails : Entry → Prop
  | .receive _ (.error e) => e.kind.isTransient = false
  | _ => False

end Socket

namespace Delivery

open Socket

def AcknowledgedBy (d : Delivery) : Entry → Prop
  | .receive _ (.ok (datagram, source)) =>
    source.ip = d.dest.ip ∧ Acknowledgement.read datagram = some d.cookie
  | _ => False

/-- Of all calls since a fragment was handed over the first tells when a wait began, and those of
`window` belong to that wait; what comes `later` may belong to it too. -/
def Waits (d : Delivery) (since : List Entry) (deadline : Time) (window later : List Entry) :
    Prop :=
  ∃ began, deadline = began + d.ackTimeout ∧ since = .read began :: (window ++ later) ∧
    ∀ call ∈ window, call.Within deadline

def Silent (d : Delivery) (since : List Entry) : Prop :=
  ∃ deadline window now later, d.Waits since deadline window (.read now :: later) ∧
    deadline ≤ now ∧ ∀ call ∈ window, ¬ d.AcknowledgedBy call ∧ ¬ call.Fails

def Acknowledged (d : Delivery) (since : List Entry) : Prop :=
  ∃ deadline window later, d.Waits since deadline window later ∧
    ∃ call ∈ window, d.AcknowledgedBy call

structure Repeats (d : Delivery) (index : Nat) (round : List Handing) : Prop where
  length_le : round.length ≤ d.ackRetries + 1
  final : index + 1 = d.segments → round.length ≤ 1
  same : ∀ h ∈ round, h.dest = d.dest ∧
    d.encoder.encode d.message index d.segments = .ok h.wire

/-- A fragment that others follow was sent as often as is allowed, and nobody answered. -/
def Exhausted (d : Delivery) (index : Nat) (round : List Handing) : Prop :=
  index + 1 < d.segments ∧ round.length = d.ackRetries + 1 ∧ ∀ h ∈ round, d.Silent h.since

/-- How the calls of a delivery fit the state it came to; `rounds` are the sendings of its
fragments, as far as it came. -/
structure Disciplined (d : Delivery) (calls : List Entry) (state : State)
    (rounds : List (List Handing)) : Prop where
  handings : handings calls = rounds.flatten
  length_le : rounds.length ≤ d.segments
  ne_nil : ∀ round ∈ rounds, round ≠ []
  repeats : ∀ i round, rounds[i]? = some round → d.Repeats i round
  /-- After the last sending of a fragment, and before any of the next one. -/
  acknowledged : ∀ i round, rounds[i]? = some round → i + 1 < rounds.length →
    ∃ h ∈ round.getLast?, d.Acknowledged h.since
  finished : ∀ n, state = .ended (.ok n) → n = d.segments ∧ rounds.length = d.segments
  /-- When the sender gives up, and at which fragment. -/
  exhausted : ∀ k a, state = .ended (.error (.ackTimeout k a)) ↔
    a = d.ackRetries + 1 ∧ ∃ round, rounds[k]? = some round ∧ d.Exhausted k round

variable {d : Delivery} {since calls window later : List Entry} {deadline : Time} {call : Entry}

theorem acknowledgedBy_receive_iff {limit : Nat} {datagram : Bytes} {source : SocketAddress} :
    d.AcknowledgedBy (.receive limit (.ok (datagram, source))) ↔
      d.isAcknowledgedBy datagram source = true := by
  rw [isAcknowledgedBy, decide_eq_true_iff]
  rfl

section Waits

theorem Waits.after (h : d.Waits since deadline window later) (call : Entry) :
    d.Waits (since ++ [call]) deadline window (later ++ [call]) := by
  obtain ⟨began, rfl, rfl, hwithin⟩ := h
  exact ⟨began, rfl, by simp, hwithin⟩

/-- The wait goes on through one more call. -/
theorem Waits.extend (h : d.Waits since deadline window []) (hcall : call.Within deadline) :
    d.Waits (since ++ [call]) deadline (window ++ [call]) [] := by
  obtain ⟨began, rfl, rfl, hwithin⟩ := h
  exact ⟨began, rfl, by simp,
    List.forall_mem_append.2 ⟨hwithin, List.forall_mem_singleton.2 hcall⟩⟩

theorem Silent.after (h : d.Silent since) (call : Entry) : d.Silent (since ++ [call]) := by
  obtain ⟨deadline, window, now, later, hwaits, hle, hquiet⟩ := h
  exact ⟨deadline, window, now, later ++ [call], hwaits.after call, hle, hquiet⟩

theorem Acknowledged.after (h : d.Acknowledged since) (call : Entry) :
    d.Acknowledged (since ++ [call]) := by
  obtain ⟨deadline, window, later, hwaits, hack⟩ := h
  exact ⟨deadline, window, later ++ [call], hwaits.after call, hack⟩

/-- As long as a wait goes on, its calls are the first ones of any wait that is over. -/
theorem Waits.window_eq {deadline' now : Time} {window' later' : List Entry}
    (h : d.Waits since deadline window later)
    (h' : d.Waits since deadline' window' (.read now :: later')) (hle : deadline' ≤ now) :
    ∃ more, window' = window ++ more ∧ later = more ++ .read now :: later' := by
  obtain ⟨began, rfl, rfl, hwithin⟩ := h
  obtain ⟨began', rfl, hsince, -⟩ := h'
  obtain ⟨hbegan, htail⟩ := List.cons.inj hsince
  cases hbegan
  rcases List.append_eq_append_iff.1 htail with hmore | ⟨past, rfl, hpast⟩
  · exact hmore
  · cases past with
    | nil => exact ⟨[], by simp, by simpa using hpast.symm⟩
    | cons first past =>
      -- The call that ends the other wait would be one of `window`, and so before the deadline.
      obtain ⟨rfl, -⟩ := List.cons.inj hpast
      have hlt : now < began + d.ackTimeout := hwithin (.read now) (by simp)
      exact absurd hle (Nat.not_le.2 hlt)

theorem Waits.not_silent (h : d.Waits since deadline window []) : ¬ d.Silent since := by
  rintro ⟨deadline', window', now, later', h', hle, -⟩
  obtain ⟨more, -, hmore⟩ := h.window_eq h' hle
  simp at hmore

theorem Waits.not_silent_of_mem (h : d.Waits since deadline window later) (hmem : call ∈ window)
    (hcall : d.AcknowledgedBy call ∨ call.Fails) : ¬ d.Silent since := by
  rintro ⟨deadline', window', now, later', h', hle, hquiet⟩
  obtain ⟨more, rfl, -⟩ := h.window_eq h' hle
  obtain ⟨hack, hfails⟩ := hquiet call (List.mem_append_left _ hmem)
  exact hcall.elim hack hfails

theorem Acknowledged.not_silent (h : d.Acknowledged since) : ¬ d.Silent since := by
  obtain ⟨deadline, window, later, hwaits, call, hmem, hack⟩ := h
  exact hwaits.not_silent_of_mem hmem (.inl hack)

theorem not_silent_nil : ¬ d.Silent [] := by
  rintro ⟨deadline, window, now, later, ⟨began, -, hnil, -⟩, -⟩
  cases hnil

end Waits

section Account

variable {done : List (List Handing)} {current round : List Handing} {index : Nat} {state : State}

theorem Repeats.lt (h : d.Repeats index round) (hne : round ≠ []) : index < d.segments := by
  obtain ⟨first, hfirst⟩ := List.exists_mem_of_ne_nil round hne
  exact (Encoder.encodes_of_encode (h.same first hfirst).2).index_lt

theorem Repeats.nil : d.Repeats index [] where
  length_le := Nat.zero_le _
  final _ := Nat.zero_le _
  same _ h := nomatch h

theorem Repeats.after (h : d.Repeats index round) (call : Entry) :
    d.Repeats index (round.map (·.after call)) where
  length_le := by simpa using h.length_le
  final := by simpa using h.final
  same := by
    rintro _ hmem
    obtain ⟨before, hbefore, rfl⟩ := List.mem_map.1 hmem
    exact h.same before hbefore

/-- The fragment is sent once more. -/
theorem Repeats.hand {handing : Handing} (h : d.Repeats index round)
    (hlt : round.length < d.ackRetries + 1) (hfinal : index + 1 = d.segments → round = [])
    (hsame : handing.dest = d.dest ∧
      d.encoder.encode d.message index d.segments = .ok handing.wire) :
    d.Repeats index (round ++ [handing]) where
  length_le := by simpa using Nat.le_of_lt_succ hlt
  final hlast := by simp [hfinal hlast]
  same := List.forall_mem_append.2 ⟨h.same, List.forall_mem_singleton.2 hsame⟩

structure Past (d : Delivery) (index : Nat) (round : List Handing) : Prop where
  ne_nil : round ≠ []
  repeats : d.Repeats index round
  acknowledged : index + 1 < d.segments → ∃ h ∈ round.getLast?, d.Acknowledged h.since

theorem Past.after (h : d.Past index round) (call : Entry) :
    d.Past index (round.map (·.after call)) where
  ne_nil := by simpa using h.ne_nil
  repeats := h.repeats.after call
  acknowledged hlt := by
    obtain ⟨last, hlast, hack⟩ := h.acknowledged hlt
    refine ⟨last.after call, ?_, hack.after call⟩
    rw [Option.mem_def] at hlast ⊢
    rw [List.getLast?_map, hlast]
    rfl

theorem Past.not_exhausted (h : d.Past index round) : ¬ d.Exhausted index round := by
  rintro ⟨hlt, -, hsilent⟩
  obtain ⟨last, hlast, hack⟩ := h.acknowledged hlt
  exact hack.not_silent (hsilent last (List.mem_of_getLast? hlast))

theorem not_exhausted_nil : ¬ d.Exhausted index [] := by
  rintro ⟨-, hlength, -⟩
  cases hlength

/-- What was handed over: the sendings of the fragments before the present one, and its own. -/
structure Account (d : Delivery) (calls : List Entry) (done : List (List Handing))
    (current : List Handing) : Prop where
  handings : Socket.handings calls = done.flatten ++ current
  length_le : done.length ≤ d.segments
  past : ∀ i round, done[i]? = some round → d.Past i round
  current : d.Repeats done.length current

theorem Account.concat (h : d.Account calls done current) (call : Entry)
    (hcurrent : d.Repeats done.length (current.map (·.after call) ++ Socket.handings [call])) :
    d.Account (calls ++ [call]) (done.map (·.map (·.after call)))
      (current.map (·.after call) ++ Socket.handings [call]) where
  handings := by
    rw [handings_concat, h.handings, List.map_append, List.map_flatten, List.append_assoc]
  length_le := by simpa using h.length_le
  past i round hround := by
    rw [List.getElem?_map, Option.map_eq_some_iff] at hround
    obtain ⟨before, hbefore, rfl⟩ := hround
    exact (h.past i before hbefore).after call
  current := by rwa [List.length_map]

theorem Account.after (h : d.Account calls done current) (hcall : Socket.handings [call] = []) :
    d.Account (calls ++ [call]) (done.map (·.map (·.after call))) (current.map (·.after call)) := by
  have hcurrent := h.current.after call
  rw [← List.append_nil (current.map _), ← hcall] at hcurrent ⊢
  exact h.concat call hcurrent

theorem Account.close (h : d.Account calls done current) (hne : current ≠ [])
    (hack : done.length + 1 < d.segments → ∃ h ∈ current.getLast?, d.Acknowledged h.since) :
    d.Account calls (done ++ [current]) [] where
  handings := by simpa using h.handings
  length_le := by
    rw [List.length_append, List.length_singleton]
    exact h.current.lt hne
  past i round hround := by
    rcases getElem?_concat_iff.1 hround with hround | ⟨rfl, rfl⟩
    · exact h.past i round hround
    · exact ⟨hne, h.current, hack⟩
  current := .nil

/-- The present fragment counts as soon as it is sent. -/
def sendings (done : List (List Handing)) (current : List Handing) : List (List Handing) :=
  if current = [] then done else done ++ [current]

theorem getElem?_sendings_iff {i : Nat} : (sendings done current)[i]? = some round ↔
    done[i]? = some round ∨ current ≠ [] ∧ i = done.length ∧ round = current := by
  unfold sendings
  split
  · rename_i hnil
    simp [hnil]
  · rename_i hne
    simp [hne, getElem?_concat_iff]

theorem flatten_sendings : (sendings done current).flatten = done.flatten ++ current := by
  unfold sendings
  split
  · rename_i hnil
    rw [hnil, List.append_nil]
  · simp

theorem Account.length_sendings_le (h : d.Account calls done current) :
    (sendings done current).length ≤ d.segments := by
  unfold sendings
  split
  · exact h.length_le
  · rename_i hne
    rw [List.length_append, List.length_singleton]
    exact h.current.lt hne

theorem Account.disciplined (h : d.Account calls done current)
    (hfinished : ∀ n, state = .ended (.ok n) →
      n = d.segments ∧ done.length = d.segments ∧ current = [])
    (hexhausted : ∀ k a, state = .ended (.error (.ackTimeout k a)) ↔
      a = d.ackRetries + 1 ∧ k = done.length ∧ d.Exhausted k current) :
    ∃ rounds, d.Disciplined calls state rounds := by
  have hle := h.length_sendings_le
  exact ⟨sendings done current,
    { handings := h.handings.trans flatten_sendings.symm
      length_le := hle
      ne_nil := fun round hmem => by
        obtain ⟨i, hi⟩ := List.mem_iff_getElem?.1 hmem
        rcases getElem?_sendings_iff.1 hi with hi | ⟨hne, -, rfl⟩
        · exact (h.past i round hi).ne_nil
        · exact hne
      repeats := fun i round hi => by
        rcases getElem?_sendings_iff.1 hi with hi | ⟨-, rfl, rfl⟩
        · exact (h.past i round hi).repeats
        · exact h.current
      acknowledged := fun i round hi hnext => by
        rcases getElem?_sendings_iff.1 hi with hi | ⟨hne, rfl, rfl⟩
        · exact (h.past i round hi).acknowledged (Nat.lt_of_lt_of_le hnext hle)
        · simp [sendings, hne] at hnext
      finished := fun n hn => by
        obtain ⟨rfl, hdone, rfl⟩ := hfinished n hn
        exact ⟨rfl, hdone⟩
      exhausted := fun k a => by
        rw [hexhausted]
        refine and_congr_right fun _ => ⟨?_, ?_⟩
        · rintro ⟨rfl, hex⟩
          have hne : current ≠ [] := fun hnil => not_exhausted_nil (hnil ▸ hex)
          exact ⟨current, getElem?_sendings_iff.2 (.inr ⟨hne, rfl, rfl⟩), hex⟩
        · rintro ⟨round, hround, hex⟩
          rcases getElem?_sendings_iff.1 hround with hround | ⟨-, rfl, rfl⟩
          · exact absurd hex (h.past k round hround).not_exhausted
          · exact ⟨rfl, hex⟩ }⟩

/-- Whatever else became of the delivery, or where it is now, it did not give up. -/
theorem Account.disciplined_of_not_exhausted (h : d.Account calls done current)
    (hfinished : ∀ n, state ≠ .ended (.ok n))
    (hexhausted : ∀ k a, state ≠ .ended (.error (.ackTimeout k a)))
    (hnot : ¬ d.Exhausted done.length current) : ∃ rounds, d.Disciplined calls state rounds := by
  refine h.disciplined (fun n hn => absurd hn (hfinished n)) fun k a => ?_
  refine iff_of_false (hexhausted k a) ?_
  rintro ⟨-, rfl, hex⟩
  exact hnot hex

end Account

inductive Exchange (d : Delivery) : Query → Entry → Answer → Prop
  | time (now : Time) : Exchange d .time (.read now) (.time now)
  | send (wire : Bytes) (result : Except IoError Unit) :
    Exchange d (.send wire) (.send wire d.dest result) (.sent result)
  | rest : Exchange d .rest .rest .rested
  | receive (limit : Nat) (result : Except IoError (Bytes × SocketAddress)) :
    Exchange d .receive (.receive limit result) (.received result)

section Turn

variable {done : List (List Handing)} {current earlier : List Handing} {last : Handing}
  {turn : Turn} {index attempts : Nat}

structure InVain (d : Delivery) (index attempts : Nat) (earlier : List Handing) : Prop where
  length : earlier.length + 1 = attempts
  silent : ∀ h ∈ earlier, d.Silent h.since
  final : index + 1 = d.segments → earlier = []

theorem InVain.after (h : d.InVain index attempts earlier) (call : Entry) :
    d.InVain index attempts (earlier.map (·.after call)) where
  length := by simpa using h.length
  silent := by
    rintro _ hmem
    obtain ⟨before, hbefore, rfl⟩ := List.mem_map.1 hmem
    exact (h.silent before hbefore).after call
  final hlast := by rw [h.final hlast, List.map_nil]

theorem InVain.not_exhausted (h : d.InVain index attempts current)
    (hle : attempts ≤ d.ackRetries + 1) : ¬ d.Exhausted index current := by
  rintro ⟨-, hlength, -⟩
  have := h.length
  omega

structure Awaits (d : Delivery) (index attempts : Nat) (current : List Handing)
    (earlier : List Handing) (last : Handing) : Prop where
  current : current = earlier ++ [last]
  followed : index + 1 < d.segments
  earlier : d.InVain index attempts earlier

theorem Awaits.after (h : d.Awaits index attempts current earlier last) (call : Entry) :
    d.Awaits index attempts (current.map (·.after call)) (earlier.map (·.after call))
      (last.after call) where
  current := by rw [h.current, List.map_append]; rfl
  followed := h.followed
  earlier := h.earlier.after call

theorem Awaits.not_exhausted (h : d.Awaits index attempts current earlier last)
    (hlast : ¬ d.Silent last.since) : ¬ d.Exhausted index current := by
  rintro ⟨-, -, hsilent⟩
  rw [h.current] at hsilent
  exact hlast (hsilent last (by simp))

def Open (d : Delivery) (since : List Entry) (deadline : Time) : Prop :=
  ∃ window, d.Waits since deadline window [] ∧
    ∀ call ∈ window, ¬ d.AcknowledgedBy call ∧ ¬ call.Fails

theorem Open.extend (h : d.Open since deadline) (hwithin : call.Within deadline)
    (hack : ¬ d.AcknowledgedBy call) (hfails : ¬ call.Fails) :
    d.Open (since ++ [call]) deadline := by
  obtain ⟨window, hwaits, hquiet⟩ := h
  exact ⟨window ++ [call], hwaits.extend hwithin,
    List.forall_mem_append.2 ⟨hquiet, List.forall_mem_singleton.2 ⟨hack, hfails⟩⟩⟩

theorem Open.not_silent (h : d.Open since deadline) : ¬ d.Silent since := by
  obtain ⟨window, hwaits, -⟩ := h
  exact hwaits.not_silent

theorem Open.acknowledged (h : d.Open since deadline) (hwithin : call.Within deadline)
    (hack : d.AcknowledgedBy call) : d.Acknowledged (since ++ [call]) := by
  obtain ⟨window, hwaits, -⟩ := h
  exact ⟨deadline, window ++ [call], [], hwaits.extend hwithin, call, by simp, hack⟩

theorem Open.not_silent_of_fails (h : d.Open since deadline) (hwithin : call.Within deadline)
    (hfails : call.Fails) : ¬ d.Silent (since ++ [call]) := by
  obtain ⟨window, hwaits, -⟩ := h
  exact (hwaits.extend hwithin).not_silent_of_mem (by simp) (.inr hfails)

theorem Open.silent {now : Time} (h : d.Open since deadline) (hle : deadline ≤ now) :
    d.Silent (since ++ [.read now]) := by
  obtain ⟨window, hwaits, hquiet⟩ := h
  exact ⟨deadline, window, now, [], hwaits.after (.read now), hle, hquiet⟩

def Standing (d : Delivery) (turn : Turn) (current : List Handing) : Prop :=
  match turn.stage with
  | .noteSend | .send _ | .checkSend _ | .rest _ => d.InVain turn.index turn.attempts current
  | .noteWait => ∃ earlier last, d.Awaits turn.index turn.attempts current earlier last ∧
    last.since = []
  | .checkWait deadline | .receive deadline =>
    ∃ earlier last, d.Awaits turn.index turn.attempts current earlier last ∧
      d.Open last.since deadline

structure AtWork (d : Delivery) (calls : List Entry) (turn : Turn) (done : List (List Handing))
    (current : List Handing) : Prop where
  account : d.Account calls done current
  index : done.length = turn.index
  underway : d.Underway turn
  attempts_le : turn.attempts ≤ d.ackRetries + 1

def Invariant (d : Delivery) (calls : List Entry) : State → Prop
  | .running turn => ∃ done current, d.AtWork calls turn done current ∧ d.Standing turn current
  | .ended result => ∃ rounds, d.Disciplined calls (.ended result) rounds

theorem AtWork.after (h : d.AtWork calls turn done current) (call : Entry)
    (hcall : Socket.handings [call] = []) (stage : Stage) :
    d.AtWork (calls ++ [call]) { turn with stage } (done.map (·.map (·.after call)))
      (current.map (·.after call)) where
  account := h.account.after hcall
  index := by simpa using h.index
  underway := ⟨h.underway.index_lt, h.underway.encode⟩
  attempts_le := h.attempts_le

theorem AtWork.interrupted (h : d.AtWork calls turn done current) {e : IoError}
    (hnot : ¬ d.Exhausted turn.index current) : d.Invariant calls (.ended (.error (.io e))) :=
  h.account.disciplined_of_not_exhausted nofun nofun (h.index ▸ hnot)

theorem Account.enter (h : d.Account calls done []) (hindex : done.length = index) :
    d.Invariant calls (d.enter index) := by
  unfold Delivery.enter
  split
  · rename_i hle
    refine h.disciplined (fun n hn => ?_) fun k a => iff_of_false nofun ?_
    · cases hn
      exact ⟨rfl, Nat.le_antisymm h.length_le (hindex ▸ hle), rfl⟩
    · rintro ⟨-, -, hex⟩
      exact not_exhausted_nil hex
  · rename_i hlt
    split
    · rename_i wire hwire
      exact ⟨done, [], ⟨h, hindex, ⟨Nat.lt_of_not_le hlt, hwire⟩, Nat.le_add_left _ _⟩,
        { length := rfl, silent := nofun, final := fun _ => rfl }⟩
    · exact h.disciplined_of_not_exhausted nofun nofun not_exhausted_nil

theorem AtWork.sent (h : d.AtWork calls turn done current)
    (hvain : d.InVain turn.index turn.attempts current) (result : Except IoError Unit) :
    d.Invariant (calls ++ [.send turn.wire d.dest result])
      (d.onSent turn deadline (.classify result)) := by
  cases result with
  | ok taken =>
    have hvain' := hvain.after (.send turn.wire d.dest (.ok ()))
    have hlength := hvain'.length
    have hle := h.attempts_le
    have haccount := h.account.concat (.send turn.wire d.dest (.ok ()))
      ((h.account.current.after _).hand (by omega) (h.index ▸ hvain'.final)
        ⟨rfl, h.index ▸ h.underway.encode⟩)
    simp only [IoOutcome.classify_ok, onSent]
    split
    · rename_i hlt
      exact ⟨_, _, ⟨haccount, by simpa using h.index, ⟨h.underway.index_lt, h.underway.encode⟩,
        hle⟩, _, _, ⟨rfl, hlt, hvain'⟩, rfl⟩
    · -- Nobody waits for an answer to the last fragment.
      rename_i hlast
      refine (haccount.close (by simp [handings]) fun hlt => ?_).enter (by simpa using h.index)
      rw [List.length_map, h.index] at hlt
      exact absurd hlt hlast
  | error e =>
    have hvain' := hvain.after (.send turn.wire d.dest (.error e))
    cases hr : IoOutcome.classify (.error e : Except IoError Unit) with
    | success taken => simp [IoOutcome.classify_eq_success_iff] at hr
    | wouldBlock => exact ⟨_, _, h.after _ rfl (.checkSend deadline), hvain'⟩
    | fail e =>
      exact (h.after _ rfl turn.stage).interrupted (hvain'.not_exhausted h.attempts_le)

theorem AtWork.silence (h : d.AtWork calls turn done current)
    (hawaits : d.Awaits turn.index turn.attempts current earlier last)
    (hlast : d.Silent last.since) : d.Invariant calls (d.onSilence turn) := by
  have hlength := hawaits.earlier.length
  have hsilent : ∀ h ∈ current, d.Silent h.since := by
    rw [hawaits.current]
    exact List.forall_mem_append.2 ⟨hawaits.earlier.silent, List.forall_mem_singleton.2 hlast⟩
  unfold onSilence
  split
  · rename_i hmany
    have hattempts : turn.attempts = d.ackRetries + 1 := Nat.le_antisymm h.attempts_le hmany
    refine h.account.disciplined nofun fun k a => ⟨fun hstate => ?_, fun hex => ?_⟩
    · cases hstate
      refine ⟨hattempts, h.index.symm, hawaits.followed, ?_, hsilent⟩
      rw [hawaits.current, List.length_append, List.length_singleton, hlength, hattempts]
    · obtain ⟨rfl, rfl, -⟩ := hex
      rw [h.index, hattempts]
  · rename_i hfew
    refine ⟨done, current, ⟨h.account, h.index, ⟨h.underway.index_lt, h.underway.encode⟩, ?_⟩, ?_⟩
    · change turn.attempts + 1 ≤ d.ackRetries + 1
      omega
    · exact
        { length := by rw [hawaits.current, List.length_append, List.length_singleton, hlength]
          silent := hsilent
          final := fun hfinal => absurd hfinal (Nat.ne_of_lt hawaits.followed) }

theorem AtWork.acknowledged (h : d.AtWork calls turn done current)
    (hawaits : d.Awaits turn.index turn.attempts current earlier last)
    (hopen : d.Open last.since deadline) (limit : Nat) {datagram : Bytes} {source : SocketAddress}
    (hack : d.isAcknowledgedBy datagram source = true) :
    d.Account (calls ++ [.receive limit (.ok (datagram, source))])
      (done.map (·.map (·.after (.receive limit (.ok (datagram, source))))) ++
        [current.map (·.after (.receive limit (.ok (datagram, source))))]) [] := by
  have hwork := h.after (.receive limit (.ok (datagram, source))) rfl turn.stage
  have hlast : d.Acknowledged (last.since ++ [.receive limit (.ok (datagram, source))]) :=
    hopen.acknowledged trivial (acknowledgedBy_receive_iff.2 hack)
  refine hwork.account.close (by simp [hawaits.current]) fun _ => ?_
  rw [(hawaits.after (.receive limit (.ok (datagram, source)))).current, List.getLast?_concat]
  exact ⟨_, rfl, hlast⟩

theorem AtWork.received (h : d.AtWork calls turn done current)
    (hawaits : d.Awaits turn.index turn.attempts current earlier last)
    (hopen : d.Open last.since deadline) (limit : Nat)
    (result : Except IoError (Bytes × SocketAddress)) :
    d.Invariant (calls ++ [.receive limit result])
      (d.onReceived turn deadline (.classify result)) := by
  have hawaits' := hawaits.after (.receive limit result)
  have hwork := h.after (.receive limit result) rfl
  cases result with
  | ok received =>
    obtain ⟨datagram, source⟩ := received
    simp only [IoOutcome.classify_ok, onReceived]
    split
    · rename_i hack
      exact (h.acknowledged hawaits hopen limit hack).enter (by simpa using h.index)
    · rename_i hnot
      exact ⟨_, _, hwork (.checkWait deadline), _, _, hawaits',
        hopen.extend trivial (fun hack => hnot (acknowledgedBy_receive_iff.1 hack)) not_false⟩
  | error e =>
    cases hr : IoOutcome.classify (.error e : Except IoError (Bytes × SocketAddress)) with
    | success received => simp [IoOutcome.classify_eq_success_iff] at hr
    | wouldBlock =>
      refine ⟨_, _, hwork (.checkWait deadline), _, _, hawaits',
        hopen.extend trivial not_false fun hfails => ?_⟩
      cases hr.symm.trans (IoOutcome.classify_eq_fail_iff.2 ⟨rfl, hfails⟩)
    | fail e =>
      obtain ⟨he, hfails⟩ := IoOutcome.classify_eq_fail_iff.1 hr
      cases he
      exact (hwork turn.stage).interrupted
        (hawaits'.not_exhausted (hopen.not_silent_of_fails trivial hfails))

theorem AtWork.resume {answer : Answer} (h : d.AtWork calls turn done current)
    (hstanding : d.Standing turn current) (hex : d.Exchange turn.query call answer) :
    d.Invariant (calls ++ [call]) (d.resume turn answer) := by
  obtain ⟨index, attempts, wire, stage⟩ := turn
  cases stage with
  | noteSend =>
    cases hex with
    | time now =>
      exact ⟨_, _, h.after _ rfl (.send (now + d.ackTimeout)), InVain.after hstanding (.read now)⟩
  | send deadline =>
    cases hex with
    | send wire result => exact h.sent hstanding result
  | checkSend deadline =>
    cases hex with
    | time now =>
      have hvain := InVain.after hstanding (.read now)
      simp only [Delivery.resume]
      split
      · exact ⟨_, _, h.after _ rfl (.rest deadline), hvain⟩
      · exact (h.after _ rfl .noteSend).interrupted (hvain.not_exhausted h.attempts_le)
  | rest deadline =>
    cases hex with
    | rest => exact ⟨_, _, h.after _ rfl (.send deadline), InVain.after hstanding .rest⟩
  | noteWait =>
    cases hex with
    | time now =>
      obtain ⟨earlier, last, hawaits, hnil⟩ := hstanding
      refine ⟨_, _, h.after _ rfl (.checkWait (now + d.ackTimeout)), _, _,
        hawaits.after (.read now), [], ⟨now, rfl, ?_, List.forall_mem_nil _⟩,
        List.forall_mem_nil _⟩
      rw [Handing.after, hnil]
      rfl
  | checkWait deadline =>
    cases hex with
    | time now =>
      obtain ⟨earlier, last, hawaits, hopen⟩ := hstanding
      simp only [Delivery.resume]
      split
      · rename_i hlt
        exact ⟨_, _, h.after _ rfl (.receive deadline), _, _, hawaits.after (.read now),
          hopen.extend hlt not_false not_false⟩
      · rename_i hle
        exact (h.after _ rfl (.checkWait deadline)).silence (hawaits.after (.read now))
          (hopen.silent (Nat.le_of_not_lt hle))
  | receive deadline =>
    cases hex with
    | receive limit result =>
      obtain ⟨earlier, last, hawaits, hopen⟩ := hstanding
      exact h.received hawaits hopen limit result

theorem Invariant.disciplined {state : State} (h : d.Invariant calls state) :
    ∃ rounds, d.Disciplined calls state rounds := by
  cases state with
  | ended result => exact h
  | running turn =>
    obtain ⟨done, current, hwork, hstanding⟩ := h
    refine hwork.account.disciplined_of_not_exhausted nofun nofun (hwork.index ▸ ?_)
    have hvain (h : d.InVain turn.index turn.attempts current) :
        ¬ d.Exhausted turn.index current := h.not_exhausted hwork.attempts_le
    obtain ⟨index, attempts, wire, stage⟩ := turn
    cases stage with
    | noteSend => exact hvain hstanding
    | send deadline => exact hvain hstanding
    | checkSend deadline => exact hvain hstanding
    | rest deadline => exact hvain hstanding
    | noteWait =>
      obtain ⟨earlier, last, hawaits, hnil⟩ := hstanding
      exact hawaits.not_exhausted (hnil ▸ not_silent_nil)
    | checkWait deadline =>
      obtain ⟨earlier, last, hawaits, hopen⟩ := hstanding
      exact hawaits.not_exhausted hopen.not_silent
    | receive deadline =>
      obtain ⟨earlier, last, hawaits, hopen⟩ := hstanding
      exact hawaits.not_exhausted hopen.not_silent

end Turn

section Run

variable {σ : Type}

theorem ask_recorded (socket : Socket (StateM σ)) (d : Delivery) (query : Query) (s : σ)
    (calls : List Entry) : ∃ call answer s', d.Exchange query call answer ∧
      d.ask socket query s = (answer, s') ∧
      d.ask socket.recorded query (s, calls) = (answer, s', calls ++ [call]) := by
  cases query with
  | time => exact ⟨_, _, _, .time _, rfl, rfl⟩
  | send wire => exact ⟨_, _, _, .send wire _, rfl, rfl⟩
  | rest => exact ⟨_, _, _, .rest, rfl, rfl⟩
  | receive => exact ⟨_, _, _, .receive receiveLimit _, rfl, rfl⟩

theorem run_succ {τ : Type} {socket : Socket (StateM τ)} {turn : Turn} {answer : Answer} {s s' : τ}
    (h : d.ask socket turn.query s = (answer, s')) (fuel : Nat) :
    d.run socket (fuel + 1) (.running turn) s = d.run socket fuel (d.resume turn answer) s' :=
  congrArg (fun p : Answer × τ => d.run socket fuel (d.resume turn p.1) p.2) h

theorem run_ended {τ : Type} {socket : Socket (StateM τ)} (fuel : Nat)
    (result : Except TransportError Nat) (s : τ) :
    d.run socket fuel (.ended result) s = (.ended result, s) := by
  cases fuel <;> rfl

theorem Invariant.run (socket : Socket (StateM σ)) {state : State} {s : σ}
    (h : d.Invariant calls state) (fuel : Nat) : ∃ state' s' calls',
      d.run socket.recorded fuel state (s, calls) = (state', s', calls') ∧
      d.run socket fuel state s = (state', s') ∧ d.Invariant calls' state' := by
  -- Both sockets are asked the same and answer the same, so the two runs go step by step.
  induction fuel generalizing state s calls with
  | zero => exact ⟨state, s, calls, rfl, rfl, h⟩
  | succ fuel ih =>
    cases state with
    | ended result => exact ⟨_, s, calls, run_ended _ _ _, run_ended _ _ _, h⟩
    | running turn =>
      obtain ⟨done, current, hwork, hstanding⟩ := h
      obtain ⟨call, answer, s', hex, hask, hrecorded⟩ := ask_recorded socket d turn.query s calls
      obtain ⟨state', s'', calls', hrun, hplain, hend⟩ :=
        ih (hwork.resume hstanding hex) (s := s')
      exact ⟨state', s'', calls', (run_succ hrecorded fuel).trans hrun,
        (run_succ hask fuel).trans hplain, hend⟩

end Run

end Delivery

namespace Sender

open Socket

variable {σ : Type} {s : Sender} {socket : Socket (StateM σ)} {parcel : Parcel} {timestamp : Nat}
  {cookie : String} {address : Except IoError SocketAddress} {d : Delivery} {start next : σ}

theorem cookie_of_prepare (hd : s.prepare parcel timestamp cookie address = .ok d)
    (hmany : 1 < d.segments) :
    d.message.ack.map (·.cookie) = some cookie ∧ d.cookie = cookie := by
  have hsegments : d.segments = s.encoder.segmentCount parcel.payload.length := by
    obtain ⟨ack, rfl, -⟩ := prepare_ok hd
    rfl
  unfold prepare Delivery.endpoint? at hd
  rw [if_neg (by omega)] at hd
  cases address with
  | ok address =>
    cases hd
    exact ⟨rfl, rfl⟩
  | error e => cases hd

theorem address_of_prepare {e : TransportError}
    (he : s.prepare parcel timestamp cookie address = .error e) :
    ∃ err, address = .error err ∧ e = .io err := by
  unfold prepare Delivery.endpoint? at he
  split at he
  · cases he
  · cases address with
    | ok address => cases he
    | error err =>
      cases he
      exact ⟨err, rfl, rfl⟩

theorem send_of_prepare_ok (haddress : socket.address start = (address, next))
    (hd : s.prepare parcel timestamp cookie address = .ok d) (fuel : Nat) :
    s.send socket parcel timestamp cookie fuel start = d.run socket fuel d.start next := by
  simp [send, bind, StateT.bind, haddress, hd]

theorem send_of_prepare_error {e : TransportError}
    (haddress : socket.address start = (address, next))
    (he : s.prepare parcel timestamp cookie address = .error e) (fuel : Nat) :
    s.send socket parcel timestamp cookie fuel start = (.ended (.error e), next) := by
  simp [send, bind, StateT.bind, haddress, he]
  rfl

/-- The record of the calls changes nothing else. Only a message of several fragments needs the
address of the socket. -/
theorem disciplined_send (s : Sender) (socket : Socket (StateM σ)) (parcel : Parcel)
    (timestamp : Nat) (cookie : String) (fuel : Nat) (start : σ) : ∃ state last calls,
      s.send socket.recorded parcel timestamp cookie fuel (start, []) = (state, last, calls) ∧
      s.send socket parcel timestamp cookie fuel start = (state, last) ∧
      ((∃ d rounds, s.prepare parcel timestamp cookie (socket.address start).1 = .ok d ∧
          (1 < d.segments → d.message.ack.map (·.cookie) = some cookie ∧ d.cookie = cookie) ∧
          d.Disciplined calls state rounds) ∨
        ∃ e, (socket.address start).1 = .error e ∧ state = .ended (.error (.io e)) ∧
          handings calls = []) := by
  obtain ⟨address, next, haddress⟩ : ∃ address next, socket.address start = (address, next) :=
    ⟨_, _, rfl⟩
  have hrecorded : socket.recorded.address (start, []) = (address, next, [.address address]) :=
    record_eq haddress .address []
  rw [haddress]
  cases hd : s.prepare parcel timestamp cookie address with
  | error e =>
    obtain ⟨err, rfl, rfl⟩ := address_of_prepare hd
    exact ⟨_, _, _, send_of_prepare_error hrecorded hd fuel, send_of_prepare_error haddress hd fuel,
      .inr ⟨err, rfl, rfl, rfl⟩⟩
  | ok d =>
    have haccount : d.Account [.address address] [] [] :=
      { handings := rfl, length_le := Nat.zero_le _, past := nofun, current := .nil }
    obtain ⟨state, last, calls, hrun, hplain, hend⟩ :=
      (haccount.enter rfl).run socket (s := next) fuel
    obtain ⟨rounds, hdisciplined⟩ := hend.disciplined
    exact ⟨state, last, calls, (send_of_prepare_ok hrecorded hd fuel).trans hrun,
      (send_of_prepare_ok haddress hd fuel).trans hplain,
      .inl ⟨d, rounds, rfl, cookie_of_prepare hd, hdisciplined⟩⟩

end Sender

end MultimediaMessaging
