import MultimediaMessaging.Proofs.Fragment.RoundTrip
import MultimediaMessaging.Proofs.Stack.Operations
import MultimediaMessaging.Proofs.Stack.Teardown

/-!
The statistics of a stack add up. Main statement: after any operations, every message that was
completed or dispatched has been given to a connection, to a push registration or to the pool, or
was discarded; those that were not are accounted for by the pool; and every datagram was answered
with a request for more, ended a transfer or completed one.
-/

set_option autoImplicit false

namespace MultimediaMessaging

open Text

def Incoming.isNeedMore : Incoming → Bool
  | needMore _ => true
  | _ => false

namespace Stack

variable {τ : Type} {s s' : Stack τ} {direct more abandoned : Nat}

/-- The statistics after `direct` messages were dispatched directly, `more` datagrams were answered
with a request for more, and `abandoned` transfers were dropped on request. -/
structure Accounts (s : Stack τ) (direct more abandoned : Nat) : Prop where
  sorted : s.router.counts.midlet + s.router.counts.push + s.router.counts.pooled +
    s.router.counts.discarded = s.assembler.stats.completed + direct
  routed : s.router.counts.midlet + s.router.counts.push + s.router.counts.pooled =
    s.pool.stats.added
  pool : s.pool.stats.added =
    s.pool.stats.evicted + s.pool.stats.taken + s.pool.stats.purged + s.pool.count
  fragments : s.assembler.stats.fragments + abandoned =
    more + s.assembler.stats.completed + s.assembler.stats.aborted

/-- A pool whose indexes agree counts right whatever comes next. -/
structure Booked (s : Stack τ) (direct more abandoned : Nat) : Prop
    extends Accounts s direct more abandoned where
  consistent : s.pool.Consistent

theorem booked_new {config : Config} (hnew : Stack.new config = .ok s) : s.Booked 0 0 0 := by
  unfold Stack.new at hnew
  split at hnew
  · cases hnew
  · cases hnew
    exact ⟨⟨rfl, rfl, rfl, rfl⟩, Pool.consistent_new _⟩

theorem Booked.draws (h : s.Booked direct more abandoned) (hdraws : s.Draws s') :
    s'.Booked direct more abandoned := by
  obtain ⟨hpool, hconsistent, hadded⟩ := hdraws.pool.balanced h.pool h.consistent
  refine ⟨⟨?_, ?_, hpool, ?_⟩, hconsistent⟩
  · rw [hdraws.counts, hdraws.assembler]
    exact h.sorted
  · rw [hdraws.counts, hadded]
    exact h.routed
  · rw [hdraws.assembler]
    exact h.fragments

theorem Booked.setAssembler (h : s.Booked direct more abandoned) {assembler : Assembler}
    {direct' more' abandoned' : Nat}
    (hsorted : assembler.stats.completed + direct' = s.assembler.stats.completed + direct)
    (hfragments : assembler.stats.fragments + abandoned' =
      more' + assembler.stats.completed + assembler.stats.aborted) :
    { s with assembler }.Booked direct' more' abandoned' :=
  ⟨⟨h.sorted.trans hsorted.symm, h.routed, h.pool, hfragments⟩, h.consistent⟩

theorem Booked.tick (h : s.Booked direct more abandoned) (now : Time) :
    (s.tick now).2.Booked direct more abandoned :=
  h.setAssembler rfl h.fragments

theorem Booked.abandon (h : s.Booked direct more abandoned) (source : SocketAddress) :
    (s.abandon source).2.Booked direct more
      (abandoned + if (s.abandon source).1 then 1 else 0) := by
  have hfragments := h.fragments
  simp only [Stack.abandon, Assembler.abandon]
  by_cases hfound : s.assembler.slots.contains source = true
  · simp only [hfound, if_true]
    refine h.setAssembler rfl ?_
    simp only
    omega
  · simp only [Bool.not_eq_true] at hfound
    simp only [hfound, Bool.false_eq_true, if_false]
    exact h

theorem offer_ne_discarded {L σ : Type} (notify : L → Message.Info → σ → Bool × σ)
    (info : Message.Info) (midlet push : Option (Registration L)) (state : σ) :
    (Router.offer notify info midlet push state).1 ≠ .discarded := by
  unfold Router.offer
  split
  · simp
  · split <;> simp

variable [DecidableEq τ]

inductive Routes (s : Stack τ) (m : Message) : Stack τ → Prop where
  | discarded : Routes s m { s with router.counts := s.router.counts.count .discarded }
  | stored {disposition : Disposition} {audience : Audience τ}
      (hkept : disposition ≠ .discarded) :
      Routes s m { s with
        router := { s.router with
          pool := s.pool.add m
          counts := s.router.counts.count disposition }
        audience }

theorem routes (s : Stack τ) (m : Message) : Routes s m (s.dispatch m).2 := by
  simp only [dispatch, Router.dispatch_eq]
  split
  · exact .discarded
  · exact .stored (offer_ne_discarded _ _ _ _ _)

theorem Booked.dispatch (h : s.Booked direct more abandoned) (m : Message) :
    (s.dispatch m).2.Booked (direct + 1) more abandoned := by
  have hsorted := h.sorted
  have hrouted := h.routed
  have hroutes := s.routes m
  generalize (s.dispatch m).2 = s' at hroutes
  cases hroutes with
  | discarded =>
    refine ⟨⟨?_, hrouted, h.pool, h.fragments⟩, h.consistent⟩
    simp only [DispatchStats.count]
    omega
  | @stored disposition audience hkept =>
    obtain ⟨hpool, hadded⟩ := Pool.Balanced.add h.pool h.consistent m
    refine ⟨⟨?_, ?_, hpool, h.fragments⟩, (h.consistent.add m).1⟩
    · cases disposition <;> simp only [DispatchStats.count] <;> omega
    · refine Eq.trans ?_ hadded.symm
      cases disposition with
      | discarded => exact absurd rfl hkept
      | _ =>
        simp only [DispatchStats.count]
        omega

theorem stats_onFragment {a a' : Assembler} {now : Time} {source : SocketAddress} {bytes : Bytes}
    {result : Except DecodeError Progress} (h : a.onFragment now source bytes = (result, a')) :
    ∃ gone, a'.stats = Assembler.count result
      { a.stats with fragments := a.stats.fragments + 1, evicted := a.stats.evicted + gone } := by
  cases h
  exact ⟨_, rfl⟩

theorem Booked.datagram (h : s.Booked direct more abandoned) (now : Time)
    (source : SocketAddress) (bytes : Bytes) :
    (s.onDatagram now source bytes).2.Booked direct
      (more + if (s.onDatagram now source bytes).1.isNeedMore then 1 else 0) abandoned := by
  have hfragments := h.fragments
  unfold onDatagram
  rcases hresult : s.assembler.onFragment now source bytes with ⟨result, assembler⟩
  obtain ⟨gone, hstats⟩ := stats_onFragment hresult
  cases result with
  | error e =>
    refine h.setAssembler ?_ ?_
    · rw [hstats, Assembler.count]
    · rw [hstats]
      simp only [Assembler.count, Incoming.isNeedMore, Bool.false_eq_true, if_false]
      omega
  | ok progress =>
    cases progress with
    | more request =>
      refine h.setAssembler ?_ ?_
      · rw [hstats, Assembler.count]
      · rw [hstats]
        simp only [Assembler.count, Incoming.isNeedMore, if_true]
        omega
    | complete m =>
      -- the router does not look at the assembler, so it has dispatched before the count
      have hdispatched : (s.dispatch m).2.Booked (direct + 1) more abandoned := h.dispatch m
      refine hdispatched.setAssembler ?_ ?_
      · have hassembler : (s.dispatch m).2.assembler = s.assembler := rfl
        rw [hstats, hassembler]
        simp only [Assembler.count]
        omega
      · rw [hstats]
        simp only [Assembler.count, Incoming.isNeedMore, Bool.false_eq_true, if_false]
        omega

theorem draws_enrol (s : Stack τ) (call : Enrolment) : s.Draws (s.enrol call) := by
  cases call with
  | listen cls app suite listener filter => exact ⟨rfl, rfl, .same⟩
  | unlisten app cls owner =>
    simp only [enrol, unlisten, withdraw]
    cases (s.listeners.unregister app cls owner).1 with
    | error e => exact ⟨rfl, rfl, .same⟩
    | ok e => exact ⟨rfl, rfl, .same⟩
  | removeSuite suite =>
    refine ⟨?_, ?_, ?_⟩
    · simp only [enrol, removeSuite, foldl_dismiss]
      rfl
    · simp only [enrol, removeSuite, foldl_dismiss]
      rfl
    · rw [enrol, pool_removeSuite]
      exact .purged _

end Stack

namespace Device

open Stack (Booked Draws)

variable {τ : Type}

def Operation.isDispatch : Operation τ → Bool
  | dispatch _ => true
  | _ => false

theorem draws_connect (d : Device τ) (app : String) (suite : Suite) :
    d.stack.Draws (d.connect app suite).stack := by
  simp only [connect, Stack.connect, Stack.listen]
  cases (d.stack.newRoom.2.listeners.register .midlet app suite
    (.waiter d.stack.newRoom.1) none).1 with
  | error e => exact ⟨rfl, rfl, .same⟩
  | ok token => exact ⟨rfl, rfl, .same⟩

theorem draws_registerPush (d : Device τ) (app : String) (suite : Suite)
    (filter : Option SenderFilter) : d.stack.Draws (d.registerPush app suite filter).stack := by
  simp only [registerPush, Stack.registerPush, Stack.listen]
  cases (d.stack.newRoom.2.listeners.register .push app suite
    (.waiter d.stack.newRoom.1) filter).1 with
  | error e => exact ⟨rfl, rfl, .same⟩
  | ok token => exact ⟨rfl, rfl, .same⟩

theorem draws_report (d : Device τ) (i : Nat) (status : SendStatus) :
    d.stack.Draws (d.report i status).stack := by
  unfold report
  split <;> exact ⟨rfl, rfl, .same⟩

variable [DecidableEq τ] {d : Device τ} {direct more abandoned : Nat}

def asksMore (d : Device τ) : Operation τ → Bool
  | .datagram now source bytes => (d.stack.onDatagram now source bytes).1.isNeedMore
  | _ => false

def drops (d : Device τ) : Operation τ → Bool
  | .abandon source => (d.stack.abandon source).1
  | _ => false

def tally (p : Device τ → Operation τ → Bool) : Device τ → List (Operation τ) → Nat
  | _, [] => 0
  | d, operation :: operations =>
    (if p d operation then 1 else 0) + tally p (d.apply operation) operations

theorem draws_advance (d : Device τ) (t : τ) : d.stack.Draws (d.advance t).stack := by
  have hadvances := d.advances t
  generalize d.advance t = d' at hadvances
  cases hadvances with
  | works hdraws => exact hdraws
  | @withdraws room app cls token e stack hat hwithdraw =>
    obtain rfl : (d.stack.withdraw app cls (some token)).2 = stack := by rw [hwithdraw]
    exact ⟨rfl, rfl, .same⟩
  | dismisses => exact ⟨rfl, rfl, .same⟩

theorem draws_start (d : Device τ) (t : τ) (request : Request) :
    d.stack.Draws (d.apply (.start t request)).stack := by
  simp only [apply]
  split <;> exact ⟨rfl, rfl, .same⟩

theorem draws_expire (d : Device τ) (t : τ) : d.stack.Draws (d.expire t).stack := by
  unfold expire
  split <;> exact ⟨rfl, rfl, .same⟩

theorem booked_apply (h : d.stack.Booked direct more abandoned) (operation : Operation τ) :
    (d.apply operation).stack.Booked (direct + if operation.isDispatch then 1 else 0)
      (more + if d.asksMore operation then 1 else 0)
      (abandoned + if d.drops operation then 1 else 0) := by
  cases operation with
  | connect app suite => exact h.draws (d.draws_connect app suite)
  | registerPush app suite filter => exact h.draws (d.draws_registerPush app suite filter)
  | enrol call => exact h.draws (d.stack.draws_enrol call)
  | dispatch m => exact h.dispatch m
  | datagram now source bytes => exact h.datagram now source bytes
  | abandon source => exact h.abandon source
  | tick now => exact h.tick now
  | take app => exact h.draws ⟨rfl, rfl, .taken app⟩
  | start t request => exact h.draws (d.draws_start t request)
  | advance t => exact h.draws (d.draws_advance t)
  | expire t => exact h.draws (d.draws_expire t)
  | report i status => exact h.draws (d.draws_report i status)
  | complete handle status => exact h.draws ⟨rfl, rfl, .same⟩

theorem booked_run (h : d.stack.Booked direct more abandoned) (operations : List (Operation τ)) :
    (d.run operations).stack.Booked (direct + operations.countP (·.isDispatch))
      (more + tally asksMore d operations)
      (abandoned + tally drops d operations) := by
  induction operations generalizing d direct more abandoned with
  | nil => exact h
  | cons operation operations ih =>
    rw [List.countP_cons, Nat.add_comm (operations.countP _), tally, tally, ← Nat.add_assoc,
      ← Nat.add_assoc, ← Nat.add_assoc]
    exact ih (booked_apply h operation)

/-- No message is lost or counted twice, whatever is done with a stack and in whatever order. -/
theorem accounts_run {config : Config} {stack : Stack τ} (hnew : Stack.new config = .ok stack)
    (operations : List (Operation τ)) :
    (run { stack } operations).stack.Accounts (operations.countP (·.isDispatch))
      (tally asksMore { stack } operations)
      (tally drops { stack } operations) := by
  have hbooked := booked_run (d := { stack }) (Stack.booked_new hnew) operations
  simpa only [Nat.zero_add] using hbooked.toAccounts

/-- A connection claims a message, a push registration another, and the third has no listener. One
that comes in two fragments is pooled and fetched, and a transfer is given up. -/
def errands : List (Operation Nat) :=
  let source : SocketAddress := ⟨.v4 127 0 0 1, 4000, 0⟩
  [.enrol (.listen .midlet "chat" ⟨1⟩ (.observer ⟨"a", false⟩) none),
   .enrol (.listen .midlet "news" ⟨1⟩ (.observer ⟨"b", true⟩) none),
   .enrol (.listen .push "desk" ⟨2⟩ (.observer ⟨"c", true⟩) none),
   .dispatch ⟨"+4670", "news", "", 0, []⟩, .dispatch ⟨"+4670", "desk", "", 0, []⟩,
   .dispatch ⟨"+4670", "mail", "", 0, []⟩, .datagram 0 source (Decoder.letterWire 0),
   .datagram 0 source (Decoder.letterWire 1), .take "chat", .enrol (.removeSuite ⟨2⟩),
   .datagram 0 source [1], .datagram 0 source (Decoder.letterWire 0), .abandon source]

theorem accounts_errands :
    Stack.new {} = .ok Stack.blank ∧
      (run { stack := Stack.blank } errands).stack.Accounts 3 2 1 ∧
      (run { stack := Stack.blank } errands).stack.router.counts = ⟨1, 1, 1, 1⟩ ∧
      (run { stack := Stack.blank } errands).stack.pool.stats = ⟨3, 0, 1, 1⟩ ∧
      (run { stack := Stack.blank } errands).stack.pool.count = 1 ∧
      (run { stack := Stack.blank } errands).stack.assembler.stats = ⟨4, 1, 2, 0, 0⟩ := by
  have hdirect : errands.countP (·.isDispatch) = 3 := rfl
  obtain ⟨hmore, habandoned, hcounters⟩ :
      tally asksMore { stack := Stack.blank } errands = 2 ∧
      tally drops { stack := Stack.blank } errands = 1 ∧
      (run { stack := Stack.blank } errands).stack.router.counts = ⟨1, 1, 1, 1⟩ ∧
      (run { stack := Stack.blank } errands).stack.pool.stats = ⟨3, 0, 1, 1⟩ ∧
      (run { stack := Stack.blank } errands).stack.pool.count = 1 ∧
      (run { stack := Stack.blank } errands).stack.assembler.stats = ⟨4, 1, 2, 0, 0⟩ := by
    decide +kernel
  have haccounts := accounts_run (show Stack.new {} = .ok Stack.blank from rfl) errands
  rw [hdirect, hmore, habandoned] at haccounts
  exact ⟨rfl, haccounts, hcounters⟩

end Device

end MultimediaMessaging
