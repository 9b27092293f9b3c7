import MultimediaMessaging.Proofs.Stack.Attendance
import MultimediaMessaging.Proofs.Stack.Rest

/-!
Messages that arrive while all threads rest. Main statement: a message wakes one thread or none, a
receiver before one that waits for activity, and the receiver takes exactly this message.
-/

set_option autoImplicit false

namespace MultimediaMessaging

def PushRegistration.accepts (p : PushRegistration) (sender : String) : Bool :=
  p.filter.all (·.accepts sender)

namespace Want

variable {pool : Pool} {m : Message}

theorem check_message_add (h : pool.Consistent) (hnone : pool.countFor m.app = 0) :
    (Want.message m.app).check (pool.add m) =
      (some (.message m), ((pool.add m).takeFirst m.app).2) := by
  have hfound := (h.takeFirst_add hnone).1
  simp [check, hfound]

theorem check_activity_add (h : pool.Consistent) :
    (Want.activity m.app).check (pool.add m) =
      (some (.activity ((pool.add m).countFor m.app)), pool.add m) := by
  simp only [check, h.countFor_add_pos m, if_true]

end Want

namespace Stack

variable {τ : Type} {s : Stack τ} {m : Message} {e : Registration Listener} {id : RoomId}

def messagesFor (s : Stack τ) (app : String) : List Message :=
  s.pool.backlog.messages.filter (·.app = app)

theorem messagesFor_eq_nil (h : s.pool.Consistent) {app : String}
    (hnone : s.pool.countFor app = 0) : s.messagesFor app = [] := by
  rw [h.count, List.countP_eq_zero] at hnone
  exact List.filter_eq_nil_iff.2 hnone

/-- What comes of asking the threads of `found` while none is roused. -/
inductive Asks (s : Stack τ) (found : Option (Registration Listener)) : Bool × Stack τ → Prop where
  | nobody {told : Stack τ} (hpool : told.pool = s.pool) (hlisteners : told.listeners = s.listeners)
      (hrooms : ∀ id, told.audience.room id = s.audience.room id)
      (hparked : ∀ e id, found = some e → e.listener = .waiter id →
        (s.audience.room id).parked = []) : Asks s found (false, told)
  | sleeper {told : Stack τ} {e : Registration Listener} {id : RoomId} {t : τ} {rest : List τ}
      (hfound : found = some e) (hlistener : e.listener = .waiter id) (hpool : told.pool = s.pool)
      (hparked : (s.audience.room id).parked = t :: rest)
      (hhere : told.audience.room id = (s.audience.room id).afterWake t rest)
      (hthere : ∀ other, id ≠ other → told.audience.room other = s.audience.room other) :
      Asks s found (true, told)

theorem asks [DecidableEq τ] {found : Option (Registration Listener)} (m : Message)
    (hbalanced : ∀ id, (s.audience.room id).Balanced)
    (hroused : ∀ id, (s.audience.room id).roused = [])
    (hwaiter : ∀ e, found = some e → ∃ id, e.listener = .waiter id) :
    s.Asks found (s.ask m found) := by
  cases found with
  | none => exact .nobody rfl rfl (fun _ => rfl) nofun
  | some e =>
    obtain ⟨id, hlistener⟩ := hwaiter e rfl
    rw [ask_waiter hlistener]
    cases hparked : (s.audience.room id).parked with
    | nil =>
      rw [(hbalanced id).wakeOne_nil hparked (hroused id)]
      refine .nobody rfl rfl (fun other => ?_) fun e' id' hfound hlistener' => ?_
      · -- the room goes back to where it was
        by_cases hid : id = other
        · exact hid ▸ Audience.room_setRoom_self _ _ _
        · exact Audience.room_setRoom_ne _ _ hid
      · cases hfound
        cases hlistener.symm.trans hlistener'
        exact hparked
    | cons t rest =>
      rw [(hbalanced id).wakeOne_cons hparked, hroused id]
      exact .sleeper rfl hlistener rfl hparked (Audience.room_setRoom_self _ _ _)
        fun _ hid => Audience.room_setRoom_ne _ _ hid

end Stack

namespace Device

variable {τ : Type} {d : Device τ} {m : Message} {app : String} {t : τ}
  {id : RoomId} {e : Registration Listener}

def Serves (d : Device τ) (app : String) (c : Connection τ) : Prop :=
  ∃ e, d.stack.listeners.midlet.get? app = some e ∧ d.ConnectionEntry app e c

def Watches (d : Device τ) (app : String) (p : PushRegistration) : Prop :=
  ∃ e, d.stack.listeners.push.get? app = some e ∧ d.PushEntry app e p

def Interested (d : Device τ) (m : Message) : Prop :=
  (∃ c, d.Serves m.app c) ∨ ∃ p, d.Watches m.app p ∧ p.accepts m.sender

theorem PushEntry.accepts {p : PushRegistration} (h : d.PushEntry app e p) (sender : String) :
    e.accepts sender = p.accepts sender := by
  rw [Registration.accepts, PushRegistration.accepts, h.filter]

theorem Watches.pushFor {p : PushRegistration} (h : d.Watches m.app p)
    (haccepts : p.accepts m.sender) :
    ∃ e, d.stack.pushFor? m = some e ∧ e.listener = .waiter p.room := by
  obtain ⟨e, hentry, hp⟩ := h
  exact ⟨e, Option.filter_eq_some_iff.2 ⟨hentry, hp.accepts m.sender ▸ haccepts⟩, hp.listener⟩

theorem Known.serves (h : Known d) (hentry : d.stack.connectionFor? m = some e) :
    ∃ c, d.Serves m.app c ∧ e.listener = .waiter c.room := by
  obtain ⟨c, hc⟩ := h.midlet (Table.mem_of_get? hentry)
  exact ⟨c, ⟨e, hentry, hc⟩, hc.listener⟩

theorem Known.watches (h : Known d) (hentry : d.stack.pushFor? m = some e) :
    ∃ p, d.Watches m.app p ∧ p.accepts m.sender ∧ e.listener = .waiter p.room := by
  obtain ⟨hget, haccepts⟩ := Option.filter_eq_some_iff.1 hentry
  obtain ⟨p, hp⟩ := h.pushed (Table.mem_of_get? hget)
  exact ⟨p, ⟨e, hget, hp⟩, hp.accepts m.sender ▸ haccepts, hp.listener⟩

theorem Known.hears_iff (h : Known d) : d.stack.Hears m ↔ d.Interested m := by
  constructor
  · rintro (hconnection | hpush)
    · obtain ⟨e, hentry⟩ := Option.ne_none_iff_exists'.1 hconnection
      obtain ⟨c, hserves, -⟩ := h.serves hentry
      exact .inl ⟨c, hserves⟩
    · obtain ⟨e, hentry⟩ := Option.ne_none_iff_exists'.1 hpush
      obtain ⟨p, hwatches, haccepts, -⟩ := h.watches hentry
      exact .inr ⟨p, hwatches, haccepts⟩
  · rintro (⟨c, e, hentry, -⟩ | ⟨p, hwatches, haccepts⟩)
    · exact .inl (Option.ne_none_iff_exists'.2 ⟨e, hentry⟩)
    · obtain ⟨e, hentry, -⟩ := hwatches.pushFor haccepts
      exact .inr (Option.ne_none_iff_exists'.2 ⟨e, hentry⟩)

variable [DecidableEq τ]

def Receives (d : Device τ) (t : τ) (m : Message) : Prop :=
  ∃ c, d.Serves m.app c ∧ d.Parked t c.room (.message m.app)

def Notices (d : Device τ) (t : τ) (m : Message) : Prop :=
  ∃ p, d.Watches m.app p ∧ p.accepts m.sender ∧ d.Parked t p.room (.activity m.app)

theorem not_receives (hparked : ∀ e id, d.stack.connectionFor? m = some e →
      e.listener = .waiter id → (d.room id).parked = []) : ¬ d.Receives t m :=
  fun ⟨c, ⟨e, hentry, hc⟩, hsleeps⟩ =>
    absurd hsleeps.sleeper (hparked e c.room hentry hc.listener ▸ List.not_mem_nil)

theorem not_notices (hparked : ∀ e id, d.stack.pushFor? m = some e →
      e.listener = .waiter id → (d.room id).parked = []) : ¬ d.Notices t m :=
  fun ⟨p, hwatches, haccepts, hsleeps⟩ => by
    obtain ⟨e, hentry, hlistener⟩ := hwatches.pushFor haccepts
    exact absurd hsleeps.sleeper (hparked e p.room hentry hlistener ▸ List.not_mem_nil)

/-- What may come of a message that arrives while all threads rest. -/
inductive Arrives (d : Device τ) (m : Message) : Disposition × Stack τ → Prop where
  | received {stack : Stack τ} {c : Connection τ} {t : τ} {rest : List τ}
      (hserves : d.Serves m.app c) (hpool : stack.pool = d.stack.pool.add m)
      (hwoken : d.Woken { d with stack } c.room t rest) : Arrives d m (.deliveredToMidlet, stack)
  | noticed {stack : Stack τ} {p : PushRegistration} {t : τ} {rest : List τ}
      (hreceives : ∀ t, ¬ d.Receives t m) (hwatches : d.Watches m.app p)
      (haccepts : p.accepts m.sender) (hpool : stack.pool = d.stack.pool.add m)
      (hwoken : d.Woken { d with stack } p.room t rest) : Arrives d m (.deliveredToPush, stack)
  | pooled {stack : Stack τ} (hreceives : ∀ t, ¬ d.Receives t m) (hnotices : ∀ t, ¬ d.Notices t m)
      (hinterested : d.Interested m) (hpool : stack.pool = d.stack.pool.add m)
      (hrooms : ∀ id, stack.audience.room id = d.room id) : Arrives d m (.pooled, stack)
  | discarded {stack : Stack τ} (hinterested : ¬ d.Interested m)
      (hpool : stack.pool = d.stack.pool)
      (hrooms : ∀ id, stack.audience.room id = d.room id) : Arrives d m (.discarded, stack)

theorem Resting.settles (hrest : d.Resting) (hseated : Seated d) {stack : Stack τ}
    (hrooms : ∀ id, stack.audience.room id = d.room id) :
    Settles { d with stack } { d with stack } := by
  refine .of_resting (fun t task hat => (hrest t task hat).imp_right ?_) fun id => ?_
  · rintro ⟨id, want, htask, hsleeper⟩
    refine ⟨id, want, htask, ?_⟩
    change t ∈ (stack.audience.room id).parked
    rwa [hrooms]
  · exact (congrArg (·.roused) (hrooms id)).trans (hseated.roused_eq_nil hrest id)

theorem asks (hseated : Seated d) (hrest : d.Resting) {s : Stack τ}
    {found : Option (Registration Listener)} (hrooms : ∀ id, s.audience.room id = d.room id)
    (hwaiter : ∀ e, found = some e → ∃ id, e.listener = .waiter id) :
    s.Asks found (s.ask m found) :=
  Stack.asks m (fun id => hrooms id ▸ hseated.balanced id)
    (fun id => hrooms id ▸ hseated.roused_eq_nil hrest id) hwaiter

theorem arrives (hknown : Known d) (hseated : Seated d) (hrest : d.Resting) (m : Message) :
    d.Arrives m (d.stack.dispatch m) := by
  have hfirst : (d.stack.store m).Asks (d.stack.connectionFor? m)
      ((d.stack.store m).ask m (d.stack.connectionFor? m)) := by
    refine asks hseated hrest (fun _ => rfl) fun e hfound => ?_
    obtain ⟨c, -, hlistener⟩ := hknown.serves hfound
    exact ⟨c.room, hlistener⟩
  -- a connection that nobody sleeps at leaves all to the push registration as it was
  have hsecond {told : Stack τ} (hlisteners : told.listeners = d.stack.listeners)
      (hrooms : ∀ id, told.audience.room id = d.room id) :
      told.Asks (d.stack.pushFor? m) (told.ask m (told.pushFor? m)) := by
    have hsame : told.pushFor? m = d.stack.pushFor? m :=
      congrArg (fun listeners => (listeners.push.get? m.app).filter (·.accepts m.sender)) hlisteners
    rw [hsame]
    refine asks hseated hrest hrooms fun e hfound => ?_
    obtain ⟨p, -, -, hlistener⟩ := hknown.watches hfound
    exact ⟨p.room, hlistener⟩
  have hdispatched := d.stack.dispatched m
  generalize d.stack.dispatch m = result at hdispatched
  cases hdispatched with
  | discarded hunheard => exact .discarded (hknown.hears_iff.not.1 hunheard) rfl fun _ => rfl
  | claimed hheard hclaimed =>
    rw [hclaimed] at hfirst
    cases hfirst with
    | sleeper hfound hlistener hpool hparked hhere hthere =>
      obtain ⟨c, hserves, hsame⟩ := hknown.serves hfound
      cases hlistener.symm.trans hsame
      exact .received hserves hpool ⟨rfl, hparked, hhere, hthere _⟩
  | pushed hheard hdeclined hclaimed =>
    rw [hdeclined] at hfirst
    cases hfirst with
    | nobody hpool hlisteners hrooms hnobody =>
      have hpush := hsecond hlisteners hrooms
      rw [hclaimed] at hpush
      cases hpush with
      | @sleeper _ e id t rest hfound hlistener hpool' hparked hhere hthere =>
        obtain ⟨p, hwatches, haccepts, hsame⟩ := hknown.watches hfound
        cases hlistener.symm.trans hsame
        rw [hrooms] at hparked hhere
        exact .noticed (fun _ => not_receives hnobody) hwatches haccepts (hpool'.trans hpool)
          ⟨rfl, hparked, hhere, fun {other} hid => (hthere other hid).trans (hrooms other)⟩
  | pooled hheard hdeclined hpassed =>
    rw [hdeclined] at hfirst
    cases hfirst with
    | nobody hpool hlisteners hrooms hnobody =>
      have hpush := hsecond hlisteners hrooms
      rw [hpassed] at hpush
      cases hpush with
      | nobody hpool' hlisteners' hrooms' hnobody' =>
        refine .pooled (fun _ => not_receives hnobody) (fun _ => not_notices ?_)
          (hknown.hears_iff.1 hheard) (hpool'.trans hpool) fun id => (hrooms' id).trans (hrooms id)
        exact fun e id hfound hlistener => (congrArg (·.parked) (hrooms id)).symm.trans
          (hnobody' e id hfound hlistener)

/-- The device after the message has been dispatched and before any thread goes on. -/
def arrive (d : Device τ) (m : Message) : Device τ := { d with stack := (d.stack.dispatch m).2 }

structure Tells (d : Device τ) (m : Message) (disposition : Disposition) : Prop where
  midlet : disposition = .deliveredToMidlet ↔ ∃ t, d.Receives t m
  push : disposition = .deliveredToPush ↔ (¬ ∃ t, d.Receives t m) ∧ ∃ t, d.Notices t m
  pooled : disposition = .pooled ↔
    d.Interested m ∧ (¬ ∃ t, d.Receives t m) ∧ ¬ ∃ t, d.Notices t m
  discarded : disposition = .discarded ↔ ¬ d.Interested m

inductive Follows (d : Device τ) (m : Message) : Disposition → Device τ → Prop where
  | received {d' : Device τ} {t : τ} (hreceives : d.Receives t m)
      (htasks : d'.tasks = d.tasks.put t (.finished (.ok (.message m))))
      (hmessages : d'.stack.messagesFor m.app = d.stack.messagesFor m.app) :
      Follows d m .deliveredToMidlet d'
  | noticed {d' : Device τ} {t : τ} (hreceives : ¬ ∃ t, d.Receives t m)
      (hnotices : d.Notices t m)
      (htasks : d'.tasks = d.tasks.put t (.finished (.ok (.activity (d'.stack.pending m.app)))))
      (hpool : d'.stack.pool = d.stack.pool.add m) : Follows d m .deliveredToPush d'
  | pooled {d' : Device τ} (hreceives : ¬ ∃ t, d.Receives t m) (hnotices : ¬ ∃ t, d.Notices t m)
      (hinterested : d.Interested m) (htasks : d'.tasks = d.tasks)
      (hpool : d'.stack.pool = d.stack.pool.add m) : Follows d m .pooled d'
  | discarded {d' : Device τ} (hinterested : ¬ d.Interested m) (htasks : d'.tasks = d.tasks)
      (hpool : d'.stack.pool = d.stack.pool) : Follows d m .discarded d'

theorem Receives.interested (h : d.Receives t m) : d.Interested m := by
  obtain ⟨c, hserves, -⟩ := h
  exact .inl ⟨c, hserves⟩

theorem Notices.interested (h : d.Notices t m) : d.Interested m := by
  obtain ⟨p, hwatches, haccepts, -⟩ := h
  exact .inr ⟨p, hwatches, haccepts⟩

theorem Follows.tells {disposition : Disposition} {d' : Device τ}
    (h : d.Follows m disposition d') : d.Tells m disposition := by
  cases h with
  | received hreceives =>
    have hexists : ∃ t, d.Receives t m := ⟨_, hreceives⟩
    exact ⟨by simp [hexists], by simp [hexists], by simp [hexists], by simp [hreceives.interested]⟩
  | noticed hreceives hnotices =>
    have hexists : ∃ t, d.Notices t m := ⟨_, hnotices⟩
    exact ⟨by simp [hreceives], by simp [hreceives, hexists], by simp [hexists],
      by simp [hnotices.interested]⟩
  | pooled hreceives hnotices hinterested =>
    exact ⟨by simp [hreceives], by simp [hnotices], by simp [hinterested, hreceives, hnotices],
      by simp [hinterested]⟩
  | discarded hinterested =>
    have hreceives : ¬ ∃ t, d.Receives t m := fun ⟨_, h⟩ => hinterested h.interested
    have hnotices : ¬ ∃ t, d.Notices t m := fun ⟨_, h⟩ => hinterested h.interested
    exact ⟨by simp [hreceives], by simp [hnotices], by simp [hinterested], by simp [hinterested]⟩

end Device

namespace Traffic

variable {τ : Type} [DecidableEq τ] {x : Traffic τ} {m : Message} {app : String} {t : τ}
  {id : RoomId}

structure Resting (x : Traffic τ) : Prop where
  quiet : x.Quiet
  leaving : x.leaving = []
  device : x.device.Resting

/-- No receiver sleeps beside a message. -/
theorem Invariant.pending_eq_zero (h : Invariant x) (hrest : x.Resting)
    (hparked : x.device.Parked t id (.message app)) : x.stack.pending app = 0 := by
  obtain ⟨⟨timed, hat⟩, hsleeper⟩ := hparked
  have hne : (x.device.room id).parked ≠ [] := List.ne_nil_of_mem hsleeper
  rcases h.admits hat with ⟨c, hget, hwant⟩ | ⟨p, -, hwant⟩
  · cases hwant
    -- nobody is left to dismiss the sleepers, and an interrupted room has none
    rcases h.attends hget with (hleaving | ⟨u, own, hdismiss⟩) | hint | ⟨-, hserved⟩
    · rw [hrest.leaving] at hleaving
      cases hleaving
    · rcases hrest.device u _ hdismiss with hfinished | ⟨_, _, ⟨_, hasleep⟩, _⟩
      · cases hfinished
      · cases hdismiss.symm.trans hasleep
    · exact absurd ((h.seated.balanced id).awake hint) hne
    · have hless := hserved hne
      rw [h.seated.roused_eq_nil hrest.device, due, hrest.quiet.1] at hless
      exact Nat.le_zero.1 hless
  · cases hwant

theorem Invariant.parked_connection (h : Invariant x) {c : Connection τ}
    (hget : x.device.connections.get? id = some c) (hsleeper : t ∈ (x.device.room id).parked) :
    x.device.Parked t id (.message c.app) := by
  obtain ⟨want, timed, hat⟩ := (h.seated.asleep id t).1 (List.mem_append_left _ hsleeper)
  obtain rfl := h.known.want_connection hget (h.admits hat)
  exact ⟨⟨timed, hat⟩, hsleeper⟩

theorem Invariant.parked_push (h : Invariant x) {p : PushRegistration}
    (hget : x.device.pushes.get? id = some p) (hsleeper : t ∈ (x.device.room id).parked) :
    x.device.Parked t id (.activity p.app) := by
  obtain ⟨want, timed, hat⟩ := (h.seated.asleep id t).1 (List.mem_append_left _ hsleeper)
  obtain rfl := h.known.want_push hget (h.admits hat)
  exact ⟨⟨timed, hat⟩, hsleeper⟩

theorem Invariant.follows (h : Invariant x) (hrest : x.Resting) (m : Message) :
    ∃ d', (x.device.arrive m).Settles d' ∧ x.device.Follows m (x.stack.dispatch m).1 d' := by
  have hpooled : x.device.stack.pool.Consistent := h.pool
  have harrives := x.device.arrives h.known h.seated hrest.device m
  change ∃ d', Device.Settles { x.device with stack := (x.device.stack.dispatch m).2 } d' ∧
    x.device.Follows m (x.device.stack.dispatch m).1 d'
  generalize x.device.stack.dispatch m = result at harrives
  cases harrives with
  | @received stack c t rest hserves hpool hwoken =>
    obtain ⟨e, hentry, hc⟩ := id hserves
    have hparked : x.device.Parked t c.room (.message m.app) :=
      hc.app ▸ h.parked_connection hc.held (hwoken.parked ▸ List.mem_cons_self)
    have hnone : x.device.stack.pool.countFor m.app = 0 := h.pending_eq_zero hrest hparked
    obtain ⟨timed, hat⟩ := hparked.task
    have hcheck := hpool ▸ Want.check_message_add hpooled hnone
    refine ⟨_, hwoken.settles h.seated hrest.device hat hcheck,
      .received ⟨c, hserves, hparked⟩ rfl ?_⟩
    have hleft := ((hpooled.add m).1.takeFirst m.app).2.1
    rw [Stack.messagesFor_eq_nil hpooled hnone, Stack.messagesFor_eq_nil]
    · exact hpool ▸ hleft
    · exact hpool ▸ (hpooled.takeFirst_add hnone).2
  | @noticed stack p t rest hreceives hwatches haccepts hpool hwoken =>
    obtain ⟨e, hentry, hp⟩ := id hwatches
    have hparked : x.device.Parked t p.room (.activity m.app) :=
      hp.app ▸ h.parked_push hp.held (hwoken.parked ▸ List.mem_cons_self)
    obtain ⟨timed, hat⟩ := hparked.task
    have hcheck := hpool ▸ Want.check_activity_add (m := m) hpooled
    exact ⟨_, hwoken.settles h.seated hrest.device hat hcheck,
      .noticed (not_exists.2 hreceives) ⟨p, hwatches, haccepts, hparked⟩ rfl hpool⟩
  | pooled hreceives hnotices hinterested hpool hrooms =>
    exact ⟨_, hrest.device.settles h.seated hrooms,
      .pooled (not_exists.2 hreceives) (not_exists.2 hnotices) hinterested rfl hpool⟩
  | discarded hinterested hpool hrooms =>
    exact ⟨_, hrest.device.settles h.seated hrooms, .discarded hinterested rfl hpool⟩

/-- A message that arrives while all threads rest wakes one of them or none. -/
theorem one_consumer_wakes (hreachable : Reachable x) (hrest : x.Resting) :
    (∀ t id app, x.device.Parked t id (.message app) → x.stack.pending app = 0) ∧
      ∀ m, x.device.Tells m (x.stack.dispatch m).1 ∧
        ∃ d', (x.device.arrive m).Settles d' ∧ x.device.Follows m (x.stack.dispatch m).1 d' := by
  have h := invariant_of_reachable hreachable
  refine ⟨fun t id app => h.pending_eq_zero hrest, fun m => ?_⟩
  obtain ⟨d', hsettles, hfollows⟩ := h.follows hrest m
  exact ⟨hfollows.tells, d', hsettles, hfollows⟩

/-- Thread 1 sleeps in a receive and thread 2 waits for activity, both for one application. -/
def sleepers : Traffic Nat :=
  let stack : Stack Nat :=
    { config := {}
      router := { pool := .new 10 }
      assembler := { maxPending := 16, timeout := milliseconds 30000, limit := 307200 } }
  let opened := (({ stack } : Device Nat).connect "chat" ⟨1⟩).registerPush "chat" ⟨1⟩ none
  let receiving := (((opened.start 1 (.receive ⟨0⟩ false)).advance 1).advance 1).advance 1
  { device := (receiving.start 2 (.awaitActivity ⟨1⟩ true)).advance 2 }

theorem tasks_sleepers : sleepers.device.tasks =
    [(1, .asleep ⟨0⟩ (.message "chat") false), (2, .asleep ⟨1⟩ (.activity "chat") true)] := rfl

theorem reachable_sleepers : Reachable sleepers :=
  have hfresh : Reachable _ := @Reachable.fresh Nat _ {} _ rfl
  have hconnected := hfresh.step (.connect _ "chat" ⟨1⟩ ⟨rfl, rfl⟩)
  have hopened := hconnected.step (.registerPush _ "chat" ⟨1⟩ none ⟨rfl, rfl⟩)
  have hstarted := hopened.step (@Step.start Nat _ _ 1 (.receive ⟨0⟩ false) nofun nofun)
  have hreceiving := ((hstarted.step (.advance _ (t := 1) fun _ => ⟨rfl, rfl⟩)).step
    (.advance _ (t := 1) fun _ => ⟨rfl, rfl⟩)).step (.advance _ (t := 1) fun _ => ⟨rfl, rfl⟩)
  have hwaiting := hreceiving.step
    (@Step.start Nat _ _ 2 (.awaitActivity ⟨1⟩ true) nofun nofun)
  hwaiting.step (.advance _ (t := 2) fun _ => ⟨rfl, rfl⟩)

theorem parked_sleepers : sleepers.device.Parked 1 ⟨0⟩ (.message "chat") ∧
    sleepers.device.Parked 2 ⟨1⟩ (.activity "chat") :=
  ⟨⟨⟨false, rfl⟩, by decide⟩, ⟨true, rfl⟩, by decide⟩

theorem resting_sleepers : sleepers.Resting where
  quiet := ⟨rfl, rfl⟩
  leaving := rfl
  device t task hat := by
    have hmem := Table.mem_of_get? hat
    rw [tasks_sleepers] at hmem
    simp only [List.mem_cons, Prod.mk.injEq, List.not_mem_nil, or_false] at hmem
    rcases hmem with ⟨rfl, rfl⟩ | ⟨rfl, rfl⟩
    · exact .inr ⟨_, _, parked_sleepers.1⟩
    · exact .inr ⟨_, _, parked_sleepers.2⟩

def greeting : Message :=
  ⟨"mms://+5550001:4000", "chat", "mms://+5550001:4000:chat", 0, [104, 105]⟩

theorem one_consumer_wakes_receiver :
    Reachable sleepers ∧ sleepers.Resting ∧ sleepers.stack.pending "chat" = 0 ∧
      (sleepers.stack.dispatch greeting).1 = .deliveredToMidlet ∧
      ∃ d', (sleepers.device.arrive greeting).Settles d' ∧
        sleepers.device.Follows greeting .deliveredToMidlet d' := by
  obtain ⟨hempty, hroutes⟩ := one_consumer_wakes reachable_sleepers resting_sleepers
  have hmidlet : (sleepers.stack.dispatch greeting).1 = .deliveredToMidlet := rfl
  obtain ⟨-, hfollows⟩ := hroutes greeting
  exact ⟨reachable_sleepers, resting_sleepers, hempty _ _ _ parked_sleepers.1, hmidlet,
    hmidlet ▸ hfollows⟩

end Traffic

end MultimediaMessaging
