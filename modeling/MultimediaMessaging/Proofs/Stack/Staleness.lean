import MultimediaMessaging.Proofs.Sending.Room
import MultimediaMessaging.Proofs.Stack.Tickets

/-!
Calls on a connection or push registration whose registration is gone. Main statement: whatever else
is done before and meanwhile, such a call takes no message, changes no registration, starts no
transfer and tells the platform nothing, and it ends after a few steps of its own, with an error
unless it was to close the handle anyway.
-/

set_option autoImplicit false

namespace MultimediaMessaging

namespace Request

def room : Request → RoomId
  | receive id _ | tryReceive id | send id _ _ _ | close id => id
  | awaitActivity id _ | unregister id => id

def isLeaving : Request → Bool
  | close _ | unregister _ => true
  | _ => false

end Request

namespace Task

/-- How many steps a call on a stale handle has still to take. -/
def stepsLeft : Task → Nat
  | markClosed _ => 4
  | interruptSend _ | markInactive _ => 3
  | checkClosed _ _ | withdraw _ _ _ _ => 2
  | checkInterrupted _ _ | look _ _ _ | interruptRoom _ => 1
  | _ => 0

/-- Where a call may stand that came too late; `leaving` says that it was to give the handle up. -/
inductive Late (id : RoomId) (cls : ListenerClass) (k : Ticket) :
    (leaving : Bool) → Task → Prop where
  | checkClosed (use : Use) : Late id cls k false (.checkClosed id use)
  | checkInterrupted (use : Use) : Late id cls k false (.checkInterrupted id use)
  | look (want : Want) (timed : Bool) : Late id cls k false (.look id want timed)
  | refused (error : StackError) : Late id cls k false (.finished (.error error))
  | markClosed : Late id cls k true (.markClosed id)
  | interruptSend : Late id cls k true (.interruptSend id)
  | markInactive : Late id cls k true (.markInactive id)
  | withdraw : Late id cls k true (.withdraw id k.app cls k.token)
  | interruptRoom : Late id cls k true (.interruptRoom id)
  | ended (result : Except StackError Reply) : Late id cls k true (.finished result)

end Task

namespace Device

variable {τ : Type} {d d' : Device τ} {id : RoomId} {cls : ListenerClass} {k : Ticket} {t : τ}
  {leaving : Bool} {task : Task}

structure Stale (d : Device τ) (id : RoomId) (cls : ListenerClass) (k : Ticket) : Prop where
  ticket : d.ticket? id cls = some k
  gone : ∀ e, (d.stack.listeners.registry cls).get? k.app = some e → e.token ≠ k.token

/-- Nothing that the claims of others rest on has changed, and no transfer has begun. -/
structure Undisturbed (d d' : Device τ) : Prop where
  pool : d'.stack.pool = d.stack.pool
  listeners : d'.stack.listeners = d.stack.listeners
  interest : d'.stack.interest = d.stack.interest
  shipments : d'.shipments = d.shipments
  transfers (h : ConnectionHandle) : d'.stack.isSending h = true → d.stack.isSending h = true

theorem Undisturbed.refl (d : Device τ) : Undisturbed d d :=
  ⟨rfl, rfl, rfl, rfl, fun _ h => h⟩

theorem Stale.issue (hs : d.Stale id cls k) {cls' : ListenerClass} {k' : Ticket}
    (hi : Issues d d' cls' k') : d'.Stale id cls k where
  ticket := by
    have hother : ¬ (k'.room = id ∧ cls' = cls) := by
      rintro ⟨rfl, rfl⟩
      cases (hi.unused cls').symm.trans hs.ticket
    rw [hi.tickets, if_neg hother]
    exact hs.ticket
  gone := hi.stack ▸ hs.gone

theorem Stale.withdraw (hs : d.Stale id cls k) :
    ∃ error, d.stack.withdraw k.app cls (some k.token) = (.error error, d.stack) := by
  rcases hresult : d.stack.withdraw k.app cls (some k.token) with ⟨error | e, stack⟩
  · exact ⟨error, by rw [Stack.eq_of_withdraw_error hresult]⟩
  · have hok : (d.stack.listeners.unregister k.app cls (some k.token)).1 = .ok e :=
      congrArg Prod.fst hresult
    obtain ⟨hget, howner⟩ := Listeners.unregister_ok_iff.1 hok
    exact absurd (Listeners.mayRemove_some.1 howner).symm (hs.gone e hget)

theorem isSending_interrupt {sends : SendRoom τ} {handle other : ConnectionHandle}
    (h : (sends.interrupt handle).tracker.isSending other = true) :
    sends.tracker.isSending other = true := by
  by_cases hslot : sends.slot handle = some .sending
  · rw [SendRoom.interrupt, SendRoom.finish_of_sending hslot] at h
    by_cases hsame : handle = other
    · exact hsame ▸ SendRoom.isSending_iff_slot.2 hslot
    · rwa [SendTracker.isSending, Table.get?_put_ne _ _ hsame] at h
  · rwa [SendRoom.interrupt, SendRoom.finish_of_ne hslot] at h

theorem late_firstTask (d : Device τ) (request : Request) (cls : ListenerClass) (k : Ticket) :
    (d.firstTask request).Late request.room cls k request.isLeaving ∧
      (d.firstTask request).stepsLeft ≤ if request.isLeaving then 4 else 2 := by
  cases request with
  | receive id timed => exact ⟨.checkClosed _, Nat.le_refl _⟩
  | tryReceive id => exact ⟨.checkClosed _, Nat.le_refl _⟩
  | send id dest destApp payload => exact ⟨.checkClosed _, Nat.le_refl _⟩
  | close id => exact ⟨.markClosed, Nat.le_refl _⟩
  | unregister id => exact ⟨.markInactive, Nat.le_succ _⟩
  | awaitActivity id timed =>
    simp only [firstTask]
    split
    · exact ⟨.look _ _, Nat.le_succ _⟩
    · exact ⟨.refused _, Nat.zero_le _⟩

variable [DecidableEq τ]

theorem Stale.evolve (hs : d.Stale id cls k) (h : Tracked d) (he : Evolves d d') :
    d'.Stale id cls k where
  ticket := he.tickets ▸ hs.ticket
  gone e hget := by
    have happ := he.filed.eq_app hget
    rcases he.fresh (he.filed.holds hget) with hold | hnew
    · rw [Listeners.Holds, happ] at hold
      exact hs.gone e hold
    · exact Nat.ne_of_gt (Nat.lt_of_lt_of_le (h.below hs.ticket).2 hnew)

theorem Stale.grow (hs : d.Stale id cls k) (h : Tracked d) (hg : Grows d d') :
    d'.Stale id cls k := by
  cases hg with
  | plain he => exact hs.evolve h he
  | issued he hi => exact (hs.evolve h he).issue hi

theorem Interrupted.grow (hint : d.Interrupted id) (hg : Grows d d') : d'.Interrupted id := by
  cases hg with
  | plain he => exact he.interrupted hint
  | issued he hi =>
    rw [Interrupted, room, hi.stack]
    exact he.interrupted hint

/-- The wait room of a stale handle has been interrupted, unless a thread is about to do it. -/
theorem Stale.interrupted (hs : d.Stale id cls k) (h : Tracked d) (htold : ¬ d.Leaves id) :
    d.Interrupted id := by
  rcases h.reached hs.ticket with ⟨e, hheld, happ, htoken, -⟩ | hleaves | hint
  · rw [Listeners.Holds, happ] at hheld
    exact absurd htoken (hs.gone e hheld)
  · exact absurd hleaves htold
  · exact hint

theorem Tracked.eq_of_connection (h : Tracked d) (hticket : d.ticket? id cls = some k)
    {c : Connection τ} (hget : d.connections.get? id = some c) : cls = .midlet ∧ k = c.ticket := by
  have hsame : d.ticket? id .midlet = some c.ticket := by rw [ticket?, hget, Option.map_some]
  obtain rfl := h.apart hticket hsame
  exact ⟨rfl, Option.some.inj (hticket.symm.trans hsame)⟩

theorem Tracked.eq_of_push (h : Tracked d) (hticket : d.ticket? id cls = some k)
    {p : PushRegistration} (hget : d.pushes.get? id = some p) : cls = .push ∧ k = p.ticket := by
  have hsame : d.ticket? id .push = some p.ticket := by rw [ticket?, hget, Option.map_some]
  obtain rfl := h.apart hticket hsame
  exact ⟨rfl, Option.some.inj (hticket.symm.trans hsame)⟩

structure Slips (d : Device τ) (t : τ) (next : Task) (d' : Device τ) : Prop where
  undisturbed : Undisturbed d d'
  task : d'.tasks.get? t = some next

theorem Undisturbed.turn (h : Undisturbed d d') (t : τ) (next : Task) :
    Slips d t next (d'.setTask t next) :=
  ⟨⟨h.pool, h.listeners, h.interest, h.shipments, h.transfers⟩, Table.get?_put_self _ _ _⟩

omit [DecidableEq τ] in
theorem late_passes (hint : d.Interrupted id) (hlate : task.Late id cls k leaving) {next : Task}
    (hpasses : d.Passes task next) :
    next.Late id cls k leaving ∧ next.stepsLeft ≤ task.stepsLeft - 1 := by
  cases hlate with
  | checkClosed use =>
    cases hpasses with
    | lost | closed => exact ⟨.refused _, Nat.zero_le _⟩
    | opened => exact ⟨.checkInterrupted use, Nat.le_refl _⟩
  | checkInterrupted use =>
    cases hpasses with
    | lost | interrupted => exact ⟨.refused _, Nat.zero_le _⟩
    | awake _ hawake =>
      have hroom : (d.room id).queue.interrupted = true := hint
      cases hroom.symm.trans hawake
  | markClosed => cases hpasses with | lost | closedBefore => exact ⟨.ended _, Nat.zero_le _⟩
  | interruptSend => cases hpasses with | lost => exact ⟨.ended _, Nat.zero_le _⟩
  | markInactive =>
    cases hpasses with
    | lost about => cases about
    | inactive => exact ⟨.ended _, Nat.zero_le _⟩
  | withdraw =>
    cases hpasses with
    | lost about => cases about
    | unregistered => exact ⟨.interruptRoom, Nat.le_refl _⟩
  | look | refused | interruptRoom | ended => cases hpasses with | lost about => cases about

/-- A late call goes on without doing anything to others. -/
theorem late_turns (h : Tracked d) (hs : d.Stale id cls k) (hint : d.Interrupted id)
    (hat : d.tasks.get? t = some task) (hlate : task.Late id cls k leaving)
    (hturns : d.Turns t task d') :
    ∃ next, Slips d t next d' ∧ next.Late id cls k leaving ∧
      next.stepsLeft ≤ task.stepsLeft - 1 := by
  have hself := Undisturbed.refl d
  cases hturns with
  | waits hwaits =>
    cases hwaits with
    | finished result => exact ⟨_, ⟨hself, hat⟩, hlate, Nat.zero_le _⟩
    | asleep | lock | awaitSend => cases hlate
  | passes hpasses => exact ⟨_, hself.turn t _, late_passes hint hlate hpasses⟩
  | @closes own c =>
    cases hlate
    have hmarked : Undisturbed d (d.setConnection { c with closed := true }) :=
      ⟨rfl, rfl, rfl, rfl, fun _ h => h⟩
    exact ⟨_, hmarked.turn t _, .interruptSend, Nat.le_refl _⟩
  | @interruptsSend own c hget =>
    cases hlate
    obtain ⟨rfl, rfl⟩ := h.eq_of_connection hs.ticket hget
    have hinterrupted : Undisturbed d (d.setSends (d.stack.sends.interrupt c.handle)) :=
      ⟨rfl, rfl, rfl, rfl, fun _ h => isSending_interrupt h⟩
    exact ⟨_, hinterrupted.turn t _, .withdraw, Nat.le_refl _⟩
  | @looks own want timed result room' pool' hlook =>
    cases hlate
    have hroom : (d.room id).queue.interrupted = true := hint
    simp only [WaitRoom.look, hroom, if_true, Prod.mk.injEq] at hlook
    obtain ⟨rfl, rfl, rfl⟩ := hlook
    have hlooked : Undisturbed d (d.setLook id (d.room id) d.stack.pool) :=
      ⟨rfl, rfl, rfl, rfl, fun _ h => h⟩
    exact ⟨_, hlooked.turn t _, .refused _, Nat.zero_le _⟩
  | withdraws hfound =>
    cases hlate
    obtain ⟨error, hwithdraw⟩ := hs.withdraw
    cases hwithdraw.symm.trans hfound
  | interrupts =>
    cases hlate
    have hinterrupted : Undisturbed d
        { d with stack := { d.stack with audience := d.stack.audience.interrupt id } } :=
      ⟨rfl, rfl, rfl, rfl, fun _ h => h⟩
    exact ⟨_, hinterrupted.turn t _, .ended _, Nat.zero_le _⟩
  | @deactivates own p hget =>
    cases hlate
    obtain ⟨rfl, rfl⟩ := h.eq_of_push hs.ticket hget
    have hmarked : Undisturbed d (d.setPush { p with active := false }) :=
      ⟨rfl, rfl, rfl, rfl, fun _ h => h⟩
    exact ⟨_, hmarked.turn t _, .withdraw, Nat.le_refl _⟩
  | takes | locks | begins | ships | watches | resumesSend | unlocks | resumes | dismisses =>
    cases hlate

structure Waning (d : Device τ) (id : RoomId) (cls : ListenerClass) (k : Ticket) (t : τ)
    (leaving : Bool) (steps : Nat) : Prop where
  tracked : Tracked d
  stale : d.Stale id cls k
  interrupted : d.Interrupted id
  late : ∃ task, d.tasks.get? t = some task ∧ task.Late id cls k leaving ∧ task.stepsLeft ≤ steps

theorem Waning.advance {steps : Nat} (h : d.Waning id cls k t leaving steps) :
    (d.advance t).Waning id cls k t leaving (steps - 1) := by
  obtain ⟨task, hat, hlate, hsteps⟩ := h.late
  obtain ⟨next, hslips, hnext, hless⟩ := late_turns h.tracked h.stale h.interrupted hat hlate
    (turns hat)
  have hgrows : Grows d (d.advance t) := h.tracked.grows (.advance t)
  exact ⟨h.tracked.grow hgrows, h.stale.grow h.tracked hgrows, h.interrupted.grow hgrows, next,
    hslips.task, hnext, Nat.le_trans hless (Nat.sub_le_sub_right hsteps 1)⟩

theorem Waning.apply {steps : Nat} (h : d.Waning id cls k t leaving steps)
    {operation : Operation τ} (hother : operation ≠ .advance t)
    (hown : ∀ request, operation ≠ .start t request) :
    (d.apply operation).Waning id cls k t leaving steps := by
  have hgrows := h.tracked.grows operation
  refine ⟨h.tracked.grow hgrows, h.stale.grow h.tracked hgrows, h.interrupted.grow hgrows, ?_⟩
  rw [d.get?_tasks_apply operation hother hown]
  exact h.late

theorem Waning.run {steps : Nat} (h : d.Waning id cls k t leaving steps)
    {operations : List (Operation τ)} (hown : ∀ request, .start t request ∉ operations) :
    (d.run operations).Waning id cls k t leaving (steps - operations.count (.advance t)) := by
  induction operations generalizing d steps with
  | nil => exact h
  | cons operation operations ih =>
    have hrest : ∀ request, .start t request ∉ operations :=
      fun request hmem => hown request (List.mem_cons_of_mem _ hmem)
    by_cases hadvance : operation = .advance t
    · subst hadvance
      rw [List.count_cons_self, Nat.add_comm, ← Nat.sub_sub]
      exact ih h.advance hrest
    · rw [List.count_cons_of_ne hadvance]
      exact ih (h.apply hadvance fun request heq => hown request (heq ▸ List.mem_cons_self)) hrest

theorem Waning.undisturbed {steps : Nat} (h : d.Waning id cls k t leaving steps) :
    Undisturbed d (d.advance t) := by
  obtain ⟨task, hat, hlate, -⟩ := h.late
  obtain ⟨next, hslips, -⟩ := late_turns h.tracked h.stale h.interrupted hat hlate
    (turns hat)
  exact hslips.undisturbed

theorem Waning.result (h : d.Waning id cls k t leaving 0) :
    ∃ result, d.result? t = some result ∧ (leaving = false → ∃ error, result = .error error) := by
  obtain ⟨task, hat, hlate, hsteps⟩ := h.late
  rw [result?, hat]
  cases hlate with
  | refused error => exact ⟨_, rfl, fun _ => ⟨error, rfl⟩⟩
  | ended result => exact ⟨_, rfl, nofun⟩
  | _ => exact absurd hsteps (by simp [Task.stepsLeft])

/-- What a call of thread `t` on a stale handle amounts to, after `steps` steps of its own. -/
structure Inert (x y : Device τ) (t : τ) (request : Request) (steps : Nat) : Prop where
  begins : Undisturbed x (x.apply (.start t request))
  goesOn : Undisturbed y (y.advance t)
  ends : 4 ≤ steps → ∃ result, y.result? t = some result
  refused : request.isLeaving = false → 2 ≤ steps → ∃ error, y.result? t = some (.error error)

theorem Waning.mono {steps steps' : Nat} (h : d.Waning id cls k t leaving steps)
    (hle : steps ≤ steps') : d.Waning id cls k t leaving steps' := by
  obtain ⟨task, hat, hlate, hsteps⟩ := h.late
  exact ⟨h.tracked, h.stale, h.interrupted, task, hat, hlate, Nat.le_trans hsteps hle⟩

theorem Stale.waning {request : Request} (hs : d.Stale request.room cls k) (h : Tracked d)
    (htold : ¬ d.Leaves request.room) (hfree : d.IsFree t) :
    (d.apply (.start t request)).Waning request.room cls k t request.isLeaving
      (if request.isLeaving then 4 else 2) := by
  have hgrows := h.grows (.start t request)
  have hfree' : (d.tasks.get? t).all (·.isFinished) = true :=
    (Option.all_eq_true _ _).2 hfree
  refine ⟨h.grow hgrows, hs.grow h hgrows, (hs.interrupted h htold).grow hgrows,
    d.firstTask request, ?_, d.late_firstTask request cls k⟩
  rw [apply, if_pos hfree', start, setTask, Table.get?_put_self]

theorem undisturbed_start (d : Device τ) (t : τ) (request : Request) :
    Undisturbed d (d.apply (.start t request)) := by
  simp only [apply]
  split
  · exact ⟨rfl, rfl, rfl, rfl, fun _ h => h⟩
  · exact .refl d

/-- A call that begins when its handle has lost its registration disturbs nobody, whatever is done
before, and meanwhile by other threads. -/
theorem inert_of_stale {config : Config} {stack : Stack τ} (hnew : Stack.new config = .ok stack)
    {earlier later : List (Operation τ)} {request : Request}
    (hstale : (run { stack } earlier).Stale request.room cls k)
    (htold : ¬ (run { stack } earlier).Leaves request.room)
    (hfree : (run { stack } earlier).IsFree t) (hown : ∀ request', .start t request' ∉ later) :
    Inert (run { stack } earlier) (run { stack } (earlier ++ .start t request :: later)) t request
      (later.count (.advance t)) := by
  have htracked : Tracked (run { stack } earlier) := (tracked_new hnew).run earlier
  have hrun : run { stack } (earlier ++ .start t request :: later) =
      ((run { stack } earlier).apply (.start t request)).run later := List.foldl_append
  have hwaning := (hstale.waning htracked htold hfree).run hown
  rw [hrun]
  refine ⟨undisturbed_start _ t request, hwaning.undisturbed, fun hsteps => ?_,
    fun hkind hsteps => ?_⟩
  · have hdone : (if request.isLeaving then 4 else 2) - later.count (.advance t) ≤ 0 := by
      split <;> omega
    obtain ⟨result, hresult, -⟩ := (hwaning.mono hdone).result
    exact ⟨result, hresult⟩
  · rw [hkind, if_neg Bool.false_ne_true, Nat.sub_eq_zero_of_le hsteps] at hwaning
    obtain ⟨result, hresult, herror⟩ := hwaning.result
    obtain ⟨error, rfl⟩ := herror rfl
    exact ⟨error, hresult⟩

/-- A suite is removed, and another one connects for the same application and gets a message. -/
def takeover : List (Operation Nat) :=
  [.connect "chat" ⟨1⟩, .enrol (.removeSuite ⟨1⟩), .connect "chat" ⟨2⟩,
   .dispatch ⟨"+4670", "chat", "", 0, []⟩]

theorem inert_takeover :
    Stack.new {} = .ok Stack.blank ∧
      (run { stack := Stack.blank } takeover).Stale ⟨0⟩ .midlet ⟨⟨0⟩, "chat", 1⟩ ∧
      (run { stack := Stack.blank } takeover).stack.pending "chat" = 1 ∧
      Inert (run { stack := Stack.blank } takeover)
        (run { stack := Stack.blank }
          (takeover ++ .start 1 (.receive ⟨0⟩ false) :: .replicate 2 (.advance 1)))
        1 (.receive ⟨0⟩ false) 2 := by
  have hheld : ((run { stack := Stack.blank } takeover).stack.listeners.registry .midlet).get?
      "chat" = some ⟨"chat", ⟨2⟩, .waiter ⟨1⟩, none, 2⟩ := by rfl
  have hstale : (run { stack := Stack.blank } takeover).Stale ⟨0⟩ .midlet ⟨⟨0⟩, "chat", 1⟩ := by
    refine ⟨rfl, fun e hget => ?_⟩
    cases hheld.symm.trans hget
    decide
  have hidle : ∀ t, (run { stack := Stack.blank } takeover).tasks.get? t = none := fun _ => rfl
  refine ⟨rfl, hstale, by decide +kernel, ?_⟩
  exact inert_of_stale (show Stack.new {} = .ok Stack.blank from rfl) hstale
    (fun ⟨t, room, hat⟩ => by cases (hidle t).symm.trans hat)
    (fun task hat => by cases (hidle 1).symm.trans hat) (by simp)

end Device

end MultimediaMessaging
