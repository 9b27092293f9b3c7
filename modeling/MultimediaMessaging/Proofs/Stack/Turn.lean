import Mathlib.Tactic.ByContra
import MultimediaMessaging.Proofs.Stack.Registrations
import MultimediaMessaging.Stack.Device

/-!
One step of one thread of a device, told by what it does. Everything that is proved about steps goes
by the cases given here, and nothing else opens `advance`.
-/

set_option autoImplicit false

namespace MultimediaMessaging

namespace Device

variable {τ : Type}

theorem isSending_of_start {tracker tracker' : SendTracker} {handle : ConnectionHandle}
    (h : tracker.start handle = (false, tracker')) : tracker.isSending handle = true := by
  by_contra hidle
  simp [SendTracker.start, hidle] at h

inductive Waits (d : Device τ) (t : τ) : Task → Prop where
  | finished (result) : Waits d t (.finished result)
  | asleep {id want timed} (unroused : ∀ timedOut, (t, timedOut) ∉ (d.room id).roused) :
      Waits d t (.asleep id want timed)
  | lock {id c parcel other} (held : d.connections.get? id = some c)
      (taken : c.holder = some other) : Waits d t (.lock id parcel)
  | awaitSend {id c} (held : d.connections.get? id = some c)
      (unroused : (t, c.handle) ∉ d.stack.sends.roused) : Waits d t (.awaitSend id)

variable [DecidableEq τ]

/-- A thread finds where it goes on, and leaves all else as it is. -/
inductive Passes (d : Device τ) : Task → Task → Prop where
  | lost {task id} (about : connectionOf? task = some id) (gone : d.connections.get? id = none) :
      Passes d task (.finished (.error .closed))
  | closed {id c use} (held : d.connections.get? id = some c) (closed : c.closed = true) :
      Passes d (.checkClosed id use) (.finished (.error .closed))
  | opened {id c use} (held : d.connections.get? id = some c) (opened : c.closed = false) :
      Passes d (.checkClosed id use) (.checkInterrupted id use)
  | interrupted {id c use} (held : d.connections.get? id = some c)
      (interrupted : (d.room id).queue.interrupted = true) :
      Passes d (.checkInterrupted id use) (.finished (.error (.wait .interrupted)))
  | awake {id c use} (held : d.connections.get? id = some c)
      (awake : (d.room id).queue.interrupted = false) :
      Passes d (.checkInterrupted id use) (use.task id c.app)
  | busy {id c parcel} (held : d.connections.get? id = some c)
      (sending : d.stack.sends.tracker.isSending c.handle = true) :
      Passes d (.startSend id parcel) (.unlock id (.error .closed))
  | closedBefore {id c} (held : d.connections.get? id = some c) (closed : c.closed = true) :
      Passes d (.markClosed id) (.finished (.ok .done))
  | unregistered {id app cls token error}
      (refused : d.stack.withdraw app cls (some token) = (.error error, d.stack)) :
      Passes d (.withdraw id app cls token) (.interruptRoom id)
  | inactive {id} (gone : ∀ p, d.pushes.get? id = some p → p.active = false) :
      Passes d (.markInactive id) (.finished (.ok .done))

/-- All that a step of thread `t` can do. -/
inductive Turns (d : Device τ) (t : τ) : Task → Device τ → Prop where
  | waits {task} (waits : d.Waits t task) : Turns d t task d
  | passes {task next} (passes : d.Passes task next) : Turns d t task (d.setTask t next)
  | takes {id c} (held : d.connections.get? id = some c) :
      Turns d t (.take id) ({ d with stack := (d.stack.take c.app).2 }.finish t
        (.ok (((d.stack.take c.app).1.map Reply.message).getD .nothing)))
  | locks {id c parcel} (held : d.connections.get? id = some c) (free : c.holder = none) :
      Turns d t (.lock id parcel)
        ((d.setConnection { c with holder := some t }).setTask t (.startSend id parcel))
  | begins {id c parcel tracker} (held : d.connections.get? id = some c)
      (starts : d.stack.sends.tracker.start c.handle = (true, tracker)) :
      Turns d t (.startSend id parcel)
        ((d.setSends { d.stack.sends with tracker }).setTask t (.handOver id parcel))
  | ships {id c parcel} (held : d.connections.get? id = some c) :
      Turns d t (.handOver id parcel)
        ({ d with shipments := d.shipments ++ [Shipment.mk t c.handle parcel] }.setTask t
          (.watchSend id))
  | watches {id c} (held : d.connections.get? id = some c) :
      Turns d t (.watchSend id) ((d.setSends (d.stack.sends.look t c.handle).2).setTask t
        (.afterWatch id (d.stack.sends.look t c.handle).1))
  | resumesSend {id c} (held : d.connections.get? id = some c)
      (roused : (t, c.handle) ∈ d.stack.sends.roused) :
      Turns d t (.awaitSend id) ((d.setSends (d.stack.sends.resume t c.handle).2).setTask t
        (.afterWatch id (d.stack.sends.resume t c.handle).1))
  | unlocks {id c result} (held : d.connections.get? id = some c) :
      Turns d t (.unlock id result) ((d.setConnection { c with holder := none }).finish t result)
  | closes {id c} (held : d.connections.get? id = some c) (opened : c.closed = false) :
      Turns d t (.markClosed id)
        ((d.setConnection { c with closed := true }).setTask t (.interruptSend id))
  | interruptsSend {id c} (held : d.connections.get? id = some c) :
      Turns d t (.interruptSend id) ((d.setSends (d.stack.sends.interrupt c.handle)).setTask t
        (.withdraw id c.app .midlet c.token))
  | looks {id want timed result room' pool'}
      (look : (d.room id).look t want.check d.stack.pool = (result, room', pool')) :
      Turns d t (.look id want timed)
        ((d.setLook id room' pool').setTask t (.afterLook id want timed result))
  | resumes {id want timed timedOut result room' pool'}
      (roused : (t, timedOut) ∈ (d.room id).roused)
      (resume : (d.room id).resume t timedOut want.check d.stack.pool = (result, room', pool')) :
      Turns d t (.asleep id want timed)
        ((d.setLook id room' pool').setTask t (.afterLook id want timed result))
  | withdraws {id app cls token e stack}
      (withdraw : d.stack.withdraw app cls (some token) = (.ok e, stack)) :
      Turns d t (.withdraw id app cls token)
        ({ d with stack }.setTask t (.dismiss id e.listener))
  | dismisses {id listener} :
      Turns d t (.dismiss id listener)
        ({ d with stack := d.stack.dismiss listener }.setTask t (.interruptRoom id))
  | interrupts {id} :
      Turns d t (.interruptRoom id)
        ({ d with stack := { d.stack with audience := d.stack.audience.interrupt id } }.finish t
          (.ok .done))
  | deactivates {id p} (held : d.pushes.get? id = some p) (active : p.active = true) :
      Turns d t (.markInactive id)
        ((d.setPush { p with active := false }).setTask t (.withdraw id p.app .push p.token))

variable {d : Device τ} {t : τ} {id : RoomId} {c : Connection τ} {task next : Task}

omit [DecidableEq τ] in
theorem Passes.ne_dismiss (h : d.Passes task next) (room : RoomId)
    (listener : Listener) : task ≠ .dismiss room listener := by
  cases h with
  | lost about =>
    rintro rfl
    cases about
  | _ => exact nofun

theorem turns_on (held : d.connections.get? id = some c) (about : connectionOf? task = some id) :
    d.Turns t task (d.advanceOn t c task) := by
  cases task with
  | checkClosed other use =>
    cases about
    simp only [advanceOn]
    split
    · exact .passes (.closed held ‹_›)
    · exact .passes (.opened held (Bool.eq_false_iff.2 ‹_›))
  | checkInterrupted other use =>
    cases about
    simp only [advanceOn]
    split
    · exact .passes (.interrupted held ‹_›)
    · exact .passes (.awake held (Bool.eq_false_iff.2 ‹_›))
  | take other =>
    cases about
    exact .takes held
  | lock other parcel =>
    cases about
    simp only [advanceOn]
    split
    · exact .waits (.lock held ‹_›)
    · exact .locks held ‹_›
  | startSend other parcel =>
    cases about
    simp only [advanceOn]
    split
    · exact .begins held ‹_›
    · exact .passes (.busy held (isSending_of_start ‹_›))
  | handOver other parcel =>
    cases about
    exact .ships held
  | watchSend other =>
    cases about
    exact .watches held
  | awaitSend other =>
    cases about
    simp only [advanceOn]
    split
    · exact .resumesSend held ‹_›
    · exact .waits (.awaitSend held ‹_›)
  | unlock other result =>
    cases about
    exact .unlocks held
  | markClosed other =>
    cases about
    simp only [advanceOn]
    split
    · exact .passes (.closedBefore held ‹_›)
    · exact .closes held (Bool.eq_false_iff.2 ‹_›)
  | interruptSend other =>
    cases about
    exact .interruptsSend held
  | _ => cases about

theorem turns_in (about : connectionOf? task = none) (hpush : ∀ id, task ≠ .markInactive id) :
    d.Turns t task (d.advanceIn t task) := by
  cases task with
  | look other want timed => exact .looks rfl
  | asleep other want timed =>
    simp only [advanceIn]
    split
    · rename_i hnone
      refine .waits (.asleep fun timedOut hmem => ?_)
      simpa using List.find?_eq_none.1 hnone (t, timedOut) hmem
    · rename_i u timedOut hfind
      obtain rfl : u = t := by simpa using List.find?_some hfind
      exact .resumes (List.mem_of_find?_eq_some hfind) rfl
  | withdraw other app cls token =>
    simp only [advanceIn]
    split
    · exact .withdraws ‹_›
    · rename_i error stack hwithdraw
      obtain rfl := Stack.eq_of_withdraw_error hwithdraw
      exact .passes (.unregistered hwithdraw)
  | dismiss other listener => exact .dismisses
  | interruptRoom other => exact .interrupts
  | finished result => exact .waits (.finished result)
  | markInactive other => exact absurd rfl (hpush other)
  | _ => cases about

theorem turns (hat : d.tasks.get? t = some task) : d.Turns t task (d.advance t) := by
  unfold advance
  split
  · rename_i hnone
    cases hat.symm.trans hnone
  · rename_i other hinactive
    cases hat.symm.trans hinactive
    split
    · rename_i hnone
      exact .passes (.inactive fun p hget => nomatch hnone.symm.trans hget)
    · rename_i p hget
      split
      · exact .deactivates hget ‹_›
      · refine .passes (.inactive fun p' hget' => ?_)
        obtain rfl := Option.some.inj (hget.symm.trans hget')
        exact Bool.eq_false_iff.2 ‹_›
  · rename_i other hother hsome
    obtain rfl := Option.some.inj (hat.symm.trans hsome)
    split
    · exact turns_in ‹_› fun id hsame => hother id hsame
    · rename_i about
      split
      · exact .passes (.lost about ‹_›)
      · exact turns_on ‹_› about

omit [DecidableEq τ] in
theorem Waits.not_passes (h : d.Waits t task) (next : Task) : ¬ d.Passes task next := by
  intro hpasses
  cases h with
  | finished | asleep => cases hpasses with | lost about => cases about
  | lock held | awaitSend held =>
    cases hpasses with
    | lost about gone =>
      cases about
      cases held.symm.trans gone

theorem Waits.eq_self {d' : Device τ} (h : d.Waits t task) (hturns : d.Turns t task d') :
    d' = d := by
  have hstays := h.not_passes
  cases h with
  | finished result =>
    cases hturns with
    | waits => rfl
    | passes hpasses => exact absurd hpasses (hstays _)
  | asleep unroused =>
    cases hturns with
    | waits => rfl
    | passes hpasses => exact absurd hpasses (hstays _)
    | resumes roused => exact absurd roused (unroused _)
  | lock held taken =>
    cases hturns with
    | waits => rfl
    | passes hpasses => exact absurd hpasses (hstays _)
    | locks held' free =>
      obtain rfl := Option.some.inj (held.symm.trans held')
      cases taken.symm.trans free
  | awaitSend held unroused =>
    cases hturns with
    | waits => rfl
    | passes hpasses => exact absurd hpasses (hstays _)
    | resumesSend held' roused =>
      obtain rfl := Option.some.inj (held.symm.trans held')
      exact absurd roused unroused

/-- A sleeper that was roused looks once more. -/
theorem Turns.resumed {d' : Device τ} {want : Want} {timed timedOut : Bool}
    (h : d.Turns t (.asleep id want timed) d') (hroused : (t, timedOut) ∈ (d.room id).roused) :
    ∃ expired result room' pool', (t, expired) ∈ (d.room id).roused ∧
      (d.room id).resume t expired want.check d.stack.pool = (result, room', pool') ∧
      d' = (d.setLook id room' pool').setTask t (.afterLook id want timed result) := by
  cases h with
  | waits hwaits =>
    cases hwaits with
    | asleep unroused => exact absurd hroused (unroused timedOut)
  | passes hpasses => cases hpasses with | lost about => cases about
  | resumes hmem hresume => exact ⟨_, _, _, _, hmem, hresume, rfl⟩

theorem advance_of_none (hnone : d.tasks.get? t = none) : d.advance t = d := by
  simp [advance, hnone]

end Device

end MultimediaMessaging
