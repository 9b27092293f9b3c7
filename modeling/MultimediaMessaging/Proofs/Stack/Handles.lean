import MultimediaMessaging.Proofs.Listener.Registry
import MultimediaMessaging.Proofs.Stack.Traffic

/-!
Connections and push registrations as the registries and the threads know them: every entry stands
for one of them, and a thread in the wait room of one looks for what that one is for.
-/

set_option autoImplicit false

namespace MultimediaMessaging

namespace Stack

variable {τ : Type}

/-- Nothing that threads see in a wait room or in the pool has changed. -/
structure Keeps (s s' : Stack τ) : Prop where
  pool : s'.pool = s.pool
  audience : s'.audience = s.audience
  nextRoom : s.nextRoom ≤ s'.nextRoom

inductive Listens (s : Stack τ) (cls : ListenerClass) (app : String) (listener : Listener)
    (filter : Option SenderFilter) : Except StackError Nat × Stack τ → Prop where
  | refused (e : StackError) {s' : Stack τ} (hkeeps : s.Keeps s')
      (hmidlet : s'.listeners.midlet = s.listeners.midlet)
      (hpush : s'.listeners.push = s.listeners.push) :
      Listens s cls app listener filter (.error e, s')
  | entered {s' : Stack τ} {e : Registration Listener} (hkeeps : s.Keeps s')
      (hfree : (s.listeners.registry cls).get? app = none)
      (hput : s'.listeners.registry cls = (s.listeners.registry cls).put app e)
      (hother : s'.listeners.registry cls.other = s.listeners.registry cls.other)
      (hlistener : e.listener = listener) (hfilter : e.filter = filter) :
      Listens s cls app listener filter (.ok e.token, s')

theorem listens [DecidableEq τ] (s : Stack τ) (cls : ListenerClass) (app : String) (suite : Suite)
    (listener : Listener) (filter : Option SenderFilter) :
    Listens s cls app listener filter (s.listen cls app suite listener filter) := by
  have hregisters := Listeners.registers s.listeners cls app suite listener filter
  unfold listen
  generalize s.listeners.register cls app suite listener filter = result at hregisters
  cases hregisters with
  | refused e => exact .refused _ ⟨rfl, rfl, Nat.le_refl _⟩ rfl rfl
  | entered hfree =>
    refine .entered (e := ⟨app, suite, listener, filter, s.listeners.nextToken⟩)
      ⟨rfl, rfl, Nat.le_refl _⟩ hfree ?_ ?_ rfl rfl
    · exact Listeners.registry_setRegistry_self _ _ _
    · exact Listeners.registry_setRegistry_other _ cls _

end Stack

namespace Device

variable {τ : Type} {d d' : Device τ} {app : String}

structure ConnectionEntry (d : Device τ) (app : String) (e : Registration Listener)
    (c : Connection τ) : Prop where
  held : d.connections.get? c.room = some c
  app : c.app = app
  token : e.token = c.token
  listener : e.listener = .waiter c.room

structure PushEntry (d : Device τ) (app : String) (e : Registration Listener)
    (p : PushRegistration) : Prop where
  held : d.pushes.get? p.room = some p
  app : p.app = app
  token : e.token = p.token
  listener : e.listener = .waiter p.room
  filter : e.filter = p.filter

structure Known (d : Device τ) : Prop where
  connection {id : RoomId} {c : Connection τ} : d.connections.get? id = some c →
    c.room = id ∧ id.number < d.stack.nextRoom
  push {id : RoomId} {p : PushRegistration} : d.pushes.get? id = some p →
    p.room = id ∧ id.number < d.stack.nextRoom
  apart {id : RoomId} {c : Connection τ} : d.connections.get? id = some c →
    d.pushes.get? id = none
  midlet {app : String} {e : Registration Listener} : (app, e) ∈ d.stack.listeners.midlet →
    ∃ c, d.ConnectionEntry app e c
  pushed {app : String} {e : Registration Listener} : (app, e) ∈ d.stack.listeners.push →
    ∃ p, d.PushEntry app e p

theorem Known.shrink (h : Known d) (hconnections : d'.connections = d.connections)
    (hpushes : d'.pushes = d.pushes) (hroom : d.stack.nextRoom ≤ d'.stack.nextRoom)
    (hmidlet : ∀ entry ∈ d'.stack.listeners.midlet, entry ∈ d.stack.listeners.midlet)
    (hpush : ∀ entry ∈ d'.stack.listeners.push, entry ∈ d.stack.listeners.push) : Known d' where
  connection hget :=
    have hold := h.connection (hconnections ▸ hget)
    ⟨hold.1, Nat.lt_of_lt_of_le hold.2 hroom⟩
  push hget :=
    have hold := h.push (hpushes ▸ hget)
    ⟨hold.1, Nat.lt_of_lt_of_le hold.2 hroom⟩
  apart hget := hpushes ▸ h.apart (hconnections ▸ hget)
  midlet hmem := by
    obtain ⟨c, hc⟩ := h.midlet (hmidlet _ hmem)
    exact ⟨c, hconnections ▸ hc.held, hc.app, hc.token, hc.listener⟩
  pushed hmem := by
    obtain ⟨p, hp⟩ := h.pushed (hpush _ hmem)
    exact ⟨p, hpushes ▸ hp.held, hp.app, hp.token, hp.listener, hp.filter⟩

theorem Known.of_eq (h : Known d) (hconnections : d'.connections = d.connections)
    (hpushes : d'.pushes = d.pushes) (hlisteners : d'.stack.listeners = d.stack.listeners)
    (hroom : d'.stack.nextRoom = d.stack.nextRoom) : Known d' :=
  h.shrink hconnections hpushes (Nat.le_of_eq hroom.symm) (fun _ hmem => hlisteners ▸ hmem)
    fun _ hmem => hlisteners ▸ hmem

theorem Known.setConnection (h : Known d) {c c' : Connection τ}
    (hheld : d.connections.get? c.room = some c) (hroom : c'.room = c.room) (happ : c'.app = c.app)
    (htoken : c'.token = c.token) : Known (d.setConnection c') where
  connection hget := by
    rcases Table.of_get?_put hget with ⟨rfl, rfl⟩ | ⟨-, hget⟩
    · exact ⟨rfl, hroom ▸ (h.connection hheld).2⟩
    · exact h.connection hget
  push hget := h.push hget
  apart hget := by
    rcases Table.of_get?_put hget with ⟨rfl, rfl⟩ | ⟨-, hget⟩
    · exact hroom ▸ h.apart hheld
    · exact h.apart hget
  midlet hmem := by
    obtain ⟨other, hother⟩ := h.midlet hmem
    by_cases hsame : c.room = other.room
    · obtain rfl : c = other := Option.some.inj (hheld.symm.trans (hsame ▸ hother.held))
      exact ⟨c', by simp [Device.setConnection], happ.trans hother.app,
        hother.token.trans htoken.symm, hroom ▸ hother.listener⟩
    · refine ⟨other, ?_, hother.app, hother.token, hother.listener⟩
      rw [Device.setConnection, Table.get?_put_ne _ _ (hroom ▸ hsame)]
      exact hother.held
  pushed hmem := by
    obtain ⟨p, hp⟩ := h.pushed hmem
    exact ⟨p, hp.held, hp.app, hp.token, hp.listener, hp.filter⟩

theorem Known.setPush (h : Known d) {p p' : PushRegistration}
    (hheld : d.pushes.get? p.room = some p) (hroom : p'.room = p.room) (happ : p'.app = p.app)
    (htoken : p'.token = p.token) (hfilter : p'.filter = p.filter) : Known (d.setPush p') where
  connection hget := h.connection hget
  push hget := by
    rcases Table.of_get?_put hget with ⟨rfl, rfl⟩ | ⟨-, hget⟩
    · exact ⟨rfl, hroom ▸ (h.push hheld).2⟩
    · exact h.push hget
  apart {id c} hget := by
    rw [Device.setPush, Table.get?_put]
    split
    · rename_i hid
      have hnone := h.apart hget
      rw [← hid, hroom, hheld] at hnone
      cases hnone
    · exact h.apart hget
  midlet hmem := by
    obtain ⟨c, hc⟩ := h.midlet hmem
    exact ⟨c, hc.held, hc.app, hc.token, hc.listener⟩
  pushed hmem := by
    obtain ⟨other, hother⟩ := h.pushed hmem
    by_cases hsame : p.room = other.room
    · obtain rfl : p = other := Option.some.inj (hheld.symm.trans (hsame ▸ hother.held))
      exact ⟨p', by simp [Device.setPush], happ.trans hother.app,
        hother.token.trans htoken.symm, hroom ▸ hother.listener, hother.filter.trans hfilter.symm⟩
    · refine ⟨other, ?_, hother.app, hother.token, hother.listener, hother.filter⟩
      rw [Device.setPush, Table.get?_put_ne _ _ (hroom ▸ hsame)]
      exact hother.held

inductive Connects (d : Device τ) : Device τ → Prop where
  | refused {stack : Stack τ} (hkeeps : d.stack.Keeps stack)
      (hmidlet : stack.listeners.midlet = d.stack.listeners.midlet)
      (hpush : stack.listeners.push = d.stack.listeners.push) : Connects d { d with stack }
  | opened {stack : Stack τ} {c : Connection τ} {e : Registration Listener}
      (hkeeps : d.stack.Keeps stack) (hnext : d.stack.nextRoom < stack.nextRoom)
      (hfree : d.stack.listeners.midlet.get? c.app = none)
      (hmidlet : stack.listeners.midlet = d.stack.listeners.midlet.put c.app e)
      (hpush : stack.listeners.push = d.stack.listeners.push)
      (hroom : c.room = ⟨d.stack.nextRoom⟩) (htoken : e.token = c.token)
      (hlistener : e.listener = .waiter c.room) : Connects d ({ d with stack }.setConnection c)

inductive RegistersPush (d : Device τ) : Device τ → Prop where
  | refused {stack : Stack τ} (hkeeps : d.stack.Keeps stack)
      (hmidlet : stack.listeners.midlet = d.stack.listeners.midlet)
      (hpush : stack.listeners.push = d.stack.listeners.push) : RegistersPush d { d with stack }
  | entered {stack : Stack τ} {p : PushRegistration} {e : Registration Listener}
      (hkeeps : d.stack.Keeps stack) (hnext : d.stack.nextRoom < stack.nextRoom)
      (hmidlet : stack.listeners.midlet = d.stack.listeners.midlet)
      (hpush : stack.listeners.push = d.stack.listeners.push.put p.app e)
      (hroom : p.room = ⟨d.stack.nextRoom⟩) (htoken : e.token = p.token)
      (hlistener : e.listener = .waiter p.room) (hfilter : e.filter = p.filter) :
      RegistersPush d ({ d with stack }.setPush p)

section Open

variable [DecidableEq τ]

theorem connects (d : Device τ) (app : String) (suite : Suite) :
    Connects d (d.connect app suite) := by
  have hlistens := d.stack.newRoom.2.listens .midlet app suite (.waiter d.stack.newRoom.1) none
  simp only [connect, Stack.connect]
  generalize d.stack.newRoom.2.listen .midlet app suite (.waiter d.stack.newRoom.1) none = result
    at hlistens
  cases hlistens with
  | refused e hkeeps hmidlet hpush =>
    exact .refused ⟨hkeeps.pool, hkeeps.audience, Nat.le_of_succ_le hkeeps.nextRoom⟩ hmidlet hpush
  | entered hkeeps hfree hput hother hlistener hfilter =>
    exact .opened ⟨hkeeps.pool, hkeeps.audience, Nat.le_of_succ_le hkeeps.nextRoom⟩ hkeeps.nextRoom
      hfree hput hother rfl rfl hlistener

theorem registersPush (d : Device τ) (app : String) (suite : Suite)
    (filter : Option SenderFilter) :
    RegistersPush d (d.registerPush app suite filter) := by
  have hlistens := d.stack.newRoom.2.listens .push app suite (.waiter d.stack.newRoom.1) filter
  simp only [registerPush, Stack.registerPush]
  generalize d.stack.newRoom.2.listen .push app suite (.waiter d.stack.newRoom.1) filter = result
    at hlistens
  cases hlistens with
  | refused e hkeeps hmidlet hpush =>
    exact .refused ⟨hkeeps.pool, hkeeps.audience, Nat.le_of_succ_le hkeeps.nextRoom⟩ hmidlet hpush
  | entered hkeeps hfree hput hother hlistener hfilter =>
    exact .entered ⟨hkeeps.pool, hkeeps.audience, Nat.le_of_succ_le hkeeps.nextRoom⟩ hkeeps.nextRoom
      hother hput rfl rfl hlistener hfilter

end Open

theorem Known.connections_fresh (h : Known d) : d.connections.get? ⟨d.stack.nextRoom⟩ = none := by
  cases hget : d.connections.get? ⟨d.stack.nextRoom⟩ with
  | none => rfl
  | some c => exact absurd (h.connection hget).2 (Nat.lt_irrefl _)

theorem Known.pushes_fresh (h : Known d) : d.pushes.get? ⟨d.stack.nextRoom⟩ = none := by
  cases hget : d.pushes.get? ⟨d.stack.nextRoom⟩ with
  | none => rfl
  | some p => exact absurd (h.push hget).2 (Nat.lt_irrefl _)

theorem Known.connects (h : Known d) (hconnects : Connects d d') : Known d' := by
  cases hconnects with
  | refused hkeeps hmidlet hpush =>
    exact h.shrink rfl rfl hkeeps.nextRoom (fun _ hmem => hmidlet ▸ hmem) fun _ hmem => hpush ▸ hmem
  | @opened stack c e hkeeps hnext hfree hmidlet hpush hroom htoken hlistener =>
    refine ⟨fun hget => ?_, fun hget => ?_, fun hget => ?_, fun {app e'} hmem => ?_,
      fun {app e'} hmem => ?_⟩
    · rcases Table.of_get?_put hget with ⟨rfl, rfl⟩ | ⟨-, hget⟩
      · exact ⟨rfl, hroom ▸ hnext⟩
      · exact ⟨(h.connection hget).1, Nat.lt_trans (h.connection hget).2 hnext⟩
    · exact ⟨(h.push hget).1, Nat.lt_trans (h.push hget).2 hnext⟩
    · rcases Table.of_get?_put hget with ⟨rfl, rfl⟩ | ⟨-, hget⟩
      · exact hroom ▸ h.pushes_fresh
      · exact h.apart hget
    · rcases Table.mem_put (hmidlet ▸ hmem) with hnew | hold
      · cases hnew
        exact ⟨c, by simp [Device.setConnection], rfl, htoken, hlistener⟩
      · obtain ⟨other, hother⟩ := h.midlet hold
        refine ⟨other, ?_, hother.app, hother.token, hother.listener⟩
        have hne : c.room ≠ other.room := fun hsame => by
          have hheld := hother.held
          rw [← hsame, hroom, h.connections_fresh] at hheld
          cases hheld
        rw [Device.setConnection, Table.get?_put_ne _ _ hne]
        exact hother.held
    · obtain ⟨p, hp⟩ := h.pushed (hpush ▸ hmem)
      exact ⟨p, hp.held, hp.app, hp.token, hp.listener, hp.filter⟩

theorem Known.registersPush (h : Known d) (hregisters : RegistersPush d d') : Known d' := by
  cases hregisters with
  | refused hkeeps hmidlet hpush =>
    exact h.shrink rfl rfl hkeeps.nextRoom (fun _ hmem => hmidlet ▸ hmem) fun _ hmem => hpush ▸ hmem
  | @entered stack p e hkeeps hnext hmidlet hpush hroom htoken hlistener hfilter =>
    refine ⟨fun hget => ?_, fun hget => ?_, fun {id c} hget => ?_, fun {app e'} hmem => ?_,
      fun {app e'} hmem => ?_⟩
    · exact ⟨(h.connection hget).1, Nat.lt_trans (h.connection hget).2 hnext⟩
    · rcases Table.of_get?_put hget with ⟨rfl, rfl⟩ | ⟨-, hget⟩
      · exact ⟨rfl, hroom ▸ hnext⟩
      · exact ⟨(h.push hget).1, Nat.lt_trans (h.push hget).2 hnext⟩
    · have hne : p.room ≠ id := fun hsame => by
        rw [← hsame, hroom] at hget
        exact absurd (h.connections_fresh.symm.trans hget) (by simp)
      rw [Device.setPush, Table.get?_put_ne _ _ hne]
      exact h.apart hget
    · obtain ⟨c, hc⟩ := h.midlet (hmidlet ▸ hmem)
      exact ⟨c, hc.held, hc.app, hc.token, hc.listener⟩
    · rcases Table.mem_put (hpush ▸ hmem) with hnew | hold
      · cases hnew
        exact ⟨p, by simp [Device.setPush], rfl, htoken, hlistener, hfilter⟩
      · obtain ⟨other, hother⟩ := h.pushed hold
        refine ⟨other, ?_, hother.app, hother.token, hother.listener, hother.filter⟩
        have hne : p.room ≠ other.room := fun hsame => by
          have hheld := hother.held
          rw [← hsame, hroom, h.pushes_fresh] at hheld
          cases hheld
        rw [Device.setPush, Table.get?_put_ne _ _ hne]
        exact hother.held

/-- A thread in the wait room `id` has reason to look for `want`. -/
def Seeks (d : Device τ) (id : RoomId) (want : Want) : Prop :=
  (∃ c, d.connections.get? id = some c ∧ want = .message c.app) ∨
    ∃ p, d.pushes.get? id = some p ∧ want = .activity p.app

theorem Known.want_connection {id : RoomId} {c : Connection τ} {want : Want} (h : Known d)
    (hget : d.connections.get? id = some c) (hseeks : d.Seeks id want) : want = .message c.app := by
  rcases hseeks with ⟨c', hget', rfl⟩ | ⟨p, hget', -⟩
  · rw [Option.some.inj (hget'.symm.trans hget)]
  · exact absurd ((h.apart hget).symm.trans hget') (by simp)

theorem Known.want_push {id : RoomId} {p : PushRegistration} {want : Want} (h : Known d)
    (hget : d.pushes.get? id = some p) (hseeks : d.Seeks id want) : want = .activity p.app := by
  rcases hseeks with ⟨c, hget', -⟩ | ⟨p', hget', rfl⟩
  · exact absurd ((h.apart hget').symm.trans hget) (by simp)
  · rw [Option.some.inj (hget'.symm.trans hget)]

/-- Where a thread may stand that does not send. -/
def Admits (d : Device τ) : Task → Prop
  | .look id want _ | .asleep id want _ => d.Seeks id want
  | .checkClosed _ use | .checkInterrupted _ use =>
    ∀ dest destApp payload, use ≠ .send dest destApp payload
  | .lock .. | .startSend .. | .handOver .. | .watchSend _ | .awaitSend _ | .unlock .. => False
  | _ => True

structure Extends (d d' : Device τ) : Prop where
  connection {id : RoomId} {c : Connection τ} : d.connections.get? id = some c →
    ∃ c', d'.connections.get? id = some c' ∧ c'.app = c.app
  push {id : RoomId} {p : PushRegistration} : d.pushes.get? id = some p →
    ∃ p', d'.pushes.get? id = some p' ∧ p'.app = p.app

theorem Extends.of_eq (hconnections : d'.connections = d.connections)
    (hpushes : d'.pushes = d.pushes) : Extends d d' :=
  ⟨fun hget => ⟨_, hconnections ▸ hget, rfl⟩, fun hget => ⟨_, hpushes ▸ hget, rfl⟩⟩

theorem Extends.setConnection {c' : Connection τ} {stack : Stack τ}
    (hold : ∀ other, d.connections.get? c'.room = some other → other.app = c'.app) :
    Extends d ({ d with stack }.setConnection c') := by
  refine ⟨fun {id other} hget => ?_, fun hget => ⟨_, hget, rfl⟩⟩
  rw [Device.setConnection, Table.get?_put]
  split
  · rename_i hid
    exact ⟨c', rfl, (hold other (hid ▸ hget)).symm⟩
  · exact ⟨other, hget, rfl⟩

theorem Extends.setPush {p' : PushRegistration} {stack : Stack τ}
    (hold : ∀ other, d.pushes.get? p'.room = some other → other.app = p'.app) :
    Extends d ({ d with stack }.setPush p') := by
  refine ⟨fun hget => ⟨_, hget, rfl⟩, fun {id other} hget => ?_⟩
  rw [Device.setPush, Table.get?_put]
  split
  · rename_i hid
    exact ⟨p', rfl, (hold other (hid ▸ hget)).symm⟩
  · exact ⟨other, hget, rfl⟩

theorem Seeks.extend {id : RoomId} {want : Want} (h : d.Seeks id want) (hext : Extends d d') :
    d'.Seeks id want := by
  rcases h with ⟨c, hget, rfl⟩ | ⟨p, hget, rfl⟩
  · obtain ⟨c', hget', happ⟩ := hext.connection hget
    exact .inl ⟨c', hget', happ ▸ rfl⟩
  · obtain ⟨p', hget', happ⟩ := hext.push hget
    exact .inr ⟨p', hget', happ ▸ rfl⟩

theorem Admits.extend {task : Task} (h : d.Admits task) (hext : Extends d d') :
    d'.Admits task := by
  cases task with
  | look id want timed => exact Seeks.extend h hext
  | asleep id want timed => exact Seeks.extend h hext
  | _ => exact h

end Device

end MultimediaMessaging
