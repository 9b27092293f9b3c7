import MultimediaMessaging.Proofs.PoolCounts
import MultimediaMessaging.Proofs.Stack.Audience
import MultimediaMessaging.Proofs.Stack.Registrations
import MultimediaMessaging.Proofs.Stack.Seating

/-!
Everything that may be done with a device, in any order: the operations of its stack, each of them
whole, and the calls of its threads, one step at a time. A step of a thread withdraws a
registration, or tells the listener of one, or it leaves the registries as they are and takes at
most a message.
-/

set_option autoImplicit false

namespace MultimediaMessaging

open Text

/-- What a connection or push registration knows of its entry in the registries. -/
structure Ticket where
  room : RoomId
  app : String
  token : Nat
  deriving DecidableEq, Repr

def Connection.ticket {τ : Type} (c : Connection τ) : Ticket := ⟨c.room, c.app, c.token⟩

def PushRegistration.ticket (p : PushRegistration) : Ticket := ⟨p.room, p.app, p.token⟩

structure Stack.Draws {τ : Type} (s s' : Stack τ) : Prop where
  counts : s'.router.counts = s.router.counts
  assembler : s'.assembler = s.assembler
  pool : s.pool.Yields s'.pool

namespace Device

variable {τ : Type}

inductive Operation (τ : Type) where
  | connect (app : String) (suite : Suite)
  | registerPush (app : String) (suite : Suite) (filter : Option SenderFilter)
  | enrol (call : Enrolment)
  | dispatch (m : Message)
  | datagram (now : Time) (source : SocketAddress) (bytes : Bytes)
  | abandon (source : SocketAddress)
  | tick (now : Time)
  | take (app : String)
  | start (t : τ) (request : Request)
  | advance (t : τ)
  | expire (t : τ)
  | report (i : Nat) (status : SendStatus)
  | complete (h : ConnectionHandle) (status : SendStatus)
  deriving DecidableEq, Repr

def setStack (d : Device τ) (stack : Stack τ) : Device τ := { d with stack }

def ticket? (d : Device τ) (id : RoomId) : ListenerClass → Option Ticket
  | .midlet => (d.connections.get? id).map Connection.ticket
  | .push => (d.pushes.get? id).map PushRegistration.ticket

/-- Every connection and push registration is found by its wait room. -/
def Placed (d : Device τ) : Prop := ∀ id cls k, d.ticket? id cls = some k → k.room = id

/-- The registries stay, and so does what is known of them. -/
structure Retains (d d' : Device τ) : Prop where
  listeners : d'.stack.listeners = d.stack.listeners
  nextRoom : d'.stack.nextRoom = d.stack.nextRoom
  interrupted {id : RoomId} : (d.room id).queue.interrupted = true →
    (d'.room id).queue.interrupted = true
  tickets : d.Placed → d'.ticket? = d.ticket?

section Frames

variable {d d' : Device τ} {id : RoomId}

theorem draws_of_eq {s s' : Stack τ} (hrouter : s'.router = s.router)
    (hassembler : s'.assembler = s.assembler) : s.Draws s' := by
  have hpool : s'.pool = s.pool := congrArg Router.pool hrouter
  exact ⟨by rw [hrouter], hassembler, hpool ▸ .same⟩

theorem retains_of_eq (hlisteners : d'.stack.listeners = d.stack.listeners)
    (hnextRoom : d'.stack.nextRoom = d.stack.nextRoom)
    (haudience : d'.stack.audience = d.stack.audience)
    (htickets : d.Placed → d'.ticket? = d.ticket?) : Retains d d' :=
  ⟨hlisteners, hnextRoom, fun hint => by rwa [room, haudience], htickets⟩

theorem map_get?_put {κ α β : Type} [DecidableEq κ] {table : Table κ α} {k : κ} {a a' : α}
    {f : α → β} (hget : table.get? k = some a) (hsame : f a' = f a) (other : κ) :
    ((table.put k a').get? other).map f = (table.get? other).map f := by
  rw [Table.get?_put]
  split
  · rename_i hother
    rw [← hother, hget, Option.map_some, Option.map_some, hsame]
  · rfl

theorem Placed.connection (h : d.Placed) {c : Connection τ}
    (hget : d.connections.get? id = some c) : c.room = id :=
  h id .midlet c.ticket (by rw [ticket?, hget, Option.map_some])

theorem Placed.push (h : d.Placed) {p : PushRegistration} (hget : d.pushes.get? id = some p) :
    p.room = id :=
  h id .push p.ticket (by rw [ticket?, hget, Option.map_some])

theorem retains_setConnection {c c' : Connection τ} (hget : d.connections.get? id = some c)
    (hsame : c'.ticket = c.ticket) : Retains d (d.setConnection c') := by
  refine retains_of_eq rfl rfl rfl fun hplaced => funext fun other => funext fun cls => ?_
  obtain ⟨hroom, -, -⟩ := Ticket.mk.inj hsame
  cases cls with
  | push => rfl
  | midlet =>
    simp only [ticket?, setConnection, hroom, hplaced.connection hget]
    exact map_get?_put hget hsame other

theorem retains_setPush {p p' : PushRegistration} (hget : d.pushes.get? id = some p)
    (hsame : p'.ticket = p.ticket) : Retains d (d.setPush p') := by
  refine retains_of_eq rfl rfl rfl fun hplaced => funext fun other => funext fun cls => ?_
  obtain ⟨hroom, -, -⟩ := Ticket.mk.inj hsame
  cases cls with
  | midlet => rfl
  | push =>
    simp only [ticket?, setPush, hroom, hplaced.push hget]
    exact map_get?_put hget hsame other

theorem retains_setRoom {stack : Stack τ} {room' : WaitRoom τ}
    (hlisteners : stack.listeners = d.stack.listeners)
    (hnextRoom : stack.nextRoom = d.stack.nextRoom)
    (haudience : stack.audience = d.stack.audience.setRoom id room')
    (hint : (d.room id).queue.interrupted = true → room'.queue.interrupted = true) :
    Retains d { d with stack } where
  listeners := hlisteners
  nextRoom := hnextRoom
  interrupted hother := by
    rw [room, haudience]
    exact Audience.interrupted_setRoom hint hother
  tickets _ := rfl

theorem yields_check (want : Want) (pool : Pool) : pool.Yields (want.check pool).2 := by
  cases want with
  | message app => exact .taken app
  | activity app => exact .same

theorem draws_setLook {room₀ room' : WaitRoom τ} {t : τ} {want : Want} {pool : Pool}
    {result : Option (WaitResult Reply)}
    (ho : WaitRoom.Outcome room₀ t want.check d.stack.pool (result, room', pool)) :
    d.stack.Draws (d.setLook id room' pool).stack := by
  refine ⟨rfl, rfl, ?_⟩
  have hpool : (d.setLook id room' pool).stack.pool = pool := rfl
  rw [hpool]
  rcases ho.state with rfl | rfl
  · exact .same
  · exact yields_check want _

theorem retains_setLook {room₀ room' : WaitRoom τ} {t : τ} {want : Want} {pool : Pool}
    {result : Option (WaitResult Reply)}
    (ho : WaitRoom.Outcome room₀ t want.check d.stack.pool (result, room', pool))
    (hroom : room₀.queue.interrupted = (d.room id).queue.interrupted) :
    Retains d (d.setLook id room' pool) :=
  retains_setRoom rfl rfl rfl fun hint => ho.queue_interrupted.trans (hroom.trans hint)

end Frames

variable [DecidableEq τ]

/-- A thread begins a call when it is in none. -/
def apply (d : Device τ) : Operation τ → Device τ
  | .connect app suite => d.connect app suite
  | .registerPush app suite filter => d.registerPush app suite filter
  | .enrol call => d.setStack (d.stack.enrol call)
  | .dispatch m => d.setStack (d.stack.dispatch m).2
  | .datagram now source bytes => d.setStack (d.stack.onDatagram now source bytes).2
  | .abandon source => d.setStack (d.stack.abandon source).2
  | .tick now => d.setStack (d.stack.tick now).2
  | .take app => d.setStack (d.stack.take app).2
  | .start t request =>
    if (d.tasks.get? t).all (·.isFinished) then d.start t request else d
  | .advance t => d.advance t
  | .expire t => d.expire t
  | .report i status => d.report i status
  | .complete h status => d.setStack (d.stack.onSendCompleted h status).2

def run (d : Device τ) (operations : List (Operation τ)) : Device τ := operations.foldl apply d

/-- All that a step of thread `t` can do. -/
inductive Advances (d : Device τ) (t : τ) : Device τ → Prop where
  | works {d' : Device τ} (hdraws : d.stack.Draws d'.stack) (hretains : Retains d d')
      (hothers : ∀ u, u ≠ t → d'.tasks.get? u = d.tasks.get? u)
      (hdismiss : ∀ room listener, d.tasks.get? t = some (.dismiss room listener) →
        d'.tasks.get? t = some (.dismiss room listener)) : Advances d t d'
  | withdraws {room : RoomId} {app : String} {cls : ListenerClass} {token : Nat}
      {e : Registration Listener} {stack : Stack τ}
      (hat : d.tasks.get? t = some (.withdraw room app cls token))
      (hwithdraw : d.stack.withdraw app cls (some token) = (.ok e, stack)) :
      Advances d t ((d.setStack stack).setTask t (.dismiss room e.listener))
  | dismisses {room : RoomId} {listener : Listener}
      (hat : d.tasks.get? t = some (.dismiss room listener)) :
      Advances d t ((d.setStack (d.stack.dismiss listener)).setTask t (.interruptRoom room))

section Steps

variable {d d' e : Device τ} {t : τ} {id : RoomId} {task : Task}

theorem Advances.idle (d : Device τ) (t : τ) : Advances d t d :=
  .works (draws_of_eq rfl rfl) (retains_of_eq rfl rfl rfl fun _ => rfl) (fun _ _ => rfl)
    fun _ _ hat => hat

theorem Advances.proceed (hat : d.tasks.get? t = some task)
    (hworks : ∀ room listener, task ≠ .dismiss room listener)
    (hdraws : d.stack.Draws e.stack) (hretains : Retains d e) (htasks : e.tasks = d.tasks)
    (next : Task) : Advances d t (e.setTask t next) := by
  refine .works hdraws ⟨hretains.listeners, hretains.nextRoom, hretains.interrupted,
    hretains.tickets⟩ (fun u hu => ?_) fun room listener hdismiss => ?_
  · rw [setTask, Table.get?_put_ne _ _ (Ne.symm hu), htasks]
  · exact absurd (Option.some.inj (hat.symm.trans hdismiss)) (hworks room listener)

theorem Advances.turn (hat : d.tasks.get? t = some task)
    (hworks : ∀ room listener, task ≠ .dismiss room listener) (next : Task) :
    Advances d t (d.setTask t next) :=
  .proceed hat hworks (draws_of_eq rfl rfl) (retains_of_eq rfl rfl rfl fun _ => rfl) rfl next

theorem Advances.turnSends (hat : d.tasks.get? t = some task)
    (hworks : ∀ room listener, task ≠ .dismiss room listener) (sends : SendRoom τ) (next : Task) :
    Advances d t ((d.setSends sends).setTask t next) :=
  .proceed (e := d.setSends sends) hat hworks (draws_of_eq rfl rfl)
    (retains_of_eq rfl rfl rfl fun _ => rfl) rfl next

theorem Advances.turnConnection (hat : d.tasks.get? t = some task)
    (hworks : ∀ room listener, task ≠ .dismiss room listener) {c c' : Connection τ}
    (hget : d.connections.get? id = some c) (hsame : c'.ticket = c.ticket) (next : Task) :
    Advances d t ((d.setConnection c').setTask t next) :=
  .proceed (e := d.setConnection c') hat hworks (draws_of_eq rfl rfl)
    (retains_setConnection hget hsame) rfl next

theorem advances_of_turns (hat : d.tasks.get? t = some task) (hturns : d.Turns t task d') :
    Advances d t d' := by
  cases hturns with
  | waits => exact .idle d t
  | passes hpasses => exact .turn hat hpasses.ne_dismiss _
  | @takes id c =>
    exact .proceed (e := d.setStack (d.stack.take c.app).2) hat nofun ⟨rfl, rfl, .taken c.app⟩
      (retains_of_eq rfl rfl rfl fun _ => rfl) rfl _
  | locks hget => exact .turnConnection hat nofun hget (by rfl) _
  | begins => exact .turnSends hat nofun _ _
  | @ships id c parcel =>
    exact .proceed (e := { d with shipments := d.shipments ++ [⟨t, c.handle, parcel⟩] }) hat nofun
      (draws_of_eq rfl rfl) (retains_of_eq rfl rfl rfl fun _ => rfl) rfl _
  | watches => exact .turnSends hat nofun _ _
  | resumesSend => exact .turnSends hat nofun _ _
  | unlocks hget => exact .turnConnection hat nofun hget (by rfl) _
  | closes hget => exact .turnConnection hat nofun hget (by rfl) _
  | interruptsSend => exact .turnSends hat nofun _ _
  | @looks id want timed result room' pool' hlook =>
    have ho := (d.room id).outcome_look t want.check d.stack.pool
    rw [hlook] at ho
    exact .proceed hat nofun (draws_setLook ho) (retains_setLook ho rfl) rfl _
  | @resumes id want timed timedOut result room' pool' hroused hresume =>
    have ho := (d.room id).outcome_resume t timedOut want.check d.stack.pool
    rw [hresume] at ho
    exact .proceed hat nofun (draws_setLook ho) (retains_setLook ho rfl) rfl _
  | withdraws hwithdraw => exact .withdraws hat hwithdraw
  | dismisses => exact .dismisses hat
  | @interrupts id =>
    let stack : Stack τ := { d.stack with audience := d.stack.audience.interrupt id }
    have hretains : Retains d { d with stack } :=
      retains_setRoom rfl rfl rfl fun _ => WaitRoom.interrupt_interrupted _
    exact .proceed (e := { d with stack }) hat nofun (draws_of_eq rfl rfl) hretains rfl _
  | @deactivates id p hget =>
    exact .proceed (e := d.setPush { p with active := false }) hat nofun (draws_of_eq rfl rfl)
      (retains_setPush hget rfl) rfl _

theorem advances (d : Device τ) (t : τ) : Advances d t (d.advance t) := by
  cases hat : d.tasks.get? t with
  | none => exact (advance_of_none hat).symm ▸ .idle d t
  | some task => exact advances_of_turns hat (turns hat)

end Steps

end Device

end MultimediaMessaging
