import MultimediaMessaging.Stack.Call

/-!
A device: a stack, the connections and push registrations that its applications hold, the threads in
their calls, and the parcels on their way. `advance` is one step of one thread, and which thread
takes the next step is open; `settle` lets all of them go on, the first that can each time, for a
number of steps. A parcel is delivered by a thread of its own, and starting that thread never fails
here.
-/

set_option autoImplicit false

namespace MultimediaMessaging

/-- A parcel that `thread` handed over. How its delivery ends will be reported for `handle`. -/
structure Shipment (τ : Type) where
  thread : τ
  handle : ConnectionHandle
  parcel : Parcel
  deriving DecidableEq, Repr

structure Device (τ : Type) where
  stack : Stack τ
  connections : Table RoomId (Connection τ) := []
  pushes : Table RoomId PushRegistration := []
  tasks : Table τ Task := []
  shipments : List (Shipment τ) := []

namespace Device

variable {τ : Type} [DecidableEq τ]

def setTask (d : Device τ) (t : τ) (task : Task) : Device τ :=
  { d with tasks := d.tasks.put t task }

def finish (d : Device τ) (t : τ) (result : Except StackError Reply) : Device τ :=
  d.setTask t (.finished result)

def setConnection (d : Device τ) (c : Connection τ) : Device τ :=
  { d with connections := d.connections.put c.room c }

def setPush (d : Device τ) (p : PushRegistration) : Device τ :=
  { d with pushes := d.pushes.put p.room p }

def setSends (d : Device τ) (sends : SendRoom τ) : Device τ :=
  { d with stack := { d.stack with sends } }

def room (d : Device τ) (id : RoomId) : WaitRoom τ := d.stack.audience.room id

/-- Stores what a look into the pool with the wait room locked left of both. -/
def setLook (d : Device τ) (id : RoomId) (room : WaitRoom τ) (pool : Pool) : Device τ :=
  let stack := d.stack.setPool pool
  { d with stack := { stack with audience := stack.audience.setRoom id room } }

def firstTask (d : Device τ) : Request → Task
  | .receive c timed => .checkClosed c (.receive timed)
  | .tryReceive c => .checkClosed c .tryReceive
  | .send c dest destApp payload => .checkClosed c (.send dest destApp payload)
  | .close c => .markClosed c
  | .awaitActivity id timed =>
    match d.pushes.get? id with
    | some p => .look id (.activity p.app) timed
    | none => .finished (.error .closed)
  | .unregister id => .markInactive id

def start (d : Device τ) (t : τ) (request : Request) : Device τ := d.setTask t (d.firstTask request)

def advanceOn (d : Device τ) (t : τ) (c : Connection τ) : Task → Device τ
  | .checkClosed id use =>
    if c.closed then d.finish t (.error .closed) else d.setTask t (.checkInterrupted id use)
  | .checkInterrupted id use =>
    if (d.room id).queue.interrupted then d.finish t (.error (.wait .interrupted))
    else d.setTask t (use.task id c.app)
  | .take _ =>
    let (m, stack) := d.stack.take c.app
    { d with stack }.finish t (.ok ((m.map Reply.message).getD .nothing))
  | .lock id parcel =>
    match c.holder with
    | some _ => d
    | none => (d.setConnection { c with holder := some t }).setTask t (.startSend id parcel)
  | .startSend id parcel =>
    match d.stack.sends.tracker.start c.handle with
    | (true, tracker) =>
      (d.setSends { d.stack.sends with tracker }).setTask t (.handOver id parcel)
    | (false, _) => d.setTask t (.unlock id (.error .closed))
  | .handOver id parcel =>
    { d with shipments := d.shipments ++ [Shipment.mk t c.handle parcel] }.setTask t (.watchSend id)
  | .watchSend id =>
    let (result, sends) := d.stack.sends.look t c.handle
    (d.setSends sends).setTask t (.afterWatch id result)
  | .awaitSend id =>
    if (t, c.handle) ∈ d.stack.sends.roused then
      let (result, sends) := d.stack.sends.resume t c.handle
      (d.setSends sends).setTask t (.afterWatch id result)
    else d
  | .unlock _ result => (d.setConnection { c with holder := none }).finish t result
  | .markClosed id =>
    if c.closed then d.finish t (.ok .done)
    else (d.setConnection { c with closed := true }).setTask t (.interruptSend id)
  | .interruptSend id =>
    (d.setSends (d.stack.sends.interrupt c.handle)).setTask t (.withdraw id c.app .midlet c.token)
  | _ => d

def advanceIn (d : Device τ) (t : τ) : Task → Device τ
  | .look id want timed =>
    let (result, room, pool) := (d.room id).look t want.check d.stack.pool
    (d.setLook id room pool).setTask t (.afterLook id want timed result)
  | .asleep id want timed =>
    match (d.room id).roused.find? (·.1 = t) with
    | none => d
    | some (_, timedOut) =>
      let (result, room, pool) := (d.room id).resume t timedOut want.check d.stack.pool
      (d.setLook id room pool).setTask t (.afterLook id want timed result)
  | .withdraw id app cls token =>
    match d.stack.withdraw app cls (some token) with
    | (.ok entry, stack) => { d with stack }.setTask t (.dismiss id entry.listener)
    | (.error _, stack) => { d with stack }.setTask t (.interruptRoom id)
  | .dismiss id listener =>
    { d with stack := d.stack.dismiss listener }.setTask t (.interruptRoom id)
  | .interruptRoom id =>
    { d with stack := { d.stack with audience := d.stack.audience.interrupt id } }
      |>.finish t (.ok .done)
  | _ => d

def connectionOf? : Task → Option RoomId
  | .checkClosed c _ | .checkInterrupted c _ | .take c | .lock c _ | .startSend c _
  | .handOver c _ | .watchSend c | .awaitSend c | .unlock c _ | .markClosed c
  | .interruptSend c => some c
  | _ => none

/-- One step of thread `t`. It changes nothing if `t` has finished or has to wait. -/
def advance (d : Device τ) (t : τ) : Device τ :=
  match d.tasks.get? t with
  | none => d
  | some (.markInactive id) =>
    match d.pushes.get? id with
    | none => d.finish t (.ok .done)
    | some p =>
      if p.active then
        (d.setPush { p with active := false }).setTask t (.withdraw id p.app .push p.token)
      else d.finish t (.ok .done)
  | some task =>
    match connectionOf? task with
    | none => d.advanceIn t task
    | some id =>
      match d.connections.get? id with
      | none => d.finish t (.error .closed)
      | some c => d.advanceOn t c task

def canAdvance (d : Device τ) (t : τ) : Task → Bool
  | .finished _ => false
  | .asleep id _ _ => (d.room id).roused.any (·.1 = t)
  | .awaitSend _ => d.stack.sends.roused.any (·.1 = t)
  | .lock c _ => (d.connections.get? c).all (·.holder = none)
  | _ => true

def ready? (d : Device τ) : Option τ :=
  (d.tasks.find? fun entry => d.canAdvance entry.1 entry.2).map (·.1)

def settleFor : (fuel : Nat) → Device τ → Device τ
  | 0, d => d
  | fuel + 1, d =>
    match d.ready? with
    | none => d
    | some t => settleFor fuel (d.advance t)

def settle (d : Device τ) : Device τ :=
  d.settleFor (16 * (d.tasks.length + 1) * (d.tasks.length + 1))

def expire (d : Device τ) (t : τ) : Device τ :=
  match d.tasks.get? t with
  | some (.asleep id _ true) =>
    { d with stack.audience := d.stack.audience.setRoom id ((d.room id).expire t) }
  | _ => d

def report (d : Device τ) (i : Nat) (status : SendStatus) : Device τ :=
  match d.shipments[i]? with
  | none => d
  | some shipment =>
    { d with
      stack := (d.stack.onSendCompleted shipment.handle status).2
      shipments := d.shipments.eraseIdx i }

/-- Settles, and reports as many shipments as there are shipments and threads now, each with the
status that `outcome` gives it. -/
def settleWith (d : Device τ) (outcome : Parcel → SendStatus) : Device τ :=
  deliver (d.tasks.length + d.shipments.length) d.settle
where
  deliver : (fuel : Nat) → Device τ → Device τ
    | 0, d => d
    | fuel + 1, d =>
      match d.shipments with
      | [] => d
      | shipment :: _ => deliver fuel (d.report 0 (outcome shipment.parcel)).settle

/-- Thread `t` makes a call, and every thread goes on as far as it can; a timed call that then still
waits runs out of time. -/
def call (d : Device τ) (t : τ) (request : Request) (outcome : Parcel → SendStatus) : Device τ :=
  (((d.start t request).settleWith outcome).expire t).settleWith outcome

def result? (d : Device τ) (t : τ) : Option (Except StackError Reply) :=
  (d.tasks.get? t).bind Task.result?

def isInUse (d : Device τ) (id : RoomId) : Bool := d.tasks.any fun entry => entry.2.room? = some id

def unfinished (d : Device τ) : List τ :=
  (d.tasks.filter fun entry => !entry.2.isFinished).map (·.1)

end Device

end MultimediaMessaging
