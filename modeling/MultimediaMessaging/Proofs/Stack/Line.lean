import MultimediaMessaging.Proofs.Sending.Room
import MultimediaMessaging.Proofs.Stack.Seating
import MultimediaMessaging.Proofs.Stack.Audience

/-!
A device with one connection, on which any threads receive, send and close, while transfers end and
messages arrive. Every thread makes one call. Besides the device, a line has what became of the
transfers, and which of the sends were in the way of another one or of the end of the connection.
-/

set_option autoImplicit false

namespace MultimediaMessaging

def Request.connection? : Request → Option RoomId
  | .receive id _ | .tryReceive id | .send id _ _ _ | .close id => some id
  | .awaitActivity _ _ | .unregister _ => none

namespace Task

/-- The thread is the one that sends on the connection. -/
def holds : Task → Bool
  | .startSend _ _ | .handOver _ _ | .watchSend _ | .awaitSend _ | .unlock _ _ => true
  | _ => false

/-- A send that found the connection open and whose transfer has not begun. -/
def isSlipping : Task → Bool
  | .checkInterrupted _ (.send _ _ _) | .lock _ _ | .startSend _ _ => true
  | _ => false

def isUnderway : Task → Bool
  | .handOver _ _ | .watchSend _ | .awaitSend _ => true
  | _ => false

/-- A call that closes the connection and has not returned. -/
def isClosing : Task → Bool
  | .interruptSend _ | .withdraw _ _ _ _ | .dismiss _ _ | .interruptRoom _ => true
  | _ => false

def mayWait : Task → Bool
  | .asleep _ _ _ | .lock _ _ | .awaitSend _ | .finished _ => true
  | _ => false

def isPast : Task → Bool
  | .watchSend _ | .awaitSend _ | .unlock _ _ | .finished _ => true
  | _ => false

def status? : Task → Option SendStatus
  | .unlock _ (.ok (.status status)) | .finished (.ok (.status status)) => some status
  | _ => none

def IsOn (id : RoomId) : Task → Prop
  | .finished _ => True
  | .markInactive _ => False
  | task => task.room? = some id

end Task

structure Line (τ : Type) where
  device : Device τ
  /-- How the transfers ended, each with the call that it was for, oldest first. -/
  reports : List (τ × SendStatus) := []
  /-- The sends whose transfer began while another one was under way. -/
  crowded : List τ := []
  /-- The sends that had found the connection open, and whose transfers had not begun, when those
  that had were interrupted. -/
  late : Option (List τ) := none

namespace Line

variable {τ : Type} [DecidableEq τ]

def task? (x : Line τ) (t : τ) : Option Task := x.device.tasks.get? t

def setDevice (x : Line τ) (device : Device τ) : Line τ := { x with device }

def setTask (x : Line τ) (t : τ) (task : Task) : Line τ := x.setDevice (x.device.setTask t task)

def setStack (x : Line τ) (stack : Stack τ) : Line τ := { x with device.stack := stack }

def setSends (x : Line τ) (sends : SendRoom τ) : Line τ := x.setDevice (x.device.setSends sends)

def setConnection (x : Line τ) (c : Connection τ) : Line τ :=
  x.setDevice (x.device.setConnection c)

def slipping (x : Line τ) : List τ := (x.device.tasks.filter (·.2.isSlipping)).map Prod.fst

def noteStart (x : Line τ) (t : τ) : Line τ :=
  { x with crowded := if x.device.shipments = [] then x.crowded else t :: x.crowded }

def noteInterrupt (x : Line τ) : Line τ := { x with late := x.late.or (some x.slipping) }

def note (x : Line τ) (t : τ) : Line τ :=
  match x.task? t with
  | some (.startSend _ _) => x.noteStart t
  | some (.interruptSend _) => x.noteInterrupt
  | _ => x

def advance (x : Line τ) (t : τ) : Line τ := (x.note t).setDevice (x.device.advance t)

def report (x : Line τ) (i : Nat) (status : SendStatus) : Line τ :=
  { x with
    device := x.device.report i status
    reports := x.reports ++ (x.device.shipments[i]?.map fun s => (s.thread, status)).toList }

inductive Step (id : RoomId) : Line τ → Line τ → Prop where
  | start (x : Line τ) {t : τ} {request : Request} (hnew : x.task? t = none)
      (hon : request.connection? = some id) :
      Step id x (x.setDevice (x.device.start t request))
  | advance (x : Line τ) (t : τ) : Step id x (x.advance t)
  | expire (x : Line τ) (t : τ) : Step id x (x.setDevice (x.device.expire t))
  | report (x : Line τ) (i : Nat) (status : SendStatus) : Step id x (x.report i status)
  | dispatch (x : Line τ) (m : Message) : Step id x (x.setStack (x.device.stack.dispatch m).2)

inductive Reachable (id : RoomId) : Line τ → Prop where
  | opened {config : Config} {stack stack' : Stack τ} {app : String} {suite : Suite}
      {c : Connection τ} (hnew : Stack.new config = .ok stack)
      (hopen : stack.connect app suite = (.ok c, stack')) (hroom : c.room = id) :
      Reachable id { device := ({ stack := stack' } : Device τ).setConnection c }
  | step {x y : Line τ} : Reachable id x → Step id x y → Reachable id y

structure Roams (id : RoomId) (c : Connection τ) (task next : Task) : Prop where
  on : next.IsOn id
  unfinished : task.isFinished = false
  idle : task.holds = false
  still : next.holds = false
  status : ∀ status, next ≠ .finished (.ok (.status status))
  slipping : next.isSlipping = true → task.isSlipping = true ∨ c.closed = false
  closing : next.isClosing = task.isClosing
  interrupting : ∀ id, task ≠ .interruptSend id ∧ next ≠ .interruptSend id

/-- All that one step of thread `t` at `task` can do, and what the connection is then. -/
inductive Advances (id : RoomId) (c : Connection τ) (x : Line τ) (t : τ) :
    Task → Connection τ → Line τ → Prop where
  | waits {task : Task} (hwaits : task.mayWait = true) : Advances id c x t task c x
  | roams {task next : Task} {stack : Stack τ} (hroams : Roams id c task next)
      (hsends : stack.sends = x.device.stack.sends)
      (hrooms : ∀ id, (x.device.room id).queue.interrupted = true →
        (stack.audience.room id).queue.interrupted = true) :
      Advances id c x t task c ((x.setStack stack).setTask t next)
  | locks {parcel : Parcel} (hfree : c.holder = none) :
      Advances id c x t (.lock id parcel) { c with holder := some t }
        ((x.setConnection { c with holder := some t }).setTask t (.startSend id parcel))
  | begins {parcel : Parcel} {tracker : SendTracker}
      (hstart : x.device.stack.sends.tracker.start c.handle = (true, tracker)) :
      Advances id c x t (.startSend id parcel) c
        (((x.noteStart t).setSends { x.device.stack.sends with tracker }).setTask t
          (.handOver id parcel))
  | refused {parcel : Parcel} (hbusy : x.device.stack.sends.tracker.isSending c.handle = true) :
      Advances id c x t (.startSend id parcel) c
        ((x.noteStart t).setTask t (.unlock id (.error .closed)))
  | ships {parcel : Parcel} :
      Advances id c x t (.handOver id parcel) c
        ((x.setDevice { x.device with
          shipments := x.device.shipments ++ [⟨t, c.handle, parcel⟩] }).setTask t (.watchSend id))
  | watches {task : Task} {result : Option (Except WaitError SendStatus)} {sends : SendRoom τ}
      (htask : task = .watchSend id ∨ task = .awaitSend id)
      (hfetches :
        SendRoom.Fetches (x.device.stack.sends.slot c.handle) (sends.slot c.handle) result)
      (hserves : x.device.stack.sends.Serves c.handle t task →
        sends.Serves c.handle t (.afterWatch id result)) :
      Advances id c x t task c ((x.setSends sends).setTask t (.afterWatch id result))
  | unlocks {result : Except StackError Reply} :
      Advances id c x t (.unlock id result) { c with holder := none }
        ((x.setConnection { c with holder := none }).setTask t (.finished result))
  | closes (hopen : c.closed = false) :
      Advances id c x t (.markClosed id) { c with closed := true }
        ((x.setConnection { c with closed := true }).setTask t (.interruptSend id))
  | interrupts :
      Advances id c x t (.interruptSend id) c
        ((x.noteInterrupt.setSends (x.device.stack.sends.interrupt c.handle)).setTask t
          (.withdraw id c.app .midlet c.token))
  | leaves {audience : Audience τ}
      (hrooms : ∀ other, (x.device.room other).queue.interrupted = true →
        (audience.room other).queue.interrupted = true)
      (hhere : (audience.room id).queue.interrupted = true) :
      Advances id c x t (.interruptRoom id) c
        ((x.setStack { x.device.stack with audience }).setTask t (.finished (.ok .done)))

variable {x y : Line τ} {id : RoomId} {c : Connection τ} {t : τ} {task next : Task}

@[simp] theorem task?_setTask_self (x : Line τ) (t : τ) (task : Task) :
    (x.setTask t task).task? t = some task := Table.get?_put_self _ _ _

theorem task?_setTask_ne (x : Line τ) {t u : τ} (task : Task) (h : t ≠ u) :
    (x.setTask t task).task? u = x.task? u := Table.get?_put_ne _ _ h

theorem forall_task? {P : Task → Prop} (hat : x.task? t = some task) (h : P task) :
    ∀ other, x.task? t = some other → P other :=
  fun _ hother => Option.some.inj (hat.symm.trans hother) ▸ h

theorem of_task?_setTask {u : τ} {other : Task} (h : (x.setTask t task).task? u = some other) :
    (t = u ∧ task = other) ∨ (t ≠ u ∧ x.task? u = some other) := Table.of_get?_put h

/-- A look into the pool finds nothing that a send would give. -/
theorem check_ne_status (want : Want) (pool : Pool) (status : SendStatus) :
    (want.check pool).1 ≠ some (.status status) := by
  cases want with
  | message app =>
    simp only [Want.check]
    cases (pool.takeFirst app).1 <;> simp
  | activity app =>
    simp only [Want.check]
    split <;> simp

section Roams

omit [DecidableEq τ]

variable {result : Except StackError Reply} {want : Want} {timed : Bool}

theorem Roams.finish (hunfinished : task.isFinished = false) (hidle : task.holds = false)
    (hopen : task.isClosing = false) (hstatus : ∀ status, result ≠ .ok (.status status)) :
    Roams id c task (.finished result) where
  on := trivial
  unfinished := hunfinished
  idle := hidle
  still := rfl
  status := by simpa using hstatus
  slipping := nofun
  closing := hopen.symm
  interrupting other := by
    refine ⟨?_, nofun⟩
    rintro rfl
    cases hopen

theorem Roams.proceed (hon : next.IsOn id) (hunfinished : task.isFinished = false)
    (hidle : task.holds = false ∧ next.holds = false) (hstatus : next.isFinished = false)
    (hopen : task.isClosing = false ∧ next.isClosing = false)
    (hslipping : next.isSlipping = true → task.isSlipping = true ∨ c.closed = false) :
    Roams id c task next where
  on := hon
  unfinished := hunfinished
  idle := hidle.1
  still := hidle.2
  status := by
    rintro status rfl
    cases hstatus
  slipping := hslipping
  closing := hopen.2.trans hopen.1.symm
  interrupting other := by
    refine ⟨?_, ?_⟩
    · rintro rfl
      cases hopen.1
    · rintro rfl
      cases hopen.2

theorem roams_use (use : Use) :
    Roams id c (.checkInterrupted id use) (use.task id c.app) := by
  cases use with
  | receive timed => exact .proceed rfl rfl ⟨rfl, rfl⟩ rfl ⟨rfl, rfl⟩ nofun
  | tryReceive => exact .proceed rfl rfl ⟨rfl, rfl⟩ rfl ⟨rfl, rfl⟩ nofun
  | send dest destApp payload =>
    exact .proceed rfl rfl ⟨rfl, rfl⟩ rfl ⟨rfl, rfl⟩ fun _ => .inl rfl

theorem roams_look {room room' : WaitRoom τ} {pool pool' : Pool}
    {result : Option (WaitResult Reply)} (hunfinished : task.isFinished = false)
    (hidle : task.holds = false) (hopen : task.isClosing = false)
    (ho : WaitRoom.Outcome room t want.check pool (result, room', pool')) :
    Roams id c task (.afterLook id want timed result) := by
  cases ho with
  | interrupted => exact .finish hunfinished hidle hopen nofun
  | found hawake hcheck =>
    refine .finish hunfinished hidle hopen fun status hsame => ?_
    refine check_ne_status want pool status ?_
    rw [hcheck]
    simpa [WaitResult.outcome] using hsame
  | parked => exact .proceed rfl hunfinished ⟨hidle, rfl⟩ rfl ⟨hopen, rfl⟩ nofun
  | expired => exact .finish hunfinished hidle hopen nofun

theorem roams_withdraw {app : String} {cls : ListenerClass} {token : Nat} (listener : Listener) :
    Roams id c (.withdraw id app cls token) (.dismiss id listener) where
  on := rfl
  unfinished := rfl
  idle := rfl
  still := rfl
  status := nofun
  slipping := nofun
  closing := rfl
  interrupting _ := ⟨nofun, nofun⟩

theorem roams_interruptRoom (hunfinished : task.isFinished = false) (hidle : task.holds = false)
    (hclosing : task.isClosing = true) (hinterrupted : ∀ other, task ≠ .interruptSend other) :
    Roams id c task (.interruptRoom id) where
  on := rfl
  unfinished := hunfinished
  idle := hidle
  still := rfl
  status := nofun
  slipping := nofun
  closing := hclosing.symm
  interrupting _ := ⟨hinterrupted _, nofun⟩

end Roams

theorem connectionOf?_of_isOn (hon : task.IsOn id) :
    Device.connectionOf? task = none ∨ Device.connectionOf? task = some id := by
  cases task <;> first | exact .inl rfl | exact .inr hon

section Turn

variable (hat : x.task? t = some task) (hon : task.IsOn id)
  (hfound : x.device.connections.get? id = some c)
include hat hon hfound

theorem advances_of_passes (hpasses : x.device.Passes task next) :
    Advances id c x t task c ((x.note t).setDevice (x.device.setTask t next)) := by
  cases hpasses with
  | lost about gone =>
    rcases connectionOf?_of_isOn hon with hnone | hsome
    · cases hnone.symm.trans about
    · obtain rfl := Option.some.inj (hsome.symm.trans about)
      cases hfound.symm.trans gone
  | closed =>
    cases hon
    simp only [note, hat]
    exact .roams (.finish rfl rfl rfl nofun) rfl fun _ hint => hint
  | opened held hopened =>
    cases hon
    obtain rfl := Option.some.inj (hfound.symm.trans held)
    simp only [note, hat]
    exact .roams (.proceed rfl rfl ⟨rfl, rfl⟩ rfl ⟨rfl, rfl⟩ fun _ => .inr hopened) rfl
      fun _ hint => hint
  | interrupted =>
    cases hon
    simp only [note, hat]
    exact .roams (.finish rfl rfl rfl nofun) rfl fun _ hint => hint
  | @awake _ _ use held =>
    cases hon
    obtain rfl := Option.some.inj (hfound.symm.trans held)
    simp only [note, hat]
    exact .roams (roams_use use) rfl fun _ hint => hint
  | busy held hsending =>
    cases hon
    obtain rfl := Option.some.inj (hfound.symm.trans held)
    simp only [note, hat]
    exact .refused hsending
  | closedBefore =>
    cases hon
    simp only [note, hat]
    exact .roams (.finish rfl rfl rfl nofun) rfl fun _ hint => hint
  | unregistered =>
    cases hon
    simp only [note, hat]
    exact .roams (roams_interruptRoom rfl rfl rfl nofun) rfl fun _ hint => hint
  | inactive => cases hon

theorem advances_of_turns {d' : Device τ} (hturns : x.device.Turns t task d') :
    ∃ c', Advances id c x t task c' ((x.note t).setDevice d') := by
  cases hturns with
  | waits hwaits =>
    cases hwaits <;> simp only [note, hat] <;> exact ⟨c, .waits rfl⟩
  | passes hpasses => exact ⟨c, advances_of_passes hat hon hfound hpasses⟩
  | takes held =>
    cases hon
    obtain rfl := Option.some.inj (hfound.symm.trans held)
    simp only [note, hat]
    refine ⟨_, .roams (.finish rfl rfl rfl fun status => ?_) rfl fun _ hint => hint⟩
    cases (x.device.stack.take c.app).1 <;> simp
  | locks held hfree =>
    cases hon
    obtain rfl := Option.some.inj (hfound.symm.trans held)
    simp only [note, hat]
    exact ⟨_, .locks hfree⟩
  | begins held hstarts =>
    cases hon
    obtain rfl := Option.some.inj (hfound.symm.trans held)
    simp only [note, hat]
    exact ⟨_, .begins hstarts⟩
  | ships held =>
    cases hon
    obtain rfl := Option.some.inj (hfound.symm.trans held)
    simp only [note, hat]
    exact ⟨_, .ships⟩
  | watches held =>
    cases hon
    obtain rfl := Option.some.inj (hfound.symm.trans held)
    simp only [note, hat]
    refine ⟨_, .watches (.inl rfl) (SendRoom.fetches_look _ t c.handle) fun hserves => ?_⟩
    cases hserves with
    | shipped _ hempty => exact SendRoom.serves_look hempty
  | resumesSend held hroused =>
    cases hon
    obtain rfl := Option.some.inj (hfound.symm.trans held)
    simp only [note, hat]
    exact ⟨_, .watches (.inr rfl) (SendRoom.fetches_resume _ t c.handle) fun hserves =>
      hserves.resume hroused⟩
  | unlocks held =>
    cases hon
    obtain rfl := Option.some.inj (hfound.symm.trans held)
    simp only [note, hat]
    exact ⟨_, .unlocks⟩
  | closes held hopened =>
    cases hon
    obtain rfl := Option.some.inj (hfound.symm.trans held)
    simp only [note, hat]
    exact ⟨_, .closes hopened⟩
  | interruptsSend held =>
    cases hon
    obtain rfl := Option.some.inj (hfound.symm.trans held)
    simp only [note, hat]
    exact ⟨_, .interrupts⟩
  | @looks own want timed result room' pool' hlook =>
    cases hon
    have houtcome := WaitRoom.outcome_look (x.device.room id) t want.check x.device.stack.pool
    rw [hlook] at houtcome
    simp only [note, hat]
    exact ⟨_, .roams (roams_look rfl rfl rfl houtcome) rfl fun _ =>
      Audience.interrupted_setRoom fun hint => houtcome.queue_interrupted.trans hint⟩
  | @resumes own want timed timedOut result room' pool' hroused hresume =>
    cases hon
    have houtcome :=
      WaitRoom.outcome_resume (x.device.room id) t timedOut want.check x.device.stack.pool
    rw [hresume] at houtcome
    simp only [note, hat]
    exact ⟨_, .roams (roams_look rfl rfl rfl houtcome) rfl fun _ =>
      Audience.interrupted_setRoom fun hint => houtcome.queue_interrupted.trans hint⟩
  | @withdraws own app cls token e stack hwithdraw =>
    cases hon
    have hsends : stack.sends = x.device.stack.sends := (congrArg (·.2.sends) hwithdraw).symm
    have haudience : stack.audience = x.device.stack.audience :=
      (congrArg (·.2.audience) hwithdraw).symm
    simp only [note, hat]
    exact ⟨_, .roams (roams_withdraw e.listener) hsends fun _ hint => haudience ▸ hint⟩
  | @dismisses own listener =>
    cases hon
    simp only [note, hat]
    exact ⟨_, .roams (roams_interruptRoom rfl rfl rfl nofun) rfl fun _ hint =>
      Audience.interrupted_dismiss listener (.inl hint)⟩
  | interrupts =>
    cases hon
    simp only [note, hat]
    refine ⟨_, .leaves
      (fun _ => Audience.interrupted_setRoom fun _ => WaitRoom.interrupt_interrupted _) ?_⟩
    change ((x.device.stack.audience.setRoom id _).room id).queue.interrupted = true
    rw [Audience.room_setRoom_self]
    exact WaitRoom.interrupt_interrupted _
  | deactivates => cases hon

theorem advances : ∃ c', Advances id c x t task c' (x.advance t) :=
  advances_of_turns hat hon hfound (Device.turns hat)

end Turn

structure Placed (id : RoomId) (c : Connection τ) (x : Line τ) : Prop where
  found : x.device.connections.get? id = some c
  room : c.room = id
  handle : ∀ shipment ∈ x.device.shipments, shipment.handle = c.handle
  on {t : τ} {task : Task} : x.task? t = some task → task.IsOn id

structure Begun (id : RoomId) (next : Task) : Prop where
  on : next.IsOn id
  still : next.holds = false
  slipping : next.isSlipping = false
  closing : next.isClosing = false
  status : next.status? = none

inductive Changes (id : RoomId) (c : Connection τ) (x : Line τ) : Connection τ → Line τ → Prop where
  | starts {t : τ} {next : Task} (hnew : x.task? t = none) (hnext : Begun id next) :
      Changes id c x c (x.setTask t next)
  | advances {t : τ} {task : Task} {c' : Connection τ} {y : Line τ} (hat : x.task? t = some task)
      (ha : Advances id c x t task c' y) : Changes id c x c' y
  | stirs {stack : Stack τ} (hsends : stack.sends = x.device.stack.sends)
      (hrooms : ∀ id, (x.device.room id).queue.interrupted = true →
        (stack.audience.room id).queue.interrupted = true) :
      Changes id c x c (x.setStack stack)
  | reports (i : Nat) (status : SendStatus) : Changes id c x c (x.report i status)

theorem changes (hp : Placed id c x) (hstep : Step id x y) : ∃ c', Changes id c x c' y := by
  cases hstep with
  | @start t request hnew hon =>
    refine ⟨c, .starts hnew ?_⟩
    cases request with
    | receive | tryReceive | send | close =>
      cases hon
      exact ⟨rfl, rfl, rfl, rfl, rfl⟩
    | awaitActivity | unregister => cases hon
  | advance t =>
    cases hat : x.task? t with
    | none =>
      have hsame : x.advance t = x := by
        rw [advance, Device.advance_of_none hat]
        simp [note, hat, setDevice]
      exact ⟨c, hsame.symm ▸ .stirs rfl fun _ hint => hint⟩
    | some task =>
      obtain ⟨c', ha⟩ := advances hat (hp.on hat) hp.found
      exact ⟨c', .advances hat ha⟩
  | expire t =>
    refine ⟨c, ?_⟩
    unfold Device.expire
    split
    · exact .stirs rfl fun _ =>
        Audience.interrupted_setRoom fun hint => (WaitRoom.expire_interrupted _ t).trans hint
    · exact .stirs rfl fun _ hint => hint
  | report i status => exact ⟨c, .reports i status⟩
  | dispatch m =>
    refine ⟨c, .stirs rfl fun other hint => ?_⟩
    exact Stack.dispatch_preserves
      (fun listener info audience => Audience.interrupted_tell listener info audience)
      hint

structure Opened (c : Connection τ) (stack : Stack τ) : Prop where
  closed : c.closed = false
  holder : c.holder = none
  slots : stack.sends.tracker.slots = []
  parked : stack.sends.parked = []
  roused : stack.sends.roused = []
  rooms (id : RoomId) : stack.audience.room id = {}

omit [DecidableEq τ] in
theorem opened {config : Config} {stack stack' : Stack τ} {app : String} {suite : Suite}
    (hnew : Stack.new config = .ok stack) (hopen : stack.connect app suite = (.ok c, stack')) :
    Opened c stack' := by
  unfold Stack.new at hnew
  split at hnew
  · cases hnew
  cases hnew
  simp only [Stack.connect, Stack.newRoom, Stack.listen] at hopen
  split at hopen
  · cases hopen
  · rename_i hlisten
    obtain ⟨-, rfl⟩ := Prod.mk.inj hlisten
    obtain ⟨hc, rfl⟩ := Prod.mk.inj hopen
    cases hc
    exact ⟨rfl, rfl, rfl, rfl, rfl, fun _ => rfl⟩

inductive Event (τ : Type) where
  | start (t : τ) (request : Request)
  | advance (t : τ)
  | report (i : Nat) (status : SendStatus)

def after? (id : RoomId) (x : Line τ) : Event τ → Option (Line τ)
  | .start t request =>
    if (x.task? t).isNone && request.connection? == some id then
      some (x.setDevice (x.device.start t request))
    else none
  | .advance t => some (x.advance t)
  | .report i status => some (x.report i status)

def run? (id : RoomId) (x : Line τ) (events : List (Event τ)) : Option (Line τ) :=
  events.foldlM (after? id) x

theorem step_of_after? {event : Event τ} (h : x.after? id event = some y) : Step id x y := by
  cases event with
  | start t request =>
    simp only [after?, Option.ite_none_right_eq_some, Bool.and_eq_true, Option.isNone_iff_eq_none,
      beq_iff_eq] at h
    obtain ⟨⟨hnew, hon⟩, hsame⟩ := h
    cases hsame
    exact .start x hnew hon
  | advance t =>
    cases h
    exact .advance x t
  | report i status =>
    cases h
    exact .report x i status

theorem steps_of_run? {events : List (Event τ)} (h : x.run? id events = some y) :
    Relation.ReflTransGen (Step id) x y := by
  induction events generalizing x with
  | nil =>
    cases h
    exact .refl
  | cons event events ih =>
    simp only [run?, List.foldlM_cons, Option.bind_eq_bind, Option.bind_eq_some_iff] at h
    obtain ⟨next, hnext, hrest⟩ := h
    exact .head (step_of_after? hnext) (ih hrest)

theorem Reachable.steps (h : Reachable id x) (hsteps : Relation.ReflTransGen (Step id) x y) :
    Reachable id y := by
  induction hsteps with
  | refl => exact h
  | tail _ hstep ih => exact ih.step hstep

def chatting : Line Nat :=
  let stack : Stack Nat :=
    { config := {}
      router := { pool := .new 10 }
      assembler := { maxPending := 16, timeout := milliseconds 30000, limit := 307200 } }
  { device := ({ stack } : Device Nat).connect "chat" ⟨1⟩ }

theorem reachable_chatting : Reachable ⟨0⟩ chatting :=
  @Reachable.opened Nat _ ⟨0⟩ {} _ _ "chat" ⟨1⟩ _ rfl rfl rfl

theorem reachable_of_run {events : List (Event Nat)} {x : Line Nat}
    (h : chatting.run? ⟨0⟩ events = some x) : Reachable ⟨0⟩ x :=
  reachable_chatting.steps (steps_of_run? h)

def posting (t steps : Nat) : List (Event Nat) :=
  .start t (.send ⟨0⟩ ⟨.v4 127 0 0 1, 4000, 0⟩ "chat" [104, 105]) :: .replicate steps (.advance t)

def closing (t steps : Nat) : List (Event Nat) :=
  .start t (.close ⟨0⟩) :: .replicate steps (.advance t)

end Line

end MultimediaMessaging
