import MultimediaMessaging.Proofs.Pool
import MultimediaMessaging.Proofs.Stack.Handles
import MultimediaMessaging.Proofs.Stack.Seating

/-!
Why no thread sleeps beside a message it could have. As long as a connection is registered, threads
that are roused and messages on their way to it make up for all that the pool has for it; once it is
not, its threads have been sent away, or somebody is about to do so.
-/

set_option autoImplicit false

namespace MultimediaMessaging

open WaitRoom (Covered Outcome Takes)

namespace Want

variable {pool : Pool}

theorem consistent_check (h : pool.Consistent) (want : Want) :
    (want.check pool).2.Consistent ∧
      ∀ app, (want.check pool).2.countFor app ≤ pool.countFor app := by
  cases want with
  | message app => exact ⟨(h.takeFirst app).2.1, h.countFor_takeFirst_le app⟩
  | activity app => exact ⟨h, fun _ => Nat.le_refl _⟩

theorem takes_check (h : pool.Consistent) (app : String) :
    Takes (Want.message app).check (fun pool => pool.countFor app) pool where
  found {pool' reply} hcheck := by
    obtain ⟨m, hfound⟩ : ∃ m, (pool.takeFirst app).1 = some m := by
      cases hfound : (pool.takeFirst app).1 with
      | none => simp [check, hfound] at hcheck
      | some m => exact ⟨m, rfl⟩
    have hpool : (pool.takeFirst app).2 = pool' := congrArg Prod.snd hcheck
    exact hpool ▸ h.countFor_takeFirst_lt hfound
  nothing {pool'} hcheck := by
    have hpool : (pool.takeFirst app).2 = pool' := congrArg Prod.snd hcheck
    refine hpool ▸ h.countFor_eq_zero ?_
    simpa [check] using congrArg Prod.fst hcheck

end Want

theorem Device.Admits.passes {τ : Type} [DecidableEq τ] {d : Device τ} {task next : Task}
    (h : d.Admits task) (hpasses : d.Passes task next) : d.Admits next := by
  cases hpasses with
  | opened => exact h
  | @awake id c use hget =>
    cases use with
    | receive timed => exact .inl ⟨c, hget, rfl⟩
    | tryReceive => trivial
    | send dest destApp payload => exact absurd rfl (h dest destApp payload)
  | busy => exact h.elim
  | _ => trivial

namespace Traffic

variable {τ : Type} {x y : Traffic τ} {id : RoomId} {app : String} {t : τ} {task : Task}

/-- Messages for `app` whose connection is still to be told. -/
def due (x : Traffic τ) (app : String) : Nat := x.arriving.countP (·.app = app)

theorem due_of_perm {m : Message} {rest : List Message} (hm : x.arriving.Perm (m :: rest))
    (app : String) :
    x.due app = rest.countP (·.app = app) + if m.app = app then 1 else 0 := by
  rw [due, hm.countP_eq, List.countP_cons]
  simp

variable [DecidableEq τ]

/-- Somebody is about to tell the threads in the wait room `id` that their registration is gone. -/
def Dismissed (x : Traffic τ) (id : RoomId) : Prop :=
  .waiter id ∈ x.leaving ∨ ∃ t own, x.device.tasks.get? t = some (.dismiss own (.waiter id))

def Interrupted (x : Traffic τ) (id : RoomId) : Prop :=
  (x.device.room id).queue.interrupted = true

def Registered (x : Traffic τ) (id : RoomId) (app : String) : Prop :=
  ∃ e, x.stack.listeners.midlet.get? app = some e ∧ e.listener = .waiter id

def Served (x : Traffic τ) (id : RoomId) (app : String) : Prop :=
  (x.device.room id).Covered (x.stack.pending app) (x.due app)

/-- The threads in the wait room of a connection for `app` are looked after. -/
def Attends (x : Traffic τ) (id : RoomId) (app : String) : Prop :=
  x.Dismissed id ∨ x.Interrupted id ∨ x.Registered id app ∧ x.Served id app

structure Invariant (x : Traffic τ) : Prop where
  pool : x.stack.pool.Consistent
  seated : x.device.Seated
  known : x.device.Known
  admits {t : τ} {task : Task} : x.device.tasks.get? t = some task → x.device.Admits task
  attends {id : RoomId} {c : Connection τ} : x.device.connections.get? id = some c →
    x.Attends id c.app

theorem Attends.imp (h : x.Attends id app) (hdismissed : x.Dismissed id → y.Attends id app)
    (hinterrupted : x.Interrupted id → y.Interrupted id)
    (hserved : x.Registered id app → x.Served id app → y.Attends id app) : y.Attends id app := by
  rcases h with hx | hx | hx
  · exact hdismissed hx
  · exact .inr (.inl (hinterrupted hx))
  · exact hserved hx.1 hx.2

/-- A connection that loses its entry must have been dismissed. -/
theorem Attends.keep {d' : Device τ} (h : x.Attends id app) (htasks : d'.tasks = x.device.tasks)
    (hrooms : ∀ id, d'.room id = x.device.room id)
    (hless : ∀ app, d'.stack.pending app ≤ x.stack.pending app)
    (hentry : ∀ e, x.stack.listeners.midlet.get? app = some e → e.listener = .waiter id →
      d'.stack.listeners.midlet.get? app = some e ∨ x.Dismissed id) :
    Attends { x with device := d' } id app := by
  have hdismissed : x.Dismissed id → Dismissed { x with device := d' } id :=
    .imp_right fun ⟨t, own, hat⟩ => ⟨t, own, htasks ▸ hat⟩
  refine h.imp (fun hgone => .inl (hdismissed hgone)) (fun hint => ?_)
    fun ⟨e, hget, hlistener⟩ hserved => ?_
  · rwa [Interrupted, hrooms]
  · rcases hentry e hget hlistener with hkept | hgone
    · refine .inr (.inr ⟨⟨e, hkept, hlistener⟩, ?_⟩)
      rw [Served, hrooms]
      exact hserved.mono (hless app) (Nat.le_refl _)
    · exact .inl (hdismissed hgone)

theorem interrupted_dismiss (x : Traffic τ) (id : RoomId) :
    (x.setStack (x.stack.dismiss (.waiter id))).Interrupted id := by
  change ((x.stack.audience.setRoom id (x.stack.audience.room id).interrupt).room
    id).queue.interrupted = true
  rw [Audience.room_setRoom_self]
  exact WaitRoom.interrupt_interrupted _

theorem Dismissed.setTask (h : x.Dismissed id)
    (hold : ∀ own, x.device.tasks.get? t ≠ some (.dismiss own (.waiter id))) :
    Dismissed { x with device := x.device.setTask t task } id := by
  rcases h with hleaving | ⟨u, own, hat⟩
  · exact .inl hleaving
  · have htu : t ≠ u := fun hsame => hold own (hsame ▸ hat)
    exact .inr ⟨u, own, (Table.get?_put_ne _ _ htu).trans hat⟩

section Step

variable (h : Invariant x)
include h

/-- Threads in wait rooms see at most that there are fewer messages. -/
theorem Invariant.setStack {stack : Stack τ} (hpool : stack.pool.Consistent)
    (hless : ∀ app, stack.pending app ≤ x.stack.pending app)
    (hrooms : ∀ id, stack.audience.room id = x.stack.audience.room id)
    (hnext : x.stack.nextRoom ≤ stack.nextRoom)
    (hmidlet : ∀ entry ∈ stack.listeners.midlet, entry ∈ x.stack.listeners.midlet)
    (hpush : ∀ entry ∈ stack.listeners.push, entry ∈ x.stack.listeners.push)
    (hentry : ∀ {app e id}, x.stack.listeners.midlet.get? app = some e → e.listener = .waiter id →
      stack.listeners.midlet.get? app = some e ∨ x.Dismissed id) : Invariant (x.setStack stack) :=
  ⟨hpool, h.seated.of_eq hrooms rfl, h.known.shrink rfl rfl hnext hmidlet hpush,
    fun hat => (h.admits hat).extend (.of_eq rfl rfl),
    fun hget => (h.attends hget).keep rfl hrooms hless fun _ => hentry⟩

theorem Invariant.setPool {pool : Pool} (hpool : pool.Consistent)
    (hless : ∀ app, pool.countFor app ≤ x.stack.pending app) :
    Invariant (x.setStack (x.stack.setPool pool)) :=
  h.setStack hpool hless (fun _ => rfl) (Nat.le_refl _) (fun _ hmem => hmem) (fun _ hmem => hmem)
    fun hget _ => .inl hget

theorem Invariant.keeps {stack : Stack τ} (hkeeps : x.stack.Keeps stack)
    (hmidlet : stack.listeners.midlet = x.stack.listeners.midlet)
    (hpush : stack.listeners.push = x.stack.listeners.push) : Invariant (x.setStack stack) :=
  h.setStack (hkeeps.pool ▸ h.pool)
    (fun app => Nat.le_of_eq (congrArg (Pool.countFor · app) hkeeps.pool))
    (fun _ => hkeeps.audience ▸ rfl) hkeeps.nextRoom (fun _ hmem => hmidlet ▸ hmem)
    (fun _ hmem => hpush ▸ hmem) fun hget _ => .inl (hmidlet ▸ hget)

theorem Invariant.setTask (hold : ∀ id, ¬ x.device.SleepsIn t id)
    (hdismiss : ∀ own id, x.device.tasks.get? t = some (.dismiss own (.waiter id)) →
      x.Interrupted id)
    (hnew : ∀ id want timed, task ≠ .asleep id want timed) (hadmits : x.device.Admits task) :
    Invariant { x with device := x.device.setTask t task } := by
  refine ⟨h.pool, h.seated.setTask hold hnew, h.known.of_eq rfl rfl rfl rfl,
    fun hat => ?_, fun {id c} hget => ?_⟩
  · refine Device.Admits.extend ?_ (.of_eq rfl rfl)
    rcases Table.of_get?_put hat with ⟨rfl, rfl⟩ | ⟨-, hat⟩
    · exact hadmits
    · exact h.admits hat
  · refine (h.attends hget).imp (fun hdismissed => ?_) (fun hint => hint)
      fun hregistered hserved => .inr (.inr ⟨hregistered, hserved⟩)
    by_cases hkept : ∃ own, x.device.tasks.get? t = some (.dismiss own (.waiter id))
    · obtain ⟨own, hat⟩ := hkept
      exact .inr (.inl (hdismiss own id hat))
    · exact .inl (hdismissed.setTask (not_exists.1 hkept))

theorem Invariant.setConnection {c c' : Connection τ}
    (hheld : x.device.connections.get? c.room = some c) (hroom : c'.room = c.room)
    (happ : c'.app = c.app) (htoken : c'.token = c.token) :
    Invariant { x with device := x.device.setConnection c' } := by
  have hextends : x.device.Extends (x.device.setConnection c') :=
    .setConnection (d := x.device) fun other hget => by
      rw [happ, Option.some.inj (hheld.symm.trans (hroom ▸ hget))]
  refine ⟨h.pool, h.seated.of_eq (fun _ => rfl) rfl, h.known.setConnection hheld hroom happ htoken,
    fun hat => (h.admits hat).extend hextends, fun hget => ?_⟩
  rcases Table.of_get?_put hget with ⟨rfl, rfl⟩ | ⟨-, hget⟩
  · exact happ ▸ hroom ▸ h.attends hheld
  · exact h.attends hget

theorem Invariant.setPush {p p' : PushRegistration}
    (hheld : x.device.pushes.get? p.room = some p) (hroom : p'.room = p.room)
    (happ : p'.app = p.app) (htoken : p'.token = p.token) (hfilter : p'.filter = p.filter) :
    Invariant { x with device := x.device.setPush p' } := by
  have hextends : x.device.Extends (x.device.setPush p') :=
    .setPush (d := x.device) fun other hget => by
      rw [happ, Option.some.inj (hheld.symm.trans (hroom ▸ hget))]
  exact ⟨h.pool, h.seated.of_eq (fun _ => rfl) rfl, h.known.setPush hheld hroom happ htoken hfilter,
    fun hat => (h.admits hat).extend hextends, fun hget => h.attends hget⟩

theorem Invariant.setRoom {room' : WaitRoom τ} {arriving unclaimed : List Message}
    (hbalanced : room'.Balanced) (hthreads : room'.threads.Perm (x.device.room id).threads)
    (hinterrupted : x.Interrupted id → room'.queue.interrupted = true)
    (hhere : ∀ app, x.Registered id app → x.Served id app →
      room'.Covered (x.stack.pending app) (arriving.countP (·.app = app)))
    (hthere : ∀ other app, id ≠ other → x.Registered other app →
      x.due app ≤ arriving.countP (·.app = app)) :
    Invariant { x with device := x.device.setLook id room' x.stack.pool, arriving, unclaimed } := by
  refine ⟨h.pool, h.seated.setLook hbalanced hthreads _, h.known.of_eq rfl rfl rfl rfl,
    fun hat => (h.admits hat).extend (.of_eq rfl rfl), fun {other c} hget =>
      (h.attends hget).imp .inl (fun hint => ?_) fun hregistered hserved =>
        .inr (.inr ⟨hregistered, ?_⟩)⟩
  all_goals by_cases hid : id = other
  · subst hid
    rw [Interrupted, Device.room_setLook_self]
    exact hinterrupted hint
  · rwa [Interrupted, Device.room_setLook_ne _ _ _ hid]
  · subst hid
    rw [Served, Device.room_setLook_self]
    exact hhere _ hregistered hserved
  · rw [Served, Device.room_setLook_ne _ _ _ hid]
    exact hserved.mono (Nat.le_refl _) (hthere _ _ hid hregistered)

/-- A wake in the room `id`, on behalf of a message unless nobody counted on it. -/
theorem Invariant.wake {arriving unclaimed : List Message}
    (hdue : ∀ other app, x.Registered other app →
      x.due app ≤ arriving.countP (·.app = app) + if id = other then 1 else 0) :
    Invariant { x with
      device := x.device.setLook id (x.device.room id).wakeOne.2 x.stack.pool
      arriving, unclaimed } := by
  have hbalanced := h.seated.balanced id
  refine h.setRoom hbalanced.wakeOne (WaitRoom.threads_wakeOne _)
    (fun hint => (WaitRoom.wakeOne_interrupted _).trans hint) (fun app hregistered hserved => ?_)
    fun other app hid hregistered => ?_
  · have hless := hdue id app hregistered
    rw [if_pos rfl] at hless
    exact .wakeOne hbalanced (hserved.mono (Nat.le_refl _) hless)
  · have hless := hdue other app hregistered
    rwa [if_neg hid] at hless

theorem Invariant.untold {arriving unclaimed : List Message}
    (hdue : ∀ other app, x.Registered other app → x.due app ≤ arriving.countP (·.app = app)) :
    Invariant { x with arriving, unclaimed } :=
  ⟨h.pool, h.seated, h.known, h.admits, fun hget =>
    (h.attends hget).imp .inl id fun hregistered hserved =>
      .inr (.inr ⟨hregistered, hserved.mono (Nat.le_refl _) (hdue _ _ hregistered)⟩)⟩

theorem Invariant.interrupt (id : RoomId) :
    Invariant { x with
      device := x.device.setLook id (x.device.room id).interrupt x.stack.pool } :=
  have hbalanced := h.seated.balanced id
  h.setRoom hbalanced.interrupt (WaitRoom.threads_interrupt _)
    (fun _ => WaitRoom.interrupt_interrupted _) (fun _ _ _ => .interrupt hbalanced)
    fun _ _ _ _ => Nat.le_refl _

theorem Invariant.expire (id : RoomId) (t : τ) :
    Invariant { x with
      device := x.device.setLook id ((x.device.room id).expire t) x.stack.pool } :=
  h.setRoom ((h.seated.balanced id).expire t) (WaitRoom.threads_expire _ t)
    (fun hint => (WaitRoom.expire_interrupted _ t).trans hint)
    (fun _ _ hserved => .expire hserved t)
    fun _ _ _ _ => Nat.le_refl _

theorem Invariant.parked_fresh : (x.device.room ⟨x.stack.nextRoom⟩).parked = [] := by
  by_contra hne
  obtain ⟨t, hparked⟩ := List.exists_mem_of_ne_nil _ hne
  obtain ⟨want, timed, hat⟩ := (h.seated.asleep _ t).1 (List.mem_append_left _ hparked)
  rcases h.admits hat with ⟨c, hget, -⟩ | ⟨p, hget, -⟩
  · exact Nat.lt_irrefl _ (h.known.connection hget).2
  · exact Nat.lt_irrefl _ (h.known.push hget).2

theorem Invariant.connects {d' : Device τ} (hconnects : x.device.Connects d') :
    Invariant { x with device := d' } := by
  cases hconnects with
  | refused hkeeps hmidlet hpush => exact h.keeps hkeeps hmidlet hpush
  | @opened stack c e hkeeps hnext hfree hmidlet hpush hroom htoken hlistener =>
    have hrooms (id : RoomId) : stack.audience.room id = x.device.room id :=
      congrArg (Audience.room · id) hkeeps.audience
    have hextends : x.device.Extends ({ x.device with stack }.setConnection c) :=
      .setConnection fun other hget => by
        rw [hroom, h.known.connections_fresh] at hget
        cases hget
    refine ⟨hkeeps.pool ▸ h.pool, h.seated.of_eq hrooms rfl,
      h.known.connects (.opened hkeeps hnext hfree hmidlet hpush hroom htoken hlistener),
      fun hat => (h.admits hat).extend hextends, fun {id other} hget => ?_⟩
    rcases Table.of_get?_put hget with ⟨rfl, rfl⟩ | ⟨-, hget⟩
    · refine .inr (.inr ⟨⟨e, ?_, hlistener⟩, fun hparked => absurd ?_ hparked⟩)
      · exact (congrArg (Table.get? · c.app) hmidlet).trans (Table.get?_put_self _ _ _)
      · exact (congrArg WaitRoom.parked (hrooms c.room)).trans (hroom ▸ h.parked_fresh)
    · refine (h.attends hget).keep rfl hrooms
        (fun app => Nat.le_of_eq (congrArg (Pool.countFor · app) hkeeps.pool))
        fun e' hentry _ => .inl ?_
      have hne : c.app ≠ other.app := fun hsame => by
        rw [← hsame] at hentry
        exact absurd (hfree.symm.trans hentry) (by simp)
      exact (congrArg (Table.get? · other.app) hmidlet).trans
        ((Table.get?_put_ne _ _ hne).trans hentry)

theorem Invariant.registersPush {d' : Device τ} (hregisters : x.device.RegistersPush d') :
    Invariant { x with device := d' } := by
  cases hregisters with
  | refused hkeeps hmidlet hpush => exact h.keeps hkeeps hmidlet hpush
  | @entered stack p e hkeeps hnext hmidlet hpush hroom htoken hlistener hfilter =>
    have hrooms (id : RoomId) : stack.audience.room id = x.device.room id :=
      congrArg (Audience.room · id) hkeeps.audience
    have hextends : x.device.Extends ({ x.device with stack }.setPush p) :=
      .setPush fun other hget => by
        rw [hroom, h.known.pushes_fresh] at hget
        cases hget
    refine ⟨hkeeps.pool ▸ h.pool, h.seated.of_eq hrooms rfl,
      h.known.registersPush (.entered hkeeps hnext hmidlet hpush hroom htoken hlistener hfilter),
      fun hat => (h.admits hat).extend hextends, fun hget => ?_⟩
    exact (h.attends hget).keep rfl hrooms
      (fun app => Nat.le_of_eq (congrArg (Pool.countFor · app) hkeeps.pool))
      fun _ hentry _ => .inl (hmidlet ▸ hentry)

theorem Invariant.store (m : Message) :
    Invariant { x with device.stack := x.stack.store m, arriving := m :: x.arriving } := by
  refine ⟨(h.pool.add m).1, h.seated.of_eq (fun _ => rfl) rfl, h.known.of_eq rfl rfl rfl rfl,
    fun hat => (h.admits hat).extend (.of_eq rfl rfl), fun {id c} hget =>
      (h.attends hget).imp .inl (fun hint => hint) fun hregistered hserved =>
        .inr (.inr ⟨hregistered, ?_⟩)⟩
  have hadded := h.pool.countFor_add_le m c.app
  have hdue : List.countP (fun m => m.app = c.app) (m :: x.arriving) =
      x.due c.app + if m.app = c.app then 1 else 0 := by
    simp [due, List.countP_cons]
  rw [Served, due, hdue]
  split at hadded
  · exact (Covered.publish hserved).mono hadded (by simp [*])
  · exact Covered.mono hserved hadded (Nat.le_add_right _ _)

/-- The connection is told of a message that nobody counts on any more. -/
theorem Invariant.toldConnection {m : Message} {rest unclaimed : List Message} {claimed : Bool}
    {told : Stack τ} (hm : x.arriving.Perm (m :: rest))
    (hask : x.stack.ask m (x.stack.connectionFor? m) = (claimed, told)) :
    Invariant { x with device.stack := told, arriving := rest, unclaimed } := by
  have hdue := due_of_perm hm
  cases hentry : x.stack.connectionFor? m with
  | none =>
    rw [hentry] at hask
    cases hask
    refine h.untold fun other app ⟨e, hget, _⟩ => ?_
    have hne : m.app ≠ app := fun hsame => by
      rw [← hsame] at hget
      exact absurd (hentry.symm.trans hget) (by simp)
    simp [hdue, hne]
  | some e =>
    obtain ⟨c, hc⟩ := h.known.midlet (Table.mem_of_get? hentry)
    rw [hentry, Stack.ask_waiter hc.listener] at hask
    cases hask
    refine h.wake fun other app ⟨e', hget, hlistener⟩ => ?_
    rw [hdue]
    by_cases hsame : m.app = app
    · subst hsame
      obtain rfl : e = e' := Option.some.inj (hentry.symm.trans hget)
      have hid : c.room = other := Listener.waiter.inj (hc.listener.symm.trans hlistener)
      simp [hid]
    · simp [hsame]

theorem Invariant.toldPush {m : Message} {unclaimed : List Message} {claimed : Bool}
    {told : Stack τ} (hask : x.stack.ask m (x.stack.pushFor? m) = (claimed, told)) :
    Invariant { x with device.stack := told, unclaimed } := by
  cases hentry : x.stack.pushFor? m with
  | none =>
    rw [hentry] at hask
    cases hask
    exact h.untold fun _ _ _ => Nat.le_refl _
  | some e =>
    have hmem := Table.mem_of_get? (Option.filter_eq_some_iff.1 hentry).1
    obtain ⟨p, hp⟩ := h.known.pushed hmem
    rw [hentry, Stack.ask_waiter hp.listener] at hask
    cases hask
    exact h.wake fun _ _ _ => Nat.le_add_right _ _

theorem Invariant.tally (disposition : Disposition) :
    Invariant (x.setStack (x.stack.tally disposition)) :=
  h.keeps ⟨rfl, rfl, Nat.le_refl _⟩ rfl rfl

theorem Invariant.dismiss (listener : Listener) :
    Invariant (x.setStack (x.stack.dismiss listener)) := by
  cases listener with
  | waiter id => exact h.interrupt id
  | observer o =>
    exact h.setStack h.pool (fun _ => Nat.le_refl _) (fun _ => rfl) (Nat.le_refl _)
      (fun _ hmem => hmem) (fun _ hmem => hmem) fun hget _ => .inl hget

/-- A listener that was told of its removal need not be told again. -/
theorem Invariant.forget {listener : Listener} {rest : List Listener}
    (hleaving : x.leaving.Perm (listener :: rest))
    (htold : ∀ id, listener = .waiter id → x.Interrupted id) :
    Invariant { x with leaving := rest } := by
  refine ⟨h.pool, h.seated, h.known, h.admits, fun hget =>
    (h.attends hget).imp (fun hdismissed => ?_) (fun hint => hint) fun hregistered hserved =>
      .inr (.inr ⟨hregistered, hserved⟩)⟩
  rcases hdismissed with hmem | htask
  · rcases List.mem_cons.1 (hleaving.mem_iff.1 hmem) with hsame | hrest
    · exact .inr (.inl (htold _ hsame.symm))
    · exact .inl (.inl hrest)
  · exact .inl (.inr htask)

/-- The suite's own listeners are still to be told; all others keep their entries. -/
theorem Invariant.drain (suite : Suite) :
    Invariant { x with
      device.stack := x.stack.drain suite
      leaving := (x.stack.removed suite).map (·.listener) ++ x.leaving } := by
  have hleaving : Invariant { x with
      leaving := (x.stack.removed suite).map (·.listener) ++ x.leaving } :=
    ⟨h.pool, h.seated, h.known, h.admits, fun hget =>
      (h.attends hget).imp (fun hgone => .inl (hgone.imp_left (List.mem_append_right _)))
        (fun hint => hint) fun hregistered hserved => .inr (.inr ⟨hregistered, hserved⟩)⟩
  refine hleaving.setStack h.pool (fun _ => Nat.le_refl _)
    (fun _ => rfl) (Nat.le_refl _) (fun _ => Listeners.mem_of_mem_dropSuite)
    (fun _ => Listeners.mem_of_mem_dropSuite) fun {app e id} hget hlistener => ?_
  refine (Listeners.get?_dropSuite suite hget).imp_right fun hmem => ?_
  refine .inl (List.mem_append_left _ (List.mem_map.2 ⟨e, ?_, hlistener⟩))
  exact List.mem_append_left _ hmem

theorem Invariant.proceed {next : Task} (hat : x.device.tasks.get? t = some task)
    (hold : ∀ id want timed, task ≠ .asleep id want timed)
    (hkept : ∀ own id, task ≠ .dismiss own (.waiter id))
    (hnew : ∀ id want timed, next ≠ .asleep id want timed) (hadmits : x.device.Admits next) :
    Invariant { x with device := x.device.setTask t next } :=
  h.setTask
    (fun id ⟨want, timed, hsleeps⟩ => hold id want timed (Option.some.inj (hat.symm.trans hsleeps)))
    (fun own id hdismiss => absurd (Option.some.inj (hat.symm.trans hdismiss)) (hkept own id))
    hnew hadmits

theorem Invariant.withdraw {cls : ListenerClass} {token : Nat} {e : Registration Listener}
    {stack : Stack τ} (hat : x.device.tasks.get? t = some (.withdraw id app cls token))
    (hwithdraw : x.device.stack.withdraw app cls (some token) = (.ok e, stack)) :
    Invariant { x with
      device := Device.setTask { x.device with stack } t (.dismiss id e.listener) } := by
  have hunregisters := Listeners.unregisters x.device.stack.listeners app cls (some token)
  unfold Stack.withdraw at hwithdraw
  generalize x.device.stack.listeners.unregister app cls (some token) = result
    at hunregisters hwithdraw
  cases hunregisters with
  | refused => cases hwithdraw
  | removed hremoved =>
    cases hwithdraw
    have htask : Invariant { x with device := x.device.setTask t (.dismiss id e.listener) } :=
      h.proceed hat (by simp) (by simp) (by simp) trivial
    exact htask.setStack h.pool (fun _ => Nat.le_refl _) (fun _ => rfl)
      (Nat.le_refl _) (fun _ => Listeners.mem_setRegistry_erase .midlet)
      (fun _ => Listeners.mem_setRegistry_erase .push) fun {other e gone} hget hlistener =>
        (Listeners.get?_setRegistry_erase hremoved hget).imp_right fun hsame =>
          .inr ⟨t, id, by simp [Device.setTask, ← hsame, hlistener]⟩

/-- A look by a thread that left its wait room as `room₀`. -/
theorem Invariant.outcome {room₀ room' : WaitRoom τ} {want : Want} {timed : Bool}
    {result : Option (WaitResult Reply)} {pool' : Pool} (hseeks : x.device.Seeks id want)
    (hkept : ∀ own other, x.device.tasks.get? t ≠ some (.dismiss own (.waiter other)))
    (hbalanced : room₀.Balanced)
    (hinterrupted : room₀.queue.interrupted = (x.device.room id).queue.interrupted)
    (hcovered : ∀ {available due}, (x.device.room id).Covered available due →
      room₀.Covered available (due + 1))
    (ho : Outcome room₀ t want.check x.stack.pool (result, room', pool'))
    (hseated : Device.Seated
      ((x.device.setLook id room' pool').setTask t (.afterLook id want timed result))) :
    Invariant { x with device :=
      (x.device.setLook id room' pool').setTask t (.afterLook id want timed result) } := by
  have hpool : pool'.Consistent ∧ ∀ app, pool'.countFor app ≤ x.stack.pending app := by
    rcases ho.state with rfl | rfl
    · exact ⟨h.pool, fun _ => Nat.le_refl _⟩
    · exact want.consistent_check h.pool
  refine ⟨hpool.1, hseated, h.known.of_eq rfl rfl rfl rfl, fun hat => ?_,
    fun {other c} hget => (h.attends hget).imp
      (fun hgone => .inl (hgone.setTask fun own => hkept own other)) (fun hint => ?_)
      fun hregistered hserved => .inr (.inr ⟨hregistered, ?_⟩)⟩
  · refine Device.Admits.extend ?_ (.of_eq rfl rfl)
    rcases Table.of_get?_put hat with ⟨rfl, rfl⟩ | ⟨-, hat⟩
    · cases result with
      | none => exact hseeks
      | some result => trivial
    · exact h.admits hat
  · by_cases hid : id = other
    · subst hid
      rw [Interrupted, Device.room_setTask, Device.room_setLook_self]
      exact (ho.queue_interrupted.trans hinterrupted).trans hint
    · rwa [Interrupted, Device.room_setTask, Device.room_setLook_ne _ _ _ hid]
  · by_cases hid : id = other
    · subst hid
      obtain rfl := h.known.want_connection hget hseeks
      rw [Served, Device.room_setTask, Device.room_setLook_self]
      exact ho.covered (Want.takes_check h.pool c.app) hbalanced (hcovered hserved)
    · rw [Served, Device.room_setTask, Device.room_setLook_ne _ _ _ hid]
      exact hserved.mono (hpool.2 c.app) (Nat.le_refl _)

theorem Invariant.look {want : Want} {timed : Bool} {room' : WaitRoom τ} {pool' : Pool}
    {result : Option (WaitResult Reply)} (hat : x.device.tasks.get? t = some (.look id want timed))
    (hlook : (x.device.room id).look t want.check x.device.stack.pool = (result, room', pool')) :
    Invariant { x with
      device := (x.device.setLook id room' pool').setTask t (.afterLook id want timed result) } :=
  have houtcome := WaitRoom.outcome_look (x.device.room id) t want.check x.device.stack.pool
  h.outcome (h.admits hat) (by simp [hat]) (h.seated.balanced id) rfl
    (fun hcovered => hcovered.mono (Nat.le_refl _) (Nat.le_succ _)) (hlook ▸ houtcome)
    (h.seated.look hat hlook)

theorem Invariant.resume {want : Want} {timed timedOut : Bool} {room' : WaitRoom τ}
    {pool' : Pool} {result : Option (WaitResult Reply)}
    (hat : x.device.tasks.get? t = some (.asleep id want timed))
    (hroused : (t, timedOut) ∈ (x.device.room id).roused)
    (hresume : (x.device.room id).resume t timedOut want.check x.device.stack.pool =
      (result, room', pool')) :
    Invariant { x with
      device := (x.device.setLook id room' pool').setTask t (.afterLook id want timed result) } :=
  have houtcome :=
    WaitRoom.outcome_resume (x.device.room id) t timedOut want.check x.device.stack.pool
  h.outcome (h.admits hat) (by simp [hat]) ((h.seated.balanced id).leave hroused) rfl
    (fun hcovered => hcovered.leave hroused) (hresume ▸ houtcome) (h.seated.resume hroused hresume)

theorem Invariant.turns {d' : Device τ} (hat : x.device.tasks.get? t = some task)
    (hturns : x.device.Turns t task d') : Invariant { x with device := d' } := by
  have hadmits := h.admits hat
  cases hturns with
  | waits => exact h
  | passes hpasses =>
    obtain ⟨hold, hnew⟩ := hpasses.ne_asleep
    exact h.proceed hat hold (fun own id => hpasses.ne_dismiss own (.waiter id)) hnew
      (hadmits.passes hpasses)
  | @takes id c =>
    have htaken := h.setPool (h.pool.takeFirst c.app).2.1 (h.pool.countFor_takeFirst_le c.app)
    exact htaken.proceed hat (by simp) (by simp) (by simp) trivial
  | @closes id c hget =>
    obtain ⟨rfl, -⟩ := h.known.connection hget
    have hclosed :
        Invariant { x with device := x.device.setConnection { c with closed := true } } :=
      h.setConnection hget rfl rfl rfl
    exact hclosed.proceed hat (by simp) (by simp) (by simp) trivial
  | @interruptsSend id c =>
    have hsent :
        Invariant (x.setStack { x.stack with sends := x.stack.sends.interrupt c.handle }) :=
      h.keeps ⟨rfl, rfl, Nat.le_refl _⟩ rfl rfl
    exact hsent.proceed hat (by simp) (by simp) (by simp) trivial
  | looks hlook => exact h.look hat hlook
  | resumes hroused hresume => exact h.resume hat hroused hresume
  | withdraws hwithdraw => exact h.withdraw hat hwithdraw
  | @dismisses id listener =>
    have hat' : (x.setStack (x.stack.dismiss listener)).device.tasks.get? t =
      some (.dismiss id listener) := hat
    refine (h.dismiss listener).setTask (by simp [Device.SleepsIn, hat'])
      (fun own other hdismiss => ?_) (by simp) trivial
    cases hat.symm.trans hdismiss
    exact interrupted_dismiss x other
  | @interrupts id => exact (h.interrupt id).proceed hat (by simp) (by simp) (by simp) trivial
  | @deactivates id p hget =>
    obtain ⟨rfl, -⟩ := h.known.push hget
    have hinactive : Invariant { x with device := x.device.setPush { p with active := false } } :=
      h.setPush hget rfl rfl rfl rfl
    exact hinactive.proceed hat (by simp) (by simp) (by simp) trivial
  | locks | begins | ships | watches | resumesSend | unlocks => exact hadmits.elim

theorem Invariant.advance (t : τ) : Invariant { x with device := x.device.advance t } := by
  cases hat : x.device.tasks.get? t with
  | none => exact (Device.advance_of_none hat).symm ▸ h
  | some task => exact h.turns hat (Device.turns hat)

theorem Invariant.start {request : Request} (hfree : x.device.IsFree t)
    (hkind : ∀ id dest destApp payload, request ≠ .send id dest destApp payload) :
    Invariant { x with device := x.device.start t request } := by
  refine h.setTask (fun id ⟨want, timed, hat⟩ => ?_) (fun own id hat => ?_) ?_ ?_
  · cases hfree _ hat
  · cases hfree _ hat
  · cases request with
    | awaitActivity id timed =>
      simp only [Device.firstTask]
      split <;> simp
    | _ => simp [Device.firstTask]
  · cases request with
    | awaitActivity id timed =>
      simp only [Device.firstTask]
      split
      · exact .inr ⟨_, ‹_›, rfl⟩
      · trivial
    | send id dest destApp payload => exact absurd rfl (hkind id dest destApp payload)
    | receive | tryReceive => simp [Device.firstTask, Device.Admits]
    | close | unregister => trivial

theorem Invariant.step (hstep : Step x y) : Invariant y := by
  cases hstep with
  | connect app suite hquiet => exact h.connects (x.device.connects app suite)
  | registerPush app suite filter hquiet =>
    exact h.registersPush (x.device.registersPush app suite filter)
  | start hfree hkind => exact h.start hfree hkind
  | @advance t hlock => exact h.advance t
  | expire t =>
    unfold Device.expire
    split
    · exact h.expire _ t
    · exact h
  | discard hunheard => exact h.tally _
  | @store m hheard => exact h.store m
  | claim hm hask => exact (h.toldConnection hm hask).tally _
  | decline hm hask => exact h.toldConnection hm hask
  | push hm hask => exact (h.toldPush hask).tally _
  | pool hm hask => exact (h.toldPush hask).tally _
  | take app => exact h.setPool (h.pool.takeFirst app).2.1 (h.pool.countFor_takeFirst_le app)
  | drain suite hquiet => exact h.drain suite
  | purge app => exact h.setPool (h.pool.removeAll app).2.1 (h.pool.countFor_removeAll_le app)
  | @dismiss listener rest hleaving =>
    refine (h.dismiss listener).forget hleaving fun id hsame => ?_
    subst hsame
    exact interrupted_dismiss x id

end Step

theorem invariant_of_fresh {config : Config} {stack : Stack τ}
    (hnew : Stack.new config = .ok stack) : Invariant { device := { stack } } := by
  unfold Stack.new at hnew
  split at hnew
  · cases hnew
  · cases hnew
    exact
      { pool := Pool.consistent_new _
        seated := ⟨fun _ => WaitRoom.balanced_empty, fun _ => List.nodup_nil,
          fun _ _ => ⟨nofun, fun ⟨_, _, hat⟩ => nomatch hat⟩⟩
        known := ⟨nofun, nofun, nofun, nofun, nofun⟩
        admits := nofun
        attends := nofun }

theorem invariant_of_reachable (h : Reachable x) : Invariant x := by
  induction h with
  | fresh hnew => exact invariant_of_fresh hnew
  | step _ hstep ih => exact ih.step hstep

end Traffic

end MultimediaMessaging
