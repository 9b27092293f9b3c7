import MultimediaMessaging.Proofs.Stack.Turn
import MultimediaMessaging.Proofs.Table
import MultimediaMessaging.Proofs.Waiting.Room

/-!
The threads of a device and its wait rooms agree about who sleeps where.
-/

set_option autoImplicit false

namespace MultimediaMessaging.Device

open WaitRoom (Outcome)

variable {τ : Type} {d d' : Device τ} {t u : τ} {id : RoomId} {task : Task}
  {want : Want} {timed timedOut : Bool} {room' : WaitRoom τ} {pool' : Pool}

@[simp] theorem room_setLook_self (d : Device τ) (id : RoomId) (room : WaitRoom τ) (pool : Pool) :
    (d.setLook id room pool).room id = room := Audience.room_setRoom_self _ _ _

theorem room_setLook_ne (d : Device τ) {id other : RoomId} (room : WaitRoom τ) (pool : Pool)
    (h : id ≠ other) : (d.setLook id room pool).room other = d.room other :=
  Audience.room_setRoom_ne _ _ h

variable [DecidableEq τ]

@[simp] theorem room_setTask (d : Device τ) (t : τ) (task : Task) (id : RoomId) :
    (d.setTask t task).room id = d.room id := rfl

def SleepsIn (d : Device τ) (t : τ) (id : RoomId) : Prop :=
  ∃ want timed, d.tasks.get? t = some (.asleep id want timed)

@[simp] theorem sleepsIn_setLook {room : WaitRoom τ} {pool : Pool} {other : RoomId} :
    (d.setLook id room pool).SleepsIn t other ↔ d.SleepsIn t other := .rfl

theorem sleepsIn_setTask_self :
    (d.setTask t task).SleepsIn t id ↔ ∃ want timed, task = .asleep id want timed := by
  simp [SleepsIn, setTask]

theorem sleepsIn_setTask_ne (h : t ≠ u) : (d.setTask t task).SleepsIn u id ↔ d.SleepsIn u id := by
  simp [SleepsIn, setTask, Table.get?_put_ne _ _ h]

/-- A later look leaves no trace of an earlier one. -/
theorem setLook_setTask (d : Device τ) (id : RoomId) (t : τ) (first last : WaitRoom τ)
    (earlier later : Pool) (task next : Task) :
    (((d.setLook id first earlier).setTask t task).setLook id last later).setTask t next =
      (d.setLook id last later).setTask t next := by
  simp [setLook, setTask, Stack.setPool, Audience.setRoom]

theorem SleepsIn.unique {other : RoomId} (h : d.SleepsIn t id) (ho : d.SleepsIn t other) :
    id = other := by
  obtain ⟨want, timed, hat⟩ := h
  obtain ⟨want', timed', hat'⟩ := ho
  cases hat.symm.trans hat'
  rfl

structure Seated (d : Device τ) : Prop where
  balanced (id : RoomId) : (d.room id).Balanced
  nodup (id : RoomId) : (d.room id).threads.Nodup
  asleep (id : RoomId) (t : τ) : t ∈ (d.room id).threads ↔ d.SleepsIn t id

theorem Seated.of_eq (h : Seated d) (hroom : ∀ id, d'.room id = d.room id)
    (htasks : d'.tasks = d.tasks) : Seated d' where
  balanced id := hroom id ▸ h.balanced id
  nodup id := hroom id ▸ h.nodup id
  asleep id t := by
    rw [hroom, h.asleep, SleepsIn, SleepsIn, htasks]

theorem Seated.setTask (h : Seated d) (hold : ∀ id, ¬ d.SleepsIn t id)
    (hnew : ∀ id want timed, task ≠ .asleep id want timed) : Seated (d.setTask t task) where
  balanced := h.balanced
  nodup := h.nodup
  asleep id u := by
    rw [room_setTask, h.asleep]
    by_cases htu : t = u
    · subst htu
      rw [sleepsIn_setTask_self]
      exact ⟨fun hsleeps => absurd hsleeps (hold id),
        fun ⟨want, timed, hsame⟩ => absurd hsame (hnew id want timed)⟩
    · rw [sleepsIn_setTask_ne htu]

theorem Seated.update (h : Seated d) (id : RoomId)
    (hrooms : ∀ other, id ≠ other → d'.room other = d.room other)
    (hbalanced : (d'.room id).Balanced) (hnodup : (d'.room id).threads.Nodup)
    (hhere : ∀ u, u ∈ (d'.room id).threads ↔ d'.SleepsIn u id)
    (hthere : ∀ other u, id ≠ other → (d'.SleepsIn u other ↔ d.SleepsIn u other)) : Seated d' := by
  refine ⟨fun other => ?_, fun other => ?_, fun other u => ?_⟩ <;> by_cases hid : id = other
  · exact hid ▸ hbalanced
  · exact hrooms other hid ▸ h.balanced other
  · exact hid ▸ hnodup
  · exact hrooms other hid ▸ h.nodup other
  · exact hid ▸ hhere u
  · rw [hrooms other hid, h.asleep, hthere other u hid]

theorem Seated.setLook (h : Seated d) (hbalanced : room'.Balanced)
    (hthreads : room'.threads.Perm (d.room id).threads) (pool : Pool) :
    Seated (d.setLook id room' pool) := by
  refine h.update id (fun other hid => room_setLook_ne _ _ _ hid) ?_ ?_ (fun u => ?_)
    fun _ _ _ => .rfl
  · rwa [room_setLook_self]
  · rw [room_setLook_self]
    exact hthreads.nodup_iff.2 (h.nodup id)
  · rw [room_setLook_self, hthreads.mem_iff, h.asleep, sleepsIn_setLook]

theorem Seated.rise (h : Seated d) (hmem : (t, timedOut) ∈ (d.room id).roused)
    (hnew : ∀ id want timed, task ≠ .asleep id want timed) (pool : Pool) :
    Seated ((d.setLook id ((d.room id).leave t timedOut) pool).setTask t task) := by
  have hthreads := WaitRoom.threads_leave hmem
  have hnodup := hthreads.nodup_iff.2 (h.nodup id)
  have hsleeps : d.SleepsIn t id := (h.asleep id t).1 (hthreads.mem_iff.1 List.mem_cons_self)
  refine h.update id (fun other hid => room_setLook_ne _ _ _ hid) ?_ ?_ (fun u => ?_)
    fun other u hid => ?_
  · rw [room_setTask, room_setLook_self]
    exact (h.balanced id).leave hmem
  · rw [room_setTask, room_setLook_self]
    exact hnodup.of_cons
  · rw [room_setTask, room_setLook_self]
    by_cases htu : t = u
    · subst htu
      rw [sleepsIn_setTask_self]
      exact ⟨fun hin => absurd hin (List.nodup_cons.1 hnodup).1,
        fun ⟨want, timed, hsame⟩ => absurd hsame (hnew id want timed)⟩
    · rw [sleepsIn_setTask_ne htu, sleepsIn_setLook, ← h.asleep, ← hthreads.mem_iff, List.mem_cons]
      exact ⟨.inr, fun hin => hin.resolve_left (Ne.symm htu)⟩
  · by_cases htu : t = u
    · subst htu
      rw [sleepsIn_setTask_self]
      exact ⟨fun ⟨want, timed, hsame⟩ => absurd hsame (hnew other want timed),
        fun hother => absurd (hsleeps.unique hother) hid⟩
    · rw [sleepsIn_setTask_ne htu, sleepsIn_setLook]

theorem Seated.sit (h : Seated d) (hold : ∀ id, ¬ d.SleepsIn t id)
    (hawake : (d.room id).queue.interrupted = false) (pool : Pool) (want : Want) (timed : Bool) :
    Seated ((d.setLook id ((d.room id).park t) pool).setTask t (.asleep id want timed)) := by
  have hthreads := WaitRoom.threads_park (d.room id) t
  have hnew : t ∉ (d.room id).threads := fun hin => hold id ((h.asleep id t).1 hin)
  refine h.update id (fun other hid => room_setLook_ne _ _ _ hid) ?_ ?_ (fun u => ?_)
    fun other u hid => ?_
  · rw [room_setTask, room_setLook_self]
    exact (h.balanced id).park hawake
  · rw [room_setTask, room_setLook_self]
    exact hthreads.nodup_iff.2 (List.nodup_cons.2 ⟨hnew, h.nodup id⟩)
  · rw [room_setTask, room_setLook_self, hthreads.mem_iff, List.mem_cons]
    by_cases htu : t = u
    · subst htu
      rw [sleepsIn_setTask_self]
      exact ⟨fun _ => ⟨want, timed, rfl⟩, fun _ => .inl rfl⟩
    · rw [sleepsIn_setTask_ne htu, sleepsIn_setLook, ← h.asleep]
      exact ⟨fun hin => hin.resolve_left (Ne.symm htu), .inr⟩
  · by_cases htu : t = u
    · subst htu
      rw [sleepsIn_setTask_self]
      refine ⟨fun ⟨want', timed', hsame⟩ => ?_, fun hother => absurd hother (hold other)⟩
      cases hsame
      exact absurd rfl hid
    · rw [sleepsIn_setTask_ne htu, sleepsIn_setLook]

theorem Seated.outcome {result : Option (WaitResult Reply)} (h : Seated d)
    (hold : ∀ id, ¬ d.SleepsIn t id)
    (ho : Outcome (d.room id) t want.check d.stack.pool (result, room', pool')) :
    Seated ((d.setLook id room' pool').setTask t (.afterLook id want timed result)) := by
  have hstays (pool : Pool) : Seated (d.setLook id (d.room id) pool) :=
    h.setLook (h.balanced id) (.refl _) pool
  cases ho with
  | interrupted => exact (hstays _).setTask hold nofun
  | found => exact (hstays _).setTask hold nofun
  | expired => exact (hstays _).setTask hold nofun
  | parked hawake => exact h.sit hold hawake _ want timed

theorem Seated.look (h : Seated d) (hat : d.tasks.get? t = some (.look id want timed))
    {result : Option (WaitResult Reply)}
    (hlook : (d.room id).look t want.check d.stack.pool = (result, room', pool')) :
    Seated ((d.setLook id room' pool').setTask t (.afterLook id want timed result)) :=
  h.outcome (by simp [SleepsIn, hat]) (hlook ▸ WaitRoom.outcome_look _ _ _ _)

theorem Seated.resume (h : Seated d) (hmem : (t, timedOut) ∈ (d.room id).roused)
    {result : Option (WaitResult Reply)}
    (hresume : (d.room id).resume t timedOut want.check d.stack.pool = (result, room', pool')) :
    Seated ((d.setLook id room' pool').setTask t (.afterLook id want timed result)) := by
  have houtcome := WaitRoom.outcome_resume (d.room id) t timedOut want.check d.stack.pool
  rw [hresume] at houtcome
  -- between the two steps the thread is as one that looks for the first time
  have hrisen : Seated ((d.setLook id ((d.room id).leave t timedOut) d.stack.pool).setTask t
      (.look id want timed)) := h.rise hmem (by simp) _
  rw [← setLook_setTask d id t ((d.room id).leave t timedOut) room' d.stack.pool pool']
  refine hrisen.outcome (by simp [SleepsIn, Device.setTask]) ?_
  rw [room_setTask, room_setLook_self]
  exact houtcome

section Steps

theorem Seated.proceed {next : Task} (h : Seated d) (hat : d.tasks.get? t = some task)
    (hold : ∀ id want timed, task ≠ .asleep id want timed)
    (hnew : ∀ id want timed, next ≠ .asleep id want timed) : Seated (d.setTask t next) :=
  h.setTask (fun id ⟨want, timed, hsleeps⟩ =>
    hold id want timed (Option.some.inj (hat.symm.trans hsleeps))) hnew

def setAudience (d : Device τ) (audience : Audience τ) : Device τ :=
  { d with stack := { d.stack with audience } }

theorem Seated.setRoom (h : Seated d) (hbalanced : room'.Balanced)
    (hthreads : room'.threads.Perm (d.room id).threads) :
    Seated (d.setAudience (d.stack.audience.setRoom id room')) :=
  h.setLook hbalanced hthreads d.stack.pool

theorem Seated.interrupt (h : Seated d) (id : RoomId) :
    Seated (d.setAudience (d.stack.audience.interrupt id)) :=
  h.setRoom (h.balanced id).interrupt (WaitRoom.threads_interrupt _)

theorem Seated.dismiss (h : Seated d) (listener : Listener) :
    Seated (d.setAudience (d.stack.audience.dismiss listener)) := by
  cases listener with
  | waiter id => exact h.interrupt id
  | observer o => exact h.of_eq (fun _ => rfl) rfl

theorem Seated.tell (h : Seated d) (listener : Listener) (info : Message.Info) :
    Seated (d.setAudience (Audience.tell listener info d.stack.audience).2) := by
  cases listener with
  | waiter id => exact h.setRoom (h.balanced id).wakeOne (WaitRoom.threads_wakeOne _)
  | observer o => exact h.of_eq (fun _ => rfl) rfl

theorem afterWatch_ne_asleep (own : RoomId) (result : Option (Except WaitError SendStatus)) :
    ∀ id want timed, Task.afterWatch own result ≠ .asleep id want timed := by
  rcases result with _ | _ | _ <;> exact nofun

theorem useTask_ne_asleep (own : RoomId) (app : String) (use : Use) :
    ∀ id want timed, use.task own app ≠ .asleep id want timed := by
  cases use <;> exact nofun

omit [DecidableEq τ] in
theorem Passes.ne_asleep {next : Task} (h : d.Passes task next) :
    (∀ id want timed, task ≠ .asleep id want timed) ∧
      ∀ id want timed, next ≠ .asleep id want timed := by
  cases h with
  | lost about =>
    refine ⟨?_, nofun⟩
    rintro _ _ _ rfl
    cases about
  | awake => exact ⟨nofun, useTask_ne_asleep _ _ _⟩
  | _ => exact ⟨nofun, nofun⟩

theorem Seated.turns (h : Seated d) (hat : d.tasks.get? t = some task)
    (hturns : d.Turns t task d') : Seated d' := by
  have hheld (c : Connection τ) : Seated (d.setConnection c) := h.of_eq (fun _ => rfl) rfl
  have hsent (sends : SendRoom τ) : Seated (d.setSends sends) := h.of_eq (fun _ => rfl) rfl
  cases hturns with
  | waits => exact h
  | passes hpasses => exact h.proceed hat hpasses.ne_asleep.1 hpasses.ne_asleep.2
  | @takes id c =>
    have htaken : Seated { d with stack := (d.stack.take c.app).2 } := h.of_eq (fun _ => rfl) rfl
    exact htaken.proceed hat nofun nofun
  | locks => exact (hheld _).proceed hat nofun nofun
  | begins => exact (hsent _).proceed hat nofun nofun
  | @ships id c parcel =>
    have hshipped : Seated { d with shipments := d.shipments ++ [⟨t, c.handle, parcel⟩] } :=
      h.of_eq (fun _ => rfl) rfl
    exact hshipped.proceed hat nofun nofun
  | @watches id => exact (hsent _).proceed hat nofun (afterWatch_ne_asleep id _)
  | @resumesSend id => exact (hsent _).proceed hat nofun (afterWatch_ne_asleep id _)
  | unlocks => exact (hheld _).proceed hat nofun nofun
  | closes => exact (hheld _).proceed hat nofun nofun
  | interruptsSend => exact (hsent _).proceed hat nofun nofun
  | looks hlook => exact h.look hat hlook
  | resumes hroused hresume => exact h.resume hroused hresume
  | @withdraws id app cls token e stack hwithdraw =>
    have haudience : stack.audience = d.stack.audience :=
      (congrArg (·.2.audience) hwithdraw).symm
    have hstays : Seated { d with stack } :=
      h.of_eq (fun id => congrArg (Audience.room · id) haudience) rfl
    exact hstays.proceed hat nofun nofun
  | @dismisses id listener => exact (h.dismiss listener).proceed hat nofun nofun
  | @interrupts id => exact (h.interrupt id).proceed hat nofun nofun
  | @deactivates id p =>
    have hinactive : Seated (d.setPush { p with active := false }) := h.of_eq (fun _ => rfl) rfl
    exact hinactive.proceed hat nofun nofun

theorem Seated.advance (h : Seated d) (t : τ) : Seated (d.advance t) := by
  cases hat : d.tasks.get? t with
  | none => exact (advance_of_none hat).symm ▸ h
  | some task => exact h.turns hat (Device.turns hat)

theorem Seated.start (h : Seated d) (hfree : d.tasks.get? t = none) (request : Request) :
    Seated (d.start t request) := by
  refine h.setTask (fun id ⟨want, timed, hat⟩ => by cases hfree.symm.trans hat) ?_
  cases request with
  | awaitActivity id timed =>
    simp only [Device.firstTask]
    split <;> simp
  | _ => simp [Device.firstTask]

theorem Seated.expire (h : Seated d) (t : τ) : Seated (d.expire t) := by
  unfold Device.expire
  split
  · exact h.setRoom ((h.balanced _).expire t) (WaitRoom.threads_expire _ t)
  · exact h

theorem Seated.report (h : Seated d) (i : Nat) (status : SendStatus) :
    Seated (d.report i status) := by
  unfold Device.report
  split
  · exact h
  · exact h.of_eq (fun _ => rfl) rfl

end Steps

end MultimediaMessaging.Device
