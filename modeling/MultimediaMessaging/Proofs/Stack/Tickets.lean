import MultimediaMessaging.Proofs.Stack.Audience
import MultimediaMessaging.Proofs.Stack.Operations

/-!
What becomes of the registrations behind connections and push registrations. While one is there it
has the token of its handle, which no later one gets. When it is gone, a thread is about to
interrupt the wait room of the handle, or has done so, and the room stays interrupted.
-/

set_option autoImplicit false

namespace MultimediaMessaging

namespace Listeners

variable {L : Type} {ls : Listeners L} {cls : ListenerClass} {e : Registration L}

theorem nextToken_apply (ls : Listeners L) (operation : Operation L) :
    ls.nextToken ≤ (ls.apply operation).1.nextToken := by
  cases operation with
  | register cls app suite listener filter =>
    rw [apply, nextToken_register]
    exact Nat.le_succ _
  | unregister app cls owner => exact Nat.le_of_eq (nextToken_unregister ls app cls owner).symm
  | removeSuite suite pool => exact Nat.le_refl _

/-- What an operation adds has a token of its own. -/
theorem holds_of_apply (h : Filed ls) {operation : Operation L}
    (hheld : (ls.apply operation).1.Holds cls e) : ls.Holds cls e ∨ e.token = ls.nextToken := by
  cases operation with
  | register cls' app suite listener filter =>
    exact (holds_register.1 hheld).imp_right fun hnew => (of_entered? hnew).1
  | unregister app cls' owner => exact .inl ((holds_unregister h).1 hheld).1
  | removeSuite suite pool =>
    rw [apply, holds_removeSuite h] at hheld
    exact .inl hheld.1

end Listeners

theorem Stack.holds_of_listen {τ : Type} {s s' : Stack τ} {cls : ListenerClass} {app : String}
    {suite : Suite} {listener : Listener} {filter : Option SenderFilter} {token : Nat}
    (h : s.listen cls app suite listener filter = (.ok token, s')) :
    s'.listeners.Holds cls ⟨app, suite, listener, filter, token⟩ ∧
      token < s'.listeners.nextToken := by
  have hlisteners : s'.listeners = (s.listeners.register cls app suite listener filter).2.1 := by
    rw [show s' = (s.listen cls app suite listener filter).2 by rw [h]]
    rfl
  have haccepted : s.listeners.entered? (.register cls app suite listener filter) =
      some (cls, ⟨app, suite, listener, filter, token⟩) := by
    have hsame := s.accepted?_eq (.listen cls app suite listener filter)
    rw [Stack.accepted?, h] at hsame
    exact hsame.symm
  rw [hlisteners]
  refine ⟨Listeners.holds_register.2 (.inr haccepted), ?_⟩
  rw [Listeners.nextToken_register, ← (Listeners.of_entered? haccepted).1]
  exact Nat.lt_succ_self _

namespace Device

variable {τ : Type} {d d' : Device τ} {id : RoomId} {cls : ListenerClass} {k : Ticket} {t : τ}

def Attached (d : Device τ) (cls : ListenerClass) (k : Ticket) : Prop :=
  ∃ e, d.stack.listeners.Holds cls e ∧ e.app = k.app ∧ e.token = k.token ∧
    e.listener = .waiter k.room

def Interrupted (d : Device τ) (id : RoomId) : Prop := (d.room id).queue.interrupted = true

theorem retains_report (d : Device τ) (i : Nat) (status : SendStatus) :
    Retains d (d.report i status) := by
  unfold report
  split <;> exact retains_of_eq rfl rfl rfl fun _ => rfl

variable [DecidableEq τ]

def Leaves (d : Device τ) (id : RoomId) : Prop :=
  ∃ t room, d.tasks.get? t = some (.dismiss room (.waiter id))

/-- Every handle has its registration, or its wait room knows that it has none. -/
structure Tracked (d : Device τ) : Prop where
  filed : d.stack.listeners.Filed
  placed : d.Placed
  below {id : RoomId} {cls : ListenerClass} {k : Ticket} : d.ticket? id cls = some k →
    id.number < d.stack.nextRoom ∧ k.token < d.stack.listeners.nextToken
  apart {id : RoomId} {cls cls' : ListenerClass} {k k' : Ticket} : d.ticket? id cls = some k →
    d.ticket? id cls' = some k' → cls = cls'
  reached {id : RoomId} {cls : ListenerClass} {k : Ticket} : d.ticket? id cls = some k →
    d.Attached cls k ∨ d.Leaves id ∨ d.Interrupted id

structure Evolves (d d' : Device τ) : Prop where
  tickets : d'.ticket? = d.ticket?
  nextRoom : d.stack.nextRoom ≤ d'.stack.nextRoom
  nextToken : d.stack.listeners.nextToken ≤ d'.stack.listeners.nextToken
  filed : d'.stack.listeners.Filed
  held {cls : ListenerClass} {e : Registration Listener} : d.stack.listeners.Holds cls e →
    d'.stack.listeners.Holds cls e ∨
      ∀ id, e.listener = .waiter id → d'.Leaves id ∨ d'.Interrupted id
  fresh {cls : ListenerClass} {e : Registration Listener} : d'.stack.listeners.Holds cls e →
    d.stack.listeners.Holds cls e ∨ d.stack.listeners.nextToken ≤ e.token
  leaves {id : RoomId} : d.Leaves id → d'.Leaves id ∨ d'.Interrupted id
  interrupted {id : RoomId} : d.Interrupted id → d'.Interrupted id

structure Issues (d d' : Device τ) (cls : ListenerClass) (k : Ticket) : Prop where
  stack : d'.stack = d.stack
  tasks : d'.tasks = d.tasks
  tickets (id : RoomId) (cls' : ListenerClass) :
    d'.ticket? id cls' = if k.room = id ∧ cls = cls' then some k else d.ticket? id cls'
  unused (cls' : ListenerClass) : d.ticket? k.room cls' = none
  room : k.room.number < d.stack.nextRoom
  token : k.token < d.stack.listeners.nextToken
  attached : d.Attached cls k

inductive Grows (d d' : Device τ) : Prop where
  | plain (hevolves : Evolves d d')
  | issued {d₁ : Device τ} {cls : ListenerClass} {k : Ticket} (hevolves : Evolves d d₁)
      (hissues : Issues d₁ d' cls k)

theorem Tracked.evolve (h : Tracked d) (he : Evolves d d') : Tracked d' where
  filed := he.filed
  placed := by
    rw [Placed, he.tickets]
    exact h.placed
  below hticket :=
    have hold := h.below (he.tickets ▸ hticket)
    ⟨Nat.lt_of_lt_of_le hold.1 he.nextRoom, Nat.lt_of_lt_of_le hold.2 he.nextToken⟩
  apart hticket hticket' := h.apart (he.tickets ▸ hticket) (he.tickets ▸ hticket')
  reached {id cls k} hticket := by
    rw [he.tickets] at hticket
    rcases h.reached hticket with ⟨e, hheld, happ, htoken, hlistener⟩ | hleaves | hint
    · rcases he.held hheld with hkept | htold
      · exact .inl ⟨e, hkept, happ, htoken, hlistener⟩
      · exact .inr (htold id (h.placed id cls k hticket ▸ hlistener))
    · exact .inr (he.leaves hleaves)
    · exact .inr (.inr (he.interrupted hint))

theorem Tracked.issue (h : Tracked d) (hi : Issues d d' cls k) : Tracked d' := by
  have hnew : ∀ {id cls' k'}, d'.ticket? id cls' = some k' →
      k.room = id ∧ cls = cls' ∧ k = k' ∨ k.room ≠ id ∧ d.ticket? id cls' = some k' := by
    intro id cls' k' hticket
    rw [hi.tickets] at hticket
    split at hticket
    · rename_i hsame
      exact .inl ⟨hsame.1, hsame.2, Option.some.inj hticket⟩
    · refine .inr ⟨?_, hticket⟩
      rintro rfl
      cases (hi.unused cls').symm.trans hticket
  refine ⟨hi.stack ▸ h.filed, fun id cls' k' hticket => ?_, fun {id cls' k'} hticket => ?_,
    fun {id cls₁ cls₂ k₁ k₂} hticket₁ hticket₂ => ?_, fun {id cls' k'} hticket => ?_⟩
  · rcases hnew hticket with ⟨hid, -, rfl⟩ | ⟨-, hold⟩
    · exact hid
    · exact h.placed id cls' k' hold
  · rw [hi.stack]
    rcases hnew hticket with ⟨rfl, -, rfl⟩ | ⟨-, hold⟩
    · exact ⟨hi.room, hi.token⟩
    · exact h.below hold
  · rcases hnew hticket₁ with ⟨rfl, rfl, -⟩ | ⟨hid, hold₁⟩
    · rcases hnew hticket₂ with ⟨-, rfl, -⟩ | ⟨hid, -⟩
      · rfl
      · exact absurd rfl hid
    · rcases hnew hticket₂ with ⟨rfl, -, -⟩ | ⟨-, hold₂⟩
      · exact absurd rfl hid
      · exact h.apart hold₁ hold₂
  · have hattached : ∀ cls' k', d'.Attached cls' k' ↔ d.Attached cls' k' := fun _ _ => by
      rw [Attached, Attached, hi.stack]
    have hleaves : d'.Leaves id ↔ d.Leaves id := by rw [Leaves, Leaves, hi.tasks]
    have hint : d'.Interrupted id ↔ d.Interrupted id := by
      rw [Interrupted, Interrupted, Device.room, Device.room, hi.stack]
    rw [hattached, hleaves, hint]
    rcases hnew hticket with ⟨-, rfl, rfl⟩ | ⟨-, hold⟩
    · exact .inl hi.attached
    · exact h.reached hold

theorem Tracked.grow (h : Tracked d) (hgrows : Grows d d') : Tracked d' := by
  cases hgrows with
  | plain hevolves => exact h.evolve hevolves
  | issued hevolves hissues => exact (h.evolve hevolves).issue hissues

section Operations

theorem Tracked.evolves_of_eq (h : Tracked d)
    (hlisteners : d'.stack.listeners = d.stack.listeners) (htickets : d'.ticket? = d.ticket?)
    (hroom : d'.stack.nextRoom = d.stack.nextRoom)
    (hleaves : ∀ id, d.Leaves id → d'.Leaves id ∨ d'.Interrupted id)
    (hinterrupted : ∀ id, d.Interrupted id → d'.Interrupted id) : Evolves d d' where
  tickets := htickets
  nextRoom := Nat.le_of_eq hroom.symm
  nextToken := Nat.le_of_eq (congrArg Listeners.nextToken hlisteners.symm)
  filed := hlisteners ▸ h.filed
  held hheld := .inl (hlisteners ▸ hheld)
  fresh hheld := .inl (hlisteners ▸ hheld)
  leaves := hleaves _
  interrupted := hinterrupted _

theorem Retains.evolves (hr : Retains d d') (h : Tracked d)
    (htasks : ∀ t room listener, d.tasks.get? t = some (.dismiss room listener) →
      d'.tasks.get? t = some (.dismiss room listener)) : Evolves d d' :=
  h.evolves_of_eq hr.listeners (hr.tickets h.placed) hr.nextRoom
    (fun _ ⟨t, room, hat⟩ => .inl ⟨t, room, htasks t room _ hat⟩) fun _ => hr.interrupted

/-- The registries change, and whoever loses a registration is told, or will be. -/
theorem Tracked.evolves_of_apply (h : Tracked d) (operation : Listeners.Operation Listener)
    (hlisteners : d'.stack.listeners = (d.stack.listeners.apply operation).1)
    (htickets : d'.ticket? = d.ticket?) (hroom : d.stack.nextRoom ≤ d'.stack.nextRoom)
    (hleaves : ∀ id, d.Leaves id → d'.Leaves id)
    (hinterrupted : ∀ id, d.Interrupted id → d'.Interrupted id)
    (hgone : ∀ e ∈ d.stack.listeners.removedBy operation, ∀ id, e.listener = .waiter id →
      d'.Leaves id ∨ d'.Interrupted id) : Evolves d d' where
  tickets := htickets
  nextRoom := hroom
  nextToken := hlisteners ▸ Listeners.nextToken_apply _ operation
  filed := hlisteners ▸ h.filed.apply operation
  held {cls e} hheld := by
    by_cases hkept : (d.stack.listeners.apply operation).1.Holds cls e
    · exact .inl (hlisteners ▸ hkept)
    · exact .inr (hgone e ((Listeners.mem_removedBy_iff h.filed).2 ⟨cls, hheld, hkept⟩))
  fresh hheld := (Listeners.holds_of_apply h.filed (hlisteners ▸ hheld)).imp_right
    fun htoken => Nat.le_of_eq htoken.symm
  leaves hold := .inl (hleaves _ hold)
  interrupted := hinterrupted _

theorem Tracked.evolves_enrol (h : Tracked d) (call : Enrolment) :
    Evolves d (d.setStack (d.stack.enrol call)) := by
  have henrols := d.stack.enrols call
  have hint : ∀ id, (d.Interrupted id ∨
      .waiter id ∈ (d.stack.withdrawn call).map (·.listener)) →
      (d.setStack (d.stack.enrol call)).Interrupted id := fun id hid => by
    exact henrols.audience.interrupted hid
  refine h.evolves_of_apply (call.operation d.stack.pool) henrols.listeners rfl ?_
    (fun _ hleaves => hleaves) (fun id hold => hint id (.inl hold)) fun e he id hlistener => ?_
  · exact Nat.le_of_eq henrols.nextRoom.symm
  · rw [← Stack.withdrawn_eq] at he
    exact .inr (hint id (.inr (List.mem_map.2 ⟨e, he, hlistener⟩)))

theorem Tracked.evolves_withdraw (h : Tracked d) {room : RoomId} {app : String} {token : Nat}
    {e : Registration Listener} {stack : Stack τ}
    (hat : d.tasks.get? t = some (.withdraw room app cls token))
    (hwithdraw : d.stack.withdraw app cls (some token) = (.ok e, stack)) :
    Evolves d ((d.setStack stack).setTask t (.dismiss room e.listener)) := by
  obtain rfl : (d.stack.withdraw app cls (some token)).2 = stack := by rw [hwithdraw]
  have hremoved : (d.stack.listeners.unregister app cls (some token)).1 = .ok e :=
    congrArg Prod.fst hwithdraw
  refine h.evolves_of_apply (.unregister app cls (some token)) rfl rfl (Nat.le_refl _)
    (fun id => ?_) (fun _ hold => hold) fun e' he' id hlistener => ?_
  · rintro ⟨u, room', hleaves⟩
    refine ⟨u, room', ?_⟩
    have hu : t ≠ u := by
      rintro rfl
      cases hat.symm.trans hleaves
    rw [setTask, Table.get?_put_ne _ _ hu]
    exact hleaves
  · rw [Listeners.removedBy, hremoved] at he'
    obtain rfl : e' = e := by simpa [Except.toOption] using he'
    exact .inl ⟨t, room, by rw [setTask, Table.get?_put_self, hlistener]⟩

theorem Tracked.evolves_dismiss (h : Tracked d) {room : RoomId} {listener : Listener}
    (hat : d.tasks.get? t = some (.dismiss room listener)) :
    Evolves d ((d.setStack (d.stack.dismiss listener)).setTask t (.interruptRoom room)) := by
  refine h.evolves_of_eq rfl rfl rfl (fun id => ?_)
    fun id hint => Audience.interrupted_dismiss listener (.inl hint)
  rintro ⟨u, room', hleaves⟩
  by_cases hu : t = u
  · subst hu
    cases hat.symm.trans hleaves
    exact .inr (Audience.interrupted_dismiss _ (.inr rfl))
  · refine .inl ⟨u, room', ?_⟩
    rw [setTask, Table.get?_put_ne _ _ hu]
    exact hleaves

theorem Tracked.evolves_advance (h : Tracked d) (t : τ) : Evolves d (d.advance t) := by
  have hadvances := d.advances t
  generalize d.advance t = d' at hadvances
  cases hadvances with
  | works hdraws hretains hothers hdismiss =>
    refine hretains.evolves h fun u room listener hat => ?_
    by_cases hu : u = t
    · subst hu
      exact hdismiss room listener hat
    · rw [hothers u hu]
      exact hat
  | withdraws hat hwithdraw => exact h.evolves_withdraw hat hwithdraw
  | dismisses hat => exact h.evolves_dismiss hat

theorem retains_dispatch (d : Device τ) (m : Message) :
    Retains d (d.setStack (d.stack.dispatch m).2) := by
  refine ⟨?_, ?_, Stack.dispatch_preserves fun listener info a =>
    Audience.interrupted_tell listener info a, fun _ => rfl⟩
  · simp only [setStack, Stack.dispatch, Router.dispatch_eq]
    split <;> rfl
  · simp only [setStack, Stack.dispatch]

theorem retains_datagram (d : Device τ) (now : Time) (source : SocketAddress) (bytes : Text.Bytes) :
    Retains d (d.setStack (d.stack.onDatagram now source bytes).2) := by
  unfold Stack.onDatagram
  rcases d.stack.assembler.onFragment now source bytes with ⟨result, assembler⟩
  cases result with
  | error e => exact retains_of_eq rfl rfl rfl fun _ => rfl
  | ok progress =>
    cases progress with
    | more request => exact retains_of_eq rfl rfl rfl fun _ => rfl
    | complete m =>
      have hdispatched := retains_dispatch (d.setStack { d.stack with assembler }) m
      exact ⟨hdispatched.listeners, hdispatched.nextRoom, hdispatched.interrupted, fun _ => rfl⟩

theorem retains_start (d : Device τ) (t : τ) (request : Request) :
    Retains d (d.apply (.start t request)) := by
  simp only [apply]
  split <;> exact retains_of_eq rfl rfl rfl fun _ => rfl

theorem retains_expire (d : Device τ) (t : τ) : Retains d (d.expire t) := by
  unfold expire
  split
  · exact retains_setRoom rfl rfl rfl fun hint => (WaitRoom.expire_interrupted _ t).trans hint
  · exact retains_of_eq rfl rfl rfl fun _ => rfl

/-- Only a thread's own steps and calls change where it stands. -/
theorem get?_tasks_apply (d : Device τ) (operation : Operation τ) (hsteps : operation ≠ .advance t)
    (hstarts : ∀ request, operation ≠ .start t request) :
    (d.apply operation).tasks.get? t = d.tasks.get? t := by
  cases operation with
  | start u request =>
    have hu : u ≠ t := fun hsame => hstarts request (hsame ▸ rfl)
    simp only [apply]
    split
    · exact Table.get?_put_ne _ _ hu
    · rfl
  | advance u =>
    have hu : u ≠ t := fun hsame => hsteps (hsame ▸ rfl)
    have hadvances := d.advances u
    rw [apply]
    generalize d.advance u = d' at hadvances
    cases hadvances with
    | works hdraws hretains hothers => exact hothers t (Ne.symm hu)
    | withdraws => exact Table.get?_put_ne _ _ hu
    | dismisses => exact Table.get?_put_ne _ _ hu
  | connect app suite =>
    simp only [apply, connect]
    split <;> rfl
  | registerPush app suite filter =>
    simp only [apply, registerPush]
    split <;> rfl
  | expire u =>
    simp only [apply, expire]
    split <;> rfl
  | report i status =>
    simp only [apply, report]
    split <;> rfl
  | _ => rfl

theorem Tracked.unused (h : Tracked d) (cls : ListenerClass) :
    d.ticket? ⟨d.stack.nextRoom⟩ cls = none := by
  cases hticket : d.ticket? ⟨d.stack.nextRoom⟩ cls with
  | none => rfl
  | some k => exact absurd (h.below hticket).1 (Nat.lt_irrefl _)

theorem Tracked.evolves_listen (h : Tracked d) {app : String} {suite : Suite}
    {filter : Option SenderFilter} {result : Except StackError Nat} {stack : Stack τ}
    (hlisten : d.stack.newRoom.2.listen cls app suite (.waiter d.stack.newRoom.1) filter =
      (result, stack)) (sends : SendRoom τ) : Evolves d (d.setStack { stack with sends }) := by
  obtain rfl : (d.stack.newRoom.2.listen cls app suite (.waiter d.stack.newRoom.1) filter).2 =
    stack := by rw [hlisten]
  exact h.evolves_of_apply (.register cls app suite (.waiter d.stack.newRoom.1) filter) rfl rfl
    (Nat.le_succ _) (fun _ hleaves => hleaves) (fun _ hint => hint) (fun e he => by cases he)

theorem Tracked.grows_listen (h : Tracked d) {app : String} {suite : Suite}
    {filter : Option SenderFilter} {token : Nat} {stack : Stack τ}
    (hlisten : d.stack.newRoom.2.listen cls app suite (.waiter d.stack.newRoom.1) filter =
      (.ok token, stack)) {sends : SendRoom τ} (hstack : d'.stack = { stack with sends })
    (htasks : d'.tasks = d.tasks)
    (htickets : ∀ id cls', d'.ticket? id cls' = if d.stack.newRoom.1 = id ∧ cls = cls' then
      some ⟨d.stack.newRoom.1, app, token⟩ else d.ticket? id cls') : Grows d d' := by
  obtain ⟨hheld, htoken⟩ := Stack.holds_of_listen hlisten
  have hroom : stack.nextRoom = d.stack.nextRoom + 1 := by
    rw [show stack = (d.stack.newRoom.2.listen cls app suite (.waiter d.stack.newRoom.1)
      filter).2 by rw [hlisten]]
    rfl
  refine .issued (k := ⟨d.stack.newRoom.1, app, token⟩) (h.evolves_listen hlisten sends)
    ⟨hstack, htasks, htickets, h.unused, ?_, htoken, ⟨_, hheld, rfl, rfl, rfl⟩⟩
  exact Nat.lt_of_lt_of_eq (Nat.lt_succ_self _) hroom.symm

theorem Tracked.grows_connect (h : Tracked d) (app : String) (suite : Suite) :
    Grows d (d.connect app suite) := by
  simp only [connect, Stack.connect]
  rcases hlisten : d.stack.newRoom.2.listen .midlet app suite (.waiter d.stack.newRoom.1) none with
    ⟨error | token, stack⟩
  · exact .plain (h.evolves_listen hlisten stack.sends)
  · refine h.grows_listen hlisten rfl rfl fun id cls => ?_
    cases cls with
    | push => simp [ticket?, setConnection]
    | midlet =>
      simp only [ticket?, setConnection, Table.get?_put, and_true]
      split <;> rfl

theorem Tracked.grows_registerPush (h : Tracked d) (app : String) (suite : Suite)
    (filter : Option SenderFilter) : Grows d (d.registerPush app suite filter) := by
  simp only [registerPush, Stack.registerPush]
  rcases hlisten : d.stack.newRoom.2.listen .push app suite (.waiter d.stack.newRoom.1) filter with
    ⟨error | token, stack⟩
  · exact .plain (h.evolves_listen hlisten stack.sends)
  · have hstack : stack = { stack with sends := stack.sends } := rfl
    refine h.grows_listen hlisten hstack rfl fun id cls => ?_
    cases cls with
    | midlet => simp [ticket?, setPush]
    | push =>
      simp only [ticket?, setPush, Table.get?_put, and_true]
      split <;> rfl

theorem Tracked.evolves_start (h : Tracked d) (t : τ) (request : Request) :
    Evolves d (d.apply (.start t request)) := by
  refine (d.retains_start t request).evolves h fun u room listener hat => ?_
  simp only [apply]
  split
  · rename_i hfree
    have hu : t ≠ u := by
      rintro rfl
      rw [hat] at hfree
      cases hfree
    rw [start, setTask, Table.get?_put_ne _ _ hu]
    exact hat
  · exact hat

/-- An operation leaves every handle what it has, or sees that its wait room gets to know. -/
theorem Tracked.grows (h : Tracked d) (operation : Operation τ) :
    Grows d (d.apply operation) := by
  cases operation with
  | connect app suite => exact h.grows_connect app suite
  | registerPush app suite filter => exact h.grows_registerPush app suite filter
  | enrol call => exact .plain (h.evolves_enrol call)
  | dispatch m => exact .plain ((d.retains_dispatch m).evolves h fun _ _ _ hat => hat)
  | datagram now source bytes =>
    exact .plain ((d.retains_datagram now source bytes).evolves h fun _ _ _ hat => hat)
  | start t request => exact .plain (h.evolves_start t request)
  | advance t => exact .plain (h.evolves_advance t)
  | expire t =>
    refine .plain ((d.retains_expire t).evolves h fun u room listener hat => ?_)
    rwa [← d.get?_tasks_apply (.expire t) nofun nofun] at hat
  | report i status =>
    refine .plain ((d.retains_report i status).evolves h fun u room listener hat => ?_)
    rwa [← d.get?_tasks_apply (.report i status) nofun nofun] at hat
  | _ =>
    refine .plain (Retains.evolves ?_ h fun _ _ _ hat => hat)
    exact retains_of_eq rfl rfl rfl fun _ => rfl

theorem Tracked.run (h : Tracked d) (operations : List (Operation τ)) :
    Tracked (d.run operations) := by
  induction operations generalizing d with
  | nil => exact h
  | cons operation operations ih => exact ih (h.grow (h.grows operation))

theorem tracked_new {config : Config} {stack : Stack τ} (hnew : Stack.new config = .ok stack) :
    Tracked { stack } := by
  unfold Stack.new at hnew
  split at hnew
  · cases hnew
  · cases hnew
    refine ⟨Listeners.filed_empty, fun id cls k hticket => ?_, fun {id cls k} hticket => ?_,
      fun {id cls cls' k k'} hticket => ?_, fun {id cls k} hticket => ?_⟩ <;>
      cases cls <;> cases hticket

end Operations

end Device

end MultimediaMessaging
