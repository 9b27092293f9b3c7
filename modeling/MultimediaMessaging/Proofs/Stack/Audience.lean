import MultimediaMessaging.Proofs.Stack.Traffic
import MultimediaMessaging.Proofs.Waiting.Room

/-!
What listeners and threads leave of the audience of a stack. Those whose registrations are gone are
told, each in its way, and nobody else is; a wait room that is interrupted stays interrupted,
whoever is told of a message or of the end of a registration.
-/

set_option autoImplicit false

namespace MultimediaMessaging

/-- Everybody who sleeps in the room is called out of it, and nobody sleeps in it again. -/
structure WaitRoom.Ended {τ : Type} (room room' : WaitRoom τ) : Prop where
  queue : room'.queue = { room.queue with interrupted := true }
  parked : room'.parked = if room.queue.interrupted then room.parked else []
  roused : room'.roused =
    if room.queue.interrupted then room.roused else room.roused ++ room.parked.map (·, false)

def Listener.notice? : Listener → Option Call
  | .waiter _ => none
  | .observer o => some (.unregistered o.name)

/-- What becomes of an audience when the registrations of `gone` are: each observer is called once,
and the rooms of the others are ended. -/
structure Audience.Dismisses {τ : Type} (gone : List Listener) (a a' : Audience τ) : Prop where
  calls : a'.calls = a.calls ++ gone.filterMap Listener.notice?
  ended (id : RoomId) : .waiter id ∈ gone → (a.room id).Ended (a'.room id)
  others (id : RoomId) : .waiter id ∉ gone → a'.room id = a.room id

namespace WaitRoom

variable {τ : Type} {room room' last : WaitRoom τ}

theorem Ended.trans (h : room.Ended room') (h' : room'.Ended last) : room.Ended last := by
  have hint : room'.queue.interrupted = true := by rw [h.queue]
  refine ⟨by rw [h'.queue, h.queue], ?_, ?_⟩
  · rw [h'.parked, if_pos hint, h.parked]
  · rw [h'.roused, if_pos hint, h.roused]

theorem ended_interrupt (room : WaitRoom τ) : room.Ended room.interrupt := by
  unfold WaitRoom.interrupt
  split
  · rename_i hint
    exact ⟨by rw [← hint], by rw [if_pos hint], by rw [if_pos hint]⟩
  · rename_i hawake
    exact ⟨rfl, by rw [if_neg hawake], by rw [if_neg hawake]⟩

end WaitRoom

namespace Audience

variable {τ : Type} {a a' last : Audience τ} {gone gone' : List Listener} {id other : RoomId}

theorem Dismisses.trans (h : Dismisses gone a a') (h' : Dismisses gone' a' last) :
    Dismisses (gone ++ gone') a last where
  calls := by rw [h'.calls, h.calls, List.filterMap_append, List.append_assoc]
  ended id hmem := by
    by_cases hfirst : Listener.waiter id ∈ gone
    · by_cases hlater : Listener.waiter id ∈ gone'
      · exact (h.ended id hfirst).trans (h'.ended id hlater)
      · exact h'.others id hlater ▸ h.ended id hfirst
    · have hlater := (List.mem_append.1 hmem).resolve_left hfirst
      exact h.others id hfirst ▸ h'.ended id hlater
  others id hnot := by
    rw [List.mem_append, not_or] at hnot
    rw [h'.others id hnot.2, h.others id hnot.1]

theorem Dismisses.interrupted (h : Dismisses gone a a')
    (hint : (a.room other).queue.interrupted = true ∨ .waiter other ∈ gone) :
    (a'.room other).queue.interrupted = true := by
  by_cases hmem : Listener.waiter other ∈ gone
  · rw [(h.ended other hmem).queue]
  · rw [h.others other hmem]
    exact hint.resolve_right hmem

theorem interrupted_setRoom {room' : WaitRoom τ}
    (h : (a.room id).queue.interrupted = true → room'.queue.interrupted = true)
    (hint : (a.room other).queue.interrupted = true) :
    ((a.setRoom id room').room other).queue.interrupted = true := by
  by_cases hid : id = other
  · subst hid
    rw [room_setRoom_self]
    exact h hint
  · rwa [room_setRoom_ne _ _ hid]

variable [DecidableEq τ]

theorem interrupted_tell (listener : Listener) (info : Message.Info) (a : Audience τ)
    (hint : (a.room other).queue.interrupted = true) :
    ((a.tell listener info).2.room other).queue.interrupted = true := by
  cases listener with
  | waiter id =>
    exact interrupted_setRoom (fun hint => (WaitRoom.wakeOne_interrupted _).trans hint) hint
  | observer o => exact hint

theorem dismisses_dismiss (a : Audience τ) (listener : Listener) :
    Dismisses [listener] a (a.dismiss listener) where
  calls := by
    cases listener with
    | waiter id => exact (List.append_nil _).symm
    | observer o => rfl
  ended id hmem := by
    obtain rfl := List.mem_singleton.1 hmem
    rw [dismiss, interrupt, room_setRoom_self]
    exact WaitRoom.ended_interrupt _
  others id hnot := by
    cases listener with
    | observer o => rfl
    | waiter other =>
      refine room_setRoom_ne a _ ?_
      rintro rfl
      exact hnot List.mem_cons_self

theorem dismisses_foldl (listeners : List Listener) (a : Audience τ) :
    Dismisses listeners a (listeners.foldl dismiss a) := by
  induction listeners generalizing a with
  | nil => exact ⟨(List.append_nil _).symm, fun _ hmem => by simp at hmem, fun _ _ => rfl⟩
  | cons listener listeners ih => exact (a.dismisses_dismiss listener).trans (ih _)

theorem interrupted_dismiss (listener : Listener)
    (h : (a.room other).queue.interrupted = true ∨ listener = .waiter other) :
    ((a.dismiss listener).room other).queue.interrupted = true :=
  (a.dismisses_dismiss listener).interrupted
    (h.imp_right fun hsame => List.mem_singleton.2 hsame.symm)

end Audience

/-- What telling a listener preserves, the dispatch of a message preserves. -/
theorem Stack.dispatch_preserves {τ : Type} [DecidableEq τ] {s : Stack τ} {m : Message}
    {P : Audience τ → Prop}
    (htell : ∀ listener info audience, P audience → P (Audience.tell listener info audience).2)
    (h : P s.audience) : P (s.dispatch m).2.audience := by
  have hask {s told : Stack τ} {found : Option (Registration Listener)} {claimed : Bool}
      (hask : s.ask m found = (claimed, told)) (h : P s.audience) : P told.audience := by
    cases found with
    | none =>
      cases hask
      exact h
    | some e =>
      cases hask
      exact htell e.listener m.info s.audience h
  have hdispatched := s.dispatched m
  generalize s.dispatch m = result at hdispatched
  cases hdispatched with
  | discarded => exact h
  | @claimed told hheard hconnection =>
    have htold : P told.audience := hask hconnection h
    exact htold
  | @pushed told last hheard hconnection hpush =>
    have hlast : P last.audience := hask hpush (hask hconnection h)
    exact hlast
  | @pooled told last hheard hconnection hpush =>
    have hlast : P last.audience := hask hpush (hask hconnection h)
    exact hlast

end MultimediaMessaging
