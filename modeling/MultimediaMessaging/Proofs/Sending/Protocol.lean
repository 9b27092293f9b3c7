import Mathlib.Data.List.Induction
import Mathlib.Data.List.Perm.Basic
import MultimediaMessaging.Proofs.Sending.Room

/-!
Many threads at one send room, which begin, report, interrupt and wait in any order. Main statement:
no step touches another connection; of the sends of a connection each is reported once at most, one
wait is told of that, and all others are interrupted; and nobody sleeps who could have an outcome.
-/

set_option autoImplicit false

namespace MultimediaMessaging.SendRoom

variable {τ : Type}

def start (room : SendRoom τ) (h : ConnectionHandle) : Bool × SendRoom τ :=
  let (granted, tracker) := room.tracker.start h
  (granted, { room with tracker })

inductive Event (τ : Type) where
  | started (h : ConnectionHandle) (granted : Bool)
  | reported (h : ConnectionHandle) (status : SendStatus) (accepted : Bool)
  | interrupted (h : ConnectionHandle)
  | looked (t : τ) (h : ConnectionHandle) (result : Option (Except WaitError SendStatus))

namespace Event

def handle : Event τ → ConnectionHandle
  | started h _ => h
  | reported h _ _ => h
  | interrupted h => h
  | looked _ h _ => h

def accepted? (h : ConnectionHandle) : Event τ → Option SendStatus
  | reported h' status true => if h' = h then some status else none
  | _ => none

def returned? (h : ConnectionHandle) : Event τ → Option (Except WaitError SendStatus)
  | looked _ h' result => if h' = h then result else none
  | _ => none

end Event

def waiters (room : SendRoom τ) (h : ConnectionHandle) : List (τ × ConnectionHandle) :=
  (room.parked ++ room.roused).filter fun waiter => waiter.2 = h

/-- Nothing happens to `other`, or to those who wait for it. -/
structure Spares (room : SendRoom τ) (other : ConnectionHandle) (after : SendRoom τ) : Prop where
  slot : after.slot other = room.slot other
  waiters : (after.waiters other).Perm (room.waiters other)

inductive Effect (room after : SendRoom τ) : Event τ → Prop
  | begun {h : ConnectionHandle} (hbefore : room.slot h ≠ some .sending)
      (hafter : after.slot h = some .sending) : Effect room after (.started h true)
  | busy {h : ConnectionHandle} (hbefore : room.slot h = some .sending) (hafter : after = room) :
      Effect room after (.started h false)
  | done {h : ConnectionHandle} {status : SendStatus} (hbefore : room.slot h = some .sending)
      (hafter : after.slot h = some (.done status)) : Effect room after (.reported h status true)
  | ignored {h : ConnectionHandle} {status : SendStatus} (hbefore : room.slot h ≠ some .sending)
      (hafter : after = room) : Effect room after (.reported h status false)
  | stopped {h : ConnectionHandle} (hbefore : room.slot h = some .sending)
      (hafter : after.slot h = some .interrupted) : Effect room after (.interrupted h)
  | unmoved {h : ConnectionHandle} (hbefore : room.slot h ≠ some .sending) (hafter : after = room) :
      Effect room after (.interrupted h)
  | looked {t : τ} {h : ConnectionHandle} {result : Option (Except WaitError SendStatus)}
      (hfetches : Fetches (room.slot h) (after.slot h) result) :
      Effect room after (.looked t h result)

def Attended (room : SendRoom τ) : Prop :=
  ∀ waiter ∈ room.parked, room.slot waiter.2 = some .sending

variable [DecidableEq τ] {room after : SendRoom τ} {h other : ConnectionHandle} {t : τ}
  {event : Event τ} {history stretch : List (Event τ)} {state : SendState}

/-- Threads take their steps one at a time, and a thread that was roused when it can. -/
inductive Step (room : SendRoom τ) : Event τ → SendRoom τ → Prop
  | start (h : ConnectionHandle) : Step room (.started h (room.start h).1) (room.start h).2
  | report (h : ConnectionHandle) (status : SendStatus) :
      Step room (.reported h status (room.complete h status).1) (room.complete h status).2
  | interrupt (h : ConnectionHandle) : Step room (.interrupted h) (room.interrupt h)
  | wait (t : τ) (h : ConnectionHandle) :
      Step room (.looked t h (room.look t h).1) (room.look t h).2
  | resume {t : τ} {h : ConnectionHandle} (hroused : (t, h) ∈ room.roused) :
      Step room (.looked t h (room.resume t h).1) (room.resume t h).2

inductive Run : List (Event τ) → SendRoom τ → Prop
  | nil : Run [] {}
  | concat {history : List (Event τ)} {room after : SendRoom τ} {event : Event τ}
      (run : Run history room) (step : room.Step event after) : Run (history ++ [event]) after

section Operations

omit [DecidableEq τ]

theorem start_of_sending (hslot : room.slot h = some .sending) : room.start h = (false, room) := by
  simp [start, SendTracker.start, isSending_iff_slot.2 hslot]

theorem start_of_ne (hslot : room.slot h ≠ some .sending) :
    room.start h = (true, { room with
      tracker := { room.tracker with slots := room.tracker.slots.put h .sending } }) := by
  simp [start, SendTracker.start, mt isSending_iff_slot.1 hslot]

theorem finish_fst_of_sending (hslot : room.slot h = some .sending) (state : SendState) :
    (room.finish h state).1 = true := by
  simp [finish, SendTracker.finish, isSending_iff_slot.2 hslot]

theorem finish_fst_of_ne (hslot : room.slot h ≠ some .sending) (state : SendState) :
    (room.finish h state).1 = false := by
  simp [finish, SendTracker.finish, mt isSending_iff_slot.1 hslot]

theorem inert_of_ne (hslot : room.slot h ≠ some .sending) :
    room.interrupt h = room ∧ ∀ status, room.complete h status = (false, room) :=
  ⟨finish_of_ne hslot _,
    fun _ => Prod.ext (finish_fst_of_ne hslot _) (finish_of_ne hslot _)⟩

theorem effect_start (room : SendRoom τ) (h : ConnectionHandle) :
    Effect room (room.start h).2 (.started h (room.start h).1) := by
  by_cases hslot : room.slot h = some .sending
  · rw [start_of_sending hslot]
    exact .busy hslot rfl
  · rw [start_of_ne hslot]
    exact .begun hslot (Table.get?_put_self _ _ _)

theorem effect_complete (room : SendRoom τ) (h : ConnectionHandle) (status : SendStatus) :
    Effect room (room.complete h status).2 (.reported h status (room.complete h status).1) := by
  by_cases hslot : room.slot h = some .sending
  · rw [complete, finish_fst_of_sending hslot]
    exact .done hslot (by rw [slot_finish, if_pos hslot])
  · rw [(inert_of_ne hslot).2]
    exact .ignored hslot rfl

theorem effect_interrupt (room : SendRoom τ) (h : ConnectionHandle) :
    Effect room (room.interrupt h) (.interrupted h) := by
  by_cases hslot : room.slot h = some .sending
  · exact .stopped hslot (by rw [interrupt, slot_finish, if_pos hslot])
  · exact .unmoved hslot (inert_of_ne hslot).1

theorem spares_start (room : SendRoom τ) (hne : h ≠ other) :
    room.Spares other (room.start h).2 := by
  by_cases hslot : room.slot h = some .sending
  · rw [start_of_sending hslot]
    exact ⟨rfl, .refl _⟩
  · rw [start_of_ne hslot]
    exact ⟨Table.get?_put_ne _ _ hne, .refl _⟩

/-- Those who wait for something else are roused too, but they still wait. -/
theorem spares_finish (room : SendRoom τ) (hne : h ≠ other) (state : SendState) :
    room.Spares other (room.finish h state).2 := by
  by_cases hslot : room.slot h = some .sending
  · have hall : (room.roused ++ room.parked).Perm (room.parked ++ room.roused) :=
      List.perm_append_comm
    rw [finish_of_sending hslot]
    exact ⟨Table.get?_put_ne _ _ hne, hall.filter _⟩
  · rw [finish_of_ne hslot]
    exact ⟨rfl, .refl _⟩

theorem spares_forget (room : SendRoom τ) (hne : h ≠ other) : room.Spares other (room.forget h) :=
  ⟨Table.get?_erase_ne _ hne, .refl _⟩

theorem spares_look (room : SendRoom τ) (t : τ) (hne : h ≠ other) :
    room.Spares other (room.look t h).2 := by
  rw [look_eq]
  split
  · refine ⟨rfl, ?_⟩
    simp [waiters, hne]
  · exact spares_forget room hne
  · exact spares_forget room hne
  · exact spares_forget room hne

end Operations

/-- Whoever goes back to sleep is one of the threads as before. -/
theorem perm_of_roused (hroused : (t, h) ∈ room.roused) :
    (room.parked ++ [(t, h)] ++ room.roused.erase (t, h)).Perm (room.parked ++ room.roused) := by
  rw [List.append_assoc, List.singleton_append]
  exact (List.perm_cons_erase hroused).symm.append_left _

theorem spares_resume (hroused : (t, h) ∈ room.roused) (hne : h ≠ other) :
    room.Spares other (room.resume t h).2 := by
  have hlook := spares_look { room with roused := room.roused.erase (t, h) } t hne
  have hrest := (perm_of_roused hroused).filter fun waiter => waiter.2 = other
  simp only [List.filter_append, List.filter_singleton, hne, decide_false, Bool.cond_false,
    List.append_nil] at hrest
  refine ⟨hlook.slot, hlook.waiters.trans ?_⟩
  rwa [waiters, waiters, List.filter_append, List.filter_append]

/-- A thread that is roused for nothing goes back to sleep. -/
theorem resume_of_sending (hroused : (t, h) ∈ room.roused) (hslot : room.slot h = some .sending) :
    (room.resume t h).1 = none ∧ room.Spares h (room.resume t h).2 := by
  have hlook : room.resume t h = (none, { room with
      roused := room.roused.erase (t, h), parked := room.parked ++ [(t, h)] }) := by
    rw [slot] at hslot
    rw [resume, look_eq, slot, hslot]
  rw [hlook]
  exact ⟨rfl, rfl, (perm_of_roused hroused).filter _⟩

theorem Step.spares (hstep : room.Step event after) (hne : event.handle ≠ other) :
    room.Spares other after := by
  cases hstep with
  | start h => exact spares_start room hne
  | report h status => exact spares_finish room hne _
  | interrupt h => exact spares_finish room hne _
  | wait t h => exact spares_look room t hne
  | resume hroused => exact spares_resume hroused hne

theorem Step.effect (hstep : room.Step event after) : Effect room after event := by
  cases hstep with
  | start h => exact effect_start room h
  | report h status => exact effect_complete room h status
  | interrupt h => exact effect_interrupt room h
  | wait t h => exact .looked (fetches_look room t h)
  | resume hroused => exact .looked (fetches_resume room _ _)

section Attended

omit [DecidableEq τ] in
theorem Attended.finish (ha : room.Attended) (h : ConnectionHandle) (state : SendState) :
    (room.finish h state).2.Attended := by
  by_cases hslot : room.slot h = some .sending
  · rw [finish_of_sending hslot]
    exact nofun
  · rwa [finish_of_ne hslot]

omit [DecidableEq τ] in
theorem Attended.start (ha : room.Attended) (h : ConnectionHandle) :
    (room.start h).2.Attended := by
  by_cases hslot : room.slot h = some .sending
  · rwa [start_of_sending hslot]
  · intro waiter hparked
    rw [start_of_ne hslot] at hparked
    have hsending := ha waiter hparked
    have hne : h ≠ waiter.2 := fun hsame => hslot (hsame ▸ hsending)
    rw [(spares_start room hne).slot, hsending]

omit [DecidableEq τ] in
theorem Attended.forget (ha : room.Attended) (hslot : room.slot h ≠ some .sending) :
    (room.forget h).Attended := by
  intro waiter hparked
  have hsending := ha waiter hparked
  have hne : h ≠ waiter.2 := fun hsame => hslot (hsame ▸ hsending)
  rw [(spares_forget room hne).slot, hsending]

omit [DecidableEq τ] in
theorem Attended.look (ha : room.Attended) (t : τ) (h : ConnectionHandle) :
    (room.look t h).2.Attended := by
  rw [look_eq]
  split
  · exact List.forall_mem_append.2 ⟨ha, List.forall_mem_singleton.2 ‹_›⟩
  · exact ha.forget (by simp_all)
  · exact ha.forget (by simp_all)
  · exact ha.forget (by simp_all)

theorem Attended.step (ha : room.Attended) (hstep : room.Step event after) : after.Attended := by
  cases hstep with
  | start h => exact ha.start h
  | report h status => exact ha.finish h _
  | interrupt h => exact ha.finish h _
  | wait t h => exact ha.look t h
  | @resume t h hroused =>
    have hrest : Attended { room with roused := room.roused.erase (t, h) } := ha
    exact hrest.look t h

theorem Run.attended (hrun : Run history room) : room.Attended := by
  induction hrun with
  | nil => exact nofun
  | concat run step ih => exact ih.step step

end Attended

/-- `stretch` is what happened since a send of `h` began, or since the start of all. -/
structure Period (h : ConnectionHandle) (earlier stretch : List (Event τ)) : Prop where
  begun : ∀ last ∈ earlier.getLast?, last = .started h true
  same : .started h true ∉ stretch

/-- What was reported and returned while no send began: one report at most, which only the first
wait is told of. -/
structure Account (accepted : List SendStatus) (returned : List (Except WaitError SendStatus)) :
    Prop where
  length_le : accepted.length ≤ 1
  returned : (∀ result ∈ returned, result = .error .interrupted) ∨
    ∃ status later, accepted = [status] ∧ returned = .ok status :: later ∧
      ∀ result ∈ later, result = .error .interrupted

/-- How the slot of a connection fits what was reported and returned since its send began. -/
inductive Phase : Option SendState → List SendStatus → List (Except WaitError SendStatus) → Prop
  | sending : Phase (some .sending) [] []
  | done (status : SendStatus) : Phase (some (.done status)) [status] []
  | interrupted : Phase (some .interrupted) [] []
  | released {returned : List (Except WaitError SendStatus)}
      (hreturned : ∀ result ∈ returned, result = .error .interrupted) : Phase none [] returned
  | fetched (status : SendStatus) {later : List (Except WaitError SendStatus)}
      (hlater : ∀ result ∈ later, result = .error .interrupted) :
      Phase none [status] (.ok status :: later)

section Phase

variable {slot slot' : Option SendState} {accepted : List SendStatus}
  {returned : List (Except WaitError SendStatus)} {earlier : List (Event τ)}

omit [DecidableEq τ]

theorem Phase.account (hphase : Phase slot accepted returned) : Account accepted returned := by
  cases hphase with
  | sending => exact ⟨Nat.zero_le _, .inl nofun⟩
  | done status => exact ⟨Nat.le_refl _, .inl nofun⟩
  | interrupted => exact ⟨Nat.zero_le _, .inl nofun⟩
  | released hreturned => exact ⟨Nat.zero_le _, .inl hreturned⟩
  | fetched status hlater => exact ⟨Nat.le_refl _, .inr ⟨status, _, rfl, rfl, hlater⟩⟩

theorem Phase.of_sending (hphase : Phase (some .sending) accepted returned) :
    accepted = [] ∧ returned = [] := by
  cases hphase
  exact ⟨rfl, rfl⟩

theorem Phase.look {result : Option (Except WaitError SendStatus)}
    (hphase : Phase slot accepted returned) (hfetches : Fetches slot slot' result) :
    Phase slot' accepted (returned ++ result.toList) := by
  cases hfetches with
  | waits hbefore hafter =>
    rw [Option.toList_none, List.append_nil, hafter, ← hbefore]
    exact hphase
  | told hbefore hafter =>
    subst hbefore hafter
    cases hphase
    exact .fetched _ nofun
  | released hbefore hafter =>
    subst hafter
    have hlast : ∀ result ∈ [Except.error (α := SendStatus) WaitError.interrupted],
        result = .error .interrupted := List.forall_mem_singleton.2 rfl
    rcases hbefore with rfl | rfl
    · cases hphase
      exact .released hlast
    · cases hphase with
      | released hreturned => exact .released (List.forall_mem_append.2 ⟨hreturned, hlast⟩)
      | fetched status hlater => exact .fetched status (List.forall_mem_append.2 ⟨hlater, hlast⟩)

theorem Event.accepted?_of_ne (hne : event.handle ≠ h) : event.accepted? h = none := by
  cases event with
  | reported h' status accepted => cases accepted <;> simp_all [accepted?, handle]
  | _ => rfl

theorem Event.returned?_of_ne (hne : event.handle ≠ h) : event.returned? h = none := by
  cases event with
  | looked t h' result => exact if_neg hne
  | _ => rfl

end Phase

section Run

variable {earlier : List (Event τ)}

theorem Step.phase {accepted : List SendStatus} {returned : List (Except WaitError SendStatus)}
    (hstep : room.Step event after) (hphase : Phase (room.slot h) accepted returned)
    (hsame : event ≠ .started h true) :
    Phase (after.slot h) (accepted ++ (event.accepted? h).toList)
      (returned ++ (event.returned? h).toList) := by
  by_cases hne : event.handle ≠ h
  · rw [(hstep.spares hne).slot, Event.accepted?_of_ne hne, Event.returned?_of_ne hne]
    simpa using hphase
  obtain rfl := not_ne_iff.1 hne
  cases hstep.effect with
  | begun hbefore hafter => exact absurd rfl hsame
  | busy hbefore hafter => simpa [Event.accepted?, Event.returned?, hafter] using hphase
  | @done h status hbefore hafter =>
    obtain ⟨rfl, rfl⟩ := (hbefore ▸ hphase : Phase (some .sending) _ _).of_sending
    simpa [Event.accepted?, Event.returned?, Event.handle, hafter] using Phase.done status
  | ignored hbefore hafter => simpa [Event.accepted?, Event.returned?, hafter] using hphase
  | @stopped h hbefore hafter =>
    obtain ⟨rfl, rfl⟩ := (hbefore ▸ hphase : Phase (some .sending) _ _).of_sending
    simpa [Event.accepted?, Event.returned?, Event.handle, hafter] using Phase.interrupted
  | unmoved hbefore hafter => simpa [Event.accepted?, Event.returned?, hafter] using hphase
  | looked hfetches =>
    simpa [Event.accepted?, Event.returned?, Event.handle] using hphase.look hfetches

theorem Step.slot_of_started (hstep : room.Step (.started h true) after) :
    after.slot h = some .sending := by
  cases hstep.effect with
  | begun hbefore hafter => exact hafter

omit [DecidableEq τ] in
theorem filterMap_concat {α : Type} (f : Event τ → Option α) (events : List (Event τ))
    (event : Event τ) :
    (events ++ [event]).filterMap f = events.filterMap f ++ (f event).toList := by
  cases hf : f event <;> simp [hf]

/-- At every point of a run the slot tells what happened since the send began. -/
theorem Run.phase (hrun : Run history room) (hhistory : history = earlier ++ stretch)
    (hperiod : Period h earlier stretch) :
    Phase (room.slot h) (stretch.filterMap (Event.accepted? h))
      (stretch.filterMap (Event.returned? h)) := by
  induction hrun generalizing stretch with
  | nil =>
    obtain ⟨-, rfl⟩ := List.append_eq_nil_iff.1 hhistory.symm
    exact .released nofun
  | @concat history room after event run step ih =>
    rcases List.eq_nil_or_concat' stretch with rfl | ⟨before, last, rfl⟩
    · -- The last step of all is the one by which the send began.
      rw [List.append_nil] at hhistory
      have hlast := hperiod.begun event (by rw [← hhistory, List.getLast?_concat]; rfl)
      rw [Step.slot_of_started (hlast ▸ step)]
      exact .sending
    · rw [← List.append_assoc] at hhistory
      obtain ⟨hbefore, hlast⟩ := List.append_inj' hhistory rfl
      obtain rfl := List.singleton_inj.1 hlast
      have hnotmem : .started h true ∉ before ∧ .started h true ≠ event := by
        simpa using hperiod.same
      have hphase := ih hbefore ⟨hperiod.begun, hnotmem.1⟩
      rw [filterMap_concat, filterMap_concat]
      exact step.phase hphase (Ne.symm hnotmem.2)

theorem Run.of_concat (hrun : Run (history ++ [event]) room) : ∃ before, Run history before := by
  generalize hall : history ++ [event] = all at hrun
  cases hrun with
  | nil => cases List.append_ne_nil_of_right_ne_nil _ (List.cons_ne_nil _ _) hall
  | concat run step =>
    obtain ⟨rfl, -⟩ := List.append_inj' hall rfl
    exact ⟨_, run⟩

theorem Run.of_append {later : List (Event τ)} (hrun : Run (history ++ later) room) :
    ∃ before, Run history before := by
  induction later using List.reverseRecOn generalizing room with
  | nil => exact ⟨room, by rwa [List.append_nil] at hrun⟩
  | append_singleton later event ih =>
    rw [← List.append_assoc] at hrun
    obtain ⟨before, hbefore⟩ := hrun.of_concat
    exact ih hbefore

/-- Rooms that come about by steps of any threads, for any connections. -/
theorem protocol_of_run (hrun : Run history room) :
    (∀ event after other, room.Step event after → event.handle ≠ other →
      room.Spares other after) ∧
    (∀ t h, (t, h) ∈ room.roused → room.slot h = some .sending →
      (room.resume t h).1 = none ∧ room.Spares h (room.resume t h).2) ∧
    (∀ h, room.slot h ≠ some .sending →
      room.interrupt h = room ∧ ∀ status, room.complete h status = (false, room)) ∧
    (∀ h earlier stretch later, history = earlier ++ stretch ++ later →
      Period h earlier stretch →
      Account (stretch.filterMap (Event.accepted? h)) (stretch.filterMap (Event.returned? h))) ∧
    ∀ t h, (t, h) ∈ room.parked → room.slot h = some .sending := by
  refine ⟨fun event after other hstep hne => hstep.spares hne, fun t h => resume_of_sending,
    fun h => inert_of_ne, ?_, fun t h => hrun.attended (t, h)⟩
  rintro h earlier stretch later rfl hperiod
  obtain ⟨before, hbefore⟩ := hrun.of_append
  exact (hbefore.phase rfl hperiod).account

end Run

section Crowd

/-- Two threads wait for a send, a third one for another, and the first send is reported. -/
def crowded : List (Event Nat) :=
  [.started ⟨1⟩ true, .started ⟨2⟩ true, .looked 0 ⟨1⟩ none, .looked 1 ⟨1⟩ none,
    .looked 2 ⟨2⟩ none, .reported ⟨1⟩ .sent true, .looked 1 ⟨1⟩ (some (.ok .sent)),
    .looked 0 ⟨1⟩ (some (.error .interrupted)), .looked 2 ⟨2⟩ none]

def crowdedRoom : SendRoom Nat :=
  { tracker := { slots := [(⟨2⟩, .sending)] }, parked := [(2, ⟨2⟩)] }

theorem run_crowded : Run crowded crowdedRoom := by
  have hbegun : Run (crowded.take 2) _ := (Run.nil.concat (.start ⟨1⟩)).concat (.start ⟨2⟩)
  have hasleep := ((hbegun.concat (.wait 0 ⟨1⟩)).concat (.wait 1 ⟨1⟩)).concat (.wait 2 ⟨2⟩)
  have hreported := hasleep.concat (.report ⟨1⟩ .sent)
  have htold := hreported.concat (.resume (t := 1) (h := ⟨1⟩) (by decide))
  have hreleased := htold.concat (.resume (t := 0) (h := ⟨1⟩) (by decide))
  exact hreleased.concat (.resume (t := 2) (h := ⟨2⟩) (by decide))

theorem protocol_of_run_crowded :
    crowded.tail.filterMap (Event.accepted? ⟨1⟩) = [.sent] ∧
      crowded.tail.filterMap (Event.returned? ⟨1⟩) = [.ok .sent, .error .interrupted] ∧
      Account (crowded.tail.filterMap (Event.accepted? ⟨1⟩))
        (crowded.tail.filterMap (Event.returned? ⟨1⟩)) ∧
      crowdedRoom.parked = [(2, ⟨2⟩)] ∧ crowdedRoom.slot ⟨2⟩ = some .sending := by
  obtain ⟨-, -, -, haccount, hparked⟩ := protocol_of_run run_crowded
  have hperiod : Period ⟨1⟩ [.started ⟨1⟩ true] crowded.tail :=
    ⟨fun last hlast => (Option.some.inj hlast).symm, by simp [crowded]⟩
  exact ⟨rfl, rfl, haccount ⟨1⟩ _ _ [] rfl hperiod, rfl,
    hparked 2 ⟨2⟩ (List.mem_singleton_self _)⟩

end Crowd

end MultimediaMessaging.SendRoom
