import Mathlib.Data.List.Perm.Basic
import MultimediaMessaging.Waiting.Room

/-!
What the counters of a wait room say about its threads, and why a thread that sleeps is owed
nothing: whatever it could have had, a thread that is roused or a wake that is due will fetch.
-/

set_option autoImplicit false

namespace MultimediaMessaging.WaitRoom

variable {τ σ α : Type} {room : WaitRoom τ} {t : τ} {timedOut : Bool} {available due : Nat}

/-- The threads between their first sleep and their last look. -/
def threads (room : WaitRoom τ) : List τ := room.parked ++ room.roused.map Prod.fst

/-- The counters count the threads: all of them, and of those roused at least all that were
woken. -/
structure Balanced (room : WaitRoom τ) : Prop where
  waiting : room.queue.waiting = room.parked.length + room.roused.length
  pending : room.queue.pendingWakes ≤ room.roused.length
  awake : room.queue.interrupted = true → room.parked = []

/-- While a thread sleeps, roused threads and wakes that are due suffice for all that is
available. -/
def Covered (room : WaitRoom τ) (available due : Nat) : Prop :=
  room.parked ≠ [] → available ≤ room.roused.length + due

theorem balanced_empty : Balanced ({} : WaitRoom τ) := ⟨rfl, Nat.le_refl 0, fun _ => rfl⟩

theorem Balanced.canWake (h : room.Balanced) (hparked : room.parked ≠ []) :
    room.queue.canWake = true := by
  have hlength := List.length_pos_iff.2 hparked
  have hwaiting := h.waiting
  have hpending := h.pending
  cases hinterrupted : room.queue.interrupted with
  | true => exact absurd (h.awake hinterrupted) hparked
  | false =>
    simp only [WaitQueue.canWake, hinterrupted, Bool.not_false, Bool.true_and, decide_eq_true_eq]
    omega

/-- A wake that reaches nobody new may still be counted, for a thread whose time is up. -/
theorem wakeOne_of_parked_nil (h : room.parked = []) :
    (room.wakeOne).2.parked = [] ∧ (room.wakeOne).2.roused = room.roused := by
  unfold wakeOne
  split <;> simp [h]

theorem Balanced.wakeOne_cons (h : room.Balanced) {rest : List τ}
    (hparked : room.parked = t :: rest) :
    room.wakeOne = (true,
      { queue := room.queue.wake, parked := rest, roused := room.roused ++ [(t, false)] }) := by
  rw [wakeOne, if_pos (h.canWake (by simp [hparked]))]
  simp [hparked]

theorem Balanced.wakeOne_nil (h : room.Balanced) (hparked : room.parked = [])
    (hroused : room.roused = []) : room.wakeOne = (false, room) := by
  have hwaiting := h.waiting
  simp only [hparked, hroused, List.length_nil] at hwaiting
  simp [WaitRoom.wakeOne, WaitQueue.canWake, hwaiting]

def afterWake (room : WaitRoom τ) (t : τ) (rest : List τ) : WaitRoom τ :=
  { queue := room.queue.wake, parked := rest, roused := [(t, false)] }

theorem Balanced.wakeOne (h : room.Balanced) : room.wakeOne.2.Balanced := by
  have hwaiting := h.waiting
  have hpending := h.pending
  unfold WaitRoom.wakeOne
  split
  · rename_i hcan
    simp only [WaitQueue.canWake, Bool.and_eq_true, Bool.not_eq_true', decide_eq_true_eq] at hcan
    cases hparked : room.parked with
    | nil =>
      simp only [hparked, List.length_nil] at hwaiting
      exact ⟨by simp [WaitQueue.wake, hwaiting], by simp [WaitQueue.wake]; omega, fun _ => rfl⟩
    | cons t rest =>
      simp only [hparked, List.length_cons] at hwaiting
      refine ⟨by simp [WaitQueue.wake]; omega, by simp [WaitQueue.wake]; omega, fun hint => ?_⟩
      exact absurd (hcan.1.symm.trans hint) (by simp)
  · exact h

theorem Covered.wakeOne (h : room.Balanced) (hc : room.Covered available (due + 1)) :
    room.wakeOne.2.Covered available due := by
  intro hparked
  cases hold : room.parked with
  | nil => exact absurd (wakeOne_of_parked_nil hold).1 hparked
  | cons t rest =>
    have havailable := hc (by simp [hold])
    rw [h.wakeOne_cons hold]
    simp only [List.length_append, List.length_singleton]
    omega

theorem Balanced.interrupt (h : room.Balanced) : room.interrupt.Balanced := by
  have hwaiting := h.waiting
  have hpending := h.pending
  unfold WaitRoom.interrupt
  split
  · exact h
  · exact ⟨by simp [WaitQueue.interrupt]; omega, by simp [WaitQueue.interrupt]; omega, fun _ => rfl⟩

theorem Balanced.interrupt_parked (h : room.Balanced) : room.interrupt.parked = [] := by
  unfold WaitRoom.interrupt
  split
  · rename_i hinterrupted
    exact h.awake hinterrupted
  · rfl

theorem wakeOne_interrupted (room : WaitRoom τ) :
    room.wakeOne.2.queue.interrupted = room.queue.interrupted := by
  unfold WaitRoom.wakeOne
  split <;> rfl

theorem interrupt_interrupted (room : WaitRoom τ) : room.interrupt.queue.interrupted = true := by
  unfold WaitRoom.interrupt
  split
  · assumption
  · rfl

theorem threads_wakeOne (room : WaitRoom τ) : room.wakeOne.2.threads.Perm room.threads := by
  unfold WaitRoom.wakeOne
  split
  · cases hparked : room.parked with
    | nil => simp [threads, hparked]
    | cons t rest =>
      simpa [threads, hparked] using List.perm_append_singleton t (rest ++ room.roused.map Prod.fst)
  · exact .refl _

theorem threads_interrupt (room : WaitRoom τ) : room.interrupt.threads.Perm room.threads := by
  unfold WaitRoom.interrupt
  split
  · exact .refl _
  · simpa [threads, Function.comp_def] using List.perm_append_comm

def park (room : WaitRoom τ) (t : τ) : WaitRoom τ :=
  { room with queue := room.queue.park, parked := room.parked ++ [t] }

theorem Balanced.park (h : room.Balanced) (hawake : room.queue.interrupted = false) :
    (room.park t).Balanced := by
  have hwaiting := h.waiting
  refine ⟨by simp [WaitRoom.park, WaitQueue.park]; omega, h.pending, fun hint => ?_⟩
  exact absurd (hawake.symm.trans hint) (by simp)

theorem threads_park (room : WaitRoom τ) (t : τ) :
    (room.park t).threads.Perm (t :: room.threads) := by
  simp [threads, WaitRoom.park]

theorem Covered.mono (hc : room.Covered available due) {available' due' : Nat}
    (hless : available' ≤ available) (hmore : due ≤ due') : room.Covered available' due' :=
  fun hparked => Nat.le_trans hless (Nat.le_trans (hc hparked) (Nat.add_le_add_left hmore _))

theorem Covered.publish (hc : room.Covered available due) :
    room.Covered (available + 1) (due + 1) :=
  fun hparked => Nat.succ_le_succ (hc hparked)

theorem Covered.interrupt (h : room.Balanced) : room.interrupt.Covered available due :=
  fun hparked => absurd h.interrupt_parked hparked

inductive Outcome (room : WaitRoom τ) (t : τ) (check : σ → Option α × σ) (s : σ) :
    Option (WaitResult α) × WaitRoom τ × σ → Prop where
  | interrupted (hint : room.queue.interrupted = true) :
      Outcome room t check s (some (.error .interrupted), room, s)
  | found {a : α} {s' : σ} (hawake : room.queue.interrupted = false)
      (hcheck : check s = (some a, s')) : Outcome room t check s (some (.ok (some a)), room, s')
  | parked {s' : σ} (hawake : room.queue.interrupted = false) (hcheck : check s = (none, s')) :
      Outcome room t check s (none, room.park t, s')
  | expired {s' : σ} (hawake : room.queue.interrupted = false) (hcheck : check s = (none, s')) :
      Outcome room t check s (some (.ok none), room, s')

/-- A look that finds something takes some of the supply, and one that finds nothing leaves none. -/
structure Takes (check : σ → Option α × σ) (supply : σ → Nat) (s : σ) : Prop where
  found {s' : σ} {a : α} : check s = (some a, s') → supply s' < supply s
  nothing {s' : σ} : check s = (none, s') → supply s' = 0

section Outcome

variable {check : σ → Option α × σ} {s s' : σ} {result : Option (WaitResult α)}
  {room' : WaitRoom τ}

theorem Outcome.balanced (ho : Outcome room t check s (result, room', s')) (h : room.Balanced) :
    room'.Balanced := by
  cases ho with
  | interrupted => exact h
  | found => exact h
  | parked hawake => exact h.park hawake
  | expired => exact h

theorem Outcome.queue_interrupted (ho : Outcome room t check s (result, room', s')) :
    room'.queue.interrupted = room.queue.interrupted := by
  cases ho <;> rfl

theorem Outcome.state (ho : Outcome room t check s (result, room', s')) :
    s' = s ∨ s' = (check s).2 := by
  cases ho with
  | interrupted => exact .inl rfl
  | found hawake hcheck => exact .inr (hcheck ▸ rfl)
  | parked hawake hcheck => exact .inr (hcheck ▸ rfl)
  | expired hawake hcheck => exact .inr (hcheck ▸ rfl)

theorem Outcome.covered {supply : σ → Nat} (ho : Outcome room t check s (result, room', s'))
    (htakes : Takes check supply s) (h : room.Balanced) (hc : room.Covered (supply s) (due + 1)) :
    room'.Covered (supply s') due := by
  intro hparked
  cases ho with
  | interrupted hint => exact absurd (h.awake hint) hparked
  | found hawake hcheck =>
    have hless := htakes.found hcheck
    have havailable := hc hparked
    omega
  | parked hawake hcheck =>
    rw [htakes.nothing hcheck]
    exact Nat.zero_le _
  | expired hawake hcheck =>
    rw [htakes.nothing hcheck]
    exact Nat.zero_le _

theorem outcome_look (room : WaitRoom τ) (t : τ) (check : σ → Option α × σ) (s : σ) :
    Outcome room t check s (room.look t check s) := by
  unfold look
  split
  · exact .interrupted ‹_›
  · rename_i hint
    have hawake := Bool.eq_false_iff.2 hint
    split
    · exact .found hawake ‹_›
    · exact .parked hawake ‹_›

theorem look_fst_ne (room : WaitRoom τ) (t : τ) (check : σ → Option α × σ) (s : σ) :
    (room.look t check s).1 ≠ some (.ok none) := by
  unfold look
  split
  · simp
  · split <;> simp

theorem outcome_lastLook (room : WaitRoom τ) (t : τ) (check : σ → Option α × σ) (s : σ) :
    Outcome room t check s (some (room.lastLook check s).1, (room.lastLook check s).2) := by
  unfold lastLook
  split
  · exact .interrupted ‹_›
  · rename_i hint
    have hawake := Bool.eq_false_iff.2 hint
    rcases hcheck : check s with ⟨_ | a, s'⟩
    · exact .expired hawake hcheck
    · exact .found hawake hcheck

end Outcome

section Roused

variable [DecidableEq τ]

theorem Balanced.expire (h : room.Balanced) (t : τ) : (room.expire t).Balanced := by
  have hwaiting := h.waiting
  have hpending := h.pending
  unfold WaitRoom.expire
  split
  · rename_i hmem
    have hlength := List.length_erase_of_mem hmem
    have hparked := List.length_pos_of_mem hmem
    exact ⟨by simp; omega, by simp; omega, fun hint => by simp [h.awake hint]⟩
  · exact h

theorem Covered.expire (hc : room.Covered available due) (t : τ) :
    (room.expire t).Covered available due := by
  unfold WaitRoom.expire
  split
  · rename_i hmem
    intro _
    have havailable := hc (List.ne_nil_of_mem hmem)
    simp only [List.length_append, List.length_singleton]
    omega
  · exact hc

theorem expire_interrupted (room : WaitRoom τ) (t : τ) :
    (room.expire t).queue.interrupted = room.queue.interrupted := by
  unfold WaitRoom.expire
  split <;> rfl

theorem threads_expire (room : WaitRoom τ) (t : τ) : (room.expire t).threads.Perm room.threads := by
  unfold WaitRoom.expire
  split
  · rename_i hmem
    have hparked := (List.perm_cons_erase hmem).symm
    rw [threads, threads, List.map_append, ← List.append_assoc]
    exact (List.perm_append_singleton t _).trans (hparked.append_right _)
  · exact .refl _

def leave (room : WaitRoom τ) (t : τ) (timedOut : Bool) : WaitRoom τ :=
  { room with queue := room.queue.leave, roused := room.roused.erase (t, timedOut) }

theorem Balanced.leave (h : room.Balanced) (hmem : (t, timedOut) ∈ room.roused) :
    (room.leave t timedOut).Balanced := by
  have hwaiting := h.waiting
  have hpending := h.pending
  have hlength := List.length_erase_of_mem hmem
  have hroused := List.length_pos_of_mem hmem
  exact ⟨by simp [WaitRoom.leave, WaitQueue.leave]; omega,
    by simp [WaitRoom.leave, WaitQueue.leave]; omega, h.awake⟩

/-- A thread that takes the lock again is no longer there to fetch anything. -/
theorem Covered.leave (hc : room.Covered available due) (hmem : (t, timedOut) ∈ room.roused) :
    (room.leave t timedOut).Covered available (due + 1) := by
  intro hparked
  have havailable := hc hparked
  have hlength := List.length_erase_of_mem hmem
  have hroused := List.length_pos_of_mem hmem
  simp only [WaitRoom.leave]
  omega

theorem threads_leave (hmem : (t, timedOut) ∈ room.roused) :
    (t :: (room.leave t timedOut).threads).Perm room.threads := by
  have hroused := (List.perm_cons_erase hmem).map Prod.fst
  rw [threads, threads]
  exact List.perm_middle.symm.trans (hroused.symm.append_left room.parked)

theorem outcome_resume (room : WaitRoom τ) (t : τ) (timedOut : Bool)
    (check : σ → Option α × σ) (s : σ) :
    Outcome (room.leave t timedOut) t check s (room.resume t timedOut check s) := by
  cases timedOut with
  | true => exact outcome_lastLook (room.leave t true) t check s
  | false => exact outcome_look (room.leave t false) t check s

theorem resume_of_found {check : σ → Option α × σ} {s s' : σ} {a : α}
    (hawake : room.queue.interrupted = false) (hcheck : check s = (some a, s')) :
    room.resume t false check s = (some (.ok (some a)), room.leave t false, s') := by
  simp [WaitRoom.resume, WaitRoom.leave, look, WaitQueue.leave, hawake, hcheck]

/-- Only a thread whose time is up goes away with nothing, and only if it finds nothing. -/
theorem of_resume_fst {check : σ → Option α × σ} {s : σ}
    (hnothing : (room.resume t timedOut check s).1 = some (.ok none)) :
    timedOut = true ∧ (check s).1 = none := by
  cases timedOut with
  | false => exact absurd hnothing (look_fst_ne (room.leave t false) t check s)
  | true =>
    refine ⟨rfl, ?_⟩
    simp only [WaitRoom.resume, lastLook, if_true] at hnothing
    split at hnothing
    · simp at hnothing
    · simpa using hnothing

theorem resume_fst_of_interrupted (hint : room.queue.interrupted = true) (t : τ) (timedOut : Bool)
    (check : σ → Option α × σ) (s : σ) :
    (room.resume t timedOut check s).1 = some (.error .interrupted) := by
  cases timedOut <;> simp [WaitRoom.resume, look, lastLook, WaitQueue.leave, hint]

end Roused

end MultimediaMessaging.WaitRoom
