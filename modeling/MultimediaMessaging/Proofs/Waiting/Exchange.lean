import MultimediaMessaging.Proofs.Waiting.Room
import MultimediaMessaging.Waiting.Consumers

/-!
Producers and consumers of values at one wait room, in every order of their steps. Main statement:
no wake is lost, so that nobody sleeps beside a value that nobody is about to fetch.
-/

set_option autoImplicit false

namespace MultimediaMessaging

open WaitRoom (Takes)

/-- `publishing` producers have made a value available and have not yet called for a wake. -/
structure Exchange (τ α : Type) where
  consumers : Consumers τ α := {}
  publishing : Nat := 0

namespace Exchange

variable {τ α : Type}

def room (x : Exchange τ α) : WaitRoom τ := x.consumers.room

def values (x : Exchange τ α) : List α := x.consumers.values

variable {x y : Exchange τ α} {t : τ} {timedOut : Bool}

structure Served (x : Exchange τ α) : Prop where
  balanced : x.room.Balanced
  covered : x.room.Covered x.values.length x.publishing

theorem Served.publish (h : Served x) (a : α) :
    Served { consumers := x.consumers.publish a, publishing := x.publishing + 1 } := by
  refine ⟨h.balanced, ?_⟩
  have hlength : (x.values ++ [a]).length = x.values.length + 1 := by simp
  exact hlength ▸ h.covered.publish

theorem Served.parked_of_wakeOne (h : Served x) (hrefused : x.consumers.wakeOne.1 = false) :
    x.room.parked = [] := by
  by_contra hne
  have hwakes : x.room.wakeOne.1 = true := by simp [WaitRoom.wakeOne, h.balanced.canWake hne]
  exact absurd (hwakes.symm.trans hrefused) (by simp)

theorem takes_takeValue (values : List α) :
    Takes Consumers.takeValue List.length values where
  found hcheck := by
    cases values with
    | nil => cases hcheck
    | cons b values =>
      cases hcheck
      exact Nat.lt_succ_self _
  nothing hcheck := by
    cases values with
    | nil =>
      cases hcheck
      rfl
    | cons b values => cases hcheck

variable [DecidableEq τ]

/-- One step of a thread with the lock, or the end of a sleep. Which sleeper a wake reaches and
which value a consumer takes is open: the order of either list may change at any time. -/
inductive Step : Exchange τ α → Exchange τ α → Prop where
  | start (x : Exchange τ α) (t : τ) : Step x { x with consumers := x.consumers.start t }
  | resume (x : Exchange τ α) {t : τ} {timedOut : Bool} (hmem : (t, timedOut) ∈ x.room.roused) :
      Step x { x with consumers := x.consumers.resume t timedOut }
  | expire (x : Exchange τ α) (t : τ) : Step x { x with consumers := x.consumers.expire t }
  | publish (x : Exchange τ α) (a : α) :
      Step x { consumers := x.consumers.publish a, publishing := x.publishing + 1 }
  | wake (x : Exchange τ α) (hdue : 0 < x.publishing) :
      Step x { consumers := x.consumers.wakeOne.2, publishing := x.publishing - 1 }
  /-- A wake without a value. -/
  | nudge (x : Exchange τ α) : Step x { x with consumers := x.consumers.wakeOne.2 }
  | interrupt (x : Exchange τ α) : Step x { x with consumers := x.consumers.interrupt }
  | reorder (x : Exchange τ α) {parked : List τ} {values : List α}
      (hparked : parked.Perm x.room.parked) (hvalues : values.Perm x.values) :
      Step x { x with consumers :=
        { x.consumers with room := { x.room with parked }, values } }

inductive Reachable : Exchange τ α → Prop where
  | idle (values : List α) : Reachable { consumers := { values } }
  | step {x y : Exchange τ α} : Reachable x → Step x y → Reachable y

theorem Served.start (h : Served x) (t : τ) :
    Served { x with consumers := x.consumers.start t } :=
  have houtcome := WaitRoom.outcome_look x.room t Consumers.takeValue x.values
  ⟨houtcome.balanced h.balanced,
    houtcome.covered (takes_takeValue _) h.balanced
      (h.covered.mono (Nat.le_refl _) (Nat.le_succ _))⟩

theorem Served.resume (h : Served x) (hmem : (t, timedOut) ∈ x.room.roused) :
    Served { x with consumers := x.consumers.resume t timedOut } :=
  have houtcome := WaitRoom.outcome_resume x.room t timedOut Consumers.takeValue x.values
  ⟨houtcome.balanced (h.balanced.leave hmem),
    houtcome.covered (takes_takeValue _) (h.balanced.leave hmem) (h.covered.leave hmem)⟩

theorem Served.step (h : Served x) (hstep : Step x y) : Served y := by
  cases hstep with
  | start t => exact h.start t
  | resume hmem => exact h.resume hmem
  | expire t => exact ⟨h.balanced.expire t, h.covered.expire t⟩
  | publish a => exact h.publish a
  | wake hdue =>
    exact ⟨h.balanced.wakeOne, .wakeOne h.balanced (Nat.sub_add_cancel hdue ▸ h.covered)⟩
  | nudge =>
    exact ⟨h.balanced.wakeOne,
      .wakeOne h.balanced (h.covered.mono (Nat.le_refl _) (Nat.le_succ _))⟩
  | interrupt => exact ⟨h.balanced.interrupt, .interrupt h.balanced⟩
  | @reorder parked values hparked hvalues =>
    have hbalanced := h.balanced
    refine ⟨⟨?_, hbalanced.pending, fun hint => ?_⟩, fun hne => ?_⟩
    · exact hparked.length_eq ▸ hbalanced.waiting
    · exact List.perm_nil.1 (hbalanced.awake hint ▸ hparked)
    · have hsleeps : x.room.parked ≠ [] := fun hnil => hne (List.perm_nil.1 (hnil ▸ hparked))
      exact hvalues.length_eq ▸ h.covered hsleeps

theorem served_of_reachable (h : Reachable x) : Served x := by
  induction h with
  | idle values => exact ⟨WaitRoom.balanced_empty, fun hne => absurd rfl hne⟩
  | step _ hstep ih => exact ih.step hstep

theorem result?_start (x : Exchange τ α) (t : τ) :
    (x.consumers.start t).result? t = (x.room.look t Consumers.takeValue x.values).1 := by
  simp [Consumers.start, Consumers.result?, room, values]

theorem result?_resume (x : Exchange τ α) (t : τ) (timedOut : Bool) :
    (x.consumers.resume t timedOut).result? t =
      (x.room.resume t timedOut Consumers.takeValue x.values).1 := by
  simp [Consumers.resume, Consumers.result?, room, values]

theorem values_of_result? (hnothing : (x.consumers.resume t timedOut).result? t = some (.ok none)) :
    timedOut = true ∧ x.values = [] := by
  obtain ⟨htime, hcheck⟩ := WaitRoom.of_resume_fst (result?_resume x t timedOut ▸ hnothing)
  refine ⟨htime, ?_⟩
  cases hvalues : x.values with
  | nil => rfl
  | cons a values => simp [hvalues, Consumers.takeValue] at hcheck

theorem result?_of_interrupted (hint : x.room.queue.interrupted = true) (t : τ) :
    (x.consumers.start t).result? t = some (.error .interrupted) ∧
      ∀ timedOut, (x.consumers.resume t timedOut).result? t = some (.error .interrupted) :=
  ⟨by simp [result?_start, WaitRoom.look, hint],
    fun _ => result?_resume x t _ ▸ WaitRoom.resume_fst_of_interrupted hint t _ _ _⟩

/-- Roused threads answer for the pending wakes, a wake is refused only when nobody sleeps, and
while somebody sleeps the roused threads and the producers about to call suffice for all values. A
thread goes away with nothing only if there is nothing, or after an interruption, which leaves no
sleeper. -/
theorem no_wake_lost (h : Reachable x) :
    (x.room.queue.pendingWakes ≤ x.room.roused.length ∧
        x.room.roused.length ≤ x.room.queue.waiting) ∧
      (x.room.queue.interrupted = false → x.consumers.wakeOne.1 = false → x.room.parked = []) ∧
      (x.room.parked ≠ [] → x.values.length ≤ x.room.roused.length + x.publishing) ∧
      (x.room.roused = [] → x.publishing = 0 → x.values ≠ [] → x.room.parked = []) ∧
      (∀ t, (x.consumers.start t).result? t ≠ some (.ok none)) ∧
      (∀ t timedOut, (x.consumers.resume t timedOut).result? t = some (.ok none) →
        timedOut = true ∧ x.values = []) ∧
      (x.room.queue.interrupted = true → x.room.parked = [] ∧
        ∀ t, (x.consumers.start t).result? t = some (.error .interrupted) ∧
          ∀ timedOut, (x.consumers.resume t timedOut).result? t = some (.error .interrupted)) := by
  have hserved := served_of_reachable h
  have hwaiting := hserved.balanced.waiting
  refine ⟨⟨hserved.balanced.pending, by omega⟩, fun _ => hserved.parked_of_wakeOne,
    hserved.covered, ?_, fun t => result?_start x t ▸ WaitRoom.look_fst_ne _ t _ _,
    fun _ _ => values_of_result?, fun hint => ?_⟩
  · intro hroused hpublishing hvalues
    by_contra hsleeps
    have hlength := hserved.covered hsleeps
    rw [hroused, hpublishing] at hlength
    exact hvalues (List.length_eq_zero_iff.1 (Nat.le_zero.1 hlength))
  · exact ⟨hserved.balanced.awake hint, result?_of_interrupted hint⟩

/-- Three consumers have come for one value; the first was woken, and the last has lost patience. -/
def queueing : Exchange Nat String :=
  let arrived := ((({} : Consumers Nat String).start 1).start 2).start 3
  { consumers := (arrived.publish "ticket").wakeOne.2.expire 3 }

theorem reachable_queueing : Reachable queueing :=
  have hfirst := (Reachable.idle ([] : List String)).step (.start _ 1)
  have harrived := (hfirst.step (.start _ 2)).step (.start _ 3)
  have hwoken := (harrived.step (.publish _ "ticket")).step (.wake _ (by decide))
  hwoken.step (.expire _ 3)

theorem no_wake_lost_queueing :
    Reachable queueing ∧ queueing.room.parked = [2] ∧
      queueing.values.length ≤ queueing.room.roused.length + queueing.publishing :=
  ⟨reachable_queueing, rfl, (no_wake_lost reachable_queueing).2.2.1 (by decide)⟩

end Exchange

end MultimediaMessaging
