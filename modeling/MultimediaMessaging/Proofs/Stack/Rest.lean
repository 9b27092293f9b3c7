import MultimediaMessaging.Proofs.Stack.Seating

/-!
Devices whose threads all sleep or have finished, and how a device comes to rest again when one
sleeper has been woken.
-/

set_option autoImplicit false

namespace MultimediaMessaging.Device

variable {τ : Type} [DecidableEq τ] {d d₁ d' : Device τ} {t : τ} {id : RoomId} {want : Want}

/-- Thread `t` sleeps in the wait room `id`, and nobody has roused it. -/
structure Parked (d : Device τ) (t : τ) (id : RoomId) (want : Want) : Prop where
  task : ∃ timed, d.tasks.get? t = some (.asleep id want timed)
  sleeper : t ∈ (d.room id).parked

def Resting (d : Device τ) : Prop :=
  ∀ t task, d.tasks.get? t = some task → task.isFinished = true ∨ ∃ id want, d.Parked t id want

inductive Moves (d : Device τ) : Device τ → Prop where
  | refl : Moves d d
  | advance {d' : Device τ} (t : τ) : Moves d d' → Moves d (d'.advance t)

structure Settles (d d' : Device τ) : Prop where
  moves : Moves d d'
  resting : d'.Resting
  only {other : Device τ} : Moves d other → other.Resting → other = d'

theorem Seated.roused_eq_nil (h : Seated d) (hrest : d.Resting) (id : RoomId) :
    (d.room id).roused = [] := by
  refine List.eq_nil_iff_forall_not_mem.2 fun (t, timedOut) hmem => ?_
  have hroused : t ∈ (d.room id).roused.map Prod.fst := List.mem_map_of_mem hmem
  obtain ⟨want, timed, hat⟩ := (h.asleep id t).1 (List.mem_append_right _ hroused)
  rcases hrest t _ hat with hfinished | ⟨id', want', ⟨timed', hat'⟩, hparked⟩
  · cases hfinished
  · cases hat.symm.trans hat'
    exact (List.nodup_append.1 (h.nodup id)).2.2 t hparked t hroused rfl

/-- A thread that sleeps or has finished takes no step. -/
theorem advance_eq_self (hat : ∀ task, d.tasks.get? t = some task →
      task.isFinished = true ∨ ∃ id want timed, task = .asleep id want timed ∧
        ∀ timedOut, (t, timedOut) ∉ (d.room id).roused) : d.advance t = d := by
  cases htask : d.tasks.get? t with
  | none => exact advance_of_none htask
  | some task =>
    rcases hat task htask with hfinished | ⟨id, want, timed, rfl, hroused⟩
    · cases task with
      | finished result => exact (Waits.finished result).eq_self (turns htask)
      | _ => cases hfinished
    · exact (Waits.asleep hroused).eq_self (turns htask)

theorem Resting.advance (h : d.Resting) (hroused : ∀ id, (d.room id).roused = []) (t : τ) :
    d.advance t = d := by
  refine advance_eq_self fun task hat => (h t task hat).imp_right ?_
  rintro ⟨id, want, ⟨timed, hasleep⟩, -⟩
  cases hat.symm.trans hasleep
  exact ⟨id, want, timed, rfl, by simp [hroused]⟩

theorem Moves.eq_self (h : Moves d d') (hstill : ∀ t, d.advance t = d) : d' = d := by
  induction h with
  | refl => rfl
  | advance t _ ih => rw [ih, hstill]

/-- There is one step to be taken, and one thread that can take it. -/
theorem Moves.eq_or_eq (h : Moves d d') (hothers : ∀ u, u ≠ t → d.advance u = d)
    (hstill : ∀ u, (d.advance t).advance u = d.advance t) : d' = d ∨ d' = d.advance t := by
  induction h with
  | refl => exact .inl rfl
  | advance u _ ih =>
    rcases ih with rfl | rfl
    · by_cases hut : u = t
      · exact .inr (hut ▸ rfl)
      · exact .inl (hothers u hut)
    · exact .inr (hstill u)

theorem Settles.of_resting (h : d.Resting) (hroused : ∀ id, (d.room id).roused = []) :
    d.Settles d :=
  ⟨.refl, h, fun hmoves _ => hmoves.eq_self (h.advance hroused)⟩

structure Woken (d d₁ : Device τ) (id : RoomId) (t : τ) (rest : List τ) : Prop where
  tasks : d₁.tasks = d.tasks
  parked : (d.room id).parked = t :: rest
  here : d₁.room id = (d.room id).afterWake t rest
  there {other : RoomId} : id ≠ other → d₁.room other = d.room other

section Woken

variable {rest : List τ} {timed : Bool} {reply : Reply} {pool' : Pool}

def served (d₁ : Device τ) (t : τ) (id : RoomId) (reply : Reply) (pool' : Pool) : Device τ :=
  (d₁.setLook id ((d₁.room id).leave t false) pool').finish t (.ok reply)

@[simp] theorem get?_tasks_served_self (d₁ : Device τ) (t : τ) (id : RoomId) (reply : Reply)
    (pool' : Pool) : (d₁.served t id reply pool').tasks.get? t = some (.finished (.ok reply)) :=
  Table.get?_put_self _ _ _

theorem Woken.room_served (h : Woken d d₁ id t rest) :
    ((d₁.served t id reply pool').room id).parked = rest ∧
      ((d₁.served t id reply pool').room id).roused = [] := by
  rw [served, finish, room_setTask, room_setLook_self, h.here]
  simp [WaitRoom.leave, WaitRoom.afterWake]

theorem Woken.room_served_ne (h : Woken d d₁ id t rest) {other : RoomId} (hid : id ≠ other) :
    (d₁.served t id reply pool').room other = d.room other :=
  (room_setLook_ne _ _ _ hid).trans (h.there hid)

theorem Woken.advance (h : Woken d d₁ id t rest) (hseated : Seated d)
    (hat : d.tasks.get? t = some (.asleep id want timed))
    (hcheck : want.check d₁.stack.pool = (some reply, pool')) :
    d₁.advance t = d₁.served t id reply pool' := by
  have hat₁ : d₁.tasks.get? t = some (.asleep id want timed) := h.tasks ▸ hat
  have hroused : (d₁.room id).roused = [(t, false)] := by
    rw [h.here]
    rfl
  have hawake : (d₁.room id).queue.interrupted = false := by
    rw [h.here]
    cases hint : (d.room id).queue.interrupted with
    | false => exact hint
    | true => exact absurd (h.parked.symm.trans ((hseated.balanced id).awake hint)) (by simp)
  have hmem : (t, false) ∈ (d₁.room id).roused := hroused ▸ List.mem_singleton_self _
  obtain ⟨expired, result, room', pool, hexpired, hresume, hadvance⟩ := (turns hat₁).resumed hmem
  rw [hroused] at hexpired
  cases List.mem_singleton.1 hexpired
  rw [WaitRoom.resume_of_found hawake hcheck] at hresume
  cases hresume
  exact hadvance

theorem Woken.resting (h : Woken d d₁ id t rest) (hrest : d.Resting) :
    (d₁.served t id reply pool').Resting := by
  intro u task hat
  by_cases htu : t = u
  · subst htu
    rw [get?_tasks_served_self] at hat
    cases hat
    exact .inl rfl
  · have hsame : (d₁.served t id reply pool').tasks.get? u = d.tasks.get? u :=
      (Table.get?_put_ne _ _ htu).trans (h.tasks ▸ rfl)
    refine (hrest u task (hsame ▸ hat)).imp_right ?_
    rintro ⟨other, want, ⟨timed, hasleep⟩, hsleeper⟩
    refine ⟨other, want, ⟨timed, hsame ▸ hasleep⟩, ?_⟩
    by_cases hid : id = other
    · subst hid
      rw [h.parked] at hsleeper
      rw [h.room_served.1]
      exact (List.mem_cons.1 hsleeper).resolve_left (Ne.symm htu)
    · rwa [h.room_served_ne hid]

theorem Woken.settles (h : Woken d d₁ id t rest) (hseated : Seated d) (hrest : d.Resting)
    (hat : d.tasks.get? t = some (.asleep id want timed))
    (hcheck : want.check d₁.stack.pool = (some reply, pool')) :
    d₁.Settles (d₁.served t id reply pool') := by
  have hadvance := h.advance hseated hat hcheck
  have hroused (other : RoomId) : (d.room other).roused = [] := hseated.roused_eq_nil hrest other
  have hmoving : ¬ d₁.Resting := fun hrest₁ => by
    rcases hrest₁ t _ (h.tasks ▸ hat) with hfinished | ⟨other, want', ⟨timed', hat'⟩, hsleeper⟩
    · cases hfinished
    · cases hat.symm.trans (h.tasks ▸ hat')
      have hnodup := (List.nodup_append.1 (hseated.nodup id)).1
      rw [h.here] at hsleeper
      rw [h.parked] at hnodup
      exact (List.nodup_cons.1 hnodup).1 hsleeper
  refine ⟨hadvance ▸ .advance t .refl, h.resting hrest, fun hmoves hrest' => ?_⟩
  refine ((hmoves.eq_or_eq (fun u hut => ?_) fun u => ?_).resolve_left fun hsame =>
    hmoving (hsame ▸ hrest')).trans hadvance
  · refine advance_eq_self fun task hat' => (hrest u task (h.tasks ▸ hat')).imp_right ?_
    rintro ⟨other, want', ⟨timed', hasleep⟩, -⟩
    cases (h.tasks ▸ hat').symm.trans hasleep
    refine ⟨other, want', timed', rfl, fun timedOut hmem => ?_⟩
    by_cases hid : id = other
    · subst hid
      rw [h.here] at hmem
      cases List.mem_singleton.1 hmem
      exact hut rfl
    · rw [h.there hid, hroused] at hmem
      cases hmem
  · rw [hadvance]
    refine (h.resting hrest).advance (fun other => ?_) u
    by_cases hid : id = other
    · exact hid ▸ h.room_served.2
    · rw [h.room_served_ne hid, hroused]

end Woken

end MultimediaMessaging.Device
