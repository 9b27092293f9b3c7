import MultimediaMessaging.Proofs.Table
import MultimediaMessaging.Stack.Call

/-!
A send room while at most one thread sends on a connection: what the tracker has of the connection,
and where the thread waits, at each step of a send.
-/

set_option autoImplicit false

namespace MultimediaMessaging

namespace SendRoom

variable {τ : Type} [DecidableEq τ] {room : SendRoom τ} {h : ConnectionHandle} {t : τ}
  {task : Task} {state : SendState}

def slot (room : SendRoom τ) (h : ConnectionHandle) : Option SendState :=
  room.tracker.slots.get? h

def forget (room : SendRoom τ) (h : ConnectionHandle) : SendRoom τ :=
  { room with tracker := { room.tracker with slots := room.tracker.slots.erase h } }

structure IsEmpty (room : SendRoom τ) : Prop where
  parked : room.parked = []
  roused : room.roused = []

/-- What there is of the connection `h` while `t` sends on it. -/
inductive Serves (room : SendRoom τ) (h : ConnectionHandle) (t : τ) : Task → Prop where
  | before {id : RoomId} {parcel : Parcel} (hslot : room.slot h = none) (hempty : room.IsEmpty) :
      Serves room h t (.startSend id parcel)
  | begun {id : RoomId} {parcel : Parcel} (hslot : room.slot h ≠ none) (hempty : room.IsEmpty) :
      Serves room h t (.handOver id parcel)
  | shipped {id : RoomId} (hslot : room.slot h ≠ none) (hempty : room.IsEmpty) :
      Serves room h t (.watchSend id)
  | asleep {id : RoomId} (hslot : room.slot h = some .sending) (hparked : room.parked = [(t, h)])
      (hroused : room.roused = []) : Serves room h t (.awaitSend id)
  | roused {id : RoomId} {state : SendState} (hslot : room.slot h = some state)
      (hended : state ≠ .sending) (hparked : room.parked = []) (hroused : room.roused = [(t, h)]) :
      Serves room h t (.awaitSend id)
  | after {id : RoomId} {result : Except StackError Reply} (hslot : room.slot h = none)
      (hempty : room.IsEmpty) : Serves room h t (.unlock id result)

/-- What a look for an outcome gives, and what is left of it. -/
inductive Fetches (before after : Option SendState) : Option (Except WaitError SendStatus) → Prop
  | waits (hbefore : before = some .sending) (hafter : after = some .sending) :
      Fetches before after none
  | told {status : SendStatus} (hbefore : before = some (.done status)) (hafter : after = none) :
      Fetches before after (some (.ok status))
  | released (hbefore : before = some .interrupted ∨ before = none) (hafter : after = none) :
      Fetches before after (some (.error .interrupted))

omit [DecidableEq τ] in
theorem isSending_iff_slot : room.tracker.isSending h = true ↔ room.slot h = some .sending := by
  simp [SendTracker.isSending, slot]

omit [DecidableEq τ] in
theorem finish_of_sending (hslot : room.slot h = some .sending) (state : SendState) :
    (room.finish h state).2 =
      { tracker := { room.tracker with slots := room.tracker.slots.put h state }
        parked := []
        roused := room.roused ++ room.parked } := by
  simp [finish, SendTracker.finish, isSending_iff_slot.2 hslot]

omit [DecidableEq τ] in
theorem finish_of_ne (hslot : room.slot h ≠ some .sending) (state : SendState) :
    (room.finish h state).2 = room := by
  simp [finish, SendTracker.finish, mt isSending_iff_slot.1 hslot]

omit [DecidableEq τ] in
theorem slot_finish (room : SendRoom τ) (h : ConnectionHandle) (state : SendState) :
    (room.finish h state).2.slot h =
      if room.slot h = some .sending then some state else room.slot h := by
  split
  · rename_i hslot
    rw [finish_of_sending hslot]
    exact Table.get?_put_self _ _ _
  · rename_i hslot
    rw [finish_of_ne hslot]

omit [DecidableEq τ] in
theorem Serves.finish (hs : room.Serves h t task) (hended : state ≠ .sending) :
    (room.finish h state).2.Serves h t task := by
  by_cases hslot : room.slot h = some .sending
  · rw [finish_of_sending hslot]
    have hnew : Table.get? (room.tracker.slots.put h state) h = some state :=
      Table.get?_put_self _ _ _
    cases hs with
    | before hnone => cases hslot.symm.trans hnone
    | begun _ hempty => exact .begun (by simp [slot]) ⟨rfl, by simp [hempty.parked, hempty.roused]⟩
    | shipped _ hempty =>
      exact .shipped (by simp [slot]) ⟨rfl, by simp [hempty.parked, hempty.roused]⟩
    | asleep _ hparked hroused => exact .roused hnew hended rfl (by simp [hparked, hroused])
    | roused hdone hnot => exact absurd (Option.some.inj (hdone.symm.trans hslot)) hnot
    | after hnone => cases hslot.symm.trans hnone
  · rwa [finish_of_ne hslot]

omit [DecidableEq τ] in
theorem slot_start {tracker : SendTracker} (hstart : room.tracker.start h = (true, tracker)) :
    slot { room with tracker } h = some .sending := by
  unfold SendTracker.start at hstart
  split at hstart
  · cases hstart
  · cases hstart
    exact Table.get?_put_self _ _ _

omit [DecidableEq τ] in
theorem slot_forget (room : SendRoom τ) (h : ConnectionHandle) : (room.forget h).slot h = none :=
  Table.get?_erase_self _ _

omit [DecidableEq τ] in
theorem look_eq (room : SendRoom τ) (t : τ) (h : ConnectionHandle) :
    room.look t h =
      match room.slot h with
      | some .sending => (none, { room with parked := room.parked ++ [(t, h)] })
      | some (.done status) => (some (.ok status), room.forget h)
      | some .interrupted | none => (some (.error .interrupted), room.forget h) := by
  unfold look SendTracker.fetch slot
  split <;> split at * <;> simp_all [forget]

omit [DecidableEq τ] in
theorem fetches_look (room : SendRoom τ) (t : τ) (h : ConnectionHandle) :
    Fetches (room.slot h) ((room.look t h).2.slot h) (room.look t h).1 := by
  rw [look_eq]
  split
  · exact .waits ‹_› ‹_›
  · exact .told ‹_› (slot_forget room h)
  · exact .released (.inl ‹_›) (slot_forget room h)
  · exact .released (.inr ‹_›) (slot_forget room h)

theorem fetches_resume (room : SendRoom τ) (t : τ) (h : ConnectionHandle) :
    Fetches (room.slot h) ((room.resume t h).2.slot h) (room.resume t h).1 :=
  fetches_look { room with roused := room.roused.erase (t, h) } t h

omit [DecidableEq τ] in
theorem serves_look {id : RoomId} (hempty : room.IsEmpty) :
    (room.look t h).2.Serves h t (.afterWatch id (room.look t h).1) := by
  rw [look_eq]
  split
  · rename_i hslot
    exact .asleep hslot (by simp [hempty.parked]) hempty.roused
  · exact .after (slot_forget room h) ⟨hempty.parked, hempty.roused⟩
  · exact .after (slot_forget room h) ⟨hempty.parked, hempty.roused⟩
  · exact .after (slot_forget room h) ⟨hempty.parked, hempty.roused⟩

theorem Serves.resume {id : RoomId} (hs : room.Serves h t (.awaitSend id))
    (hroused : (t, h) ∈ room.roused) :
    (room.resume t h).2.Serves h t (.afterWatch id (room.resume t h).1) := by
  cases hs with
  | asleep _ _ hnone => simp [hnone] at hroused
  | roused _ _ hparked hone => exact serves_look ⟨hparked, by simp [hone]⟩

end SendRoom

end MultimediaMessaging
