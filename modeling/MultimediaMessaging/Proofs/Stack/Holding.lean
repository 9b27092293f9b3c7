import MultimediaMessaging.Proofs.Stack.Line

/-!
Who holds the connection of a line. One thread at a time does, from before its transfer begins until
it has got an outcome, and what the send tracker has of the connection is that thread's business.
-/

set_option autoImplicit false

namespace MultimediaMessaging

namespace Line

variable {τ : Type} [DecidableEq τ] {x y : Line τ} {id : RoomId} {c c' : Connection τ} {t : τ}
  {task next : Task}

def sends (x : Line τ) : SendRoom τ := x.device.stack.sends

def slot (x : Line τ) (c : Connection τ) : Option SendState := x.sends.slot c.handle

section Report

variable (x : Line τ) (i : Nat) (status : SendStatus)

@[simp] theorem task?_report (t : τ) : (x.report i status).task? t = x.task? t := by
  unfold task? report Device.report
  split <;> rfl

omit [DecidableEq τ] in
@[simp] theorem connections_report :
    (x.report i status).device.connections = x.device.connections := by
  unfold report Device.report
  split <;> rfl

omit [DecidableEq τ] in
theorem report_eq_self (hnone : x.device.shipments[i]? = none) : x.report i status = x := by
  simp [report, Device.report, hnone]

omit [DecidableEq τ] in
theorem sends_report {shipment : Shipment τ} (hsome : x.device.shipments[i]? = some shipment) :
    (x.report i status).sends = (x.sends.finish shipment.handle (.done status)).2 := by
  simp [report, Device.report, hsome, sends, Stack.onSendCompleted, SendRoom.complete]

omit [DecidableEq τ] in
theorem shipments_report :
    (x.report i status).device.shipments = x.device.shipments.eraseIdx i := by
  unfold report Device.report
  split
  · rename_i hnone
    rw [List.eraseIdx_of_length_le (List.getElem?_eq_none_iff.1 hnone)]
  · rfl

end Report

theorem Placed.proceed (h : Placed id c x) (hfound : y.device.connections.get? id = some c')
    (hroom : c'.room = c.room)
    (hhandle : ∀ shipment ∈ y.device.shipments, shipment.handle = c'.handle)
    (htasks : y.task? = (x.setTask t next).task?) (hon : next.IsOn id) : Placed id c' y where
  found := hfound
  room := hroom.trans h.room
  handle := hhandle
  on hat := by
    rw [htasks] at hat
    rcases of_task?_setTask hat with ⟨-, rfl⟩ | ⟨-, hat⟩
    · exact hon
    · exact h.on hat

theorem Placed.get?_put (h : Placed id c x) (hroom : c'.room = c.room) :
    (x.device.connections.put c'.room c').get? id = some c' := by
  have hid : c'.room = id := hroom.trans h.room
  rw [hid]
  exact Table.get?_put_self _ _ _

theorem Placed.change (h : Placed id c x) (hc : Changes id c x c' y) : Placed id c' y := by
  cases hc with
  | starts hnew hnext => exact h.proceed h.found rfl h.handle rfl hnext.on
  | stirs hsends hrooms => exact ⟨h.found, h.room, h.handle, h.on⟩
  | reports i status =>
    refine ⟨?_, h.room, ?_, fun hat => h.on (by simpa using hat)⟩
    · rw [connections_report, h.found]
    · rw [shipments_report]
      exact fun shipment hmem => h.handle shipment (List.eraseIdx_subset hmem)
  | advances hat ha =>
    cases ha with
    | waits => exact h
    | roams hroams => exact h.proceed h.found rfl h.handle rfl hroams.on
    | locks => exact h.proceed (h.get?_put rfl) rfl h.handle rfl rfl
    | begins => exact h.proceed h.found rfl h.handle rfl rfl
    | refused => exact h.proceed h.found rfl h.handle rfl rfl
    | ships =>
      refine h.proceed h.found rfl (fun shipment hmem => ?_) rfl rfl
      rcases List.mem_append.1 hmem with hold | hnew
      · exact h.handle shipment hold
      · rw [List.mem_singleton.1 hnew]
    | @watches _ result =>
      refine h.proceed h.found rfl h.handle rfl ?_
      rcases result with _ | _ | _ <;> exact rfl
    | unlocks => exact h.proceed (h.get?_put rfl) rfl h.handle rfl trivial
    | closes => exact h.proceed (h.get?_put rfl) rfl h.handle rfl rfl
    | interrupts => exact h.proceed h.found rfl h.handle rfl rfl
    | leaves => exact h.proceed h.found rfl h.handle rfl trivial

omit [DecidableEq τ] in
theorem slot_report {i : Nat} {shipment : Shipment τ}
    (hsome : x.device.shipments[i]? = some shipment) (hhandle : shipment.handle = c.handle)
    (status : SendStatus) : (x.report i status).slot c =
      if x.slot c = some .sending then some (.done status) else x.slot c := by
  rw [slot, sends_report x i status hsome, hhandle, SendRoom.slot_finish]
  rfl

inductive Stand (c : Connection τ) (x : Line τ) : Prop where
  | free (hholder : c.holder = none) (hslot : x.slot c = none) (hempty : x.sends.IsEmpty)
  | taken {t : τ} {task : Task} (hholder : c.holder = some t) (hat : x.task? t = some task)
      (hserves : x.sends.Serves c.handle t task)

/-- A thread in a send holds the connection. -/
structure Held (c : Connection τ) (x : Line τ) : Prop where
  holder {t : τ} {task : Task} : x.task? t = some task → task.holds = true → c.holder = some t
  stand : Stand c x

omit [DecidableEq τ] in
theorem holds_of_serves {room : SendRoom τ} {h : ConnectionHandle} (hs : room.Serves h t task) :
    task.holds = true := by
  cases hs <;> rfl

theorem Held.serves (h : Held c x) (hat : x.task? t = some task) (hholds : task.holds = true) :
    x.sends.Serves c.handle t task := by
  have hholder := h.holder hat hholds
  cases h.stand with
  | free hfree => cases hfree.symm.trans hholder
  | taken hother hat' hserves =>
    cases hother.symm.trans hholder
    cases hat.symm.trans hat'
    exact hserves

theorem Held.of_eq (h : Held c x) (hholder : c'.holder = c.holder) (hhandle : c'.handle = c.handle)
    (hsends : y.sends = x.sends) (htasks : y.task? = x.task?) : Held c' y where
  holder hat hholds := hholder.trans (h.holder (htasks ▸ hat) hholds)
  stand := by
    cases h.stand with
    | free hfree hslot hempty =>
      refine .free (hholder.trans hfree) ?_ (hsends ▸ hempty)
      rwa [slot, hsends, hhandle]
    | taken hheld hat hserves =>
      refine .taken (hholder.trans hheld) (htasks ▸ hat) ?_
      rwa [hsends, hhandle]

theorem Held.setTask (h : Held c x) (hidle : ∀ task, x.task? t = some task → task.holds = false)
    (hstill : next.holds = false) : Held c (x.setTask t next) where
  holder hat hholds := by
    rcases of_task?_setTask hat with ⟨-, rfl⟩ | ⟨-, hat⟩
    · cases hstill.symm.trans hholds
    · exact h.holder hat hholds
  stand := by
    cases h.stand with
    | free hfree hslot hempty => exact .free hfree hslot hempty
    | @taken u task hholder hat hserves =>
      have hne : t ≠ u := by
        rintro rfl
        cases (hidle task hat).symm.trans (holds_of_serves hserves)
      exact .taken hholder ((task?_setTask_ne x next hne).trans hat) hserves

theorem Held.proceed (h : Held c x) (hat : x.task? t = some task) (hidle : task.holds = false)
    (hholder : c'.holder = c.holder) (hhandle : c'.handle = c.handle) (hsends : y.sends = x.sends)
    (htasks : y.task? = (x.setTask t next).task?) (hstill : next.holds = false) : Held c' y :=
  (h.setTask (forall_task? hat hidle) hstill).of_eq hholder hhandle hsends htasks

theorem Held.hold (h : ∀ u task, t ≠ u → x.task? u = some task → task.holds = false)
    (hholder : c'.holder = some t) (htasks : y.task? = (x.setTask t next).task?)
    (hserves : y.sends.Serves c'.handle t next) : Held c' y where
  holder {u} {task} hat hholds := by
    rw [htasks] at hat
    rcases of_task?_setTask hat with ⟨rfl, -⟩ | ⟨hne, hat⟩
    · exact hholder
    · cases (h u task hne hat).symm.trans hholds
  stand := .taken hholder (by rw [htasks, task?_setTask_self]) hserves

theorem Held.others (h : Held c x) (hat : x.task? t = some task) (hholds : task.holds = true) :
    ∀ u other, t ≠ u → x.task? u = some other → other.holds = false := by
  intro u other hne hother
  by_contra hnot
  have hholder := h.holder hother (by simpa using hnot)
  exact hne (Option.some.inj ((h.holder hat hholds).symm.trans hholder))

theorem Held.finish (h : Held c x) (state : SendState) (hended : state ≠ .sending)
    (hsends : y.sends = (x.sends.finish c.handle state).2) (htasks : y.task? = x.task?) :
    Held c y where
  holder hat := h.holder (htasks ▸ hat)
  stand := by
    cases h.stand with
    | free hfree hslot hempty =>
      have hsame : (x.sends.finish c.handle state).2 = x.sends :=
        SendRoom.finish_of_ne (by rw [← slot, hslot]; simp) state
      rw [hsame] at hsends
      exact .free hfree (by rw [slot, hsends]; exact hslot) (hsends ▸ hempty)
    | taken hheld hat hserves =>
      exact .taken hheld (htasks ▸ hat) (hsends ▸ hserves.finish hended)

theorem Held.change (h : Held c x) (hp : Placed id c x) (hc : Changes id c x c' y) :
    Held c' y := by
  cases hc with
  | starts hnew hnext => exact h.setTask (by simp [hnew]) hnext.still
  | stirs hsends hrooms => exact h.of_eq rfl rfl (y := x.setStack _) hsends rfl
  | reports i status =>
    cases hsome : x.device.shipments[i]? with
    | none => exact (report_eq_self x i status hsome).symm ▸ h
    | some shipment =>
      have hhandle := hp.handle shipment (List.mem_of_getElem? hsome)
      refine h.finish (.done status) (by simp) ?_ (funext (task?_report x i status))
      rw [sends_report x i status hsome, hhandle]
  | @advances t task c' y hat ha =>
    cases ha with
    | waits => exact h
    | roams hroams hsends => exact h.proceed hat hroams.idle rfl rfl hsends rfl hroams.still
    | locks hfree =>
      refine .hold (fun u other _ hother => ?_) rfl rfl ?_
      · by_contra hnot
        cases hfree.symm.trans (h.holder hother (by simpa using hnot))
      · cases h.stand with
        | free _ hslot hempty => exact .before hslot hempty
        | taken hholder => cases hfree.symm.trans hholder
    | begins hstart =>
      refine .hold (h.others hat rfl) (h.holder hat rfl) rfl ?_
      cases h.serves hat rfl with
      | before hslot hempty =>
        refine .begun (fun hnone => ?_) ⟨hempty.parked, hempty.roused⟩
        cases (SendRoom.slot_start hstart).symm.trans hnone
    | refused hbusy =>
      cases h.serves hat rfl with
      | before hslot hempty =>
        cases hslot.symm.trans (SendRoom.isSending_iff_slot.1 hbusy)
    | ships =>
      refine .hold (h.others hat rfl) (h.holder hat rfl) rfl ?_
      cases h.serves hat rfl with
      | begun hslot hempty => exact .shipped hslot hempty
    | watches htask hfetches hserves =>
      have hholds : task.holds = true := by rcases htask with rfl | rfl <;> rfl
      exact .hold (h.others hat hholds) (h.holder hat hholds) rfl (hserves (h.serves hat hholds))
    | unlocks =>
      cases h.serves hat rfl with
      | after hslot hempty =>
        refine ⟨fun hat' hholds => ?_, .free rfl hslot hempty⟩
        rcases of_task?_setTask hat' with ⟨-, rfl⟩ | ⟨hne, hat'⟩
        · cases hholds
        · cases (h.others hat rfl _ _ hne hat').symm.trans hholds
    | closes hopen => exact h.proceed hat rfl rfl rfl rfl rfl rfl
    | interrupts =>
      have hended : Held c (x.setSends (x.device.stack.sends.interrupt c.handle)) :=
        h.finish .interrupted (by simp) rfl rfl
      exact hended.proceed hat rfl rfl rfl rfl rfl rfl
    | leaves hrooms hhere => exact h.proceed hat rfl rfl rfl rfl rfl rfl

end Line

end MultimediaMessaging
