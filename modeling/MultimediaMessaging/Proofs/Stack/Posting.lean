import MultimediaMessaging.Proofs.Stack.Holding

/-!
What the sends on a line get. The tracker knows the connection of an outcome and not the call, so a
call can be given the outcome of another one; for that its transfer has to begin while another is
under way, and only a call that was late when the sends were interrupted can do so.

Main statement: `outcome_of_send`.
-/

set_option autoImplicit false

namespace MultimediaMessaging

namespace Line

variable {τ : Type} [DecidableEq τ] {x y : Line τ} {id : RoomId} {c c' : Connection τ} {t : τ}
  {task next : Task}

theorem holds_of_isUnderway (h : task.isUnderway = true) : task.holds = true := by
  cases task <;> first | rfl | cases h

theorem isUnderway_of_holds (h : task.holds = false) : task.isUnderway = false := by
  cases task <;> first | rfl | cases h

/-- Once the sends were interrupted, no call begins a transfer or waits for its outcome but those
that were late. -/
structure Lapse (c : Connection τ) (x : Line τ) : Prop where
  closing {t : τ} {task : Task} : x.task? t = some task → task.isClosing = true → c.closed = true
  closed : x.late ≠ none → c.closed = true
  slipped {late : List τ} {t : τ} {task : Task} : x.late = some late → x.task? t = some task →
    task.isSlipping = true → t ∈ late
  sending {late : List τ} {t : τ} {task : Task} : x.late = some late → x.task? t = some task →
    task.isUnderway = true → x.slot c = some .sending → t ∈ late
  interrupted : x.slot c = some .interrupted → x.late ≠ none

theorem Lapse.keep (h : Lapse c x) (hlate : y.late = x.late) (htasks : y.task? = x.task?)
    (hsending : y.slot c = some .sending → x.slot c = some .sending)
    (hinterrupted : y.slot c = some .interrupted → x.slot c = some .interrupted) : Lapse c y where
  closing hat := h.closing (htasks ▸ hat)
  closed hnot := h.closed (hlate ▸ hnot)
  slipped hsome hat := h.slipped (hlate ▸ hsome) (htasks ▸ hat)
  sending hsome hat hon hy := h.sending (hlate ▸ hsome) (htasks ▸ hat) hon (hsending hy)
  interrupted hy := hlate ▸ h.interrupted (hinterrupted hy)

theorem Lapse.proceed (h : Lapse c x) (hclosed : c.closed = true → c'.closed = true)
    (hlate : y.late = x.late) (htasks : y.task? = (x.setTask t next).task?)
    (hslot : ∀ u task, t ≠ u → x.task? u = some task → task.isUnderway = true →
      y.slot c' = some .sending → x.slot c = some .sending)
    (hinterrupted : y.slot c' = some .interrupted → x.slot c = some .interrupted)
    (hclosing : next.isClosing = true → c'.closed = true)
    (hslipped : ∀ late, x.late = some late → next.isSlipping = true → t ∈ late)
    (hsending : ∀ late, x.late = some late → next.isUnderway = true → y.slot c' = some .sending →
      t ∈ late) : Lapse c' y := by
  refine ⟨fun hat hon => ?_, fun hnot => hclosed (h.closed (hlate ▸ hnot)),
    fun hsome hat hon => ?_, fun hsome hat hon hy => ?_,
    fun hy => hlate ▸ h.interrupted (hinterrupted hy)⟩
  all_goals
    rw [htasks] at hat
    rcases of_task?_setTask hat with ⟨rfl, rfl⟩ | ⟨hne, hat⟩
  · exact hclosing hon
  · exact hclosed (h.closing hat hon)
  · exact hslipped _ (hlate ▸ hsome) hon
  · exact h.slipped (hlate ▸ hsome) hat hon
  · exact hsending _ (hlate ▸ hsome) hon hy
  · exact h.sending (hlate ▸ hsome) hat hon (hslot _ _ hne hat hon hy)

theorem Lapse.pass (h : Lapse c x) (hclosed : c.closed = true → c'.closed = true)
    (hlate : y.late = x.late) (htasks : y.task? = (x.setTask t next).task?)
    (hslot : y.slot c' = x.slot c) (hclosing : next.isClosing = true → c'.closed = true)
    (hslipped : ∀ late, x.late = some late → next.isSlipping = true → t ∈ late)
    (hidle : next.isUnderway = false) : Lapse c' y :=
  h.proceed hclosed hlate htasks (fun _ _ _ _ _ => hslot ▸ id) (fun hy => hslot ▸ hy) hclosing
    hslipped fun _ _ hunderway => by cases hidle.symm.trans hunderway

omit [DecidableEq τ] in
theorem late_noteInterrupt (x : Line τ) :
    ∃ late, x.noteInterrupt.late = some late ∧ (∀ old, x.late = some old → old = late) ∧
      (x.late = none → late = x.slipping) := by
  cases hlate : x.late with
  | none => exact ⟨x.slipping, by simp [noteInterrupt, hlate], nofun, fun _ => rfl⟩
  | some old =>
    exact ⟨old, by simp [noteInterrupt, hlate], fun _ h => (Option.some.inj h).symm, nofun⟩

theorem mem_slipping (hat : x.task? t = some task) (hslipping : task.isSlipping = true) :
    t ∈ x.slipping :=
  List.mem_map.2 ⟨(t, task), List.mem_filter.2 ⟨Table.mem_of_get? hat, hslipping⟩, rfl⟩

theorem Lapse.interrupt (h : Lapse c x) (hclosed : c.closed = true) :
    Lapse c (x.noteInterrupt.setSends (x.sends.interrupt c.handle)) := by
  obtain ⟨late, hlate, hold, hnew⟩ := late_noteInterrupt x
  -- whoever has begun is interrupted, and whoever has not is noted
  have hsilent : slot (x.setSends (x.sends.interrupt c.handle)) c ≠ some .sending := by
    change (x.sends.finish c.handle .interrupted).2.slot c.handle ≠ some .sending
    rw [SendRoom.slot_finish]
    split
    · simp
    · assumption
  refine ⟨fun _ _ => hclosed, fun _ => hclosed, fun hsome hat hslipping => ?_,
    fun _ _ _ hy => absurd hy hsilent, fun _ => by simp [setDevice, setSends, hlate]⟩
  cases hlate.symm.trans hsome
  cases hbefore : x.late with
  | none => exact hnew hbefore ▸ mem_slipping hat hslipping
  | some old => exact hold old hbefore ▸ h.slipped hbefore hat hslipping

theorem Lapse.watch {sends : SendRoom τ} {result : Option (Except WaitError SendStatus)}
    (h : Lapse c x) (hat : x.task? t = some task)
    (htask : task = .watchSend id ∨ task = .awaitSend id)
    (hfetches : SendRoom.Fetches (x.slot c) (sends.slot c.handle) result) :
    Lapse c ((x.setSends sends).setTask t (.afterWatch id result)) := by
  have hon : task.isUnderway = true := by rcases htask with rfl | rfl <;> rfl
  cases hfetches with
  | waits hbefore hafter =>
    exact h.proceed (fun hclosed => hclosed) rfl rfl (fun _ _ _ _ _ _ => hbefore)
      (fun hy => by cases hafter.symm.trans hy) nofun nofun
      fun late hlate _ _ => h.sending hlate hat hon hbefore
  | told _ hafter | released _ hafter =>
    exact h.proceed (fun hclosed => hclosed) rfl rfl
      (fun _ _ _ _ _ hy => by cases hafter.symm.trans hy)
      (fun hy => by cases hafter.symm.trans hy) nofun nofun nofun

theorem Lapse.change (h : Lapse c x) (hh : Held c x) (hp : Placed id c x)
    (hc : Changes id c x c' y) : Lapse c' y := by
  cases hc with
  | starts hnew hnext =>
    exact h.pass (fun hclosed => hclosed) rfl rfl rfl
      (fun hon => by cases hnext.closing.symm.trans hon)
      (fun _ _ hon => by cases hnext.slipping.symm.trans hon) (isUnderway_of_holds hnext.still)
  | @stirs stack hsends hrooms =>
    have hslot : (x.setStack stack).slot c = x.slot c := congrArg (SendRoom.slot · c.handle) hsends
    exact h.keep rfl rfl (fun hy => hslot ▸ hy) fun hy => hslot ▸ hy
  | reports i status =>
    cases hsome : x.device.shipments[i]? with
    | none => exact (report_eq_self x i status hsome).symm ▸ h
    | some shipment =>
      have hslot := slot_report hsome (hp.handle shipment (List.mem_of_getElem? hsome)) status
      refine h.keep rfl (funext (task?_report x i status)) (fun hy => ?_) fun hy => ?_ <;>
        rw [hslot] at hy <;> split at hy
      · cases hy
      · exact hy
      · cases hy
      · exact hy
  | @advances t task c' y hat ha =>
    cases ha with
    | waits => exact h
    | roams hroams hsends =>
      refine h.pass (fun hclosed => hclosed) rfl rfl (congrArg (SendRoom.slot · c.handle) hsends)
        (fun hon => h.closing hat (hroams.closing ▸ hon)) (fun late hlate hon => ?_)
        (isUnderway_of_holds hroams.still)
      rcases hroams.slipping hon with hslipping | hopen
      · exact h.slipped hlate hat hslipping
      · cases hopen.symm.trans (h.closed (by simp [hlate]))
    | locks hfree =>
      exact h.pass (fun hclosed => hclosed) rfl rfl rfl nofun
        (fun late hlate _ => h.slipped hlate hat rfl) rfl
    | begins hstart =>
      have hslot := SendRoom.slot_start hstart
      refine h.proceed (fun hclosed => hclosed) rfl rfl (fun u other hne hother hon => ?_)
        (fun hy => ?_) nofun nofun fun late hlate _ _ => h.slipped hlate hat rfl
      · cases (hh.others hat rfl u other hne hother).symm.trans (holds_of_isUnderway hon)
      · cases hslot.symm.trans hy
    | refused hbusy => exact h.pass (fun hclosed => hclosed) rfl rfl rfl nofun nofun rfl
    | ships =>
      exact h.proceed (fun hclosed => hclosed) rfl rfl (fun _ _ _ _ _ hy => hy) (fun hy => hy)
        nofun nofun fun late hlate _ hy => h.sending hlate hat rfl hy
    | watches htask hfetches => exact h.watch hat htask hfetches
    | unlocks => exact h.pass (fun hclosed => hclosed) rfl rfl rfl nofun nofun rfl
    | closes hopen => exact h.pass (fun _ => rfl) rfl rfl rfl (fun _ => rfl) nofun rfl
    | interrupts =>
      have hclosed := h.closing hat rfl
      exact (h.interrupt hclosed).pass (fun _ => hclosed) rfl rfl rfl (fun _ => hclosed) nofun rfl
    | leaves hrooms hhere => exact h.pass (fun hclosed => hclosed) rfl rfl rfl nofun nofun rfl

/-- How the transfer of `t` fares while no other is under way. -/
inductive Fares (c : Connection τ) (x : Line τ) (t : τ) : Task → Prop where
  | begun {id : RoomId} {parcel : Parcel} (hshipments : x.device.shipments = [])
      (hslot : x.slot c = some .sending ∨ x.slot c = some .interrupted) :
      Fares c x t (.handOver id parcel)
  | shipped {id : RoomId} {task : Task} {parcel : Parcel}
      (htask : task = .watchSend id ∨ task = .awaitSend id)
      (hshipments : x.device.shipments = [⟨t, c.handle, parcel⟩])
      (hslot : x.slot c = some .sending ∨ x.slot c = some .interrupted) : Fares c x t task
  | reported {id : RoomId} {task : Task} {status : SendStatus}
      (htask : task = .watchSend id ∨ task = .awaitSend id) (hshipments : x.device.shipments = [])
      (htold : (t, status) ∈ x.reports)
      (hslot : x.slot c = some (.done status) ∨ x.slot c = some .interrupted) : Fares c x t task

section Fares

omit [DecidableEq τ]

theorem Fares.of_eq (h : Fares c x t task) (hshipments : y.device.shipments = x.device.shipments)
    (hreports : y.reports = x.reports) (hhandle : c'.handle = c.handle)
    (hslot : y.slot c' = x.slot c) : Fares c' y t task := by
  cases h with
  | begun hnone hopen => exact .begun (hshipments.trans hnone) (hslot ▸ hopen)
  | shipped htask hone hopen =>
    exact .shipped htask (hhandle ▸ hshipments.trans hone) (hslot ▸ hopen)
  | reported htask hnone htold hended =>
    exact .reported htask (hshipments.trans hnone) (hreports ▸ htold) (hslot ▸ hended)

/-- The parcel of `t` itself is the only one whose end can be reported. -/
theorem Fares.report {i : Nat} {shipment : Shipment τ} (h : Fares c x t task)
    (hsome : x.device.shipments[i]? = some shipment) (status : SendStatus) :
    Fares c (x.report i status) t task := by
  cases h with
  | begun hnone => simp [hnone] at hsome
  | reported _ hnone => simp [hnone] at hsome
  | @shipped _ _ parcel htask hone hopen =>
    rw [hone] at hsome
    obtain ⟨rfl, rfl⟩ : i = 0 ∧ (⟨t, c.handle, parcel⟩ : Shipment τ) = shipment := by
      simpa [List.getElem?_singleton] using hsome
    have hfirst : x.device.shipments[0]? = some ⟨t, c.handle, parcel⟩ := by rw [hone]; rfl
    have htold : (t, status) ∈ (x.report 0 status).reports := by simp [Line.report, hfirst]
    refine .reported htask ?_ htold ?_
    · rw [shipments_report, hone]
      rfl
    · rw [slot_report hfirst rfl]
      rcases hopen with hopen | hopen <;> simp [hopen]

theorem Fares.interrupt (h : Fares c x t task)
    (hshipments : y.device.shipments = x.device.shipments) (hreports : y.reports = x.reports)
    (hslot : y.slot c = if x.slot c = some .sending then some .interrupted else x.slot c) :
    Fares c y t task := by
  cases h with
  | begun hnone hopen =>
    refine .begun (hshipments.trans hnone) ?_
    rcases hopen with hopen | hopen <;> simp [hslot, hopen]
  | shipped htask hone hopen =>
    refine .shipped htask (hshipments.trans hone) ?_
    rcases hopen with hopen | hopen <;> simp [hslot, hopen]
  | reported htask hnone htold hended =>
    refine .reported htask (hshipments.trans hnone) (hreports ▸ htold) ?_
    rcases hended with hended | hended <;> simp [hslot, hended]

theorem Fares.shipments_of_ended (h : Fares c x t task) (hsending : x.slot c ≠ some .sending)
    (hinterrupted : x.slot c ≠ some .interrupted) : x.device.shipments = [] := by
  cases h with
  | begun hnone => exact hnone
  | shipped _ _ hopen => exact (hopen.elim hsending hinterrupted).elim
  | reported _ hnone => exact hnone

theorem Fares.told {status : SendStatus} (h : Fares c x t task)
    (hdone : x.slot c = some (.done status)) : (t, status) ∈ x.reports := by
  cases h with
  | begun _ hopen => rcases hopen with hopen | hopen <;> cases hopen.symm.trans hdone
  | shipped _ _ hopen => rcases hopen with hopen | hopen <;> cases hopen.symm.trans hdone
  | reported _ _ htold hended =>
    rcases hended with hended | hended
    · cases hended.symm.trans hdone
      exact htold
    · cases hended.symm.trans hdone

end Fares

theorem Fares.wait {sends : SendRoom τ} (h : Fares c x t task)
    (htask : task = .watchSend id ∨ task = .awaitSend id) (hbefore : x.slot c = some .sending)
    (hafter : sends.slot c.handle = some .sending) :
    Fares c ((x.setSends sends).setTask t next) t (.awaitSend id) := by
  cases h with
  | begun => rcases htask with htask | htask <;> cases htask
  | shipped _ hone => exact .shipped (.inr rfl) hone (.inl hafter)
  | reported _ _ _ hended => rcases hended with hended | hended <;> cases hended.symm.trans hbefore

/-- No transfer is under way for a call that does not wait for its outcome, unless the sends were
interrupted; and what a call gets its own transfer reported, unless it was in a crowd. -/
structure Owned (c : Connection τ) (x : Line τ) : Prop where
  settled : x.late = none → (∀ t task, x.task? t = some task → task.isUnderway = false) →
    x.device.shipments = []
  fares {t : τ} {task : Task} : x.task? t = some task → task.isUnderway = true →
    t ∈ x.crowded ∨ Fares c x t task
  told {t : τ} {task : Task} {status : SendStatus} : x.task? t = some task →
    task.status? = some status → t ∈ x.crowded ∨ (t, status) ∈ x.reports
  crowded {t : τ} : t ∈ x.crowded → ∃ late, x.late = some late ∧ t ∈ late

structure Spares (c : Connection τ) (x : Line τ) (c' : Connection τ) (y : Line τ) : Prop where
  late : y.late = x.late := by rfl
  crowded : y.crowded = x.crowded := by rfl
  shipments : y.device.shipments = x.device.shipments := by rfl
  reports : y.reports = x.reports := by rfl
  handle : c'.handle = c.handle := by rfl
  slot : y.slot c' = x.slot c := by rfl

theorem Owned.spare (h : Owned c x) (hspares : Spares c x c' y) (htasks : y.task? = x.task?) :
    Owned c' y where
  settled hnone hall :=
    hspares.shipments.trans (h.settled (hspares.late ▸ hnone) (htasks ▸ hall))
  fares hat hon := by
    rw [hspares.crowded]
    exact (h.fares (htasks ▸ hat) hon).imp_right
      (·.of_eq hspares.shipments hspares.reports hspares.handle hspares.slot)
  told hat hstatus := by
    rw [hspares.crowded, hspares.reports]
    exact h.told (htasks ▸ hat) hstatus
  crowded hmem := hspares.late ▸ h.crowded (hspares.crowded ▸ hmem)

theorem Owned.setTask (h : Owned c x)
    (hat : ∀ task, x.task? t = some task → task.isUnderway = false)
    (hidle : next.isUnderway = false)
    (htold : ∀ status, next.status? = some status → t ∈ x.crowded ∨ (t, status) ∈ x.reports) :
    Owned c (x.setTask t next) where
  settled hnone hall := h.settled hnone fun u task hu => by
    by_cases htu : t = u
    · exact hat task (htu ▸ hu)
    · exact hall u task ((task?_setTask_ne x next htu).trans hu)
  fares hu hon := by
    rcases of_task?_setTask hu with ⟨-, rfl⟩ | ⟨-, hu⟩
    · cases hidle.symm.trans hon
    · exact (h.fares hu hon).imp_right (·.of_eq rfl rfl rfl rfl)
  told hu hstatus := by
    rcases of_task?_setTask hu with ⟨rfl, rfl⟩ | ⟨-, hu⟩
    · exact htold _ hstatus
    · exact h.told hu hstatus
  crowded := h.crowded

theorem Owned.proceed (h : Owned c x)
    (hat : ∀ task, x.task? t = some task → task.isUnderway = false)
    (hidle : next.isUnderway = false) (hspares : Spares c x c' y)
    (htasks : y.task? = (x.setTask t next).task?)
    (htold : ∀ status, next.status? = some status → t ∈ x.crowded ∨ (t, status) ∈ x.reports) :
    Owned c' y :=
  (h.setTask hat hidle htold).spare
    ⟨hspares.late, hspares.crowded, hspares.shipments, hspares.reports, hspares.handle,
      hspares.slot⟩ htasks

theorem Owned.hold (h : Owned c x)
    (hothers : ∀ u other, t ≠ u → x.task? u = some other → other.holds = false)
    (hlate : y.late = x.late) (htasks : y.task? = (x.setTask t next).task?)
    (hreports : y.reports = x.reports)
    (hmore : ∀ u, u ∈ x.crowded → u ∈ y.crowded)
    (hcrowded : ∀ u, u ∈ y.crowded → u ∈ x.crowded ∨ ∃ late, x.late = some late ∧ u ∈ late)
    (hsettled : x.late = none → next.isUnderway = false → y.device.shipments = [])
    (hfares : next.isUnderway = true → t ∈ y.crowded ∨ Fares c' y t next)
    (htold : ∀ status, next.status? = some status → t ∈ y.crowded ∨ (t, status) ∈ x.reports) :
    Owned c' y := by
  refine ⟨fun hnone hall => hsettled (hlate ▸ hnone) (hall t next ?_), fun hu hon => ?_,
    fun hu hstatus => ?_, fun hmem => ?_⟩
  · rw [htasks, task?_setTask_self]
  · rw [htasks] at hu
    rcases of_task?_setTask hu with ⟨rfl, rfl⟩ | ⟨hne, hu⟩
    · exact hfares hon
    · cases (hothers _ _ hne hu).symm.trans (holds_of_isUnderway hon)
  · rw [htasks] at hu
    rcases of_task?_setTask hu with ⟨rfl, rfl⟩ | ⟨-, hu⟩
    · exact hreports ▸ htold _ hstatus
    · exact hreports ▸ (h.told hu hstatus).imp_left (hmore _)
  · rcases hcrowded _ hmem with hold | hnew
    · exact hlate ▸ h.crowded hold
    · exact hlate ▸ hnew

/-- Nobody but the thread that sends has a transfer under way. -/
theorem Owned.shipments_of_held (h : Owned c x) (hh : Held c x) (hat : x.task? t = some task)
    (hholds : task.holds = true) (hidle : task.isUnderway = false) (hlate : x.late = none) :
    x.device.shipments = [] := by
  refine h.settled hlate fun u other hu => ?_
  by_cases htu : t = u
  · subst htu
    cases hat.symm.trans hu
    exact hidle
  · exact isUnderway_of_holds (hh.others hat hholds u other htu hu)

section Tasks

omit [DecidableEq τ]

theorem Roams.status?_eq_none (h : Roams id c task next) : next.status? = none := by
  have hstatus := h.status
  have hstill := h.still
  unfold Task.status?
  split
  · cases hstill
  · exact absurd rfl (hstatus _)
  · rfl

theorem Roams.isPast_eq_false (h : Roams id c task next) : task.isPast = false := by
  have hidle := h.idle
  have hunfinished := h.unfinished
  cases task <;> simp_all [Task.isPast, Task.holds, Task.isFinished]

theorem status?_finished (id : RoomId) (result : Except StackError Reply) :
    (Task.finished result).status? = (Task.unlock id result).status? := by
  cases result with
  | error e => rfl
  | ok reply => cases reply <;> rfl

theorem crowded_noteStart (x : Line τ) (t : τ) :
    (x.device.shipments = [] ∧ (x.noteStart t).crowded = x.crowded) ∨
      (x.device.shipments ≠ [] ∧ (x.noteStart t).crowded = t :: x.crowded) := by
  by_cases hempty : x.device.shipments = []
  · exact .inl ⟨hempty, by simp [noteStart, hempty]⟩
  · exact .inr ⟨hempty, by simp [noteStart, hempty]⟩

end Tasks

theorem Owned.begin {parcel : Parcel} {tracker : SendTracker} (h : Owned c x) (hh : Held c x)
    (hl : Lapse c x) (hat : x.task? t = some (.startSend id parcel))
    (hstart : x.sends.tracker.start c.handle = (true, tracker)) :
    Owned c
      (((x.noteStart t).setSends { x.sends with tracker }).setTask t (.handOver id parcel)) := by
  have hslot := SendRoom.slot_start hstart
  rcases crowded_noteStart x t with ⟨hempty, hcrowded⟩ | ⟨hbusy, hcrowded⟩
  · refine h.hold (hh.others hat rfl) rfl rfl rfl (fun u hu => hcrowded ▸ hu)
      (fun u hu => .inl (hcrowded ▸ hu)) nofun (fun _ => ?_) nofun
    exact .inr (.begun hempty (.inl hslot))
  · refine h.hold (hh.others hat rfl) rfl rfl rfl
      (fun u hu => hcrowded ▸ List.mem_cons_of_mem t hu) (fun u hu => ?_) nofun (fun _ => ?_) nofun
    · rcases List.mem_cons.1 (hcrowded ▸ hu) with rfl | hold
      -- until the sends are interrupted, nobody's transfer outlives the call that waits for it
      · cases hlate : x.late with
        | none => exact absurd (h.shipments_of_held hh hat rfl rfl hlate) hbusy
        | some late => exact .inr ⟨late, rfl, hl.slipped hlate hat rfl⟩
      · exact .inl hold
    · exact .inl (hcrowded ▸ List.mem_cons_self)

theorem Owned.ship {parcel : Parcel} (h : Owned c x) (hh : Held c x)
    (hat : x.task? t = some (.handOver id parcel)) :
    Owned c ((x.setDevice { x.device with
      shipments := x.device.shipments ++ [⟨t, c.handle, parcel⟩] }).setTask t (.watchSend id)) := by
  refine h.hold (hh.others hat rfl) rfl rfl rfl (fun _ hu => hu) (fun _ hu => .inl hu) nofun
    (fun _ => (h.fares hat rfl).imp_right fun hfares => ?_) nofun
  cases hfares with
  | begun hempty hslot => exact .shipped (.inl rfl) (congrArg (· ++ [_]) hempty) hslot
  | shipped htask => rcases htask with htask | htask <;> cases htask
  | reported htask => rcases htask with htask | htask <;> cases htask

theorem Owned.watch {sends : SendRoom τ} {result : Option (Except WaitError SendStatus)}
    (h : Owned c x) (hh : Held c x) (hl : Lapse c x) (hat : x.task? t = some task)
    (htask : task = .watchSend id ∨ task = .awaitSend id)
    (hfetches : SendRoom.Fetches (x.slot c) (sends.slot c.handle) result) :
    Owned c ((x.setSends sends).setTask t (.afterWatch id result)) := by
  have hon : task.isUnderway = true := by rcases htask with rfl | rfl <;> rfl
  have hfares := h.fares hat hon
  have hsettled (hnone : x.late = none) (hended : x.slot c ≠ some .sending) :
      x.device.shipments = [] := by
    rcases hfares with hcrowded | hfares
    · obtain ⟨late, hlate, -⟩ := h.crowded hcrowded
      cases hlate.symm.trans hnone
    · exact hfares.shipments_of_ended hended fun hy => hl.interrupted hy hnone
  have hothers := hh.others hat (holds_of_isUnderway hon)
  cases hfetches with
  | waits hbefore hafter =>
    exact h.hold hothers rfl rfl rfl (fun _ hu => hu) (fun _ hu => .inl hu) nofun
      (fun _ => hfares.imp_right (·.wait htask hbefore hafter)) nofun
  | told hbefore hafter =>
    refine h.hold hothers rfl rfl rfl (fun _ hu => hu) (fun _ hu => .inl hu)
      (fun hnone _ => hsettled hnone fun hy => by cases hbefore.symm.trans hy) nofun
      fun status hstatus => ?_
    cases hstatus
    exact hfares.imp_right (·.told hbefore)
  | released hbefore hafter =>
    refine h.hold hothers rfl rfl rfl (fun _ hu => hu) (fun _ hu => .inl hu)
      (fun hnone _ => hsettled hnone fun hy => ?_) nofun nofun
    rcases hbefore with hbefore | hbefore <;> cases hbefore.symm.trans hy

theorem Owned.interrupt (h : Owned c x) :
    Owned c (x.noteInterrupt.setSends (x.sends.interrupt c.handle)) := by
  have hslot := SendRoom.slot_finish x.sends c.handle .interrupted
  obtain ⟨late, hlate, hold, -⟩ := late_noteInterrupt x
  refine ⟨fun hnone => ?_,
    fun hu hon => (h.fares hu hon).imp_right (·.interrupt rfl rfl hslot), h.told,
    fun hmem => ⟨late, hlate, ?_⟩⟩
  · cases hlate.symm.trans hnone
  · obtain ⟨old, hbefore, hmem⟩ := h.crowded hmem
    exact hold old hbefore ▸ hmem

theorem Owned.report (h : Owned c x) (i : Nat) (status : SendStatus) :
    Owned c (x.report i status) := by
  cases hsome : x.device.shipments[i]? with
  | none => exact (report_eq_self x i status hsome).symm ▸ h
  | some shipment =>
    refine ⟨fun hnone hall => ?_, fun hat hon => ?_, fun hat hstatus => ?_, h.crowded⟩
    · have hempty := h.settled hnone (by simpa using hall)
      simp [hempty] at hsome
    · rw [task?_report] at hat
      exact (h.fares hat hon).imp_right (·.report hsome status)
    · rw [task?_report] at hat
      exact (h.told hat hstatus).imp_right (List.mem_append_left _)

theorem Owned.change (h : Owned c x) (hh : Held c x) (hl : Lapse c x)
    (hc : Changes id c x c' y) : Owned c' y := by
  cases hc with
  | starts hnew hnext =>
    exact h.setTask (by simp [hnew]) (isUnderway_of_holds hnext.still) (by simp [hnext.status])
  | stirs hsends => exact h.spare { slot := congrArg (SendRoom.slot · c.handle) hsends } rfl
  | reports i status => exact h.report i status
  | @advances t task c' y hat ha =>
    have hidle (hnot : task.isUnderway = false) :
        ∀ other, x.task? t = some other → other.isUnderway = false := forall_task? hat hnot
    cases ha with
    | waits => exact h
    | roams hroams hsends =>
      exact h.proceed (hidle (isUnderway_of_holds hroams.idle)) (isUnderway_of_holds hroams.still)
        { slot := congrArg (SendRoom.slot · c.handle) hsends } rfl
        (by simp [hroams.status?_eq_none])
    | locks => exact h.proceed (hidle rfl) rfl {} rfl fun _ hstatus => by cases hstatus
    | begins hstart => exact h.begin hh hl hat hstart
    | refused hbusy =>
      cases hh.serves hat rfl with
      | before hslot hempty =>
        cases hslot.symm.trans (SendRoom.isSending_iff_slot.1 hbusy)
    | ships => exact h.ship hh hat
    | watches htask hfetches => exact h.watch hh hl hat htask hfetches
    | unlocks =>
      exact h.proceed (hidle rfl) rfl {} rfl fun _ hstatus =>
        h.told hat (status?_finished id _ ▸ hstatus)
    | closes => exact h.proceed (hidle rfl) rfl {} rfl fun _ hstatus => by cases hstatus
    | interrupts => exact h.interrupt.setTask (hidle rfl) rfl fun _ hstatus => by cases hstatus
    | leaves => exact h.proceed (hidle rfl) rfl {} rfl fun _ hstatus => by cases hstatus

/-- The calls whose transfers are under way or have ended. -/
def posted (x : Line τ) : List τ :=
  x.device.shipments.map (·.thread) ++ x.reports.map Prod.fst

/-- Every call has at most one transfer, which ends at most once. -/
structure Ledger (x : Line τ) : Prop where
  nodup : x.posted.Nodup
  past {t : τ} : t ∈ x.posted → ∃ task, x.task? t = some task ∧ task.isPast = true

theorem Ledger.proceed (h : Ledger x) (hposted : y.posted = x.posted)
    (htasks : y.task? = (x.setTask t next).task?)
    (hpast : ∀ task, x.task? t = some task → task.isPast = true → next.isPast = true) :
    Ledger y where
  nodup := hposted ▸ h.nodup
  past {u} hmem := by
    obtain ⟨task, hat, hon⟩ := h.past (hposted ▸ hmem)
    rw [htasks]
    by_cases htu : t = u
    · subst htu
      exact ⟨next, task?_setTask_self x t next, hpast task hat hon⟩
    · exact ⟨task, (task?_setTask_ne x next htu).trans hat, hon⟩

omit [DecidableEq τ] in
theorem posted_report (x : Line τ) (i : Nat) (status : SendStatus) :
    (x.report i status).posted.Perm x.posted := by
  cases hsome : x.device.shipments[i]? with
  | none => rw [report_eq_self x i status hsome]
  | some shipment =>
    obtain ⟨hlt, hget⟩ := List.getElem?_eq_some_iff.1 hsome
    have hshipments := List.getElem_cons_eraseIdx_perm hlt
    rw [hget] at hshipments
    have hmoved := List.perm_append_singleton shipment.thread
      ((x.device.shipments.eraseIdx i).map (·.thread) ++ x.reports.map Prod.fst)
    have hreports : (x.report i status).reports = x.reports ++ [(shipment.thread, status)] := by
      simp [report, hsome]
    rw [posted, shipments_report, hreports, List.map_append, ← List.append_assoc]
    exact hmoved.trans ((hshipments.map (·.thread)).append_right _)

theorem Ledger.change (h : Ledger x) (hc : Changes id c x c' y) : Ledger y := by
  cases hc with
  | starts hnew hnext => exact h.proceed rfl rfl (by simp [hnew])
  | stirs hsends hrooms => exact ⟨h.nodup, h.past⟩
  | reports i status =>
    have hperm := posted_report x i status
    exact ⟨hperm.nodup_iff.2 h.nodup, fun hmem => by
      simpa using h.past (hperm.mem_iff.1 hmem)⟩
  | @advances t task c' y hat ha =>
    have hpast {next : Task} (hkept : task.isPast = true → next.isPast = true) :
        ∀ other, x.task? t = some other → other.isPast = true → next.isPast = true :=
      forall_task? hat hkept
    cases ha with
    | waits => exact h
    | roams hroams hsends =>
      refine h.proceed rfl rfl (hpast fun hpast => ?_)
      cases hroams.isPast_eq_false.symm.trans hpast
    | @ships parcel =>
      have hnew : t ∉ x.posted := fun hmem => by
        obtain ⟨task, hat', hpast⟩ := h.past hmem
        cases hat.symm.trans hat'
        cases hpast
      have hperm : (posted ((x.setDevice { x.device with
          shipments := x.device.shipments ++ [⟨t, c.handle, parcel⟩] }).setTask t
            (.watchSend id))).Perm (t :: x.posted) := by
        simp [posted, setTask, setDevice, Device.setTask]
      refine ⟨hperm.nodup_iff.2 (List.nodup_cons.2 ⟨hnew, h.nodup⟩), fun {u} hmem => ?_⟩
      by_cases htu : t = u
      · subst htu
        exact ⟨_, task?_setTask_self _ t _, rfl⟩
      · have hold := (List.mem_cons.1 (hperm.mem_iff.1 hmem)).resolve_left (Ne.symm htu)
        obtain ⟨task, hat', hpast⟩ := h.past hold
        exact ⟨task, (task?_setTask_ne _ _ htu).trans hat', hpast⟩
    | watches htask hfetches hserves =>
      exact h.proceed rfl rfl (hpast fun _ => by cases hfetches <;> rfl)
    | unlocks => exact h.proceed rfl rfl (hpast fun _ => rfl)
    | leaves => exact h.proceed rfl rfl (hpast fun _ => rfl)
    | _ => exact h.proceed rfl rfl (hpast fun hpast => by cases hpast)

structure Invariant (id : RoomId) (c : Connection τ) (x : Line τ) : Prop where
  placed : Placed id c x
  held : Held c x
  lapse : Lapse c x
  owned : Owned c x
  ledger : Ledger x

theorem Invariant.change (h : Invariant id c x) (hc : Changes id c x c' y) : Invariant id c' y where
  placed := h.placed.change hc
  held := h.held.change h.placed hc
  lapse := h.lapse.change h.held h.placed hc
  owned := h.owned.change h.held h.lapse hc
  ledger := h.ledger.change hc

theorem invariant_of_opened {config : Config} {stack stack' : Stack τ} {app : String}
    {suite : Suite} (hnew : Stack.new config = .ok stack)
    (hopen : stack.connect app suite = (.ok c, stack')) :
    Invariant c.room c { device := ({ stack := stack' } : Device τ).setConnection c } := by
  have ho := opened hnew hopen
  have hslot : stack'.sends.slot c.handle = none := by rw [SendRoom.slot, ho.slots]; rfl
  exact
    { placed :=
        { found := Table.get?_put_self _ _ _
          room := rfl
          handle := List.forall_mem_nil _
          on := fun hat => by cases hat }
      held := ⟨(fun hat => by cases hat), .free ho.holder hslot ⟨ho.parked, ho.roused⟩⟩
      lapse :=
        { closing := fun hat => by cases hat
          closed := fun hlate => absurd rfl hlate
          slipped := fun hlate => by cases hlate
          sending := fun hlate => by cases hlate
          interrupted := fun hinterrupted => by cases hslot.symm.trans hinterrupted }
      owned :=
        { settled := fun _ _ => rfl
          fares := fun hat => by cases hat
          told := fun hat => by cases hat
          crowded := fun hmem => by cases hmem }
      ledger := ⟨List.nodup_nil, fun hmem => by cases hmem⟩ }

theorem invariant_of_reachable (h : Reachable id x) : ∃ c, Invariant id c x := by
  induction h with
  | opened hnew hopen hroom =>
    subst hroom
    exact ⟨_, invariant_of_opened hnew hopen⟩
  | step _ hstep ih =>
    obtain ⟨c, h⟩ := ih
    obtain ⟨c', hc⟩ := changes h.placed hstep
    exact ⟨c', h.change hc⟩

/-- A call that sends never finds another one in its way. -/
theorem Invariant.handOver (h : Invariant id c x) {parcel : Parcel}
    (hat : x.task? t = some (.startSend id parcel)) :
    (x.advance t).task? t = some (.handOver id parcel) := by
  obtain ⟨c', ha⟩ := advances hat (h.placed.on hat) h.placed.found
  generalize x.advance t = y at ha
  cases ha with
  | waits hwaits => cases hwaits
  | roams hroams => cases hroams.idle
  | begins => exact task?_setTask_self _ t _
  | refused hbusy =>
    cases h.held.serves hat rfl with
    | before hslot => cases hslot.symm.trans (SendRoom.isSending_iff_slot.1 hbusy)
  | watches htask => rcases htask with htask | htask <;> cases htask

/-- A send gets the outcome of its own transfer, if no other one was under way when that began; and
another one can be under way only for a send that was late. Every send has at most one transfer with
one outcome, and none finds another send in its way. -/
theorem outcome_of_send (h : Reachable id x) :
    (∀ t status, x.task? t = some (.finished (.ok (.status status))) →
        t ∈ x.crowded ∨ (t, status) ∈ x.reports) ∧
      (∀ t ∈ x.crowded, ∃ late, x.late = some late ∧ t ∈ late) ∧
      (x.reports.map Prod.fst).Nodup ∧
      ∀ t parcel, x.task? t = some (.startSend id parcel) →
        (x.advance t).task? t = some (.handOver id parcel) := by
  obtain ⟨c, hinvariant⟩ := invariant_of_reachable h
  exact ⟨fun t status hat => hinvariant.owned.told hat rfl, fun t => hinvariant.owned.crowded,
    (List.nodup_append.1 hinvariant.ledger.nodup).2.1, fun t parcel => hinvariant.handOver⟩

/-- Thread 2 sends while thread 1 does, and its transfer begins when that of thread 1 has ended. -/
def queueing : List (Event Nat) :=
  posting 1 6 ++ posting 2 2 ++ .report 0 .sent :: .replicate 2 (.advance 1) ++
    .replicate 4 (.advance 2) ++ .report 0 .failed :: .replicate 2 (.advance 2)

theorem outcome_of_send_queueing :
    ∃ x, chatting.run? ⟨0⟩ queueing = some x ∧ Reachable ⟨0⟩ x ∧
      x.task? 2 = some (.finished (.ok (.status .failed))) ∧ (2, .failed) ∈ x.reports := by
  have hrun : ∃ x, chatting.run? ⟨0⟩ queueing = some x ∧
      x.task? 2 = some (.finished (.ok (.status .failed))) ∧ x.crowded = [] := ⟨_, rfl, rfl, rfl⟩
  obtain ⟨x, hx, hat, halone⟩ := hrun
  have hreachable := reachable_of_run hx
  have hgot := (outcome_of_send hreachable).1 2 .failed hat
  exact ⟨x, hx, hreachable, hat, hgot.resolve_left (by simp [halone])⟩

/-- Thread 2 has found the connection open and waits for thread 1 when thread 3 closes it. That
sends thread 1 away, and thread 2 begins a transfer beside the one of thread 1. -/
def crossing : List (Event Nat) :=
  posting 1 6 ++ posting 2 2 ++ closing 3 5 ++ .replicate 2 (.advance 1) ++
    .replicate 4 (.advance 2) ++ .report 0 .failed :: .replicate 2 (.advance 2) ++ [.report 0 .sent]

theorem foreign_outcome_of_send :
    ¬ ∀ (id : RoomId) (x : Line Nat), Reachable id x → ∀ t status,
      x.task? t = some (.finished (.ok (.status status))) → (t, status) ∈ x.reports := by
  intro hall
  have hrun : ∃ x, chatting.run? ⟨0⟩ crossing = some x ∧
      x.task? 2 = some (.finished (.ok (.status .failed))) ∧
      x.reports = [(1, .failed), (2, .sent)] := ⟨_, rfl, rfl, rfl⟩
  obtain ⟨x, hx, hat, hreports⟩ := hrun
  have hown := hall ⟨0⟩ x (reachable_of_run hx) 2 .failed hat
  simp [hreports] at hown

end Line

end MultimediaMessaging
