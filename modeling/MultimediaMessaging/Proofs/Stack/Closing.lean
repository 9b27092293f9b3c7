import MultimediaMessaging.Proofs.Stack.Posting

/-!
What is left of the calls on a line when the call that closed the connection has returned. Nobody
sleeps in the wait room any more; only the sends that were late go on as if nobody had closed it.

Main statement: `released_of_returned`.
-/

set_option autoImplicit false

namespace MultimediaMessaging

namespace Line

variable {τ : Type} [DecidableEq τ] {x y : Line τ} {id : RoomId} {c c' : Connection τ} {t : τ}
  {task next : Task} {late : List τ}

def room (x : Line τ) (id : RoomId) : WaitRoom τ := x.device.room id

section Seats

theorem seated_dispatch (h : x.device.Seated) (m : Message) :
    (x.setStack (x.device.stack.dispatch m).2).device.Seated := by
  have htold : (x.device.setAudience (x.device.stack.dispatch m).2.audience).Seated :=
    Stack.dispatch_preserves (P := fun audience => (x.device.setAudience audience).Seated)
      (fun listener info audience hseated => hseated.tell listener info) h
  exact htold.of_eq (fun _ => rfl) rfl

theorem seated_step (h : x.device.Seated) (hstep : Step id x y) : y.device.Seated := by
  cases hstep with
  | start hnew => exact h.start hnew _
  | advance t => exact h.advance t
  | expire t => exact h.expire t
  | report i status => exact h.report i status
  | dispatch m => exact seated_dispatch h m

theorem seated_opened {stack : Stack τ} (ho : Opened c stack) :
    (({ stack } : Device τ).setConnection c).Seated := by
  have hrooms : ∀ id, (({ stack } : Device τ).setConnection c).room id = {} := ho.rooms
  refine ⟨fun id => ?_, fun id => ?_, fun id t => ?_⟩ <;> rw [hrooms]
  · exact WaitRoom.balanced_empty
  · exact List.nodup_nil
  · exact ⟨nofun, fun ⟨_, _, hat⟩ => nomatch hat⟩

theorem seated_of_reachable (h : Reachable id x) : x.device.Seated := by
  induction h with
  | opened hnew hopen => exact seated_opened (opened hnew hopen)
  | step _ hstep ih => exact seated_step ih hstep

end Seats

/-- Once the connection is closed, somebody is about to interrupt its sends and its wait room, or
has done so. -/
structure Shut (id : RoomId) (c : Connection τ) (x : Line τ) : Prop where
  sends : c.closed = true → (∃ t, x.task? t = some (.interruptSend id)) ∨ x.late ≠ none
  room : c.closed = true → (∃ t task, x.task? t = some task ∧ task.isClosing = true) ∨
    (x.room id).queue.interrupted = true

/-- A step that neither closes nor interrupts the sends. -/
theorem Shut.proceed (h : Shut id c x) (hclosed : c'.closed = c.closed)
    (htasks : y.task? = (x.setTask t next).task?) (hlate : y.late = x.late)
    (hroom : (x.room id).queue.interrupted = true → (y.room id).queue.interrupted = true)
    (hat : x.task? t ≠ some (.interruptSend id))
    (hclosing : ∀ task, x.task? t = some task → task.isClosing = true → next.isClosing = true) :
    Shut id c' y where
  sends hon := by
    rcases h.sends (hclosed ▸ hon) with ⟨u, hu⟩ | hnot
    · have htu : t ≠ u := fun hsame => hat (hsame ▸ hu)
      exact .inl ⟨u, by rw [htasks, task?_setTask_ne x next htu, hu]⟩
    · exact .inr (hlate ▸ hnot)
  room hon := by
    rcases h.room (hclosed ▸ hon) with ⟨u, task, hu, hcloses⟩ | hint
    · by_cases htu : t = u
      · subst htu
        exact .inl ⟨t, next, by rw [htasks, task?_setTask_self], hclosing task hu hcloses⟩
      · exact .inl ⟨u, task, by rw [htasks, task?_setTask_ne x next htu, hu], hcloses⟩
    · exact .inr (hroom hint)

theorem Shut.pass (h : Shut id c x) (hat : x.task? t = some task) (hidle : task.isClosing = false)
    (hclosed : c'.closed = c.closed) (htasks : y.task? = (x.setTask t next).task?)
    (hlate : y.late = x.late) (hroom : y.room id = x.room id) : Shut id c' y := by
  refine h.proceed hclosed htasks hlate (fun hint => hroom ▸ hint) (fun hinterrupts => ?_) ?_
  · cases hat.symm.trans hinterrupts
    cases hidle
  · exact forall_task? hat fun hcloses => by cases hidle.symm.trans hcloses

omit [DecidableEq τ] in
theorem room_report (x : Line τ) (i : Nat) (status : SendStatus) (id : RoomId) :
    (x.report i status).room id = x.room id := by
  unfold room report Device.report
  split <;> rfl

theorem Shut.change (h : Shut id c x) (hc : Changes id c x c' y) : Shut id c' y := by
  cases hc with
  | starts hnew hnext =>
    exact h.proceed rfl rfl rfl (fun hint => hint) (by simp [hnew]) (by simp [hnew])
  | stirs hsends hrooms => exact ⟨h.sends, fun hon => (h.room hon).imp_right (hrooms id)⟩
  | reports i status =>
    refine ⟨fun hon => (h.sends hon).imp_left (Exists.imp fun u hu => by simpa using hu),
      fun hon => ?_⟩
    simpa [room_report] using h.room hon
  | @advances t task c' y hat ha =>
    cases ha with
    | waits => exact h
    | roams hroams hsends hrooms =>
      refine h.proceed rfl rfl rfl (hrooms id) (fun hinterrupts => ?_)
        (forall_task? hat fun hcloses => hroams.closing.trans hcloses)
      exact (hroams.interrupting id).1 (Option.some.inj (hat.symm.trans hinterrupts))
    | locks => exact h.pass hat rfl rfl rfl rfl rfl
    | begins => exact h.pass hat rfl rfl rfl rfl rfl
    | refused => exact h.pass hat rfl rfl rfl rfl rfl
    | ships => exact h.pass hat rfl rfl rfl rfl rfl
    | watches htask =>
      have hidle : task.isClosing = false := by rcases htask with rfl | rfl <;> rfl
      exact h.pass hat hidle rfl rfl rfl rfl
    | unlocks => exact h.pass hat rfl rfl rfl rfl rfl
    | closes =>
      exact ⟨fun _ => .inl ⟨t, task?_setTask_self _ t _⟩,
        fun _ => .inl ⟨t, _, task?_setTask_self _ t _, rfl⟩⟩
    | interrupts =>
      obtain ⟨late, hlate, -⟩ := late_noteInterrupt x
      exact ⟨fun _ => .inr (by simp [setTask, setDevice, setSends, hlate]),
        fun _ => .inl ⟨t, _, task?_setTask_self _ t _, rfl⟩⟩
    | leaves hrooms hhere =>
      refine ⟨fun hon => (h.sends hon).imp_left (Exists.imp fun u hu => ?_), fun _ => .inr hhere⟩
      have htu : t ≠ u := by
        rintro rfl
        cases hat.symm.trans hu
      exact (task?_setTask_ne _ _ htu).trans hu

theorem Placed.unique (h : Placed id c x) (h' : Placed id c' x) : c = c' :=
  Option.some.inj (h.found.symm.trans h'.found)

theorem shut_of_reachable (h : Reachable id x) (hp : Placed id c x) : Shut id c x := by
  induction h generalizing c with
  | opened hnew hopen hroom =>
    have ho := opened hnew hopen
    subst hroom
    have hopened := (invariant_of_opened hnew hopen).placed.unique hp ▸ ho.closed
    refine ⟨fun hon => ?_, fun hon => ?_⟩ <;> cases hopened.symm.trans hon
  | step hreachable hstep ih =>
    obtain ⟨before, hinvariant⟩ := invariant_of_reachable hreachable
    obtain ⟨after, hc⟩ := changes hinvariant.placed hstep
    have hsame := (hinvariant.placed.change hc).unique hp
    exact hsame ▸ (ih hinvariant.placed).change hc

/-- The call that closed the connection has returned. -/
structure Returned (id : RoomId) (x : Line τ) : Prop where
  closed {c : Connection τ} : x.device.connections.get? id = some c → c.closed = true
  idle {t : τ} {task : Task} : x.task? t = some task → task.isClosing = false

theorem Returned.proceed (h : Returned id x)
    (hfound : y.device.connections.get? id = some c') (hclosed : c'.closed = true)
    (htasks : y.task? = (x.setTask t next).task?) (hnext : next.isClosing = false) :
    Returned id y where
  closed hother := Option.some.inj (hfound.symm.trans hother) ▸ hclosed
  idle hat := by
    rw [htasks] at hat
    rcases of_task?_setTask hat with ⟨-, rfl⟩ | ⟨-, hat⟩
    · exact hnext
    · exact h.idle hat

/-- Nothing that happens on a closed line closes it again. -/
theorem Returned.change (h : Returned id x) (hp : Placed id c x) (hc : Changes id c x c' y) :
    Returned id y ∧ y.late = x.late := by
  have hclosed := h.closed hp.found
  have hfound := (hp.change hc).found
  cases hc with
  | starts hnew hnext => exact ⟨h.proceed hfound hclosed rfl hnext.closing, rfl⟩
  | stirs => exact ⟨⟨h.closed, h.idle⟩, rfl⟩
  | reports i status =>
    exact ⟨⟨fun hother => h.closed (connections_report x i status ▸ hother),
      fun hat => h.idle (by simpa using hat)⟩, rfl⟩
  | advances hat ha =>
    have hidle := h.idle hat
    cases ha with
    | waits => exact ⟨h, rfl⟩
    | roams hroams =>
      exact ⟨h.proceed hfound hclosed rfl (hroams.closing.trans hidle), rfl⟩
    | locks => exact ⟨h.proceed hfound hclosed rfl rfl, rfl⟩
    | begins => exact ⟨h.proceed hfound hclosed rfl rfl, rfl⟩
    | refused => exact ⟨h.proceed hfound hclosed rfl rfl, rfl⟩
    | ships => exact ⟨h.proceed hfound hclosed rfl rfl, rfl⟩
    | watches htask hfetches =>
      exact ⟨h.proceed hfound hclosed rfl (by cases hfetches <;> rfl), rfl⟩
    | unlocks => exact ⟨h.proceed hfound hclosed rfl rfl, rfl⟩
    | closes hopen => cases hopen.symm.trans hclosed
    | interrupts => cases hidle
    | leaves => cases hidle

theorem Returned.steps (h : Returned id x) (hreachable : Reachable id x)
    (hsteps : Relation.ReflTransGen (Step id) x y) : Returned id y ∧ y.late = x.late := by
  induction hsteps with
  | refl => exact ⟨h, rfl⟩
  | tail hsteps hstep ih =>
    obtain ⟨c, hinvariant⟩ := invariant_of_reachable (hreachable.steps hsteps)
    obtain ⟨c', hc⟩ := changes hinvariant.placed hstep
    obtain ⟨hreturned, hlate⟩ := ih.1.change hinvariant.placed hc
    exact ⟨hreturned, hlate.trans ih.2⟩

section Released

theorem task?_advance_asleep {want : Want} {timed timedOut : Bool}
    (hat : x.task? t = some (.asleep id want timed)) (hroused : (t, timedOut) ∈ (x.room id).roused)
    (hint : (x.room id).queue.interrupted = true) :
    (x.advance t).task? t = some (.finished (.error (.wait .interrupted))) := by
  obtain ⟨expired, result, room', pool', -, hresume, hadvance⟩ := (Device.turns hat).resumed hroused
  have hresult := WaitRoom.resume_fst_of_interrupted hint t expired want.check x.device.stack.pool
  obtain rfl : result = some (.error .interrupted) := (congrArg Prod.fst hresume).symm.trans hresult
  rw [advance, hadvance]
  exact Table.get?_put_self _ _ _

theorem task?_advance_awaitSend (hp : Placed id c x) (hat : x.task? t = some (.awaitSend id))
    (hroused : (t, c.handle) ∈ x.sends.roused) :
    (x.advance t).task? t = some (.afterWatch id (x.sends.resume t c.handle).1) := by
  have hturns := Device.turns hat
  change (x.device.advance t).tasks.get? t = _
  generalize x.device.advance t = d' at hturns ⊢
  cases hturns with
  | waits hwaits =>
    cases hwaits with
    | awaitSend held unroused =>
      obtain rfl := Option.some.inj (hp.found.symm.trans held)
      exact absurd hroused unroused
  | passes hpasses =>
    cases hpasses with
    | lost about gone =>
      cases about
      cases hp.found.symm.trans gone
  | resumesSend held =>
    obtain rfl := Option.some.inj (hp.found.symm.trans held)
    exact Table.get?_put_self _ _ _

/-- No call but a late one is left blocked, each that still sleeps is sent away at its next step,
and no call but a late one begins a transfer. -/
structure Released (id : RoomId) (late : List τ) (x : Line τ) : Prop where
  receivers : (x.room id).parked = []
  senders {t : τ} {handle : ConnectionHandle} : (t, handle) ∈ x.sends.parked → t ∈ late
  receive {t : τ} {want : Want} {timed : Bool} : x.task? t = some (.asleep id want timed) →
    (x.advance t).task? t = some (.finished (.error (.wait .interrupted)))
  /-- An outcome that was reported before the interruption is given all the same. -/
  send {t : τ} : x.task? t = some (.awaitSend id) → t ∉ late →
    (x.advance t).task? t = some (.unlock id (.error (.wait .interrupted))) ∨
      ∃ status, (t, status) ∈ x.reports ∧
        (x.advance t).task? t = some (.unlock id (.ok (.status status)))
  begins {t : τ} {parcel : Parcel} : x.task? t = some (.startSend id parcel) → t ∈ late

theorem Invariant.senders (h : Invariant id c x) (hlate : x.late = some late)
    {handle : ConnectionHandle} (hmem : (t, handle) ∈ x.sends.parked) : t ∈ late := by
  cases h.held.stand with
  | free _ _ hempty => simp [hempty.parked] at hmem
  | taken _ hat hserves =>
    cases hserves with
    | asleep hslot hparked =>
      simp only [hparked, List.mem_singleton, Prod.mk.injEq] at hmem
      obtain ⟨rfl, rfl⟩ := hmem
      exact h.lapse.sending hlate hat rfl hslot
    | before _ hempty => simp [hempty.parked] at hmem
    | begun _ hempty => simp [hempty.parked] at hmem
    | shipped _ hempty => simp [hempty.parked] at hmem
    | roused _ _ hparked => simp [hparked] at hmem
    | after _ hempty => simp [hempty.parked] at hmem

theorem Invariant.send (h : Invariant id c x) (hlate : x.late = some late)
    (hat : x.task? t = some (.awaitSend id)) (hnot : t ∉ late) :
    (x.advance t).task? t = some (.unlock id (.error (.wait .interrupted))) ∨
      ∃ status, (t, status) ∈ x.reports ∧
        (x.advance t).task? t = some (.unlock id (.ok (.status status))) := by
  have hended : x.slot c ≠ some .sending := fun hy => hnot (h.lapse.sending hlate hat rfl hy)
  have hroused : (t, c.handle) ∈ x.sends.roused := by
    cases h.held.serves hat rfl with
    | asleep hslot => exact absurd hslot hended
    | roused _ _ _ hroused => simp [hroused]
  have hadvance := task?_advance_awaitSend h.placed hat hroused
  have hfetches := SendRoom.fetches_resume x.sends t c.handle
  generalize (x.sends.resume t c.handle).1 = result at hadvance hfetches
  cases hfetches with
  | waits hbefore => exact absurd hbefore hended
  | released => exact .inl hadvance
  | @told status hbefore =>
    refine .inr ⟨status, ?_, hadvance⟩
    rcases h.owned.fares hat rfl with hcrowded | hfares
    · obtain ⟨late', hlate', hmem⟩ := h.owned.crowded hcrowded
      cases hlate.symm.trans hlate'
      exact absurd hmem hnot
    · exact hfares.told hbefore

theorem Invariant.released (h : Invariant id c x) (hseated : x.device.Seated)
    (hint : (x.room id).queue.interrupted = true) (hlate : x.late = some late) :
    Released id late x := by
  have hparked : (x.room id).parked = [] := (hseated.balanced id).awake hint
  refine ⟨hparked, h.senders hlate, fun {t want timed} hat => ?_, h.send hlate,
    fun hat => h.lapse.slipped hlate hat rfl⟩
  have hmem : t ∈ (x.room id).threads := (hseated.asleep id t).2 ⟨want, timed, hat⟩
  rw [WaitRoom.threads, hparked, List.nil_append, List.mem_map] at hmem
  obtain ⟨⟨u, timedOut⟩, hroused, rfl⟩ := hmem
  exact task?_advance_asleep hat hroused hint

theorem Returned.released (h : Returned id x) (hreachable : Reachable id x) :
    ∃ late, x.late = some late ∧ Released id late x := by
  obtain ⟨c, hinvariant⟩ := invariant_of_reachable hreachable
  have hshut := shut_of_reachable hreachable hinvariant.placed
  have hclosed := h.closed hinvariant.placed.found
  have hlate : x.late ≠ none := by
    rcases hshut.sends hclosed with ⟨t, hat⟩ | hlate
    · cases h.idle hat
    · exact hlate
  have hint : (x.room id).queue.interrupted = true := by
    rcases hshut.room hclosed with ⟨t, task, hat, hcloses⟩ | hint
    · cases (h.idle hat).symm.trans hcloses
    · exact hint
  obtain ⟨late, hlate⟩ := Option.ne_none_iff_exists'.1 hlate
  exact ⟨late, hlate, hinvariant.released (seated_of_reachable hreachable) hint hlate⟩

end Released

/-- When the call that closed the connection has returned, no call is left blocked and none begins a
transfer from then on, but for the sends that had found the connection open and whose transfers had
not begun when the others were interrupted. -/
theorem released_of_returned (h : Reachable id x) (hreturned : Returned id x) :
    ∃ late, x.late = some late ∧ ∀ y, Relation.ReflTransGen (Step id) x y → Released id late y := by
  obtain ⟨late, hlate, -⟩ := hreturned.released h
  refine ⟨late, hlate, fun y hsteps => ?_⟩
  obtain ⟨hstill, hsame⟩ := hreturned.steps h hsteps
  obtain ⟨late', hlate', hreleased⟩ := hstill.released (h.steps hsteps)
  cases (hsame.trans hlate).symm.trans hlate'
  exact hreleased

theorem returned_of_all (hclosed : (x.device.connections.get? id).all (·.closed) = true)
    (hidle : x.device.tasks.all (!·.2.isClosing) = true) : Returned id x := by
  refine ⟨fun hfound => ?_, fun hat => ?_⟩
  · simpa [hfound] using hclosed
  · simpa using List.all_eq_true.1 hidle _ (Table.mem_of_get? hat)

def leaving : List (Event Nat) :=
  .start 1 (.receive ⟨0⟩ false) :: .replicate 3 (.advance 1) ++ posting 2 6 ++ closing 3 5

theorem released_leaving :
    ∃ x, chatting.run? ⟨0⟩ leaving = some x ∧ Reachable ⟨0⟩ x ∧ Returned ⟨0⟩ x ∧
      x.task? 1 = some (.asleep ⟨0⟩ (.message "chat") false) ∧
      x.task? 2 = some (.awaitSend ⟨0⟩) ∧
      ∀ y, Relation.ReflTransGen (Step ⟨0⟩) x y → Released ⟨0⟩ [] y := by
  have hrun : ∃ x, chatting.run? ⟨0⟩ leaving = some x ∧ x.late = some [] ∧
      (x.device.connections.get? ⟨0⟩).all (·.closed) = true ∧
      x.device.tasks.all (!·.2.isClosing) = true ∧
      x.task? 1 = some (.asleep ⟨0⟩ (.message "chat") false) ∧
      x.task? 2 = some (.awaitSend ⟨0⟩) := ⟨_, rfl, rfl, rfl, rfl, rfl, rfl⟩
  obtain ⟨x, hx, hnone, hclosed, hidle, hasleep, hsends⟩ := hrun
  have hreachable := reachable_of_run hx
  have hreturned := returned_of_all hclosed hidle
  obtain ⟨late, hlate, hreleased⟩ := released_of_returned hreachable hreturned
  cases hnone.symm.trans hlate
  exact ⟨x, hx, hreachable, hreturned, hasleep, hsends, hreleased⟩

/-- Thread 2 has found the connection open and waits for thread 1 when thread 3 closes it. -/
def lagging : List (Event Nat) :=
  posting 1 6 ++ posting 2 2 ++ closing 3 5 ++ .replicate 2 (.advance 1) ++ [.advance 2]

theorem unreleased_lagging :
    ∃ x y : Line Nat, Reachable ⟨0⟩ x ∧ Returned ⟨0⟩ x ∧
      Relation.ReflTransGen (Step ⟨0⟩) x y ∧
      (∃ parcel, x.task? 2 = some (.startSend ⟨0⟩ parcel) ∧
        (x.advance 2).task? 2 = some (.handOver ⟨0⟩ parcel)) ∧
      y.task? 2 = some (.awaitSend ⟨0⟩) ∧ y.sends.parked = [(2, ⟨1⟩)] := by
  have hrun : ∃ x y, chatting.run? ⟨0⟩ lagging = some x ∧
      x.run? ⟨0⟩ (.replicate 3 (.advance 2)) = some y ∧
      (x.device.connections.get? ⟨0⟩).all (·.closed) = true ∧
      x.device.tasks.all (!·.2.isClosing) = true ∧
      (∃ parcel, x.task? 2 = some (.startSend ⟨0⟩ parcel) ∧
        (x.advance 2).task? 2 = some (.handOver ⟨0⟩ parcel)) ∧
      y.task? 2 = some (.awaitSend ⟨0⟩) ∧ y.sends.parked = [(2, ⟨1⟩)] :=
    ⟨_, _, rfl, rfl, rfl, rfl, ⟨_, rfl, rfl⟩, rfl, rfl⟩
  obtain ⟨x, y, hx, hy, hclosed, hidle, hbegins, hwaits⟩ := hrun
  exact ⟨x, y, reachable_of_run hx, returned_of_all hclosed hidle, steps_of_run? hy, hbegins,
    hwaits⟩

end Line

end MultimediaMessaging
