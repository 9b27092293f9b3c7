import MultimediaMessaging.Pool
import MultimediaMessaging.Proofs.Table

/-!
The pool seen as a list of messages in the order of their arrival. Main statement: every run of
calls is answered as by such a list of bounded length, and along the run the two indexes agree, so
that a full pool drops its oldest message from the front of a queue.
-/

set_option autoImplicit false

namespace MultimediaMessaging

/-- Messages in the order of their arrival, at most `bound` of them. -/
structure Backlog where
  bound : Nat
  messages : List Message := []
  deriving DecidableEq, Repr

namespace Pool

inductive Call where
  | add (m : Message)
  | addOpt (m? : Option Message)
  | peekFirst (app : String)
  | takeFirst (app : String)
  | removeAll (app : String)
  | count
  | countFor (app : String)
  deriving DecidableEq, Repr

inductive Answer where
  | done
  | refused (error : PoolError)
  | message (m? : Option Message)
  | number (n : Nat)
  deriving DecidableEq, Repr

def answer (p : Pool) : Call → Answer × Pool
  | .add m => (.done, p.add m)
  | .addOpt m? =>
    match p.addOpt m? with
    | .ok q => (.done, q)
    | .error e => (.refused e, p)
  | .peekFirst app => (.message (p.peekFirst app), p)
  | .takeFirst app => (.message (p.takeFirst app).1, (p.takeFirst app).2)
  | .removeAll app => (.number (p.removeAll app).1, (p.removeAll app).2)
  | .count => (.number p.count, p)
  | .countFor app => (.number (p.countFor app), p)

def run (p : Pool) (calls : List Call) : Pool := calls.foldl (fun p call => (p.answer call).2) p

def answers : Pool → List Call → List Answer
  | _, [] => []
  | p, call :: calls => (p.answer call).1 :: answers (p.answer call).2 calls

end Pool

namespace Backlog

def new (bound : Nat) : Backlog := { bound := max 1 bound }

def add (b : Backlog) (m : Message) : Backlog :=
  { b with
    messages := (if b.messages.length < b.bound then b.messages else b.messages.tail) ++ [m] }

def answer (b : Backlog) : Pool.Call → Pool.Answer × Backlog
  | .add m | .addOpt (some m) => (.done, b.add m)
  | .addOpt none => (.refused .missingMessage, b)
  | .peekFirst app => (.message (b.messages.find? (·.app = app)), b)
  | .takeFirst app =>
    (.message (b.messages.find? (·.app = app)),
      { b with messages := b.messages.eraseP (·.app = app) })
  | .removeAll app =>
    (.number (b.messages.countP (·.app = app)),
      { b with messages := b.messages.filter (·.app ≠ app) })
  | .count => (.number b.messages.length, b)
  | .countFor app => (.number (b.messages.countP (·.app = app)), b)

def answers : Backlog → List Pool.Call → List Pool.Answer
  | _, [] => []
  | b, call :: calls => (b.answer call).1 :: answers (b.answer call).2 calls

end Backlog

namespace Pool

/-- The two indexes tell the same, and the oldest message is where eviction looks for it. -/
structure Indexed (p : Pool) : Prop where
  stored : ∀ app, ∀ queue ∈ p.byApp.get? app, ∀ seq ∈ queue,
    ∃ m, p.bySeq.get? seq = some m ∧ m.app = app
  queued : ∀ seq, ∀ m ∈ p.bySeq.get? seq, ∃ queue, p.byApp.get? m.app = some queue ∧ seq ∈ queue
  increasing : ∀ app, ∀ queue ∈ p.byApp.get? app, queue.Pairwise (· < ·) ∧ queue ≠ []
  below : ∀ seq ∈ p.bySeq.keys, seq < p.nextSeq
  bounded : p.count ≤ p.capacity
  /-- A full pool evicts one message, the first of its queue, and has room then. -/
  evicts : p.capacity ≤ p.count → ∃ seq m rest queue q,
    p.bySeq = (seq, m) :: rest ∧ p.byApp.get? m.app = some (seq :: queue) ∧
      p.evictOldest = some q ∧ q.count < q.capacity

def numbers (bySeq : Table Nat Message) (app : String) : List Nat :=
  (bySeq.filter (·.2.app = app)).map Prod.fst

/-- `byApp` holds nothing that could not be computed from `bySeq`. -/
structure Consistent (p : Pool) : Prop where
  ascending : p.bySeq.keys.Pairwise (· < ·)
  below : ∀ seq ∈ p.bySeq.keys, seq < p.nextSeq
  queue : ∀ app, p.queue app = numbers p.bySeq app
  nonempty : ∀ app, p.byApp.get? app ≠ some []
  positive : 0 < p.capacity
  bounded : p.bySeq.length ≤ p.capacity

def backlog (p : Pool) : Backlog := ⟨p.capacity, p.bySeq.map Prod.snd⟩

variable {p q : Pool} {app other : String} {m : Message} {seq : Nat}

theorem Consistent.nodup (h : Consistent p) : p.bySeq.keys.Nodup :=
  h.ascending.imp Nat.ne_of_lt

theorem queue_eq_of_get? {queue : List Nat} (h : p.byApp.get? app = some queue) :
    p.queue app = queue := by simp [Pool.queue, h]

theorem Consistent.get?_byApp (h : Consistent p) :
    p.byApp.get? app = if numbers p.bySeq app = [] then none else some (numbers p.bySeq app) := by
  have hqueue := h.queue app
  have hnonempty := h.nonempty app
  cases hget : p.byApp.get? app with
  | none => simp [← hqueue, Pool.queue, hget]
  | some queue =>
    rw [queue_eq_of_get? hget] at hqueue
    rw [← hqueue, if_neg fun hnil : queue = [] => hnonempty (hnil ▸ hget)]

theorem mem_numbers {bySeq : Table Nat Message} :
    seq ∈ numbers bySeq app ↔ ∃ m, (seq, m) ∈ bySeq ∧ m.app = app := by
  simp [numbers]

section PutQueue

variable {byApp : Table String (List Nat)} {queue : List Nat}

theorem get?_putQueue_self :
    (putQueue byApp app queue).get? app = if queue = [] then none else some queue := by
  unfold putQueue
  split <;> simp

theorem get?_putQueue_ne (h : app ≠ other) :
    (putQueue byApp app queue).get? other = byApp.get? other := by
  unfold putQueue
  split
  · exact Table.get?_erase_ne _ h
  · exact Table.get?_put_ne _ _ h

end PutQueue

/-- One message goes that no older one of its application stands before. -/
theorem Consistent.remove (h : Consistent p) {before after : Table Nat Message}
    (hseq : p.bySeq = before ++ (seq, m) :: after) (hfirst : ∀ entry ∈ before, entry.2.app ≠ m.app)
    (hcapacity : q.capacity = p.capacity) (hnext : q.nextSeq = p.nextSeq)
    (hbySeq : q.bySeq = before ++ after)
    (hbyApp : q.byApp = putQueue p.byApp m.app (p.queue m.app).tail) : Consistent q := by
  have hsub : q.bySeq.Sublist p.bySeq := by
    rw [hbySeq, hseq]
    exact (List.Sublist.refl before).append (List.sublist_cons_self _ _)
  have hbefore : before.filter (·.2.app = m.app) = [] := by
    refine List.filter_eq_nil_iff.2 fun entry hentry => ?_
    simpa using hfirst entry hentry
  have htail : (p.queue m.app).tail = numbers q.bySeq m.app := by
    rw [h.queue, hseq, hbySeq]
    simp [numbers, List.filter_append, hbefore]
  refine ⟨h.ascending.sublist (hsub.map _), ?_, ?_, ?_, hcapacity ▸ h.positive, ?_⟩
  · intro k hk
    exact hnext ▸ h.below k ((hsub.map _).subset hk)
  · intro app
    by_cases happ : m.app = app
    · subst happ
      rw [← htail, Pool.queue, hbyApp, get?_putQueue_self]
      split <;> simp_all
    · have hsame : q.queue app = p.queue app := by
        rw [Pool.queue, hbyApp, get?_putQueue_ne happ]
        rfl
      rw [hsame, h.queue, hseq, hbySeq]
      simp [numbers, List.filter_append, happ]
  · intro app
    rw [hbyApp]
    by_cases happ : m.app = app
    · subst happ
      rw [get?_putQueue_self]
      split <;> simp_all
    · rw [get?_putQueue_ne happ]
      exact h.nonempty app
  · rw [hcapacity]
    exact Nat.le_trans hsub.length_le h.bounded

theorem Consistent.queue_cons (h : Consistent p) {before after : Table Nat Message}
    (hseq : p.bySeq = before ++ (seq, m) :: after)
    (hfirst : ∀ entry ∈ before, entry.2.app ≠ m.app) :
    p.queue m.app = seq :: numbers after m.app := by
  have hbefore : before.filter (·.2.app = m.app) = [] := by
    refine List.filter_eq_nil_iff.2 fun entry hentry => ?_
    simpa using hfirst entry hentry
  rw [h.queue, hseq]
  simp [numbers, List.filter_append, hbefore]

/-- The oldest message is the oldest of its application, and leaves from the front of its queue. -/
theorem Consistent.evict (h : Consistent p) {rest : Table Nat Message}
    (hseq : p.bySeq = (seq, m) :: rest) :
    ∃ q, p.evictOldest = some q ∧ Consistent q ∧ q.bySeq = rest ∧ q.capacity = p.capacity ∧
      p.byApp.get? m.app = some (seq :: numbers rest m.app) := by
  have hfront : p.bySeq = [] ++ (seq, m) :: rest := hseq
  have hqueue : p.queue m.app = seq :: numbers rest m.app := h.queue_cons hfront (by simp)
  have hget : p.byApp.get? m.app = some (seq :: numbers rest m.app) := by
    rw [h.get?_byApp, ← h.queue, hqueue]
    simp
  have hdrop : dropSeq p.byApp m.app seq = putQueue p.byApp m.app (p.queue m.app).tail := by
    simp [dropSeq, hget, hqueue]
  have hevict : p.evictOldest = some { p with
      bySeq := rest
      byApp := putQueue p.byApp m.app (p.queue m.app).tail
      stats := { p.stats with evicted := p.stats.evicted + 1 } } := by
    rw [evictOldest, hseq, ← hdrop]
  exact ⟨_, hevict, h.remove hfront (by simp) rfl rfl rfl rfl, rfl, rfl, hget⟩

theorem makeRoom_of_lt (h : p.bySeq.length < p.capacity) : p.makeRoom = p := by
  rw [makeRoom, if_pos h]

theorem makeRoom_of_evict (hfull : ¬ p.bySeq.length < p.capacity)
    (hevict : p.evictOldest = some q) : p.makeRoom = q.makeRoom := by
  rw [makeRoom, if_neg hfull]
  split
  · rename_i hnone
    simp [hevict] at hnone
  · rename_i hsome
    rw [hevict] at hsome
    cases hsome
    rfl

/-- A full pool loses its oldest message, and no other. -/
theorem Consistent.makeRoom (h : Consistent p) :
    Consistent p.makeRoom ∧ p.makeRoom.capacity = p.capacity ∧
      p.makeRoom.bySeq.length < p.capacity ∧
      p.makeRoom.bySeq = if p.bySeq.length < p.capacity then p.bySeq else p.bySeq.tail := by
  by_cases hroom : p.bySeq.length < p.capacity
  · rw [makeRoom_of_lt hroom, if_pos hroom]
    exact ⟨h, rfl, hroom, rfl⟩
  · have hpositive := h.positive
    cases hseq : p.bySeq with
    | nil => simp [hseq] at hroom; omega
    | cons first rest =>
      obtain ⟨seq, m⟩ := first
      obtain ⟨q, hevict, hq, hrest, hcapacity, -⟩ := h.evict hseq
      have hlt : q.bySeq.length < q.capacity := by
        have hbounded := h.bounded
        rw [hseq, List.length_cons] at hbounded
        rw [hrest, hcapacity]
        omega
      rw [makeRoom_of_evict hroom hevict, makeRoom_of_lt hlt, if_neg (by rwa [← hseq])]
      exact ⟨hq, hcapacity, hcapacity ▸ hlt, hrest⟩

theorem queue_append_self (p : Pool) (m : Message) :
    (p.append m).queue m.app = p.queue m.app ++ [p.nextSeq] := by
  simp [Pool.append, Pool.queue]

theorem queue_append_ne (p : Pool) (h : m.app ≠ app) : (p.append m).queue app = p.queue app := by
  simp [Pool.append, Pool.queue, Table.get?_put_ne _ _ h]

theorem Consistent.append (h : Consistent p) (hroom : p.bySeq.length < p.capacity)
    (m : Message) :
    Consistent (p.append m) ∧ (p.append m).bySeq = p.bySeq ++ [(p.nextSeq, m)] := by
  have hnew : p.nextSeq ∉ p.bySeq.keys := fun hmem => Nat.lt_irrefl _ (h.below _ hmem)
  have hseq : (p.append m).bySeq = p.bySeq ++ [(p.nextSeq, m)] := Table.put_of_notMem hnew
  have hkeys : (p.append m).bySeq.keys = p.bySeq.keys ++ [p.nextSeq] := by
    rw [hseq, Table.keys, List.map_append]
    rfl
  refine ⟨⟨?_, ?_, ?_, ?_, h.positive, ?_⟩, hseq⟩
  · rw [hkeys, List.pairwise_append]
    exact ⟨h.ascending, List.pairwise_singleton _ _, by simpa using h.below⟩
  · intro seq hmem
    rw [hkeys] at hmem
    rcases List.mem_append.1 hmem with hold | hlast
    · exact Nat.lt_succ_of_lt (h.below seq hold)
    · rw [List.mem_singleton.1 hlast]
      exact Nat.lt_succ_self _
  · intro app
    rw [hseq]
    by_cases happ : m.app = app
    · subst happ
      simp [queue_append_self, h.queue, numbers, List.filter_append]
    · simp [queue_append_ne p happ, h.queue, numbers, List.filter_append, happ]
  · intro app
    by_cases happ : m.app = app
    · subst happ
      simp [Pool.append]
    · rw [Pool.append, Table.get?_put_ne _ _ happ]
      exact h.nonempty app
  · rw [hseq, List.length_append, List.length_singleton]
    exact hroom

theorem Consistent.add (h : Consistent p) (m : Message) :
    Consistent (p.add m) ∧ (p.add m).backlog = p.backlog.add m := by
  obtain ⟨hconsistent, hcapacity, hroom, hseq⟩ := h.makeRoom
  obtain ⟨hadded, happended⟩ := hconsistent.append (hcapacity ▸ hroom) m
  refine ⟨hadded, ?_⟩
  have hsame : (p.add m).capacity = p.capacity := hcapacity
  simp only [backlog, hsame, Backlog.add, List.length_map]
  rw [Pool.add, happended, hseq]
  split <;> simp

theorem Consistent.queue_eq_nil_iff (h : Consistent p) :
    p.queue app = [] ↔ ∀ entry ∈ p.bySeq, entry.2.app ≠ app := by
  rw [h.queue, numbers, List.map_eq_nil_iff, List.filter_eq_nil_iff]
  simp

/-- Where the first message of an application is stored. -/
theorem Consistent.exists_first (h : Consistent p) {rest : List Nat}
    (hqueue : p.queue app = seq :: rest) :
    ∃ before m after, p.bySeq = before ++ (seq, m) :: after ∧ m.app = app ∧
      (∀ entry ∈ before, entry.2.app ≠ app) ∧ p.bySeq.get? seq = some m := by
  rw [h.queue, numbers, List.map_eq_cons_iff] at hqueue
  obtain ⟨⟨k, m⟩, tail, hfilter, rfl, -⟩ := hqueue
  obtain ⟨before, after, hseq, hbefore, happ, -⟩ := List.filter_eq_cons_iff.1 hfilter
  refine ⟨before, m, after, hseq, by simpa using happ, by simpa using hbefore, ?_⟩
  exact Table.get?_of_mem h.nodup (by simp [hseq])

section First

variable {before after : List Message}

theorem find?_first (happ : m.app = app) (hbefore : ∀ x ∈ before, x.app ≠ app) :
    (before ++ m :: after).find? (·.app = app) = some m := by
  have hnone : before.find? (·.app = app) = none := by simpa using hbefore
  simp [List.find?_append, hnone, happ]

theorem eraseP_first (happ : m.app = app) (hbefore : ∀ x ∈ before, x.app ≠ app) :
    (before ++ m :: after).eraseP (·.app = app) = before ++ after := by
  rw [List.eraseP_append_right _ (by simpa using hbefore), List.eraseP_cons_of_pos (by simpa)]

end First

theorem Consistent.peekFirst (h : Consistent p) (app : String) :
    p.peekFirst app = p.backlog.messages.find? (·.app = app) := by
  cases hqueue : p.queue app with
  | nil =>
    have hnone : ∀ m ∈ p.backlog.messages, m.app ≠ app :=
      List.forall_mem_map.2 (h.queue_eq_nil_iff.1 hqueue)
    have hfind : p.backlog.messages.find? (·.app = app) = none := by simpa using hnone
    rw [hfind, Pool.peekFirst, hqueue]
    rfl
  | cons seq rest =>
    obtain ⟨before, m, after, hseq, happ, hbefore, hget⟩ := h.exists_first hqueue
    have hmessages : p.backlog.messages = before.map Prod.snd ++ m :: after.map Prod.snd := by
      simp [backlog, hseq]
    rw [hmessages, find?_first happ (List.forall_mem_map.2 hbefore), Pool.peekFirst, hqueue]
    exact hget

theorem Consistent.takeFirst (h : Consistent p) (app : String) :
    (p.takeFirst app).1 = p.backlog.messages.find? (·.app = app) ∧
      Consistent (p.takeFirst app).2 ∧
      (p.takeFirst app).2.backlog =
        { p.backlog with messages := p.backlog.messages.eraseP (·.app = app) } := by
  cases hqueue : p.queue app with
  | nil =>
    have hnone : ∀ m ∈ p.backlog.messages, m.app ≠ app :=
      List.forall_mem_map.2 (h.queue_eq_nil_iff.1 hqueue)
    have htake : p.takeFirst app = (none, p) := by rw [Pool.takeFirst, hqueue]
    have hfind : p.backlog.messages.find? (·.app = app) = none := by simpa using hnone
    rw [htake, hfind, List.eraseP_of_forall_not (by simpa using hnone)]
    exact ⟨rfl, h, rfl⟩
  | cons seq rest =>
    obtain ⟨before, m, after, hseq, rfl, hbefore, hget⟩ := h.exists_first hqueue
    have hmessages : p.backlog.messages = before.map Prod.snd ++ m :: after.map Prod.snd := by
      simp [backlog, hseq]
    have herase : p.bySeq.erase seq = before ++ after := by
      have hnodup := h.nodup
      rw [hseq] at hnodup ⊢
      exact Table.erase_append_cons hnodup
    have htake : p.takeFirst m.app = (some m, { p with
        byApp := putQueue p.byApp m.app rest
        bySeq := before ++ after
        stats := { p.stats with taken := p.stats.taken + 1 } }) := by
      rw [Pool.takeFirst, hqueue]
      simp only [hget, herase]
    rw [htake, hmessages, find?_first rfl (List.forall_mem_map.2 hbefore),
      eraseP_first rfl (List.forall_mem_map.2 hbefore)]
    refine ⟨rfl, h.remove hseq hbefore rfl rfl rfl ?_, ?_⟩
    · rw [hqueue]
      rfl
    · simp [backlog]

theorem Consistent.mem_queue_iff (h : Consistent p) {entry : Nat × Message}
    (hentry : entry ∈ p.bySeq) : entry.1 ∈ p.queue app ↔ entry.2.app = app := by
  rw [h.queue, mem_numbers]
  constructor
  · rintro ⟨m, hm, rfl⟩
    have hsame := (Table.get?_of_mem h.nodup hentry).symm.trans (Table.get?_of_mem h.nodup hm)
    rw [Option.some.inj hsame]
  · exact fun happ => ⟨entry.2, hentry, happ⟩

theorem Consistent.filter_eq (h : Consistent p) (app : String) :
    (p.bySeq.filter fun entry => entry.1 ∉ p.queue app) =
      p.bySeq.filter fun entry => entry.2.app ≠ app :=
  List.filter_congr fun _ hentry => decide_eq_decide.2 (not_congr (h.mem_queue_iff hentry))

theorem Consistent.removeAll (h : Consistent p) (app : String) :
    (p.removeAll app).1 = p.backlog.messages.countP (·.app = app) ∧
      Consistent (p.removeAll app).2 ∧
      (p.removeAll app).2.backlog =
        { p.backlog with messages := p.backlog.messages.filter (·.app ≠ app) } := by
  have hseq : (p.removeAll app).2.bySeq = p.bySeq.filter fun entry => entry.2.app ≠ app :=
    h.filter_eq app
  have hsub : (p.removeAll app).2.bySeq.Sublist p.bySeq := hseq ▸ List.filter_sublist
  refine ⟨?_, ⟨h.ascending.sublist (hsub.map _), ?_, ?_, ?_, h.positive, ?_⟩, ?_⟩
  · have hcount := List.length_eq_countP_add_countP (l := p.bySeq) fun entry =>
      decide (entry.2.app = app)
    simp only [Pool.removeAll, h.filter_eq, backlog, List.countP_map,
      ← List.countP_eq_length_filter]
    simp only [decide_eq_true_eq, Function.comp_def, ne_eq] at hcount ⊢
    omega
  · exact fun seq hmem => h.below seq ((hsub.map _).subset hmem)
  · intro other
    rw [hseq]
    by_cases happ : app = other
    · subst happ
      simp [Pool.queue, Pool.removeAll, numbers, List.filter_filter]
    · have hsame : (p.removeAll app).2.queue other = p.queue other := by
        simp [Pool.queue, Pool.removeAll, Table.get?_erase_ne _ happ]
      rw [hsame, h.queue, numbers, numbers, List.filter_filter]
      congr 1
      refine List.filter_congr fun entry _ => ?_
      by_cases hother : entry.2.app = other
      · simp [hother, Ne.symm happ]
      · simp [hother]
  · intro other
    by_cases happ : app = other
    · subst happ
      simp [Pool.removeAll]
    · simpa [Pool.removeAll, Table.get?_erase_ne _ happ] using h.nonempty other
  · exact Nat.le_trans hsub.length_le h.bounded
  · simp only [backlog, hseq, List.filter_map]
    rfl

theorem Consistent.count (h : Consistent p) (app : String) :
    p.countFor app = p.backlog.messages.countP (·.app = app) := by
  rw [countFor, h.queue, numbers, List.length_map, backlog, List.countP_map,
    List.countP_eq_length_filter]
  rfl

theorem Consistent.countFor_add_le (h : Consistent p) (m : Message) (app : String) :
    (p.add m).countFor app ≤ p.countFor app + if m.app = app then 1 else 0 := by
  obtain ⟨hadded, hbacklog⟩ := h.add m
  rw [hadded.count, hbacklog, h.count, Backlog.add]
  have htail := p.backlog.messages.tail_sublist.countP_le (p := fun m => decide (m.app = app))
  split <;> by_cases happ : m.app = app <;> simp [List.countP_append, happ, htail]

theorem Consistent.countFor_takeFirst_le (h : Consistent p) (app other : String) :
    (p.takeFirst app).2.countFor other ≤ p.countFor other := by
  obtain ⟨-, htaken, hbacklog⟩ := h.takeFirst app
  rw [htaken.count, hbacklog, h.count]
  exact List.eraseP_sublist.countP_le

theorem Consistent.countFor_removeAll_le (h : Consistent p) (app other : String) :
    (p.removeAll app).2.countFor other ≤ p.countFor other := by
  obtain ⟨-, hkept, hbacklog⟩ := h.removeAll app
  rw [hkept.count, hbacklog, h.count]
  exact List.filter_sublist.countP_le

theorem Consistent.countFor_takeFirst_lt (h : Consistent p)
    (hfound : (p.takeFirst app).1 = some m) :
    (p.takeFirst app).2.countFor app < p.countFor app := by
  obtain ⟨hfind, htaken, hbacklog⟩ := h.takeFirst app
  rw [htaken.count, hbacklog, h.count]
  obtain ⟨happ, before, after, hmessages, hbefore⟩ :=
    List.find?_eq_some_iff_append.1 (hfind.symm.trans hfound)
  rw [hmessages, eraseP_first (by simpa using happ) (by simpa using hbefore)]
  simp only [List.countP_append, List.countP_cons, happ]
  simp

theorem Consistent.countFor_eq_zero (h : Consistent p) (hnothing : (p.takeFirst app).1 = none) :
    (p.takeFirst app).2.countFor app = 0 := by
  have hle := h.countFor_takeFirst_le app app
  have hnone := List.find?_eq_none.1 ((h.takeFirst app).1.symm.trans hnothing)
  rw [h.count, List.countP_eq_zero.2 hnone] at hle
  exact Nat.le_zero.1 hle

theorem Consistent.countFor_add_pos (h : Consistent p) (m : Message) :
    0 < (p.add m).countFor m.app := by
  obtain ⟨hadded, hbacklog⟩ := h.add m
  rw [hadded.count, hbacklog, Backlog.add]
  simp

/-- A message for an application that had none is the next one that it gets. -/
theorem Consistent.takeFirst_add (h : Consistent p) (hnone : p.countFor m.app = 0) :
    ((p.add m).takeFirst m.app).1 = some m ∧
      ((p.add m).takeFirst m.app).2.countFor m.app = 0 := by
  obtain ⟨hadded, hbacklog⟩ := h.add m
  rw [h.count, List.countP_eq_zero] at hnone
  obtain ⟨kept, hkept, hmessages⟩ : ∃ kept, (∀ x ∈ kept, x.app ≠ m.app) ∧
      (p.add m).backlog.messages = kept ++ [m] := by
    refine ⟨_, fun x hx => ?_, congrArg Backlog.messages hbacklog⟩
    split at hx
    · simpa using hnone x hx
    · simpa using hnone x (List.mem_of_mem_tail hx)
  obtain ⟨hfound, htaken, hleft⟩ := hadded.takeFirst m.app
  refine ⟨hfound.trans (hmessages ▸ find?_first rfl hkept), ?_⟩
  rw [htaken.count, hleft, hmessages, eraseP_first rfl hkept, List.append_nil]
  exact List.countP_eq_zero.2 (by simpa using hkept)

/-- What a call keeps: pool and list give the same answer and remain alike. -/
theorem Consistent.answer (h : Consistent p) (call : Call) :
    (p.answer call).1 = (p.backlog.answer call).1 ∧ Consistent (p.answer call).2 ∧
      (p.answer call).2.backlog = (p.backlog.answer call).2 := by
  cases call with
  | add m => exact ⟨rfl, h.add m⟩
  | addOpt m? =>
    cases m? with
    | none => exact ⟨rfl, h, rfl⟩
    | some m => exact ⟨rfl, h.add m⟩
  | peekFirst app => exact ⟨congrArg Answer.message (h.peekFirst app), h, rfl⟩
  | takeFirst app =>
    obtain ⟨hfound, hrest⟩ := h.takeFirst app
    exact ⟨congrArg Answer.message hfound, hrest⟩
  | removeAll app =>
    obtain ⟨hgone, hrest⟩ := h.removeAll app
    exact ⟨congrArg Answer.number hgone, hrest⟩
  | count => exact ⟨by simp [Pool.answer, Backlog.answer, Pool.count, backlog], h, rfl⟩
  | countFor app => exact ⟨congrArg Answer.number (h.count app), h, rfl⟩

theorem Consistent.run (h : Consistent p) (calls : List Call) : Consistent (p.run calls) := by
  induction calls generalizing p with
  | nil => exact h
  | cons call calls ih => exact ih (h.answer call).2.1

theorem Consistent.answers (h : Consistent p) (calls : List Call) :
    p.answers calls = p.backlog.answers calls := by
  induction calls generalizing p with
  | nil => rfl
  | cons call calls ih =>
    obtain ⟨hanswer, hconsistent, hbacklog⟩ := h.answer call
    rw [Pool.answers, Backlog.answers, hanswer, ih hconsistent, hbacklog]

theorem Consistent.indexed (h : Consistent p) : Indexed p where
  stored app queue hget seq hseq := by
    rw [← queue_eq_of_get? hget, h.queue] at hseq
    obtain ⟨m, hm, happ⟩ := mem_numbers.1 hseq
    exact ⟨m, Table.get?_of_mem h.nodup hm, happ⟩
  queued seq m hget := by
    have hmem : seq ∈ numbers p.bySeq m.app := mem_numbers.2 ⟨m, Table.mem_of_get? hget, rfl⟩
    refine ⟨numbers p.bySeq m.app, ?_, hmem⟩
    rw [h.get?_byApp, if_neg (List.ne_nil_of_mem hmem)]
  increasing app queue hget := by
    refine ⟨?_, fun hnil => h.nonempty app (hnil ▸ hget)⟩
    rw [← queue_eq_of_get? hget, h.queue]
    exact h.ascending.sublist (List.filter_sublist.map _)
  below := h.below
  bounded := h.bounded
  evicts hfull := by
    have hpositive := h.positive
    cases hseq : p.bySeq with
    | nil => simp [Pool.count, hseq] at hfull; omega
    | cons first rest =>
      obtain ⟨seq, m⟩ := first
      obtain ⟨q, hevict, -, hrest, hcapacity, hget⟩ := h.evict hseq
      have hbounded := h.bounded
      rw [hseq, List.length_cons] at hbounded
      refine ⟨seq, m, rest, _, q, rfl, hget, hevict, ?_⟩
      rw [Pool.count, hrest, hcapacity]
      omega

theorem consistent_new (capacity : Nat) : Consistent (new capacity) where
  ascending := List.Pairwise.nil
  below := by simp [new, Table.keys]
  queue app := rfl
  nonempty app := by simp [new]
  positive := Nat.le_max_right capacity 1
  bounded := Nat.zero_le _

theorem backlog_new (capacity : Nat) : (new capacity).backlog = Backlog.new capacity := by
  simp [new, backlog, Backlog.new, Nat.max_comm]

/-- A pool answers as a list of messages that holds at most its capacity, and its indexes agree
after every run of calls. -/
theorem answers_eq_backlog (capacity : Nat) (calls : List Call) :
    (new capacity).answers calls = (Backlog.new capacity).answers calls ∧
      ((new capacity).run calls).Indexed := by
  have hnew := consistent_new capacity
  refine ⟨?_, (hnew.run calls).indexed⟩
  rw [hnew.answers, backlog_new]

end Pool

end MultimediaMessaging
