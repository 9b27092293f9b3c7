import MultimediaMessaging.Proofs.Pool

/-!
What the counters of a pool say: every message that was ever added has been dropped to make room,
taken, purged with its application, or is still there.
-/

set_option autoImplicit false

namespace MultimediaMessaging.Pool

variable {p q : Pool}

def Balanced (p : Pool) : Prop :=
  p.stats.added = p.stats.evicted + p.stats.taken + p.stats.purged + p.count

theorem Balanced.evictOldest (h : Balanced p) (hevict : p.evictOldest = some q) :
    Balanced q ∧ q.stats.added = p.stats.added := by
  unfold Pool.evictOldest at hevict
  split at hevict
  · cases hevict
  · rename_i seq m rest hseq
    cases hevict
    refine ⟨?_, rfl⟩
    simp only [Balanced, count, hseq, List.length_cons] at h ⊢
    omega

theorem Balanced.makeRoom (h : Balanced p) :
    Balanced p.makeRoom ∧ p.makeRoom.stats.added = p.stats.added := by
  fun_induction Pool.makeRoom p with
  | case1 p hroom => exact ⟨h, rfl⟩
  | case2 p hfull hevict => exact ⟨h, rfl⟩
  | case3 p hfull q hevict ih =>
    obtain ⟨hq, hadded⟩ := h.evictOldest hevict
    exact hadded ▸ ih hq

theorem Balanced.add (h : Balanced p) (hconsistent : Consistent p) (m : Message) :
    Balanced (p.add m) ∧ (p.add m).stats.added = p.stats.added + 1 := by
  obtain ⟨hroomy, hcapacity, hroom, -⟩ := hconsistent.makeRoom
  obtain ⟨hbalanced, hadded⟩ := h.makeRoom
  obtain ⟨-, hseq⟩ := hroomy.append (hcapacity ▸ hroom) m
  have hcount : (p.add m).count = p.makeRoom.count + 1 := by
    rw [Pool.add, count, hseq, List.length_append]
    rfl
  have hstats : (p.add m).stats = { p.makeRoom.stats with added := p.makeRoom.stats.added + 1 } :=
    rfl
  refine ⟨?_, by rw [hstats, hadded]⟩
  simp only [Balanced, hcount, hstats] at hbalanced ⊢
  omega

theorem Balanced.takeFirst (h : Balanced p) (hconsistent : Consistent p) (app : String) :
    Balanced (p.takeFirst app).2 ∧ (p.takeFirst app).2.stats.added = p.stats.added := by
  cases hqueue : p.queue app with
  | nil =>
    rw [Pool.takeFirst, hqueue]
    exact ⟨h, rfl⟩
  | cons seq rest =>
    obtain ⟨before, m, after, hseq, -, -, hget⟩ := hconsistent.exists_first hqueue
    have hlength : p.bySeq.length = (p.bySeq.erase seq).length + 1 := by
      have hnodup := hconsistent.nodup
      rw [hseq] at hnodup ⊢
      simp [Table.erase_append_cons hnodup, Nat.add_assoc]
    rw [Pool.takeFirst, hqueue]
    simp only [hget]
    refine ⟨?_, trivial⟩
    simp only [Balanced, count] at h ⊢
    omega

theorem Balanced.removeAll (h : Balanced p) (app : String) :
    Balanced (p.removeAll app).2 ∧ (p.removeAll app).2.stats.added = p.stats.added := by
  have hle := List.length_filter_le (fun entry => decide (entry.1 ∉ p.queue app)) p.bySeq
  refine ⟨?_, rfl⟩
  simp only [Balanced, Pool.removeAll, count] at h ⊢
  omega

def removeApps (p : Pool) (apps : List String) : Pool :=
  apps.foldl (fun p app => (p.removeAll app).2) p

theorem Balanced.removeApps (h : Balanced p) (apps : List String) :
    Balanced (p.removeApps apps) ∧ (p.removeApps apps).stats.added = p.stats.added := by
  induction apps generalizing p with
  | nil => exact ⟨h, rfl⟩
  | cons app apps ih =>
    obtain ⟨hkept, hadded⟩ := h.removeAll app
    exact hadded ▸ ih hkept

/-- The messages of other applications stay, in their order, and those that go are counted. -/
structure Purged (p : Pool) (apps : List String) (q : Pool) : Prop where
  consistent : Consistent q
  backlog : q.backlog =
    { p.backlog with messages := p.backlog.messages.filter (·.app ∉ apps) }
  stats : q.stats = { p.stats with
    purged := p.stats.purged + p.backlog.messages.countP (·.app ∈ apps) }

theorem countP_cons_app (messages : List Message) (app : String) (apps : List String) :
    messages.countP (·.app = app) + (messages.filter (·.app ≠ app)).countP (·.app ∈ apps) =
      messages.countP (·.app ∈ app :: apps) := by
  induction messages with
  | nil => rfl
  | cons m messages ih =>
    rw [List.countP_cons, List.countP_cons, ← ih, List.filter_cons]
    by_cases happ : m.app = app
    · simp [happ]
      omega
    · simp [happ, List.countP_cons, Nat.add_assoc]

theorem Consistent.removeApps (h : Consistent p) (apps : List String) :
    Purged p apps (p.removeApps apps) := by
  induction apps generalizing p with
  | nil =>
    have hall : p.backlog.messages.filter (·.app ∉ []) = p.backlog.messages := by simp
    exact ⟨h, by rw [hall]; rfl, by simp [Pool.removeApps]⟩
  | cons app apps ih =>
    obtain ⟨hgone, hkept, hbacklog⟩ := h.removeAll app
    have hrest := ih hkept
    refine ⟨hrest.consistent, hrest.backlog.trans ?_, hrest.stats.trans ?_⟩
    · have hboth : (p.backlog.messages.filter (·.app ≠ app)).filter (·.app ∉ apps) =
          p.backlog.messages.filter (·.app ∉ app :: apps) := by
        rw [List.filter_filter]
        exact List.filter_congr fun m _ => by simp [Bool.and_comm]
      rw [hbacklog, ← hboth]
    · have hstats : (p.removeAll app).2.stats =
        { p.stats with purged := p.stats.purged + (p.removeAll app).1 } := rfl
      rw [hstats, hgone, hbacklog, ← countP_cons_app, Nat.add_assoc]

inductive Yields (p : Pool) : Pool → Prop where
  | same : Yields p p
  | taken (app : String) : Yields p (p.takeFirst app).2
  | purged (apps : List String) : Yields p (p.removeApps apps)

theorem Yields.balanced (hyields : Yields p q) (h : Balanced p) (hconsistent : Consistent p) :
    Balanced q ∧ Consistent q ∧ q.stats.added = p.stats.added := by
  cases hyields with
  | same => exact ⟨h, hconsistent, rfl⟩
  | taken app =>
    obtain ⟨htaken, hadded⟩ := h.takeFirst hconsistent app
    exact ⟨htaken, (hconsistent.takeFirst app).2.1, hadded⟩
  | purged apps =>
    obtain ⟨hkept, hadded⟩ := h.removeApps apps
    exact ⟨hkept, (hconsistent.removeApps apps).consistent, hadded⟩

end MultimediaMessaging.Pool
