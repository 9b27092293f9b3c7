import MultimediaMessaging.Listener.Registry

/-!
What becomes of a message that is complete. One that nobody listens for is dropped; any other is put
into the pool before a listener hears of it. The connection is asked first, and the push
registration only if the connection did not claim the message.
-/

set_option autoImplicit false

namespace MultimediaMessaging

inductive Disposition where
  | deliveredToMidlet
  | deliveredToPush
  | pooled
  | discarded
  deriving DecidableEq, Repr

namespace Disposition

def isExpected (d : Disposition) : Bool := d ≠ discarded

end Disposition

structure DispatchStats where
  midlet : Nat := 0
  push : Nat := 0
  pooled : Nat := 0
  discarded : Nat := 0
  deriving DecidableEq, Repr

namespace DispatchStats

def count (s : DispatchStats) : Disposition → DispatchStats
  | .deliveredToMidlet => { s with midlet := s.midlet + 1 }
  | .deliveredToPush => { s with push := s.push + 1 }
  | .pooled => { s with pooled := s.pooled + 1 }
  | .discarded => { s with discarded := s.discarded + 1 }

end DispatchStats

structure Router (L : Type) where
  listeners : Listeners L := {}
  pool : Pool
  counts : DispatchStats := {}
  deriving DecidableEq, Repr

namespace Router

variable {L σ : Type}

/-- Asks a listener, if there is one, whether it claims a message. `notify` may change a state. -/
def ask (notify : L → Message.Info → σ → Bool × σ) (info : Message.Info) (s : σ) :
    Option (Registration L) → Bool × σ
  | none => (false, s)
  | some entry => notify entry.listener info s

def pushFor? (r : Router L) (m : Message) : Option (Registration L) :=
  (r.listeners.push.get? m.app).filter (·.accepts m.sender)

def offer (notify : L → Message.Info → σ → Bool × σ) (info : Message.Info)
    (midlet push : Option (Registration L)) (s : σ) : Disposition × σ :=
  match ask notify info s midlet with
  | (true, s) => (.deliveredToMidlet, s)
  | (false, s) =>
    match ask notify info s push with
    | (true, s) => (.deliveredToPush, s)
    | (false, s) => (.pooled, s)

/-- Dispatches a message to listeners that may fetch it, or do anything else to the pool, as soon
as they hear of it. -/
def deliver (notify : L → Message.Info → Pool × σ → Bool × Pool × σ) (r : Router L) (m : Message)
    (s : σ) : Disposition × Router L × σ :=
  let midlet := r.listeners.midlet.get? m.app
  let push := r.pushFor? m
  if midlet.isNone ∧ push.isNone then
    (.discarded, { r with counts := r.counts.count .discarded }, s)
  else
    let (disposition, pool, s) := offer notify m.info midlet push (r.pool.add m, s)
    (disposition, { r with pool, counts := r.counts.count disposition }, s)

def besidePool (notify : L → Message.Info → σ → Bool × σ) (listener : L) (info : Message.Info) :
    Pool × σ → Bool × Pool × σ
  | (pool, s) =>
    let (claimed, s) := notify listener info s
    (claimed, pool, s)

/-- Dispatches a message to listeners that fetch it later, if at all. -/
def dispatch (notify : L → Message.Info → σ → Bool × σ) (r : Router L) (m : Message) (s : σ) :
    Disposition × Router L × σ :=
  r.deliver (besidePool notify) m s

section BesidePool

variable (notify : L → Message.Info → σ → Bool × σ) (info : Message.Info) (pool : Pool) (s : σ)

theorem ask_besidePool (entry : Option (Registration L)) :
    ask (besidePool notify) info (pool, s) entry =
      ((ask notify info s entry).1, pool, (ask notify info s entry).2) := by
  cases entry <;> rfl

theorem offer_besidePool (midlet push : Option (Registration L)) :
    offer (besidePool notify) info midlet push (pool, s) =
      ((offer notify info midlet push s).1, pool, (offer notify info midlet push s).2) := by
  rcases hfirst : ask notify info s midlet with ⟨_ | _, s'⟩
  · rcases hsecond : ask notify info s' push with ⟨_ | _, last⟩ <;>
      simp only [offer, ask_besidePool, hfirst, hsecond]
  · simp only [offer, ask_besidePool, hfirst]

theorem dispatch_eq (r : Router L) (m : Message) :
    r.dispatch notify m s =
      if (r.listeners.midlet.get? m.app).isNone ∧ (r.pushFor? m).isNone then
        (.discarded, { r with counts := r.counts.count .discarded }, s)
      else
        let (disposition, s) :=
          offer notify m.info (r.listeners.midlet.get? m.app) (r.pushFor? m) s
        (disposition,
          { r with pool := r.pool.add m, counts := r.counts.count disposition }, s) := by
  simp only [dispatch, deliver, offer_besidePool]

end BesidePool

end Router

end MultimediaMessaging
