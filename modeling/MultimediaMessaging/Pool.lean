import MultimediaMessaging.Message
import MultimediaMessaging.Table

/-!
The pool of messages that wait to be fetched. Messages are numbered as they come in; one index finds
them by number and another, per application, the numbers of its messages, oldest first. A full pool
drops its oldest message, whosever it is.
-/

set_option autoImplicit false

namespace MultimediaMessaging

structure PoolStats where
  added : Nat := 0
  evicted : Nat := 0
  taken : Nat := 0
  purged : Nat := 0
  deriving DecidableEq, Repr

structure Pool where
  capacity : Nat
  nextSeq : Nat := 0
  /-- In ascending order. -/
  bySeq : Table Nat Message := []
  byApp : Table String (List Nat) := []
  stats : PoolStats := {}
  deriving DecidableEq, Repr

inductive PoolError where
  | missingMessage
  deriving DecidableEq, Repr

def PoolError.message : PoolError → String
  | missingMessage => "no message to add"

namespace Pool

/-- A pool holds at least one message. -/
def new (capacity : Nat) : Pool := { capacity := max capacity 1 }

def count (p : Pool) : Nat := p.bySeq.length

def queue (p : Pool) (app : String) : List Nat := (p.byApp.get? app).getD []

def countFor (p : Pool) (app : String) : Nat := (p.queue app).length

def isEmpty (p : Pool) : Bool := p.bySeq.isEmpty

def putQueue (byApp : Table String (List Nat)) (app : String) (queue : List Nat) :
    Table String (List Nat) :=
  if queue = [] then byApp.erase app else byApp.put app queue

def dropSeq (byApp : Table String (List Nat)) (app : String) (seq : Nat) :
    Table String (List Nat) :=
  match byApp.get? app with
  | none => byApp
  | some queue =>
    putQueue byApp app (if queue.head? = some seq then queue.tail else queue.filter (· ≠ seq))

def evictOldest (p : Pool) : Option Pool :=
  match p.bySeq with
  | [] => none
  | (seq, m) :: bySeq =>
    some { p with
      bySeq
      byApp := dropSeq p.byApp m.app seq
      stats := { p.stats with evicted := p.stats.evicted + 1 } }

theorem length_evictOldest {p q : Pool} (h : p.evictOldest = some q) :
    q.bySeq.length < p.bySeq.length := by
  unfold evictOldest at h
  split at h
  · simp at h
  · rename_i seq m rest hs
    simp only [Option.some.injEq] at h
    simp [← h, hs]

def makeRoom (p : Pool) : Pool :=
  if p.bySeq.length < p.capacity then p
  else
    match _evicted : p.evictOldest with
    | none => p
    | some q => makeRoom q
  termination_by p.bySeq.length
  decreasing_by exact length_evictOldest _evicted

def append (p : Pool) (m : Message) : Pool :=
  { p with
    nextSeq := p.nextSeq + 1
    bySeq := p.bySeq.put p.nextSeq m
    byApp := p.byApp.put m.app (p.queue m.app ++ [p.nextSeq])
    stats := { p.stats with added := p.stats.added + 1 } }

def add (p : Pool) (m : Message) : Pool := p.makeRoom.append m

def addOpt (p : Pool) : Option Message → Except PoolError Pool
  | some m => .ok (p.add m)
  | none => .error .missingMessage

def peekFirst (p : Pool) (app : String) : Option Message :=
  (p.queue app).head?.bind p.bySeq.get?

def takeFirst (p : Pool) (app : String) : Option Message × Pool :=
  match p.queue app with
  | [] => (none, p)
  | seq :: queue =>
    let q := { p with byApp := putQueue p.byApp app queue }
    match p.bySeq.get? seq with
    | none => (none, q)
    | some m =>
      (some m, { q with
        bySeq := p.bySeq.erase seq
        stats := { p.stats with taken := p.stats.taken + 1 } })

def removeAll (p : Pool) (app : String) : Nat × Pool :=
  let kept := p.bySeq.filter fun entry => entry.1 ∉ p.queue app
  let gone := p.bySeq.length - kept.length
  (gone, { p with
    bySeq := kept
    byApp := p.byApp.erase app
    stats := { p.stats with purged := p.stats.purged + gone } })

end Pool

end MultimediaMessaging
