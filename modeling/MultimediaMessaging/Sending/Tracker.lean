import MultimediaMessaging.Table
import MultimediaMessaging.Waiting.Queue

/-!
Which connections are sending and how it ended. A connection sends one message at a time; the
outcome is kept until it is fetched, and what is reported about a connection that is not sending is
ignored.
-/

set_option autoImplicit false

namespace MultimediaMessaging

structure ConnectionHandle where
  number : UInt32
  deriving DecidableEq, Repr

namespace ConnectionHandle

def text (h : ConnectionHandle) : String := s!"conn#{h.number.toNat}"

def describe (h : ConnectionHandle) : String := s!"ConnectionHandle({h.number.toNat})"

end ConnectionHandle

inductive SendStatus where
  | sent
  | failed
  deriving DecidableEq, Repr

inductive SendState where
  | sending
  | done (status : SendStatus)
  | interrupted
  deriving DecidableEq, Repr

structure SendTracker where
  nextHandle : UInt32 := 1
  slots : Table ConnectionHandle SendState := []
  deriving DecidableEq, Repr

namespace SendTracker

def allocate (t : SendTracker) : ConnectionHandle × SendTracker :=
  (⟨t.nextHandle⟩, { t with nextHandle := t.nextHandle + 1 })

def isSending (t : SendTracker) (h : ConnectionHandle) : Bool := t.slots.get? h = some .sending

/-- Marks `h` as sending, unless it is. An outcome that nobody fetched is lost. -/
def start (t : SendTracker) (h : ConnectionHandle) : Bool × SendTracker :=
  if t.isSending h then (false, t) else (true, { t with slots := t.slots.put h .sending })

def finish (t : SendTracker) (h : ConnectionHandle) (state : SendState) : Bool × SendTracker :=
  if t.isSending h then (true, { t with slots := t.slots.put h state }) else (false, t)

/-- Looks for the outcome of `h` and forgets it; `none` while `h` is sending. -/
def fetch (t : SendTracker) (h : ConnectionHandle) :
    Option (Except WaitError SendStatus) × SendTracker :=
  match t.slots.get? h with
  | some .sending => (none, t)
  | some (.done status) => (some (.ok status), { t with slots := t.slots.erase h })
  | some .interrupted | none => (some (.error .interrupted), { t with slots := t.slots.erase h })

end SendTracker

end MultimediaMessaging
