import MultimediaMessaging.Waiting.Queue

/-!
A wait queue together with where each of its threads stands. Every operation is one step under the
lock of the queue. A thread that is woken or runs out of time leaves its sleep at once, but looks
around only in a later step of its own, and anything may happen in between. When the time of a
thread is up is left open, so no deadline is computed here.
-/

set_option autoImplicit false

namespace MultimediaMessaging

/-- Threads of type `τ`, in the order in which they went to sleep or were roused; the flag of a
roused thread says that it ran out of time. -/
structure WaitRoom (τ : Type) where
  queue : WaitQueue := {}
  parked : List τ := []
  roused : List (τ × Bool) := []
  deriving DecidableEq, Repr

/-- How a wait ends: with a value, without one when the time is up, or by interruption. -/
abbrev WaitResult (α : Type) := Except WaitError (Option α)

namespace WaitRoom

variable {τ σ α : Type} [DecidableEq τ]

/-- Wakes the thread that has slept longest; `true` if some thread will notice. -/
def wakeOne (room : WaitRoom τ) : Bool × WaitRoom τ :=
  if room.queue.canWake then
    (true, { queue := room.queue.wake
             parked := room.parked.drop 1
             roused := room.roused ++ (room.parked.take 1).map (·, false) })
  else (false, room)

/-- Wakes every thread, now and for all later waits. -/
def interrupt (room : WaitRoom τ) : WaitRoom τ :=
  if room.queue.interrupted then room
  else
    { queue := room.queue.interrupt
      parked := []
      roused := room.roused ++ room.parked.map (·, false) }

def expire (room : WaitRoom τ) (t : τ) : WaitRoom τ :=
  if t ∈ room.parked then
    { room with parked := room.parked.erase t, roused := room.roused ++ [(t, true)] }
  else room

/-- One look for a value by a thread that holds the lock. Without a result it goes to sleep. -/
def look (room : WaitRoom τ) (t : τ) (check : σ → Option α × σ) (s : σ) :
    Option (WaitResult α) × WaitRoom τ × σ :=
  if room.queue.interrupted then (some (.error .interrupted), room, s)
  else
    match check s with
    | (some a, s) => (some (.ok (some a)), room, s)
    | (none, s) =>
      (none, { room with queue := room.queue.park, parked := room.parked ++ [t] }, s)

/-- The last look of a thread whose time is up; it does not sleep again. -/
def lastLook (room : WaitRoom τ) (check : σ → Option α × σ) (s : σ) :
    WaitResult α × WaitRoom τ × σ :=
  if room.queue.interrupted then (.error .interrupted, room, s)
  else
    let (value, s) := check s
    (.ok value, room, s)

def resume (room : WaitRoom τ) (t : τ) (timedOut : Bool) (check : σ → Option α × σ) (s : σ) :
    Option (WaitResult α) × WaitRoom τ × σ :=
  let room := { room with queue := room.queue.leave, roused := room.roused.erase (t, timedOut) }
  if timedOut then
    let (result, room, s) := room.lastLook check s
    (some result, room, s)
  else room.look t check s

end WaitRoom

end MultimediaMessaging
