import MultimediaMessaging.Sending.Tracker

/-!
A send tracker together with the threads that wait for an outcome. They all sleep on one condition:
whenever a send ends, every sleeper is roused, and those it does not concern go back to sleep.
-/

set_option autoImplicit false

namespace MultimediaMessaging

/-- Threads of type `τ`, each with the connection whose outcome it waits for. -/
structure SendRoom (τ : Type) where
  tracker : SendTracker := {}
  parked : List (τ × ConnectionHandle) := []
  roused : List (τ × ConnectionHandle) := []
  deriving DecidableEq, Repr

namespace SendRoom

variable {τ : Type} [DecidableEq τ]

/-- Ends a send and rouses every sleeper; `false`, and nothing happens, if `h` is not sending. -/
def finish (room : SendRoom τ) (h : ConnectionHandle) (state : SendState) : Bool × SendRoom τ :=
  match room.tracker.finish h state with
  | (true, tracker) =>
    (true, { tracker, parked := [], roused := room.roused ++ room.parked })
  | (false, _) => (false, room)

def complete (room : SendRoom τ) (h : ConnectionHandle) (status : SendStatus) : Bool × SendRoom τ :=
  room.finish h (.done status)

def interrupt (room : SendRoom τ) (h : ConnectionHandle) : SendRoom τ :=
  (room.finish h .interrupted).2

/-- One look for the outcome of `h`. Without a result the thread goes to sleep. -/
def look (room : SendRoom τ) (t : τ) (h : ConnectionHandle) :
    Option (Except WaitError SendStatus) × SendRoom τ :=
  match room.tracker.fetch h with
  | (some result, tracker) => (some result, { room with tracker })
  | (none, tracker) => (none, { room with tracker, parked := room.parked ++ [(t, h)] })

def resume (room : SendRoom τ) (t : τ) (h : ConnectionHandle) :
    Option (Except WaitError SendStatus) × SendRoom τ :=
  { room with roused := room.roused.erase (t, h) }.look t h

end SendRoom

/-- A send tracker and what its threads got, in the order of their start. -/
structure Senders (τ : Type) where
  room : SendRoom τ := {}
  results : Table τ (Option (Except WaitError SendStatus)) := []

namespace Senders

variable {τ : Type} [DecidableEq τ]

def start (s : Senders τ) (t : τ) (h : ConnectionHandle) : Senders τ :=
  let (result, room) := s.room.look t h
  { room, results := s.results.put t result }

def resume (s : Senders τ) (t : τ) (h : ConnectionHandle) : Senders τ :=
  let (result, room) := s.room.resume t h
  { room, results := s.results.put t result }

/-- Lets the threads roused so far take their steps, in the order in which they were roused. -/
def settle (s : Senders τ) : Senders τ :=
  s.room.roused.foldl (fun s (t, h) => s.resume t h) s

def result? (s : Senders τ) (t : τ) : Option (Except WaitError SendStatus) :=
  (s.results.get? t).join

def unfinished (s : Senders τ) : List τ :=
  (s.results.filter fun entry => entry.2.isNone).map Prod.fst

end Senders

end MultimediaMessaging
