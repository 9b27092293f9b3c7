import MultimediaMessaging.Table
import MultimediaMessaging.Waiting.Room

/-!
Threads that wait in one room for the values of a shared list, each value going to one of them.
`settle` lets every roused thread take its step, after which all threads sleep or have finished.
-/

set_option autoImplicit false

namespace MultimediaMessaging

/-- `results` holds the threads in the order of their start, with what those that finished got. -/
structure Consumers (τ α : Type) where
  room : WaitRoom τ := {}
  values : List α := []
  results : Table τ (Option (WaitResult α)) := []

namespace Consumers

variable {τ α : Type} [DecidableEq τ]

def takeValue : List α → Option α × List α
  | [] => (none, [])
  | a :: values => (some a, values)

def publish (c : Consumers τ α) (a : α) : Consumers τ α := { c with values := c.values ++ [a] }

def wakeOne (c : Consumers τ α) : Bool × Consumers τ α :=
  let (woken, room) := c.room.wakeOne
  (woken, { c with room })

def interrupt (c : Consumers τ α) : Consumers τ α := { c with room := c.room.interrupt }

def expire (c : Consumers τ α) (t : τ) : Consumers τ α := { c with room := c.room.expire t }

def start (c : Consumers τ α) (t : τ) : Consumers τ α :=
  let (result, room, values) := c.room.look t takeValue c.values
  { room, values, results := c.results.put t result }

def resume (c : Consumers τ α) (t : τ) (timedOut : Bool) : Consumers τ α :=
  let (result, room, values) := c.room.resume t timedOut takeValue c.values
  { room, values, results := c.results.put t result }

def settle (c : Consumers τ α) : Consumers τ α :=
  c.room.roused.foldl (fun c (t, timedOut) => c.resume t timedOut) c

def result? (c : Consumers τ α) (t : τ) : Option (WaitResult α) := (c.results.get? t).join

def unfinished (c : Consumers τ α) : List τ :=
  (c.results.filter fun entry => entry.2.isNone).map Prod.fst

end Consumers

end MultimediaMessaging
