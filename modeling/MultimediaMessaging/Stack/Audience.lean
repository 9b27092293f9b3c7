import MultimediaMessaging.Listener.Observer
import MultimediaMessaging.Table
import MultimediaMessaging.Waiting.Room

/-!
Who listens on a stack: the threads in a wait room, of which an arrival wakes one, or an observer.
-/

set_option autoImplicit false

namespace MultimediaMessaging

/-- The number of a wait room. Each open connection and push registration has one of its own. -/
structure RoomId where
  number : Nat
  deriving DecidableEq, Repr

inductive Listener where
  | waiter (room : RoomId)
  | observer (observer : Observer)
  deriving DecidableEq, Repr

/-- The wait rooms in which a thread has been, and what the observers were told. -/
structure Audience (τ : Type) where
  rooms : Table RoomId (WaitRoom τ) := []
  calls : List Call := []
  deriving DecidableEq, Repr

namespace Audience

variable {τ : Type}

def room (a : Audience τ) (id : RoomId) : WaitRoom τ := (a.rooms.get? id).getD {}

def setRoom (a : Audience τ) (id : RoomId) (room : WaitRoom τ) : Audience τ :=
  { a with rooms := a.rooms.put id room }

@[simp] theorem room_setRoom_self (a : Audience τ) (id : RoomId) (room : WaitRoom τ) :
    (a.setRoom id room).room id = room := by
  simp [Audience.room, setRoom]

theorem room_setRoom_ne (a : Audience τ) {id other : RoomId} (room : WaitRoom τ)
    (h : id ≠ other) : (a.setRoom id room).room other = a.room other := by
  simp [Audience.room, setRoom, Table.get?_put_ne _ _ h]

def interrupt [DecidableEq τ] (a : Audience τ) (id : RoomId) : Audience τ :=
  a.setRoom id (a.room id).interrupt

/-- Tells a listener of a message; `true` if it claims the message. -/
def tell [DecidableEq τ] (listener : Listener) (info : Message.Info) (a : Audience τ) :
    Bool × Audience τ :=
  match listener with
  | .waiter id =>
    let (woken, room) := (a.room id).wakeOne
    (woken, a.setRoom id room)
  | .observer o =>
    let (claimed, calls) := o.onMessage info a.calls
    (claimed, { a with calls })

def dismiss [DecidableEq τ] (a : Audience τ) : Listener → Audience τ
  | .waiter id => a.interrupt id
  | .observer o => { a with calls := o.onUnregistered a.calls }

end Audience

end MultimediaMessaging
