import MultimediaMessaging.Stack.Registration

/-!
Calls that threads make on the connections and push registrations of a stack. A call is a sequence
of steps, each under one lock, and any steps of other threads may come between two of them. Where a
thread stands says all that it does from there on.
-/

set_option autoImplicit false

namespace MultimediaMessaging

/-- What a thread asks for. A timed call gives up when its time is over. -/
inductive Request where
  | receive (connection : RoomId) (timed : Bool)
  | tryReceive (connection : RoomId)
  | send (connection : RoomId) (dest : SocketAddress) (destApp : String) (payload : Text.Bytes)
  | close (connection : RoomId)
  | awaitActivity (push : RoomId) (timed : Bool)
  | unregister (push : RoomId)
  deriving DecidableEq, Repr

inductive Reply where
  | done
  /-- Nothing came in time. -/
  | nothing
  | message (message : Message)
  | activity (pending : Nat)
  | status (status : SendStatus)
  deriving DecidableEq, Repr

inductive Want where
  | message (app : String)
  | activity (app : String)
  deriving DecidableEq, Repr

/-- A message that is found is taken, activity is only seen. -/
def Want.check : Want → Pool → Option Reply × Pool
  | .message app, pool =>
    let (m, pool) := pool.takeFirst app
    (m.map .message, pool)
  | .activity app, pool =>
    (if 0 < pool.countFor app then some (.activity (pool.countFor app)) else none, pool)

inductive Use where
  | receive (timed : Bool)
  | tryReceive
  | send (dest : SocketAddress) (destApp : String) (payload : Text.Bytes)
  deriving DecidableEq, Repr

/-- Where a thread stands: what it does next, or what it got. -/
inductive Task where
  | checkClosed (connection : RoomId) (use : Use)
  | checkInterrupted (connection : RoomId) (use : Use)
  | take (connection : RoomId)
  /-- Looks into the pool, with the wait room locked. -/
  | look (room : RoomId) (want : Want) (timed : Bool)
  | asleep (room : RoomId) (want : Want) (timed : Bool)
  /-- Wants to be the only one to send on the connection. -/
  | lock (connection : RoomId) (parcel : Parcel)
  | startSend (connection : RoomId) (parcel : Parcel)
  /-- Hands the parcel over to a thread of its own. -/
  | handOver (connection : RoomId) (parcel : Parcel)
  | watchSend (connection : RoomId)
  | awaitSend (connection : RoomId)
  | unlock (connection : RoomId) (result : Except StackError Reply)
  /-- Reads and sets that the connection is closed. -/
  | markClosed (connection : RoomId)
  | interruptSend (connection : RoomId)
  | markInactive (push : RoomId)
  | withdraw (room : RoomId) (app : String) (cls : ListenerClass) (token : Nat)
  | dismiss (room : RoomId) (listener : Listener)
  | interruptRoom (room : RoomId)
  | finished (result : Except StackError Reply)
  deriving Repr

def Use.task (connection : RoomId) (app : String) : Use → Task
  | .receive timed => .look connection (.message app) timed
  | .tryReceive => .take connection
  | .send dest destApp payload => .lock connection ⟨dest, destApp, app, payload⟩

def WaitResult.outcome : WaitResult Reply → Except StackError Reply
  | .ok reply => .ok (reply.getD .nothing)
  | .error e => .error (.wait e)

namespace Task

def isFinished : Task → Bool
  | .finished _ => true
  | _ => false

/-- The wait room of the connection or push registration that a call is about, while it goes on. -/
def room? : Task → Option RoomId
  | .checkClosed id _ | .checkInterrupted id _ | .take id | .look id _ _ | .asleep id _ _
  | .lock id _ | .startSend id _ | .handOver id _ | .watchSend id | .awaitSend id
  | .unlock id _ | .markClosed id | .interruptSend id | .markInactive id | .withdraw id _ _ _
  | .dismiss id _ | .interruptRoom id => some id
  | .finished _ => none

def result? : Task → Option (Except StackError Reply)
  | .finished result => some result
  | _ => none

def afterLook (room : RoomId) (want : Want) (timed : Bool) : Option (WaitResult Reply) → Task
  | some result => .finished result.outcome
  | none => .asleep room want timed

def afterWatch (connection : RoomId) : Option (Except WaitError SendStatus) → Task
  | some (.ok status) => .unlock connection (.ok (.status status))
  | some (.error e) => .unlock connection (.error (.wait e))
  | none => .awaitSend connection

end Task

end MultimediaMessaging
