/-!
The counters behind the lock of a wait queue. They say how many threads are in the queue and how
many of them have been woken without knowing it yet, which is enough to wake no thread twice.
-/

set_option autoImplicit false

namespace MultimediaMessaging

inductive WaitError where
  | interrupted
  deriving DecidableEq, Repr

def WaitError.message : WaitError → String
  | interrupted => "wait interrupted"

/-- `waiting` counts the threads between parking and taking the lock again, `pendingWakes` the wakes
that none of them has accounted for. -/
structure WaitQueue where
  waiting : Nat := 0
  pendingWakes : Nat := 0
  interrupted : Bool := false
  deriving DecidableEq, Repr

namespace WaitQueue

def park (q : WaitQueue) : WaitQueue := { q with waiting := q.waiting + 1 }

def leave (q : WaitQueue) : WaitQueue :=
  { q with waiting := q.waiting - 1, pendingWakes := q.pendingWakes - 1 }

/-- Whether a wake would reach a thread that is not being woken already. -/
def canWake (q : WaitQueue) : Bool := !q.interrupted && q.pendingWakes < q.waiting

def wake (q : WaitQueue) : WaitQueue := { q with pendingWakes := q.pendingWakes + 1 }

def interrupt (q : WaitQueue) : WaitQueue := { q with interrupted := true }

end WaitQueue

end MultimediaMessaging
