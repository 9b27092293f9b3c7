import MultimediaMessaging.Assembler
import MultimediaMessaging.Config.Basic
import MultimediaMessaging.Router
import MultimediaMessaging.Sending.Room
import MultimediaMessaging.Stack.Audience
import MultimediaMessaging.Transport.Socket

/-!
A messaging stack: the assembler of incoming transfers, the router to listeners and pool, and the
sends in progress. Every operation below is one step; threads that it rouses take theirs later.
-/

set_option autoImplicit false

namespace MultimediaMessaging

open Text

inductive StackError where
  | config (error : ConfigError)
  | registry (error : RegistryError)
  | wait (error : WaitError)
  | closed
  deriving DecidableEq, Repr

def StackError.message : StackError → String
  | config error => s!"configuration error: {error.message}"
  | registry error => s!"registry error: {error.message}"
  | wait error => error.message
  | closed => "connection closed"

inductive Incoming where
  | needMore (request : AckRequest)
  | dispatched (disposition : Disposition)
  | aborted (error : DecodeError)
  deriving DecidableEq, Repr

/-- A stack whose threads are named by `τ`. `interest` is all that the platform was told, oldest
first. -/
structure Stack (τ : Type) where
  config : Config
  router : Router Listener
  assembler : Assembler
  sends : SendRoom τ := {}
  audience : Audience τ := {}
  nextRoom : Nat := 0
  interest : List InterestEvent := []
  deriving DecidableEq, Repr

namespace Stack

variable {τ : Type} [DecidableEq τ]

def new (config : Config) : Except StackError (Stack τ) :=
  match config.validate with
  | .error e => .error (.config e)
  | .ok () =>
    .ok {
      config
      router := { pool := .new config.poolCapacity.toNat }
      assembler :=
        { maxPending := config.maxPendingTransfers.toNat
          timeout := milliseconds config.reassemblyTimeout.toNat
          limit := config.maxMessageSize.toNat } }

def pool (s : Stack τ) : Pool := s.router.pool

def setPool (s : Stack τ) (pool : Pool) : Stack τ := { s with router := { s.router with pool } }

def listeners (s : Stack τ) : Listeners Listener := s.router.listeners

def setListeners (s : Stack τ) (listeners : Listeners Listener) : Stack τ :=
  { s with router := { s.router with listeners } }

def dispatch (s : Stack τ) (m : Message) : Disposition × Stack τ :=
  let (disposition, router, audience) := s.router.dispatch Audience.tell m s.audience
  (disposition, { s with router, audience })

def onDatagram (s : Stack τ) (now : Time) (source : SocketAddress) (datagram : Bytes) :
    Incoming × Stack τ :=
  let (result, assembler) := s.assembler.onFragment now source datagram
  let s := { s with assembler }
  match result with
  | .ok (.more request) => (.needMore request, s)
  | .ok (.complete m) =>
    let (disposition, s) := s.dispatch m
    (.dispatched disposition, s)
  | .error e => (.aborted e, s)

def abandon (s : Stack τ) (source : SocketAddress) : Bool × Stack τ :=
  let (found, assembler) := s.assembler.abandon source
  (found, { s with assembler })

def tick (s : Stack τ) (now : Time) : Nat × Stack τ :=
  let (gone, assembler) := s.assembler.tick now
  (gone, { s with assembler })

def pending (s : Stack τ) (app : String) : Nat := s.pool.countFor app

def take (s : Stack τ) (app : String) : Option Message × Stack τ :=
  let (m, pool) := s.pool.takeFirst app
  (m, s.setPool pool)

def isSending (s : Stack τ) (h : ConnectionHandle) : Bool := s.sends.tracker.isSending h

/-- Reports how the send of `h` ended; `false`, and nothing happens, if there is none. -/
def onSendCompleted (s : Stack τ) (h : ConnectionHandle) (status : SendStatus) :
    Bool × Stack τ :=
  let (reported, sends) := s.sends.complete h status
  (reported, { s with sends })

def sender (s : Stack τ) : Sender :=
  { encoder := .ofConfig s.config
    ackTimeout := milliseconds s.config.ackTimeout.toNat
    ackRetries := s.config.ackRetries.toNat }

def describe (s : Stack τ) : String :=
  s!"MmsStack \x7b config: {s.config.describe}, listeners: {s.listeners.describe}, .. \x7d"

end Stack

end MultimediaMessaging
