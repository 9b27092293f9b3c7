import MultimediaMessaging.Transport.Delivery

/-!
Sockets, and deliveries through them. A socket is whatever answers the calls below, in a monad of
its own: a socket of the operating system, or one that follows a script.
-/

set_option autoImplicit false

namespace MultimediaMessaging

open Text

/-- The calls on a socket for datagrams, with the clock they are timed by. -/
structure Socket (m : Type → Type) where
  address : m (Except IoError SocketAddress)
  send : Bytes → SocketAddress → m (Except IoError Unit)
  /-- A datagram of which no more than so many bytes are kept, and where it is from. -/
  receive : Nat → m (Except IoError (Bytes × SocketAddress))
  now : m Time
  rest : m Unit

/-- A message for an application at `dest`; `source` may be empty. -/
structure Parcel where
  dest : SocketAddress
  destApp : String
  sourceApp : String
  payload : Bytes
  deriving DecidableEq, Repr

namespace Delivery

variable {m : Type → Type} [Monad m]

/-- More than any acknowledgement that is not to be ignored. -/
def receiveLimit : Nat := 512

def ask (socket : Socket m) (d : Delivery) : Query → m Answer
  | .time => .time <$> socket.now
  | .send wire => .sent <$> socket.send wire d.dest
  | .rest => (fun () => .rested) <$> socket.rest
  | .receive => .received <$> socket.receive receiveLimit

def step (socket : Socket m) (d : Delivery) (turn : Turn) : m State :=
  d.resume turn <$> d.ask socket turn.query

def run (socket : Socket m) (d : Delivery) : (fuel : Nat) → State → m State
  | fuel + 1, .running turn => do d.run socket fuel (← d.step socket turn)
  | _, state => pure state

end Delivery

structure Sender where
  encoder : Encoder
  ackTimeout : Time
  ackRetries : Nat
  deriving DecidableEq, Repr

namespace Sender

variable {m : Type → Type} [Monad m]

def delivery (s : Sender) (parcel : Parcel) (timestamp : Nat) (ack : Option AckEndpoint) :
    Delivery :=
  { encoder := s.encoder
    dest := parcel.dest
    message := ⟨parcel.payload, parcel.destApp, parcel.sourceApp, timestamp, ack⟩
    ackTimeout := s.ackTimeout
    ackRetries := s.ackRetries }

def prepare (s : Sender) (parcel : Parcel) (timestamp : Nat) (cookie : String)
    (address : Except IoError SocketAddress) : Except TransportError Delivery :=
  (Delivery.endpoint? (s.encoder.segmentCount parcel.payload.length) address cookie).map
    (s.delivery parcel timestamp)

/-- Sends a message through a socket; gives the state that the delivery is in after `fuel` steps. -/
def send (s : Sender) (socket : Socket m) (parcel : Parcel) (timestamp : Nat) (cookie : String)
    (fuel : Nat) : m Delivery.State := do
  match s.prepare parcel timestamp cookie (← socket.address) with
  | .ok d => d.run socket fuel d.start
  | .error e => pure (.ended (.error e))

end Sender

end MultimediaMessaging
