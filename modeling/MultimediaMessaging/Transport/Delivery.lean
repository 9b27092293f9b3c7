import MultimediaMessaging.Clock
import MultimediaMessaging.Fragment.Acknowledgement
import MultimediaMessaging.Fragment.Encoder
import MultimediaMessaging.Text.Hexadecimal
import MultimediaMessaging.Transport.Error

/-!
Sending a message fragment by fragment. Every fragment but the last is sent until the receiver
acknowledges it or the attempts are used up, and only then comes the next. The sender is a machine
that asks one question of its surroundings at a time and goes on with the answer, so nothing is
assumed about the clock or the network. Times have no upper bound, so the sum that a deadline is
does not overflow; a clock whose range ends is outside the model.
-/

set_option autoImplicit false

namespace MultimediaMessaging

open Text

/-- What is sent, to whom, how long to wait for an acknowledgement and how often to send again. -/
structure Delivery where
  encoder : Encoder
  dest : SocketAddress
  message : Outgoing
  ackTimeout : Time
  ackRetries : Nat
  deriving DecidableEq, Repr

namespace Delivery

def cookieText (millis : Nat) (counter : UInt32) : String :=
  String.ofList (hexDigits millis ++ '-' :: hexDigits counter.toNat)

def endpoint? (segments : Nat) (address : Except IoError SocketAddress) (cookie : String) :
    Except TransportError (Option AckEndpoint) :=
  if segments ≤ 1 then .ok none
  else
    match address with
    | .ok address => .ok (some ⟨address.port, cookie⟩)
    | .error e => .error (.io e)

def segments (d : Delivery) : Nat := d.encoder.segmentCount d.message.payload.length

def cookie (d : Delivery) : String := (d.message.ack.map (·.cookie)).getD ""

inductive Stage where
  | noteSend
  | send (deadline : Time)
  /-- The socket would block: see whether time is left. -/
  | checkSend (deadline : Time)
  | rest (deadline : Time)
  | noteWait
  | checkWait (deadline : Time)
  | receive (deadline : Time)
  deriving DecidableEq, Repr

/-- The fragment being sent; `attempts` counts its sendings with the present one. -/
structure Turn where
  index : Nat
  attempts : Nat
  wire : Bytes
  stage : Stage
  deriving DecidableEq, Repr

/-- A delivery that has ended gives the number of fragments. -/
inductive State where
  | running (turn : Turn)
  | ended (result : Except TransportError Nat)
  deriving Repr

inductive Query where
  | time
  | send (wire : Bytes)
  | rest
  | receive
  deriving DecidableEq, Repr

inductive Answer where
  | time (now : Time)
  | sent (result : Except IoError Unit)
  | rested
  | received (result : Except IoError (Bytes × SocketAddress))
  deriving Repr

def Turn.query (turn : Turn) : Query :=
  match turn.stage with
  | .noteSend | .checkSend _ | .noteWait | .checkWait _ => .time
  | .send _ => .send turn.wire
  | .rest _ => .rest
  | .receive _ => .receive

def enter (d : Delivery) (index : Nat) : State :=
  if d.segments ≤ index then .ended (.ok d.segments)
  else
    match d.encoder.encode d.message index d.segments with
    | .ok wire => .running ⟨index, 1, wire, .noteSend⟩
    | .error e => .ended (.error (.encode e))

def start (d : Delivery) : State := d.enter 0

def onSent (d : Delivery) (turn : Turn) (deadline : Time) : IoOutcome Unit → State
  | .success () =>
    if turn.index + 1 < d.segments then .running { turn with stage := .noteWait }
    else d.enter (turn.index + 1)
  | .wouldBlock => .running { turn with stage := .checkSend deadline }
  | .fail e => .ended (.error (.io e))

def onSilence (d : Delivery) (turn : Turn) : State :=
  if d.ackRetries < turn.attempts then .ended (.error (.ackTimeout turn.index turn.attempts))
  else .running { turn with attempts := turn.attempts + 1, stage := .noteSend }

/-- Whether a datagram acknowledges this delivery. The receiver may answer from any of its ports. -/
def isAcknowledgedBy (d : Delivery) (datagram : Bytes) (source : SocketAddress) : Bool :=
  source.ip = d.dest.ip ∧ Acknowledgement.read datagram = some d.cookie

def onReceived (d : Delivery) (turn : Turn) (deadline : Time) :
    IoOutcome (Bytes × SocketAddress) → State
  | .success (datagram, source) =>
    if d.isAcknowledgedBy datagram source then d.enter (turn.index + 1)
    else .running { turn with stage := .checkWait deadline }
  | .wouldBlock => .running { turn with stage := .checkWait deadline }
  | .fail e => .ended (.error (.io e))

/-- Goes on with the answer to the question asked. Any other answer changes nothing. -/
def resume (d : Delivery) (turn : Turn) (answer : Answer) : State :=
  match turn.stage, answer with
  | .noteSend, .time now => .running { turn with stage := .send (now + d.ackTimeout) }
  | .send deadline, .sent result => d.onSent turn deadline (.classify result)
  | .checkSend deadline, .time now =>
    if now < deadline then .running { turn with stage := .rest deadline }
    else .ended (.error (.io ⟨.timedOut, none⟩))
  | .rest deadline, .rested => .running { turn with stage := .send deadline }
  | .noteWait, .time now => .running { turn with stage := .checkWait (now + d.ackTimeout) }
  | .checkWait deadline, .time now =>
    if now < deadline then .running { turn with stage := .receive deadline } else d.onSilence turn
  | .receive deadline, .received result => d.onReceived turn deadline (.classify result)
  | _, _ => .running turn

end Delivery

end MultimediaMessaging
