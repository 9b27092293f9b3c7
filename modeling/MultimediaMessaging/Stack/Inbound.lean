import MultimediaMessaging.Stack.Basic

/-!
Receiving for a stack. Each datagram goes to the stack, and the fragments that are to be
acknowledged are: a sender whose acknowledgement cannot be sent loses its transfer. All other
failures of the socket are passed over.
-/

set_option autoImplicit false

namespace MultimediaMessaging

open Text

structure Acknowledgement.Return where
  source : SocketAddress
  dest : SocketAddress
  bytes : Bytes
  deriving DecidableEq, Repr

namespace Inbound

variable {τ : Type} [DecidableEq τ]

/-- Acknowledgements go to the host that the datagram is from, to the port that it asks for. -/
def reply (source : SocketAddress) : Incoming → Option Acknowledgement.Return
  | .needMore request =>
    let dest := { ip := source.ip, port := request.port }
    some ⟨source, dest, Acknowledgement.write request.cookie⟩
  | _ => none

def onReceived (stack : Stack τ) (now : Time) :
    IoOutcome (Bytes × SocketAddress) → Option Acknowledgement.Return × Stack τ
  | .success (datagram, source) =>
    let (incoming, stack) := stack.onDatagram now source datagram
    (reply source incoming, stack)
  | _ => (none, stack)

def onReplied (stack : Stack τ) (ack : Acknowledgement.Return) : Except IoError Unit → Stack τ
  | .ok () => stack
  | .error _ => (stack.abandon ack.source).2

variable {m : Type → Type} [Monad m]

def round (socket : Socket m) (stack : Stack τ) : m (Stack τ) := do
  let received ← socket.receive stack.config.maxDatagramSize.toNat
  match onReceived stack (← socket.now) (.classify received) with
  | (none, stack) => return stack
  | (some ack, stack) => return onReplied stack ack (← socket.send ack.bytes ack.dest)

def serve (socket : Socket m) : (rounds : Nat) → Stack τ → m (Stack τ)
  | 0, stack => pure stack
  | rounds + 1, stack => do serve socket rounds (← round socket stack)

end Inbound

end MultimediaMessaging
