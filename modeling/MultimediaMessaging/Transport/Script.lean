import MultimediaMessaging.Transport.Socket

/-!
Sockets that follow a script. Calls answer one cue after the other; a cue says also whether the call
takes long. No two datagrams arrive at once. When the cues are used up, sending succeeds and
receiving runs out of time.
-/

set_option autoImplicit false

namespace MultimediaMessaging

open Text

inductive SendCue where
  | ok
  | block
  /-- The call would block after all time was spent on it. -/
  | blockLate
  | fail (kind : IoKind)
  deriving DecidableEq, Repr

inductive ReceiveCue where
  | datagram (source : SocketAddress) (bytes : Bytes)
  | block
  /-- Nothing comes, and all time is spent on it. -/
  | timeout
  | fail (kind : IoKind)
  deriving DecidableEq, Repr

/-- The cues still to come, the time that a late call takes, and the datagrams of all calls to send,
also of those that failed. -/
structure Script where
  address : Except IoError SocketAddress
  budget : Time
  sends : List SendCue
  receipts : List ReceiveCue
  now : Time := 0
  sent : List (SocketAddress × Bytes) := []

namespace Script

def onSend (bytes : Bytes) (dest : SocketAddress) (s : Script) :
    Except IoError Unit × Script :=
  let s := { s with sent := s.sent ++ [(dest, bytes)] }
  match s.sends with
  | [] => (.ok (), s)
  | .ok :: sends => (.ok (), { s with sends })
  | .block :: sends => (.error ⟨.wouldBlock, none⟩, { s with sends })
  | .blockLate :: sends => (.error ⟨.wouldBlock, none⟩, { s with sends, now := s.now + s.budget })
  | .fail kind :: sends => (.error ⟨kind, none⟩, { s with sends })

def onReceive (limit : Nat) (s : Script) :
    Except IoError (Bytes × SocketAddress) × Script :=
  match s.receipts with
  | [] => (.error ⟨.wouldBlock, none⟩, { s with now := s.now + s.budget })
  | .datagram source bytes :: receipts =>
    (.ok (bytes.take limit, source), { s with receipts, now := s.now + 1 })
  | .block :: receipts => (.error ⟨.wouldBlock, none⟩, { s with receipts })
  | .timeout :: receipts =>
    (.error ⟨.wouldBlock, none⟩, { s with receipts, now := s.now + s.budget })
  | .fail kind :: receipts => (.error ⟨kind, none⟩, { s with receipts })

def onRest (s : Script) : Script := { s with now := s.now + milliseconds 1 }

def socket : Socket (StateM Script) where
  address := do return (← get).address
  send bytes dest := onSend bytes dest
  receive limit := onReceive limit
  now := do return (← get).now
  rest := modify onRest

/-- Enough steps for a delivery to end, if a call that takes long takes no less than a wait for an
acknowledgement. -/
def fuel (s : Script) (segments retries : Nat) : Nat :=
  8 * (s.sends.length + s.receipts.length + segments + retries + 3)

def send (s : Script) (sender : Sender) (parcel : Parcel) (timestamp : Nat) (cookie : String) :
    Delivery.State × Script :=
  sender.send socket parcel timestamp cookie
    (s.fuel (sender.encoder.segmentCount parcel.payload.length) sender.ackRetries) s

end Script

end MultimediaMessaging
