import MultimediaMessaging.Fragment.Acknowledgement
import MultimediaMessaging.Fragment.Header
import MultimediaMessaging.Message

/-!
Putting the fragments of one sender together. Fragments come in order; one that repeats the last is
acknowledged again and changes nothing. Any error ends the transfer it occurs in. A first fragment
is taken whatever length it declares within the limit: that there is memory for a body of this
length is outside the model.
-/

set_option autoImplicit false

namespace MultimediaMessaging

open Text

/-- A message of which some fragments are still to come. `received` holds the body so far. -/
structure Transfer where
  segments : Nat
  index : Nat
  contentLength : Nat
  received : Bytes
  cookie : Option String
  port : Option UInt16
  sender : String
  app : String
  replyTo : String
  timestamp : Nat
  deriving DecidableEq, Repr

inductive Progress where
  | more (request : AckRequest)
  | complete (message : Message)
  deriving DecidableEq, Repr

namespace Progress

def isMore : Progress → Bool
  | more _ => true
  | complete _ => false

end Progress

namespace Transfer

/-- Adds a slice, which has to begin where the body so far ends. -/
def write (t : Transfer) (offset size : Nat) (body : Bytes) : Except DecodeError Transfer :=
  if t.contentLength < offset + size then
    .error (.outOfBounds offset size t.contentLength)
  else if offset ≠ t.received.length then .error (.unexpectedOffset offset t.received.length)
  else if body.length < size then .error (.truncated size body.length)
  else .ok { t with received := t.received ++ body.take size }

def ackRequest (t : Transfer) : Except DecodeError AckRequest :=
  match t.cookie, t.port with
  | none, _ => .error (.missingCookie t.index)
  | some _, none => .error (.missingHeader .ackPort)
  | some cookie, some port => .ok ⟨cookie, port⟩

/-- Whether a fragment has the index, segment count and cookie of the last one. -/
def isRepeatedBy (t : Transfer) (h : Header) : Bool :=
  h.fragment = t.index ∧ h.segments = t.segments ∧ h.ackCookie = t.cookie

def finish (t : Transfer) : Except DecodeError Message :=
  if t.received.length ≠ t.contentLength then
    .error (.incomplete t.received.length t.contentLength)
  else .ok ⟨t.sender, t.app, t.replyTo, t.timestamp, t.received⟩

def start (limit : Nat) (h : Header) (body : Bytes) : Except DecodeError Transfer :=
  match h.contentLength with
  | none => .error (.missingHeader .contentLength)
  | some contentLength =>
    if limit < contentLength then .error (.tooLarge contentLength limit)
    else
      match h.app with
      | none => .error (.missingHeader .address)
      | some app =>
        if h.isMoreExpected ∧ h.ackPort = none then .error (.missingHeader .ackPort)
        else
          write
            { segments := h.segments
              index := 0
              contentLength
              received := []
              cookie := h.ackCookie
              port := h.ackPort
              sender := h.sender.getD ""
              app
              replyTo := h.replyTo
              timestamp := h.date.getD 0 }
            h.fragmentOffset (h.fragmentSize.getD contentLength) body

def extend (t : Transfer) (h : Header) (body : Bytes) : Except DecodeError Transfer :=
  if h.segments ≠ t.segments then .error (.inconsistent .segments)
  else if h.contentLength.any (· ≠ t.contentLength) then .error (.inconsistent .contentLength)
  else if h.fragment ≠ t.index + 1 then .error (.outOfOrder (t.index + 1) h.fragment)
  else
    match h.fragmentSize with
    | none => .error (.missingHeader .fragmentSize)
    | some size => do
      let t ← t.write h.fragmentOffset size body
      if h.isMoreExpected ∧ h.ackPort = none ∧ t.port = none then
        .error (.missingHeader .ackPort)
      else
        .ok { t with index := h.fragment, cookie := h.ackCookie, port := h.ackPort.or t.port }

end Transfer

/-- The decoder of one sender's fragments; `limit` bounds the length of a message. -/
structure Decoder where
  limit : Nat
  transfer? : Option Transfer := none
  deriving DecidableEq, Repr

namespace Decoder

def inProgress (d : Decoder) : Bool := d.transfer?.isSome

def index? (d : Decoder) : Option Nat := d.transfer?.map (·.index)

def abandon (d : Decoder) : Decoder := { d with transfer? := none }

/-- What a fragment that is not a repetition leads to, `t` being the transfer with it. -/
def settle (h : Header) (t : Transfer) : Except DecodeError (Progress × Option Transfer) :=
  if h.isMoreExpected then t.ackRequest.map fun request => (.more request, some t)
  else t.finish.map fun message => (.complete message, none)

def repeatAck (t : Transfer) : Except DecodeError (Progress × Option Transfer) :=
  t.ackRequest.map fun request => (.more request, some t)

def accept (d : Decoder) (h : Header) (body : Bytes) :
    Except DecodeError (Progress × Option Transfer) :=
  if h.segments ≤ h.fragment then .error (.fragmentOutOfRange h.fragment h.segments)
  else if 1 < h.segments ∧ h.ackCookie = none then .error (.missingCookie h.fragment)
  else
    match d.transfer? with
    | some t =>
      if t.isRepeatedBy h then repeatAck t
      else if h.fragment = 0 then (Transfer.start d.limit h body).bind (settle h)
      else (t.extend h body).bind (settle h)
    | none =>
      if h.fragment = 0 then (Transfer.start d.limit h body).bind (settle h)
      else .error (.noTransfer h.fragment)

def decode (d : Decoder) (datagram : Bytes) : Except DecodeError Progress × Decoder :=
  match (Header.parse datagram).bind fun (h, body) => d.accept h body with
  | .ok (progress, transfer?) => (.ok progress, { d with transfer? })
  | .error e => (.error e, d.abandon)

end Decoder

end MultimediaMessaging
