import MultimediaMessaging.Config.Basic
import MultimediaMessaging.Fragment.Header

/-!
Cutting a message into datagrams. Every fragment but the last carries the same number of body bytes,
and each datagram can be made on its own, in any order.
-/

set_option autoImplicit false

namespace MultimediaMessaging

open Text

structure AckEndpoint where
  port : UInt16
  cookie : String
  deriving DecidableEq, Repr

/-- A message on its way out; `source` may be empty. -/
structure Outgoing where
  payload : Bytes
  dest : String
  source : String
  timestamp : Nat
  ack : Option AckEndpoint
  deriving DecidableEq, Repr

/-- `maxDatagram` bounds a whole datagram and `fragmentSize` the body bytes in it. -/
structure Encoder where
  fragmentSize : Nat
  phone : String
  maxDatagram : Option Nat := none
  deriving DecidableEq, Repr

namespace Encoder

def ofConfig (config : Config) : Encoder :=
  { fragmentSize := config.fragmentSize.toNat
    phone := config.phoneNumber
    maxDatagram := some config.maxDatagramSize.toNat }

def segmentCount (e : Encoder) (length : Nat) : Nat :=
  if e.fragmentSize = 0 ∨ length ≤ e.fragmentSize then 1
  else (length + e.fragmentSize - 1) / e.fragmentSize

theorem segmentCount_pos (e : Encoder) (length : Nat) : 0 < e.segmentCount length := by
  unfold segmentCount
  split
  · decide
  · exact Nat.div_pos (by omega) (by omega)

def slice (e : Encoder) (length index segments : Nat) : Except EncodeError (Nat × Nat) :=
  if segments = 1 then .ok (0, length)
  else if length ≤ index * e.fragmentSize then
    .error (.emptyFragment index (index * e.fragmentSize) length)
  else if index + 1 = segments then
    .ok (index * e.fragmentSize, length - index * e.fragmentSize)
  else .ok (index * e.fragmentSize, min e.fragmentSize (length - index * e.fragmentSize))

/-- An application that a header line can name: `colon` says whether it may hold one. -/
def isLineSafe (colon : Bool) (app : String) : Bool :=
  app.toList.all fun c => c != '\n' && c != '\r' && (colon || c != ':')

def senderAddress (phone source : String) : String :=
  if source = "" then s!"mms://{phone}" else s!"mms://{phone}:{source}"

def headerLine (name value : String) : String := s!"{name}: {value}\n"

def commonLines (e : Encoder) (m : Outgoing) (segments : Nat) : String :=
  headerLine HeaderKey.date.name (toString m.timestamp) ++
  headerLine HeaderKey.address.name s!"mms://:{m.dest}" ++
  headerLine HeaderKey.senderAddress.name (senderAddress e.phone m.source) ++
  headerLine "Content-Type" "multipart" ++
  headerLine HeaderKey.contentLength.name (toString m.payload.length) ++
  headerLine HeaderKey.segments.name (toString segments)

def fragmentLines (index offset size : Nat) (ack : AckEndpoint) : String :=
  headerLine HeaderKey.fragment.name (toString index) ++
  headerLine HeaderKey.fragmentSize.name (toString size) ++
  headerLine HeaderKey.fragmentOffset.name (toString offset) ++
  headerLine HeaderKey.ackPort.name (toString ack.port.toNat) ++
  headerLine HeaderKey.ackCookie.name ack.cookie

/-- A message of one fragment needs no acknowledgement and says nothing of its fragment. -/
def headerText (e : Encoder) (m : Outgoing) (index segments offset size : Nat) :
    Except EncodeError String :=
  if segments ≤ 1 then .ok (e.commonLines m segments)
  else
    match m.ack with
    | none => .error .missingAckEndpoint
    | some ack => .ok (e.commonLines m segments ++ fragmentLines index offset size ack)

def bounded (e : Encoder) (wire : Bytes) : Except EncodeError Bytes :=
  match e.maxDatagram with
  | some limit =>
    if limit < wire.length then .error (.datagramTooLarge wire.length limit) else .ok wire
  | none => .ok wire

def encode (e : Encoder) (m : Outgoing) (index segments : Nat) : Except EncodeError Bytes :=
  if e.fragmentSize = 0 then .error .zeroFragmentSize
  else if segments ≤ index then .error (.fragmentOutOfRange index segments)
  else if m.dest = "" ∨ isLineSafe true m.dest = false then .error (.invalidApp m.dest)
  else if isLineSafe false m.source = false then .error (.invalidApp m.source)
  else do
    let (offset, size) ← e.slice m.payload.length index segments
    let header ← e.headerText m index segments offset size
    e.bounded (Text.encode header ++ Header.marker ++ (m.payload.drop offset).take size)

def encodeAll (e : Encoder) (m : Outgoing) : Except EncodeError (List Bytes) :=
  let segments := e.segmentCount m.payload.length
  (List.range segments).mapM fun index => e.encode m index segments

end Encoder

end MultimediaMessaging
