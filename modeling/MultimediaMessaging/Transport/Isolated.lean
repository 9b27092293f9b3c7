import MultimediaMessaging.Config.Basic
import MultimediaMessaging.Sending.Tracker
import MultimediaMessaging.Transport.Socket

/-!
The network of a host whose interfaces are all down. Sockets can be made and most addresses bound,
but no datagram reaches anybody: those to the unspecified address get lost on the way, and all
others are refused.
-/

set_option autoImplicit false

namespace MultimediaMessaging

open Text

namespace Isolated

def refused (kind : IoKind) (reason : String) : IoError := ⟨kind, some reason⟩

def unavailable : IoError :=
  refused .addrNotAvailable "Cannot assign requested address (os error 99)"

def invalid : IoError := refused .invalidInput "Invalid argument (os error 22)"

def tooLong : IoError := refused .other "Message too long (os error 90)"

def noDevice : IoError := refused .other "No such device (os error 19)"

def unsupported : IoError := refused .other "Address family not supported by protocol (os error 97)"

def unreachable : IoError := refused .other "Network is unreachable (os error 101)"

def isLinkLocal (groups : List UInt16) : Bool :=
  match groups with
  | g :: _ => g &&& 0xFFC0 = 0xFE80 ∨ g &&& 0xFF0F = 0xFF01 ∨ g &&& 0xFF0F = 0xFF02
  | [] => false

def isMulticast (groups : List UInt16) : Bool := groups.head?.any (· &&& 0xFF00 = 0xFF00)

/-- The only link there is, which leads back to the host. -/
def loopbackLink : UInt32 := 1

def bindGroups (groups : Vector UInt16 8) : Except IoError Unit :=
  if isMulticast groups.toList ∨ groups.toList.all (· = 0) then .ok ()
  else if (IpAddress.mapped? (.v6 groups)).isSome then .ok ()
  else .error unavailable

/-- The scope counts for addresses that belong to a link, and says nothing about any other. -/
def bind (address : SocketAddress) : Except IoError Unit :=
  match address.ip with
  | .v4 .. => .ok ()
  | .v6 groups =>
    if isLinkLocal groups.toList ∧ address.scope = 0 then .error invalid
    else if isLinkLocal groups.toList ∧ address.scope ≠ loopbackLink then .error noDevice
    else bindGroups groups

def octets? : IpAddress → Option (UInt8 × UInt8 × UInt8 × UInt8)
  | .v4 a b c d => some (a, b, c, d)
  | .v6 groups => IpAddress.mapped? (.v6 groups)

def isUnspecified (ip : IpAddress) : Bool := octets? ip = some (0, 0, 0, 0)

def isUnsupported : (source dest : IpAddress) → Bool
  | .v4 .., .v6 _ => true
  | _, _ => false

def isOpen : IpAddress → Bool
  | .v4 .. => true
  | .v6 groups => groups.toList.all (· = 0) ∨ isUnspecified (.v6 groups)

def maxBody : Nat := 65507

def send (source : IpAddress) (dest : SocketAddress) (length : Nat) : Except IoError Unit :=
  if isUnsupported source dest.ip then .error unsupported
  else if dest.port = 0 then .error invalid
  else if maxBody < length then .error tooLong
  else if isUnspecified dest.ip ∧ isOpen source then .ok ()
  else .error unreachable

/-- One of the ports that a system gives to sockets bound to none. -/
def ephemeralPort : UInt16 := 49152

/-- A socket bound to `source`. Its clock counts the time spent on receiving in vain. -/
def socket (source : IpAddress) (readTimeout : Time) : Socket (StateM Time) where
  address := return .ok { ip := source, port := ephemeralPort }
  send bytes dest := return send source dest bytes.length
  receive _ := do
    modify (· + readTimeout)
    return .error ⟨.wouldBlock, none⟩
  now := get
  rest := modify (· + milliseconds 1)

/-- How the delivery of a parcel at time `millis` ends. Nobody acknowledges anything, so a message
of several fragments gets no further than its first one. -/
def transfer (config : Config) (sender : Sender) (parcel : Parcel) (millis : Nat) :
    Except TransportError Nat :=
  let address := { ip := config.bindAddress, port := 0 }
  match bind address with
  | .error e => .error (.bind address e)
  | .ok () =>
    match (sender.send (socket config.bindAddress sender.ackTimeout) parcel millis
      (Delivery.cookieText millis 0) (8 * (sender.ackRetries + 2)) 0).1 with
    | .ended result => result
    | .running turn => .error (.ackTimeout turn.index turn.attempts)

def outcome (config : Config) (sender : Sender) (millis : Nat) (parcel : Parcel) : SendStatus :=
  match transfer config sender parcel millis with
  | .ok _ => .sent
  | .error _ => .failed

end Isolated

end MultimediaMessaging
