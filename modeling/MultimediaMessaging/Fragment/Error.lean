import MultimediaMessaging.Fragment.HeaderKey
import MultimediaMessaging.Text.Quoted

/-!
Why a datagram cannot be taken as a fragment, and why a message cannot be cut into datagrams.
-/

set_option autoImplicit false

namespace MultimediaMessaging

inductive DecodeError where
  | missingBufferMarker
  | invalidHeaderLine
  | missingHeader (key : HeaderKey)
  | invalidNumber (key : HeaderKey) (value : String)
  | missingCookie (fragment : Nat)
  | fragmentOutOfRange (fragment segments : Nat)
  | tooLarge (contentLength limit : Nat)
  | outOfBounds (offset size contentLength : Nat)
  | unexpectedOffset (offset expected : Nat)
  | truncated (declared available : Nat)
  | noTransfer (fragment : Nat)
  | outOfOrder (expected fragment : Nat)
  /-- A later fragment contradicts the first on the value of `key`. -/
  | inconsistent (key : HeaderKey)
  | incomplete (received contentLength : Nat)
  deriving DecidableEq, Repr

def DecodeError.message : DecodeError → String
  | missingBufferMarker => "missing Buffer: marker"
  | invalidHeaderLine => "header line is not valid UTF-8"
  | missingHeader key => s!"missing required header {key.name}"
  | invalidNumber key value => s!"invalid value {Text.quoted value} for header {key.name}"
  | missingCookie fragment =>
    s!"fragment {fragment} of a multi-fragment transfer has no Ack-Cookie"
  | fragmentOutOfRange fragment segments =>
    s!"fragment {fragment} out of range for {segments} segments"
  | tooLarge contentLength limit => s!"content length {contentLength} exceeds maximum {limit}"
  | outOfBounds offset size contentLength =>
    s!"fragment range {offset}+{size} outside content length {contentLength}"
  | unexpectedOffset offset expected =>
    s!"fragment starts at offset {offset}, expected {expected}"
  | truncated declared available =>
    s!"fragment declares {declared} bytes but carries {available}"
  | noTransfer fragment => s!"fragment {fragment} arrived with no transfer in progress"
  | outOfOrder expected fragment => s!"expected fragment {expected}, got {fragment}"
  | inconsistent key => s!"continuation disagrees with first fragment on {key.name}"
  | incomplete received contentLength =>
    s!"transfer ended with {received} of {contentLength} bytes"

inductive EncodeError where
  | zeroFragmentSize
  | fragmentOutOfRange (fragment segments : Nat)
  | emptyFragment (fragment offset length : Nat)
  | missingAckEndpoint
  | invalidApp (app : String)
  | datagramTooLarge (size limit : Nat)
  deriving DecidableEq, Repr

def EncodeError.message : EncodeError → String
  | zeroFragmentSize => "fragment size must be non-zero"
  | fragmentOutOfRange fragment segments =>
    s!"fragment {fragment} out of range for {segments} segments"
  | emptyFragment fragment offset length =>
    s!"fragment {fragment} starts at {offset}, past payload length {length}"
  | missingAckEndpoint => "multi-fragment transfer requires an Ack-Port and Ack-Cookie"
  | invalidApp app => s!"invalid application id {Text.quoted app}"
  | datagramTooLarge size limit => s!"datagram of {size} bytes exceeds maximum {limit}"

end MultimediaMessaging
