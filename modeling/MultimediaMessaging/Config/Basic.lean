import MultimediaMessaging.Network.AddressText
import MultimediaMessaging.Text.Quoted

/-!
The configuration of a stack: sizes in bytes, times in milliseconds. Any values can be held;
`validate` says which of them a stack can work with.
-/

set_option autoImplicit false

namespace MultimediaMessaging

structure Config where
  phoneNumber : String := "+5550000"
  fragmentSize : UInt64 := 1150
  maxDatagramSize : UInt64 := 1500
  poolCapacity : UInt64 := 10
  maxMessageSize : UInt64 := 307200
  maxPendingTransfers : UInt64 := 16
  reassemblyTimeout : UInt64 := 30000
  ackTimeout : UInt64 := 2000
  ackRetries : UInt32 := 3
  readTimeout : UInt64 := 200
  bindAddress : IpAddress := .unspecified
  deriving DecidableEq, Repr

inductive ConfigFault where
  | zeroFragmentSize
  | noHeaderRoom (fragmentSize maxDatagramSize : UInt64)
  | zeroPoolCapacity
  | zeroPendingTransfers
  | zeroReadTimeout
  | zeroAckTimeout
  | unsafePhoneNumber
  deriving DecidableEq, Repr

def ConfigFault.message : ConfigFault → String
  | zeroFragmentSize => "fragment_size cannot be 0"
  | noHeaderRoom fragmentSize maxDatagramSize =>
    s!"fragment_size {fragmentSize} leaves no header room in a {maxDatagramSize} byte datagram"
  | zeroPoolCapacity => "pool_capacity cannot be 0"
  | zeroPendingTransfers => "max_pending_transfers cannot be 0"
  | zeroReadTimeout => "read_timeout_ms cannot be 0"
  | zeroAckTimeout => "ack_timeout_ms cannot be 0"
  | unsafePhoneNumber => "phone_number cannot contain ':' or newlines"

inductive ConfigError where
  | io (reason : String)
  | parse
  | invalidValue (fault : ConfigFault)
  deriving DecidableEq, Repr

def ConfigError.message : ConfigError → String
  | io reason => s!"I/O error: {reason}"
  | parse => "parse error: the document does not describe a configuration"
  | invalidValue fault => s!"invalid value: {fault.message}"

namespace Config

/-- The first fault, in the order of the fields it is about. -/
def validate (c : Config) : Except ConfigError Unit :=
  if c.fragmentSize = 0 then .error (.invalidValue .zeroFragmentSize)
  else if c.maxDatagramSize ≤ c.fragmentSize then
    .error (.invalidValue (.noHeaderRoom c.fragmentSize c.maxDatagramSize))
  else if c.poolCapacity = 0 then .error (.invalidValue .zeroPoolCapacity)
  else if c.maxPendingTransfers = 0 then .error (.invalidValue .zeroPendingTransfers)
  else if c.readTimeout = 0 then .error (.invalidValue .zeroReadTimeout)
  else if c.ackTimeout = 0 then .error (.invalidValue .zeroAckTimeout)
  else if ':' ∈ c.phoneNumber.toList ∨ '\n' ∈ c.phoneNumber.toList then
    .error (.invalidValue .unsafePhoneNumber)
  else .ok ()

def describe (c : Config) : String :=
  s!"MmsConfig \x7b phone_number: {Text.quoted c.phoneNumber}, " ++
  s!"fragment_size: {c.fragmentSize}, max_datagram_size: {c.maxDatagramSize}, " ++
  s!"pool_capacity: {c.poolCapacity}, max_message_size: {c.maxMessageSize}, " ++
  s!"max_pending_transfers: {c.maxPendingTransfers}, " ++
  s!"reassembly_timeout_ms: {c.reassemblyTimeout}, ack_timeout_ms: {c.ackTimeout}, " ++
  s!"ack_retries: {c.ackRetries}, read_timeout_ms: {c.readTimeout}, " ++
  s!"bind_address: {c.bindAddress.text} \x7d"

end Config

end MultimediaMessaging
