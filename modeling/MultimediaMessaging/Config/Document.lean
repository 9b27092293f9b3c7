import MultimediaMessaging.Config.Basic
import MultimediaMessaging.Json.Printer
import MultimediaMessaging.Json.Reader
import MultimediaMessaging.Text.Encoding

/-!
Configurations as JSON documents. Writing names every field, one a line. Reading takes an object, in
which missing fields keep their defaults and unknown ones are passed over, or an array of the fields
in their order; numbers are digits alone, and no field may be given twice.
-/

set_option autoImplicit false

namespace MultimediaMessaging

open Text

inductive ConfigKey where
  | phoneNumber | fragmentSize | maxDatagramSize | poolCapacity | maxMessageSize
  | maxPendingTransfers | reassemblyTimeout | ackTimeout | ackRetries | readTimeout | bindAddress
  deriving DecidableEq, Repr

namespace ConfigKey

def name : ConfigKey → String
  | phoneNumber => "phone_number"
  | fragmentSize => "fragment_size"
  | maxDatagramSize => "max_datagram_size"
  | poolCapacity => "pool_capacity"
  | maxMessageSize => "max_message_size"
  | maxPendingTransfers => "max_pending_transfers"
  | reassemblyTimeout => "reassembly_timeout_ms"
  | ackTimeout => "ack_timeout_ms"
  | ackRetries => "ack_retries"
  | readTimeout => "read_timeout_ms"
  | bindAddress => "bind_address"

/-- In the order of the document. -/
def all : List ConfigKey :=
  [phoneNumber, fragmentSize, maxDatagramSize, poolCapacity, maxMessageSize, maxPendingTransfers,
    reassemblyTimeout, ackTimeout, ackRetries, readTimeout, bindAddress]

def ofName? (name : String) : Option ConfigKey := all.find? fun k => k.name = name

end ConfigKey

namespace Config

def jsonText? : Json → Option String
  | .string value => value
  | _ => none

def jsonNumber? (limit : Nat) : Json → Option Nat
  | .number written => readDigits limit written
  | _ => none

def json64? (v : Json) : Option UInt64 := (jsonNumber? limit64 v).map Nat.toUInt64

def set? (c : Config) (key : ConfigKey) (v : Json) : Option Config :=
  match key with
  | .phoneNumber => (jsonText? v).map fun s => { c with phoneNumber := s }
  | .fragmentSize => (json64? v).map fun n => { c with fragmentSize := n }
  | .maxDatagramSize => (json64? v).map fun n => { c with maxDatagramSize := n }
  | .poolCapacity => (json64? v).map fun n => { c with poolCapacity := n }
  | .maxMessageSize => (json64? v).map fun n => { c with maxMessageSize := n }
  | .maxPendingTransfers => (json64? v).map fun n => { c with maxPendingTransfers := n }
  | .reassemblyTimeout => (json64? v).map fun n => { c with reassemblyTimeout := n }
  | .ackTimeout => (json64? v).map fun n => { c with ackTimeout := n }
  | .ackRetries => (jsonNumber? limit32 v).map fun n => { c with ackRetries := n.toUInt32 }
  | .readTimeout => (json64? v).map fun n => { c with readTimeout := n }
  | .bindAddress => ((jsonText? v).bind IpAddress.parse).map fun ip => { c with bindAddress := ip }

def ofMembers? (c : Config) (keys : List ConfigKey) :
    List (Option String × Json) → Option Config
  | [] => some c
  | (none, _) :: _ => none
  | (some name, v) :: members =>
    match ConfigKey.ofName? name with
    | none => ofMembers? c keys members
    | some key =>
      if key ∈ keys then
        match c.set? key v with
        | some c => ofMembers? c (keys.erase key) members
        | none => none
      else none

def ofElements? (c : Config) : List ConfigKey → List Json → Option Config
  | _, [] => some c
  | [], _ :: _ => none
  | key :: keys, v :: vs => (c.set? key v).bind fun c => ofElements? c keys vs

def ofJson? : Json → Option Config
  | .object members => ofMembers? {} ConfigKey.all members
  | .array elements => ofElements? {} ConfigKey.all elements
  | _ => none

def parse (text : String) : Except ConfigError Config :=
  match (Json.parse text).bind ofJson? with
  | none => .error .parse
  | some c => c.validate.map fun _ => c

def ofBytes (bytes : Bytes) : Except ConfigError Config :=
  match decode bytes with
  | some text => parse text
  | none => .error (.io "stream did not contain valid UTF-8")

def fieldText (c : Config) : ConfigKey → String
  | .phoneNumber => Json.stringText c.phoneNumber
  | .fragmentSize => toString c.fragmentSize.toNat
  | .maxDatagramSize => toString c.maxDatagramSize.toNat
  | .poolCapacity => toString c.poolCapacity.toNat
  | .maxMessageSize => toString c.maxMessageSize.toNat
  | .maxPendingTransfers => toString c.maxPendingTransfers.toNat
  | .reassemblyTimeout => toString c.reassemblyTimeout.toNat
  | .ackTimeout => toString c.ackTimeout.toNat
  | .ackRetries => toString c.ackRetries.toNat
  | .readTimeout => toString c.readTimeout.toNat
  | .bindAddress => Json.stringText c.bindAddress.text

def fieldLine (c : Config) (key : ConfigKey) : String :=
  s!"  \"{key.name}\": {c.fieldText key}"

def document (c : Config) : String :=
  "\x7b\n" ++ ",\n".intercalate (ConfigKey.all.map c.fieldLine) ++ "\n\x7d"

end Config

end MultimediaMessaging
