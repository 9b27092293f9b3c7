import MultimediaMessaging.Fragment.Error
import MultimediaMessaging.Subscriber
import MultimediaMessaging.Text.Blank
import MultimediaMessaging.Text.Decimal
import MultimediaMessaging.Text.Encoding

/-!
The header of a fragment: lines of a key, a colon and a value, up to the marker that opens the body.
Lines apply in order, so of two lines with one key the later counts. What the values mean together
is not looked at here.
-/

set_option autoImplicit false

namespace MultimediaMessaging

open Text

structure Header where
  date : Option Nat := none
  app : Option String := none
  sender : Option String := none
  replyTo : String := ""
  contentLength : Option Nat := none
  segments : Nat := 1
  fragment : Nat := 0
  fragmentSize : Option Nat := none
  fragmentOffset : Nat := 0
  ackPort : Option UInt16 := none
  ackCookie : Option String := none
  deriving DecidableEq, Repr

namespace Header

def isMoreExpected (h : Header) : Bool := h.fragment + 1 < h.segments

def readValue (key : HeaderKey) (limit : Nat) (value : List Char) : Except DecodeError Nat :=
  match readNumber limit value with
  | some n => .ok n
  | none => .error (.invalidNumber key (String.ofList value))

/-- An empty cookie leaves the one before it. -/
def set (h : Header) (key : HeaderKey) (value : List Char) : Except DecodeError Header :=
  match key with
  | .date => (readValue key limit64 value).map fun n => { h with date := some n }
  | .contentLength => (readValue key limit64 value).map fun n => { h with contentLength := some n }
  | .segments => (readValue key limit64 value).map fun n => { h with segments := n }
  | .fragment => (readValue key limit64 value).map fun n => { h with fragment := n }
  | .fragmentSize => (readValue key limit64 value).map fun n => { h with fragmentSize := some n }
  | .fragmentOffset => (readValue key limit64 value).map fun n => { h with fragmentOffset := n }
  | .ackPort => (readValue key limit16 value).map fun n => { h with ackPort := some n.toUInt16 }
  | .ackCookie =>
    .ok (if value = [] then h else { h with ackCookie := some (String.ofList value) })
  | .senderAddress =>
    let (sender, replyTo) := Subscriber.splitSender (String.ofList value)
    .ok { h with sender := some sender, replyTo }
  | .address => .ok { h with app := Subscriber.app? (String.ofList value) }

def dropReturn (line : List Char) : List Char :=
  if line.getLast? = some '\r' then line.dropLast else line

/-- A line without a colon or with an unknown key changes nothing. -/
def setField (h : Header) (line : List Char) : Except DecodeError Header :=
  match line.dropWhile (· != ':'), HeaderKey.ofChars? (line.takeWhile (· != ':')) with
  | _ :: value, some key => h.set key (trim value)
  | _, _ => .ok h

def applyLine (h : Header) (line : Bytes) : Except DecodeError Header :=
  match decode line with
  | some text => h.setField (dropReturn text.toList)
  | none => .error .invalidHeaderLine

def marker : Bytes := encode "Buffer:"

def lineFeed : UInt8 := 10

def parseFrom (h : Header) (bytes : Bytes) : Except DecodeError (Header × Bytes) :=
  match after? marker bytes with
  | some body => .ok (h, body)
  | none =>
    match _tail : bytes.dropWhile (· != lineFeed) with
    | [] => .error .missingBufferMarker
    | _ :: rest =>
      match h.applyLine (bytes.takeWhile (· != lineFeed)) with
      | .error e => .error e
      | .ok h => parseFrom h rest
  termination_by bytes.length
  decreasing_by
    have := (List.dropWhile_suffix (· != lineFeed) (l := bytes)).length_le
    simp only [_tail, List.length_cons] at this
    omega

def parse (bytes : Bytes) : Except DecodeError (Header × Bytes) := parseFrom {} bytes

end Header

end MultimediaMessaging
