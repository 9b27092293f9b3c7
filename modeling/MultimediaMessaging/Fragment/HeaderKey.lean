/-!
The header keys that a receiver looks at. Keys are case-sensitive, and a line with any other key
means nothing to it.
-/

set_option autoImplicit false

namespace MultimediaMessaging

inductive HeaderKey where
  | date | address | senderAddress | contentLength | segments
  | fragment | fragmentSize | fragmentOffset | ackPort | ackCookie
  deriving DecidableEq, Repr

namespace HeaderKey

def name : HeaderKey → String
  | date => "Date"
  | address => "Address"
  | senderAddress => "SenderAddress"
  | contentLength => "Content-Length"
  | segments => "Segments"
  | fragment => "Fragment"
  | fragmentSize => "Fragment-Size"
  | fragmentOffset => "Fragment-Offset"
  | ackPort => "Ack-Port"
  | ackCookie => "Ack-Cookie"

def all : List HeaderKey :=
  [date, address, senderAddress, contentLength, segments,
    fragment, fragmentSize, fragmentOffset, ackPort, ackCookie]

theorem name_inj {k l : HeaderKey} (h : k.name = l.name) : k = l := by
  cases k <;> cases l <;> first | rfl | exact absurd h (by decide)

def ofChars? (cs : List Char) : Option HeaderKey := all.find? fun k => k.name.toList = cs

theorem ofChars?_eq_some_iff {cs : List Char} {k : HeaderKey} :
    ofChars? cs = some k ↔ cs = k.name.toList := by
  constructor
  · intro h
    have := List.find?_some h
    simpa [eq_comm] using this
  · rintro rfl
    cases k <;> decide

end HeaderKey

end MultimediaMessaging
