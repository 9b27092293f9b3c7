import MultimediaMessaging.Text.Encoding

/-!
Messages as an application gets them, and what a listener is told of one before it is fetched.
-/

set_option autoImplicit false

namespace MultimediaMessaging

/-- `app` is the application the message is for and `replyTo` the one that sent it, which may be
empty. -/
structure Message where
  sender : String
  app : String
  replyTo : String
  timestamp : Nat
  body : Text.Bytes
  deriving DecidableEq, Repr

structure Message.Info where
  sender : String
  app : String
  replyTo : String
  timestamp : Nat
  length : Nat
  deriving DecidableEq, Repr

namespace Message

def length (m : Message) : Nat := m.body.length

def isEmpty (m : Message) : Bool := m.body.isEmpty

def info (m : Message) : Info := ⟨m.sender, m.app, m.replyTo, m.timestamp, m.length⟩

@[simp] theorem info_app (m : Message) : m.info.app = m.app := rfl

end Message

/-- A suite of applications, the owner of registrations. -/
structure Suite where
  id : UInt32
  deriving DecidableEq, Repr

namespace Suite

def text (s : Suite) : String := s!"suite#{s.id.toNat}"

def describe (s : Suite) : String := s!"SuiteId({s.id.toNat})"

end Suite

end MultimediaMessaging
