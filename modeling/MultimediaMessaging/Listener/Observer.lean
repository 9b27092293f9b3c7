import MultimediaMessaging.Message

/-!
Listeners that keep a record of what they are told and always give the same answer.
-/

set_option autoImplicit false

namespace MultimediaMessaging

/-- `claims` is the answer to every message. -/
structure Observer where
  name : String
  claims : Bool
  deriving DecidableEq, Repr

inductive Call where
  | message (listener : String) (info : Message.Info)
  | unregistered (listener : String)
  deriving DecidableEq, Repr

namespace Observer

def onMessage (o : Observer) (info : Message.Info) (calls : List Call) : Bool × List Call :=
  (o.claims, calls ++ [.message o.name info])

def onUnregistered (o : Observer) (calls : List Call) : List Call :=
  calls ++ [.unregistered o.name]

end Observer

end MultimediaMessaging
