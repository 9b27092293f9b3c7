import MultimediaMessaging.Stack.Basic

/-!
Registering with a stack: listeners of any kind, and the connections and push registrations of
applications, behind each of which is a listener with a wait room.
-/

set_option autoImplicit false

namespace MultimediaMessaging

/-- An application's connection. `holder` is the thread that is sending on it. -/
structure Connection (τ : Type) where
  app : String
  suite : Suite
  handle : ConnectionHandle
  token : Nat
  room : RoomId
  closed : Bool := false
  holder : Option τ := none
  deriving DecidableEq, Repr

def Connection.describe {τ : Type} (c : Connection τ) : String :=
  s!"Connection \x7b app_id: {Text.quoted c.app}, suite_id: {c.suite.describe}, " ++
  s!"handle: {c.handle.describe}, closed: {c.closed} \x7d"

/-- An application's wish to be told of messages from the senders that `filter` lets through. -/
structure PushRegistration where
  app : String
  suite : Suite
  filter : Option SenderFilter
  token : Nat
  room : RoomId
  active : Bool := true
  deriving DecidableEq, Repr

def PushRegistration.describe (p : PushRegistration) : String :=
  s!"PushRegistration \x7b app_id: {Text.quoted p.app}, suite_id: {p.suite.describe}, " ++
  s!"filter: {Registration.describeFilter p.filter}, .. \x7d"

namespace Stack

variable {τ : Type} [DecidableEq τ]

def listen (s : Stack τ) (cls : ListenerClass) (app : String) (suite : Suite)
    (listener : Listener) (filter : Option SenderFilter) : Except StackError Nat × Stack τ :=
  let (result, listeners, events) := s.listeners.register cls app suite listener filter
  (result.mapError .registry,
    { s.setListeners listeners with interest := s.interest ++ events })

/-- Removes a registration, of any owner or of the one whose token is given. Its listener is not
told yet. -/
def withdraw (s : Stack τ) (app : String) (cls : ListenerClass) (owner : Option Nat) :
    Except RegistryError (Registration Listener) × Stack τ :=
  let (result, listeners, events) := s.listeners.unregister app cls owner
  (result, { s.setListeners listeners with interest := s.interest ++ events })

def dismiss (s : Stack τ) (listener : Listener) : Stack τ :=
  { s with audience := s.audience.dismiss listener }

def unlisten (s : Stack τ) (app : String) (cls : ListenerClass) (owner : Option Nat) :
    Except StackError Unit × Stack τ :=
  match s.withdraw app cls owner with
  | (.ok entry, s) => (.ok (), s.dismiss entry.listener)
  | (.error e, s) => (.error (.registry e), s)

/-- Removes all registrations of a suite and the messages for their applications, and tells the
listeners; gives the number of registrations. -/
def removeSuite (s : Stack τ) (suite : Suite) : Nat × Stack τ :=
  let gone := s.listeners.removeSuite suite s.pool
  let kept := (s.setListeners gone.listeners).setPool gone.pool
  (gone.removed.length,
    (gone.removed.map (·.listener)).foldl dismiss
      { kept with interest := s.interest ++ gone.events })

def newRoom (s : Stack τ) : RoomId × Stack τ :=
  (⟨s.nextRoom⟩, { s with nextRoom := s.nextRoom + 1 })

def connect (s : Stack τ) (app : String) (suite : Suite) :
    Except StackError (Connection τ) × Stack τ :=
  let (room, s) := s.newRoom
  match s.listen .midlet app suite (.waiter room) none with
  | (.error e, s) => (.error e, s)
  | (.ok token, s) =>
    let (handle, tracker) := s.sends.tracker.allocate
    (.ok { app, suite, handle, token, room }, { s with sends := { s.sends with tracker } })

def registerPush (s : Stack τ) (app : String) (suite : Suite) (filter : Option SenderFilter) :
    Except StackError PushRegistration × Stack τ :=
  let (room, s) := s.newRoom
  match s.listen .push app suite (.waiter room) filter with
  | (.error e, s) => (.error e, s)
  | (.ok token, s) => (.ok { app, suite, filter, token, room }, s)

end Stack

end MultimediaMessaging
