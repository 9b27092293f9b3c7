import MultimediaMessaging.Listener.Filter
import MultimediaMessaging.Message
import MultimediaMessaging.Pool
import MultimediaMessaging.Table

/-!
Who listens for which application. Open connections and push registrations have a registry each, and
an application has at most one entry in either. The platform is told of an application when it gets
its first entry and when it loses its last one; what a listener is and does is left open.
-/

set_option autoImplicit false

namespace MultimediaMessaging

inductive ListenerClass where
  | midlet
  | push
  deriving DecidableEq, Repr

namespace ListenerClass

def other : ListenerClass → ListenerClass
  | midlet => push
  | push => midlet

def name : ListenerClass → String
  | midlet => "midlet"
  | push => "push"

end ListenerClass

inductive RegistryError where
  | alreadyRegistered (app : String) (cls : ListenerClass)
  | notRegistered (app : String) (cls : ListenerClass)
  | emptyApp
  deriving DecidableEq, Repr

def RegistryError.message : RegistryError → String
  | alreadyRegistered app cls => s!"{cls.name} listener already registered for {app}"
  | notRegistered app cls => s!"no {cls.name} listener registered for {app}"
  | emptyApp => "application id must not be empty"

inductive InterestEvent where
  | added (app : String)
  | removed (app : String)
  deriving DecidableEq, Repr

/-- An entry of a registry. Its token tells it from every other, earlier or later. -/
structure Registration (L : Type) where
  app : String
  suite : Suite
  listener : L
  filter : Option SenderFilter
  token : Nat
  deriving DecidableEq, Repr

namespace Registration

variable {L : Type}

def accepts (r : Registration L) (sender : String) : Bool := r.filter.all (·.accepts sender)

def describeFilter : Option SenderFilter → String
  | none => "None"
  | some filter => s!"Some({filter.describe})"

def describe (r : Registration L) : String :=
  s!"Registration \x7b app_id: {Text.quoted r.app}, suite_id: {r.suite.describe}, " ++
  s!"filter: {describeFilter r.filter}, .. \x7d"

end Registration

abbrev Registry (L : Type) := Table String (Registration L)

namespace Registry

variable {L : Type}

def ownedBy (r : Registry L) (app : String) (suite : Suite) : Bool :=
  (r.get? app).any (·.suite = suite)

end Registry

/-- Both registries. `nextToken` numbers the attempts to register, successful or not. -/
structure Listeners (L : Type) where
  midlet : Registry L := []
  push : Registry L := []
  nextToken : Nat := 1
  deriving DecidableEq, Repr

namespace Listeners

variable {L : Type}

def registry (ls : Listeners L) : ListenerClass → Registry L
  | .midlet => ls.midlet
  | .push => ls.push

def setRegistry (ls : Listeners L) (cls : ListenerClass) (r : Registry L) : Listeners L :=
  match cls with
  | .midlet => { ls with midlet := r }
  | .push => { ls with push := r }

@[simp] theorem registry_setRegistry_self (ls : Listeners L) (cls : ListenerClass)
    (r : Registry L) : (ls.setRegistry cls r).registry cls = r := by cases cls <;> rfl

@[simp] theorem registry_setRegistry_other (ls : Listeners L) (cls : ListenerClass)
    (r : Registry L) : (ls.setRegistry cls r).registry cls.other = ls.registry cls.other := by
  cases cls <;> rfl

def isRegistered (ls : Listeners L) (app : String) (cls : ListenerClass) : Bool :=
  (ls.registry cls).contains app

def isRegisteredFor (ls : Listeners L) (app : String) (suite : Suite) (cls : ListenerClass) :
    Bool := (ls.registry cls).ownedBy app suite

/-- Adds an entry and gives its token. Interest is announced unless the same suite listens for the
application in the other registry. -/
def register (ls : Listeners L) (cls : ListenerClass) (app : String) (suite : Suite)
    (listener : L) (filter : Option SenderFilter) :
    Except RegistryError Nat × Listeners L × List InterestEvent :=
  let token := ls.nextToken
  let counted := { ls with nextToken := token + 1 }
  if app = "" then (.error .emptyApp, counted, [])
  else if ls.isRegistered app cls then (.error (.alreadyRegistered app cls), counted, [])
  else
    let entry := { app, suite, listener, filter, token }
    let events := if ls.isRegisteredFor app suite cls.other then [] else [InterestEvent.added app]
    (.ok token, counted.setRegistry cls ((ls.registry cls).put app entry), events)

def mayRemove (owner : Option Nat) (r : Registration L) : Bool := owner.all (· = r.token)

/-- Removes the entry for `app`, of any owner or of the one whose token is given. -/
def unregister (ls : Listeners L) (app : String) (cls : ListenerClass) (owner : Option Nat) :
    Except RegistryError (Registration L) × Listeners L × List InterestEvent :=
  match ((ls.registry cls).get? app).filter (mayRemove owner) with
  | none => (.error (.notRegistered app cls), ls, [])
  | some entry =>
    let events := if ls.isRegistered app cls.other then [] else [InterestEvent.removed app]
    (.ok entry, ls.setRegistry cls ((ls.registry cls).erase app), events)

def ofSuite (r : Registry L) (suite : Suite) : List (Registration L) :=
  (r.map Prod.snd).filter (·.suite = suite)

def dropSuite (r : Registry L) (suite : Suite) : Registry L :=
  r.filter fun entry => entry.2.suite ≠ suite

def leqText (a b : String) : Bool := ¬ (b < a)

/-- The applications of the entries, each once, in the order of their code points. -/
def sortedApps (entries : List (Registration L)) : List String :=
  ((entries.map (·.app)).eraseDups).mergeSort leqText

structure Teardown (L : Type) where
  removed : List (Registration L)
  listeners : Listeners L
  pool : Pool
  events : List InterestEvent

def removeSuite (ls : Listeners L) (suite : Suite) (pool : Pool) : Teardown L :=
  let removed := ofSuite ls.midlet suite ++ ofSuite ls.push suite
  let kept := { ls with midlet := dropSuite ls.midlet suite, push := dropSuite ls.push suite }
  let apps := sortedApps removed
  let silent := apps.filter fun app =>
    !kept.isRegistered app .midlet && !kept.isRegistered app .push
  { removed
    listeners := kept
    pool := apps.foldl (fun p app => (p.removeAll app).2) pool
    events := silent.map .removed }

def describe (ls : Listeners L) : String :=
  s!"Listeners \x7b midlet: {ls.midlet.length}, push: {ls.push.length}, .. \x7d"

end Listeners

end MultimediaMessaging
