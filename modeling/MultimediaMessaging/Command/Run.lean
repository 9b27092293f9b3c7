import MultimediaMessaging.Command.Session

/-!
Running a command on a machine, up to the point where it has ended or only listens. The machine is
what reads files, binds sockets and delivers messages, in a monad of its own.
-/

set_option autoImplicit false

namespace MultimediaMessaging.Command

open Text

structure Machine (m : Type → Type) where
  fileBytes : String → m (Except IoError Bytes)
  lookup : String → Option Bytes
  bind : SocketAddress → m (Except TransportError Unit)
  deliver : Config → Sender → Parcel → m SendStatus

inductive Ending where
  | usage (error : UsageError)
  | help
  | version
  | failed (failure : Failure)
  | sent
  | listening (session : Session)

variable {m : Type → Type} [Monad m]

def Job.run (machine : Machine m) : Job → m Ending
  | .send config options bytes => do
    match ← Command.send (machine.deliver config) config options bytes with
    | .ok () => return .sent
    | .error e => return .failed e
  | .listen config options => do
    match ← Session.start machine.bind config options with
    | .ok session => return .listening session
    | .error e => return .failed e

def run (machine : Machine m) (arguments : List String) : m Ending := do
  match readLine arguments with
  | .error e => return .usage e
  | .ok .help => return .help
  | .ok .version => return .version
  | .ok (.run scope common own) =>
    match ← prepare machine.fileBytes machine.lookup scope common own with
    | .error e => return .failed e
    | .ok job => job.run machine

def Ending.status? : Ending → Option Nat
  | usage _ => some 2
  | failed _ => some 1
  | help | version | sent => some 0
  | listening _ => none

end MultimediaMessaging.Command
