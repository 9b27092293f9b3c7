import MultimediaMessaging.Command.Run
import MultimediaMessaging.Stack.Inbound
import Std.Async.Select
import Std.Async.Timer
import Std.Async.UDP
import Std.Time

/-!
The command: `listen` prints the messages for an application as they come in, `send` sends one. What
the commands do is decided elsewhere; here are the sockets, files and clocks of the machine.
-/

set_option autoImplicit false

namespace MultimediaMessaging.Command

open Std.Async

/-- The sockets of the system leave the choice of a link to the host. -/
def toNet (a : SocketAddress) : Std.Net.SocketAddress :=
  match a.ip with
  | .v4 w x y z => .v4 ⟨⟨#v[w, x, y, z]⟩, a.port⟩
  | .v6 groups => .v6 ⟨⟨groups⟩, a.port⟩

def ofNet : Std.Net.SocketAddress → SocketAddress
  | .v4 a =>
    let o := a.addr.octets
    { ip := .v4 o[0] o[1] o[2] o[3], port := a.port }
  | .v6 a => { ip := .v6 a.addr.segments, port := a.port }

def ofSystem : IO.Error → IoError
  | .noFileOrDirectory .. => ⟨.notFound, some "No such file or directory (os error 2)"⟩
  | .interrupted .. => ⟨.interrupted, none⟩
  | e => ⟨.other, some (toString e)⟩

def attempt {α : Type} (action : IO α) : IO (Except IoError α) := do
  match ← action.toBaseIO with
  | .ok a => return .ok a
  | .error e => return .error (ofSystem e)

def receive (socket : UDP.Socket) (timeout limit : Nat) : IO (Option (ByteArray × SocketAddress)) :=
  Async.block do
    let sleep ← Selector.sleep (.ofNat timeout)
    let waitFor := socket.recvSelector limit.toUInt64
    Selectable.one #[
      .case waitFor fun (bytes, source?) => return source?.map fun source => (bytes, ofNet source),
      .case sleep fun () => return none]

def systemSocket (socket : UDP.Socket) (timeout : Nat) : Socket IO where
  address := attempt (ofNet <$> socket.getSockName)
  send bytes dest := attempt (Async.block (socket.send bytes.toByteArray (some (toNet dest))))
  receive limit := do
    match ← attempt (receive socket timeout limit) with
    | .ok (some (bytes, source)) => return .ok (bytes.toList, source)
    | .ok none => return .error ⟨.wouldBlock, none⟩
    | .error e => return .error e
  now := IO.monoNanosNow
  rest := IO.sleep 1

def openSocket (a : SocketAddress) : IO (Except TransportError UDP.Socket) := do
  let result ← attempt do
    let socket ← UDP.Socket.mk
    socket.bind (toNet a)
    return socket
  return result.mapError (.bind a)

partial def pursue (socket : Socket IO) (d : Delivery) :
    Delivery.State → IO (Except TransportError Nat)
  | .ended result => return result
  | .running turn => do pursue socket d (← d.step socket turn)

def wallMillis : IO Nat := do
  return (← Std.Time.Timestamp.now).toMillisecondsSinceUnixEpoch.val.toNat

def deliver (config : Config) (sender : Sender) (parcel : Parcel) : IO SendStatus := do
  match ← openSocket { ip := config.bindAddress, port := 0 } with
  | .error _ => return .failed
  | .ok udp =>
    let socket := systemSocket udp (min config.readTimeout config.ackTimeout).toNat
    let millis ← wallMillis
    match sender.prepare parcel millis (Delivery.cookieText millis 0) (← socket.address) with
    | .error _ => return .failed
    | .ok d =>
      match ← pursue socket d d.start with
      | .ok _ => return .sent
      | .error _ => return .failed

def printMessage (json : Bool) (m : Message) : IO Unit := do
  let now ← Std.Time.DateTime.now
  if json then IO.println (Session.recordLine (now.format "uuuu-MM-dd'T'HH:mm:ss.SSSSSSSSSxxx") m)
  else (Session.textLines (now.format "HH:mm:ss.SSS") m).forM IO.println

partial def printAll (s : Session) : IO Session := do
  match s.next? with
  | (some m, s) => do
    printMessage s.options.json m
    printAll s
  | (none, s) => return s

/-- Idle transfers are dropped once a second. -/
partial def listenOn (socket : Socket IO) (lastTick : Time) (s : Session) : IO Session := do
  if s.isOver then return s
  let now ← socket.now
  let due := milliseconds 1000 ≤ now - lastTick
  let stack := if due then (s.stack.tick now).2 else s.stack
  let stack ← Inbound.round socket stack
  listenOn socket (if due then now else lastTick) (← printAll { s with stack })

def lookupVariables (names : List String) : IO (String → Option Text.Bytes) := do
  let values ← names.mapM fun name => return (name, (← IO.getEnv name).map Text.encode)
  return fun name => (values.lookup name).join

def usage : String :=
  "Usage: [--config FILE] [--phone NUMBER] [--log-level LEVEL]\n" ++
  "  listen APP [--bind ADDRESS] [--suite N] [--push FILTER] [--count N] [--json]\n" ++
  "  send ADDRESS APP [MESSAGE] [--file FILE] [--from APP] [--fragment-size N]\n" ++
  "  help [COMMAND]"

def start (arguments : List String) : IO UInt32 := do
  let bound : IO.Ref (Option UDP.Socket) ← IO.mkRef none
  let machine : Machine IO :=
    { fileBytes := fun path => attempt do return (← IO.FS.readBinFile path).toList
      lookup := ← lookupVariables ["MMS_FRAGMENT_SIZE", "MMS_POOL_CAPACITY", "MMS_PHONE_NUMBER"]
      bind := fun a => do
        match ← openSocket a with
        | .ok socket => bound.set (some socket); return .ok ()
        | .error e => return .error e
      deliver }
  let ending ← run machine arguments
  match ending with
  | .usage e => IO.eprintln s!"error: {e.message}\n\n{usage}"
  | .help => IO.println usage
  | .version => IO.println "mms-echo 1.0.10"
  | .failed e => IO.eprintln s!"Error: {e.message}"
  | .sent => pure ()
  | .listening s =>
    if let some udp ← bound.get then
      let socket := systemSocket udp s.stack.config.readTimeout.toNat
      let s ← listenOn socket (← socket.now) s
      IO.eprintln s.summary
  return (ending.status?.getD 0).toUInt32

end MultimediaMessaging.Command

def main (arguments : List String) : IO UInt32 := MultimediaMessaging.Command.start arguments
