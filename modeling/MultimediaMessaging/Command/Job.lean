import MultimediaMessaging.Command.Line
import MultimediaMessaging.Config.Document
import MultimediaMessaging.Config.Environment
import MultimediaMessaging.Stack.Registration

/-!
What a command is to do: its options, the configuration it works with, and the message it sends.
Files are read in a monad that is left open.
-/

set_option autoImplicit false

namespace MultimediaMessaging.Command

open Text

inductive Failure where
  | config (error : ConfigError)
  | stack (error : StackError)
  | transport (error : TransportError)
  | file (error : IoError)
  | nothingToSend
  | notSent
  deriving DecidableEq, Repr

def Failure.message : Failure → String
  | config error => error.message
  | stack error => error.message
  | transport error => error.message
  | file error => error.message
  | nothingToSend => "nothing to send: pass a message or --file"
  | notSent => "send failed"

structure ListenOptions where
  app : String
  bind : SocketAddress
  suite : Suite
  /-- Listens for pushes from the senders that fit. -/
  push : Option SenderFilter
  /-- Number of messages to receive; zero stands for any number. -/
  count : UInt64
  json : Bool
  deriving DecidableEq, Repr

structure SendOptions where
  dest : SocketAddress
  app : String
  message : Option String
  file : Option String
  source : String
  fragmentSize : Option UInt64
  deriving DecidableEq, Repr

namespace Reading

def value? (r : Reading) (name : OptionName) : Option String := r.given.get? name

def operand (r : Reading) (i : Nat) : String := r.operands[i]?.getD ""

def address? (text : Option String) : Option SocketAddress := text.bind SocketAddress.parse

def listenOptions (r : Reading) : ListenOptions :=
  { app := r.operand 0
    bind := (address? (r.value? .bind)).getD { ip := .unspecified, port := 2948 }
    suite := ((r.value? .suite).bind (readSuite ·.toList)).getD ⟨1⟩
    push := (r.value? .push).map SenderFilter.mk
    count := ((r.value? .count).bind (readSize ·.toList)).getD 0
    json := r.given.contains .json }

def sendOptions (r : Reading) : SendOptions :=
  { dest := (address? r.operands[0]?).getD { ip := .unspecified, port := 0 }
    app := r.operand 1
    message := r.operands[2]?
    file := r.value? .file
    source := (r.value? .source).getD "mms-echo"
    fragmentSize := (r.value? .fragmentSize).bind (readSize ·.toList) }

end Reading

inductive Job where
  | listen (config : Config) (options : ListenOptions)
  | send (config : Config) (options : SendOptions) (payload : Bytes)
  deriving Repr

variable {m : Type → Type} [Monad m]

/-- An option of all commands counts most where it stands nearest to the end. -/
def commonValue? (common own : Reading) (name : OptionName) : Option String :=
  (own.value? name).or (common.value? name)

/-- The configuration of a file, or else of the environment, with the phone number that an option
gives. -/
def configure (fileBytes : String → m (Except IoError Bytes)) (lookup : String → Option Bytes)
    (common own : Reading) : m (Except Failure Config) := do
  let config ← match commonValue? common own .config with
    | none => pure (.ok (Config.ofEnvironment lookup))
    | some path => do
      match ← fileBytes path with
      | .ok bytes => pure (Config.ofBytes bytes)
      | .error e => pure (.error (.io e.message))
  return match config, commonValue? common own .phone with
    | .error e, _ => .error (.config e)
    | .ok c, some phone => .ok { c with phoneNumber := phone }
    | .ok c, none => .ok c

/-- The bytes to send. A file counts more than a message. -/
def payload (fileBytes : String → m (Except IoError Bytes)) (options : SendOptions) :
    m (Except Failure Bytes) := do
  match options.file, options.message with
  | some path, _ => return (← fileBytes path).mapError .file
  | none, some message => return .ok (encode message)
  | none, none => return .error .nothingToSend

def prepare (fileBytes : String → m (Except IoError Bytes)) (lookup : String → Option Bytes)
    (scope : Scope) (common own : Reading) : m (Except Failure Job) := do
  match ← configure fileBytes lookup common own with
  | .error e => return .error e
  | .ok config =>
    if scope = .send then
      let options := own.sendOptions
      let config :=
        { config with fragmentSize := options.fragmentSize.getD config.fragmentSize }
      return (← payload fileBytes options).map (.send config options)
    else return .ok (.listen config own.listenOptions)

def send (deliver : Sender → Parcel → m SendStatus) (config : Config) (options : SendOptions)
    (bytes : Bytes) : m (Except Failure Unit) := do
  match (Stack.new config : Except StackError (Stack Unit)) with
  | .error e => return .error (.stack e)
  | .ok stack =>
    match stack.connect options.source ⟨0⟩ with
    | (.error e, _) => return .error (.stack e)
    | (.ok c, stack) =>
      match ← deliver stack.sender ⟨options.dest, options.app, c.app, bytes⟩ with
      | .sent => return .ok ()
      | .failed => return .error .notSent

end MultimediaMessaging.Command
