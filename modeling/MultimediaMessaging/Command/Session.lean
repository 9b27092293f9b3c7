import MultimediaMessaging.Command.Job
import MultimediaMessaging.Json.Printer

/-!
Listening from the command line: the messages for one application are taken as they come and written
to lines, until there are as many as were asked for.
-/

set_option autoImplicit false

namespace MultimediaMessaging.Command

/-- `received` counts the messages written so far. -/
structure Session where
  stack : Stack Unit
  options : ListenOptions
  received : Nat := 0

namespace Session

def start {m : Type → Type} [Monad m] (bind : SocketAddress → m (Except TransportError Unit))
    (config : Config) (options : ListenOptions) : m (Except Failure Session) := do
  match (Stack.new config : Except StackError (Stack Unit)) with
  | .error e => return .error (.stack e)
  | .ok stack =>
    match ← bind options.bind with
    | .error e => return .error (.transport e)
    | .ok () =>
      match options.push with
      | some filter =>
        match stack.registerPush options.app options.suite (some filter) with
        | (.ok _, stack) => return .ok { stack, options }
        | (.error e, _) => return .error (.stack e)
      | none =>
        match stack.connect options.app options.suite with
        | (.ok _, stack) => return .ok { stack, options }
        | (.error e, _) => return .error (.stack e)

def isOver (s : Session) : Bool := s.options.count ≠ 0 ∧ s.options.count.toNat ≤ s.received

def next? (s : Session) : Option Message × Session :=
  if s.isOver then (none, s)
  else
    match s.stack.take s.options.app with
    | (some m, stack) => (some m, { s with stack, received := s.received + 1 })
    | (none, stack) => (none, { s with stack })

def textLines (time : String) (m : Message) : List String :=
  let replyTo := if m.replyTo = "" then "" else s!", reply-to {m.replyTo}"
  [s!"[{time}] {m.sender} -> {m.app} ({m.length} bytes{replyTo})", Text.decodeLossy m.body]

def member (name value : String) : String := s!"\"{name}\":{value}"

def recordLine (moment : String) (m : Message) : String :=
  let members :=
    [member "received_at" (Json.stringText moment), member "from" (Json.stringText m.sender),
      member "app_id" (Json.stringText m.app), member "reply_to" (Json.stringText m.replyTo),
      member "timestamp" (toString m.timestamp), member "len" (toString m.length),
      member "body" (Json.stringText (Text.decodeLossy m.body))]
  "\x7b" ++ ",".intercalate members ++ "\x7d"

def summary (s : Session) : String :=
  let counts := s.stack.router.counts
  s!"received={s.received} discarded={counts.discarded} pooled={counts.pooled}"

end Session

end MultimediaMessaging.Command
