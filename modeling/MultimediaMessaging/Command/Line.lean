import MultimediaMessaging.Command.Option
import MultimediaMessaging.Table

/-!
Reading a command line. Arguments are read from left to right, and a value is looked at when the
next argument has been read; the first thing wrong ends the reading, and so does a call for help.
-/

set_option autoImplicit false

namespace MultimediaMessaging.Command

inductive UsageError where
  | missingCommand
  | unknownArgument (argument : String)
  | missingValue (name : OptionName)
  | unneededValue (name : OptionName)
  | invalidValue (value : String)
  | repeatedOption (name : OptionName)
  | missingOperand
  deriving DecidableEq, Repr

def UsageError.message : UsageError → String
  | missingCommand => "a command is required: listen, send or help"
  | unknownArgument argument => s!"unexpected argument '{argument}'"
  | missingValue name => s!"option '--{name.long}' requires a value"
  | unneededValue name => s!"option '--{name.long}' takes no value"
  | invalidValue value => s!"invalid value '{value}'"
  | repeatedOption name => s!"option '--{name.long}' cannot be used more than once"
  | missingOperand => "an operand is missing"

/-- What was read last and not looked at yet. -/
inductive Pending where
  | option (name : OptionName) (value : Option String)
  | operand (value : String)
  deriving DecidableEq, Repr

/-- One part of a command line, as far as it was read. After two dashes it is `literal`: nothing is
an option any more. -/
structure Reading where
  given : Table OptionName String := []
  operands : List String := []
  pending : Option Pending := none
  literal : Bool := false
  deriving Repr

namespace Reading

def store (r : Reading) (name : OptionName) (value : String) : Except UsageError Reading :=
  if r.given.contains name then .error (.repeatedOption name)
  else if name.accepts value then .ok { r with given := r.given.put name value }
  else .error (.invalidValue value)

def resolve (scope : Scope) (r : Reading) : Except UsageError Reading :=
  match r.pending with
  | none => .ok r
  | some (.option name none) => .error (.missingValue name)
  | some (.option name (some value)) => { r with pending := none }.store name value
  | some (.operand value) =>
    if scope.acceptsOperand r.operands.length value then
      .ok { r with pending := none, operands := r.operands ++ [value] }
    else .error (.invalidValue value)

def awaiting? (r : Reading) : Option OptionName :=
  match r.pending with
  | some (.option name none) => some name
  | _ => none

end Reading

inductive Next where
  | more (reading : Reading)
  | help
  | version
  deriving Repr

def readOption (scope : Scope) (r : Reading) (argument : String) (name? : Option OptionName)
    (attached : Option String) : Except UsageError Next :=
  match name? with
  | none => .error (.unknownArgument argument)
  | some name =>
    if name.takesValue then do
      let r ← r.resolve scope
      match attached with
      | some value => .more <$> r.store name value
      | none => .ok (.more { r with pending := some (.option name none) })
    else if attached.isSome then .error (.unneededValue name)
    else do
      let r ← r.resolve scope
      match name with
      | .help => .ok .help
      | .version => .ok .version
      | _ => .more <$> r.store name ""

def splitEquals (cs : List Char) : String × Option String :=
  match cs.dropWhile (· != '=') with
  | [] => (String.ofList cs, none)
  | _ :: value => (String.ofList (cs.takeWhile (· != '=')), some (String.ofList value))

def attachedValue : List Char → Option String
  | [] => none
  | '=' :: value => some (String.ofList value)
  | value => some (String.ofList value)

/-- A short option that takes no value may be followed by others, but each of them ends the
reading. -/
def readShort (scope : Scope) (r : Reading) (argument : String) (c : Char) (rest : List Char) :
    Except UsageError Next :=
  match scope.short? c with
  | some name =>
    readOption scope r argument (some name) (if name.takesValue then attachedValue rest else none)
  | none => .error (.unknownArgument argument)

def readOperand (scope : Scope) (r : Reading) (argument : String) : Except UsageError Next := do
  let r ← r.resolve scope
  if r.operands.length < scope.operands.2 then
    .ok (.more { r with pending := some (.operand argument) })
  else .error (.unknownArgument argument)

def readArgument (scope : Scope) (r : Reading) (argument : String) : Except UsageError Next :=
  if r.literal then readOperand scope r argument
  else
    match argument.toList, r.awaiting? with
    | ['-', '-'], _ => .ok (.more { r with literal := true })
    | '-' :: '-' :: cs, _ =>
      let (name, attached) := splitEquals cs
      readOption scope r argument (scope.long? name) attached
    | '-' :: c :: cs, _ => readShort scope r argument c cs
    | _, some name => .ok (.more { r with pending := some (.option name (some argument)) })
    | _, none => readOperand scope r argument

def readPart (scope : Scope) (r : Reading) : List String → Except UsageError Next
  | [] => do
    let r ← r.resolve scope
    if r.operands.length < scope.operands.1 then .error .missingOperand else .ok (.more r)
  | argument :: rest => do
    match ← readArgument scope r argument with
    | .more r => readPart scope r rest
    | final => .ok final

inductive Invocation where
  | help
  | version
  /-- A command with its part and the one before it. -/
  | run (scope : Scope) (common own : Reading)
  deriving Repr

def readHelp : List String → Except UsageError Invocation
  | [] => .ok .help
  | [name] =>
    if name = "help" ∨ (Scope.ofName? name).isSome then .ok .help
    else .error (.unknownArgument name)
  | _ :: name :: _ => .error (.unknownArgument name)

def readCommand (scope : Scope) (common : Reading) (arguments : List String) :
    Except UsageError Invocation := do
  match ← readPart scope {} arguments with
  | .more own => return .run scope (← common.resolve .common) own
  | .help => return .help
  | .version => return .version

def readCommon (r : Reading) : List String → Except UsageError Invocation
  | [] => do
    let _ ← r.resolve .common
    .error .missingCommand
  | argument :: rest =>
    let free := !r.literal && r.awaiting?.isNone
    match if free then Scope.ofName? argument else none with
    | some scope => readCommand scope r rest
    | none =>
      if free && argument == "help" then readHelp rest
      else
        match readArgument .common r argument with
        | .ok (.more r) => readCommon r rest
        | .ok .help => .ok .help
        | .ok .version => .ok .version
        | .error e => .error e

def readLine (arguments : List String) : Except UsageError Invocation := readCommon {} arguments

end MultimediaMessaging.Command
