import MultimediaMessaging.Message
import MultimediaMessaging.Network.AddressText
import MultimediaMessaging.Text.Decimal

/-!
The options and operands of the command line, and which values they take.
-/

set_option autoImplicit false

namespace MultimediaMessaging.Command

open Text

inductive OptionName where
  | help | version | config | phone | logLevel
  | bind | suite | push | count | json
  | file | source | fragmentSize
  deriving DecidableEq, Repr

namespace OptionName

def long : OptionName → String
  | help => "help"
  | version => "version"
  | config => "config"
  | phone => "phone"
  | logLevel => "log-level"
  | bind => "bind"
  | suite => "suite"
  | push => "push"
  | count => "count"
  | json => "json"
  | file => "file"
  | source => "from"
  | fragmentSize => "fragment-size"

def short? : OptionName → Option Char
  | help => some 'h'
  | version => some 'V'
  | config => some 'c'
  | bind => some 'b'
  | suite => some 's'
  | count => some 'n'
  | file => some 'f'
  | _ => none

def takesValue : OptionName → Bool
  | help | version | json => false
  | _ => true

end OptionName

/-- Zero may have a minus sign. -/
def readSuite : List Char → Option Suite
  | '-' :: cs => (readDigits 0 cs).map fun _ => ⟨0⟩
  | cs => (readNumber limit32 cs).map fun n => ⟨n.toUInt32⟩

def readSize (cs : List Char) : Option UInt64 := (readNumber limit64 cs).map Nat.toUInt64

def OptionName.accepts (name : OptionName) (value : String) : Bool :=
  match name with
  | .config | .file => value ≠ ""
  | .bind => (SocketAddress.parse value).isSome
  | .suite => (readSuite value.toList).isSome
  | .count | .fragmentSize => (readSize value.toList).isSome
  | _ => true

inductive Scope where
  | common | listen | send
  deriving DecidableEq, Repr

namespace Scope

def options : Scope → List OptionName
  | common => [.help, .version, .config, .phone, .logLevel]
  | listen => [.help, .config, .phone, .logLevel, .bind, .suite, .push, .count, .json]
  | send => [.help, .config, .phone, .logLevel, .file, .source, .fragmentSize]

def ofName? : String → Option Scope
  | "listen" => some listen
  | "send" => some send
  | _ => none

/-- The least and the greatest number of operands. -/
def operands : Scope → Nat × Nat
  | common => (0, 0)
  | listen => (1, 1)
  | send => (2, 3)

def acceptsOperand : Scope → (i : Nat) → String → Bool
  | send, 0, value => (SocketAddress.parse value).isSome
  | _, _, _ => true

def long? (s : Scope) (name : String) : Option OptionName := s.options.find? (·.long = name)

def short? (s : Scope) (c : Char) : Option OptionName := s.options.find? (·.short? = some c)

end Scope

end MultimediaMessaging.Command
