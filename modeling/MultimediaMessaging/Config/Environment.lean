import MultimediaMessaging.Config.Basic
import MultimediaMessaging.Text.Blank
import MultimediaMessaging.Text.Encoding

/-!
Configurations from the environment. A variable that is absent, no text or no number leaves the
default, and the result is not checked.
-/

set_option autoImplicit false

namespace MultimediaMessaging.Config

open Text

/-- The number in a variable, which may stand between blanks. -/
def variableNumber? (value : Option Bytes) : Option UInt64 := do
  let text ← decode (← value)
  (readNumber limit64 (trim text.toList)).map Nat.toUInt64

def variableText? (value : Option Bytes) : Option String := do
  let text ← decode (← value)
  if text = "" then none else some text

def ofEnvironment (lookup : String → Option Bytes) : Config :=
  let c : Config := {}
  { c with
    fragmentSize := (variableNumber? (lookup "MMS_FRAGMENT_SIZE")).getD c.fragmentSize
    poolCapacity := (variableNumber? (lookup "MMS_POOL_CAPACITY")).getD c.poolCapacity
    phoneNumber := (variableText? (lookup "MMS_PHONE_NUMBER")).getD c.phoneNumber }

end MultimediaMessaging.Config
