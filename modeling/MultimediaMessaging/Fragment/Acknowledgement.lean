import MultimediaMessaging.Text.Encoding
import MultimediaMessaging.Text.Opening

/-!
Acknowledgements: the datagram that a receiver returns for every fragment but the last, holding the
cookie of the transfer. A cookie is any text; whether it is the right one is for the sender to say.
-/

set_option autoImplicit false

namespace MultimediaMessaging

open Text

structure AckRequest where
  cookie : String
  port : UInt16
  deriving DecidableEq, Repr

namespace Acknowledgement

def opening : Bytes := encode "ACK:"

def write (cookie : String) : Bytes := opening ++ encode cookie ++ [10]

def isLineEnd (c : Char) : Bool := c == '\r' || c == '\n'

def dropLineEnds (cs : List Char) : List Char := (cs.reverse.dropWhile isLineEnd).reverse

/-- The cookie of an acknowledgement, which is neither empty nor longer than a line. -/
def read (datagram : Bytes) : Option String := do
  let text ← decode (← after? opening datagram)
  let cookie := dropLineEnds text.toList
  if cookie = [] ∨ '\n' ∈ cookie then none else some (String.ofList cookie)

end Acknowledgement

end MultimediaMessaging
