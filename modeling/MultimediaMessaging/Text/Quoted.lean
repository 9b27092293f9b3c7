import MultimediaMessaging.Text.Hexadecimal
import MultimediaMessaging.Text.Printable

/-!
Text in quotes for a reader's eye. A string stands in double quotes and a character in single ones;
the quote in use, the backslash and everything that cannot be shown alone are escaped, so the quoted
form is one line of visible characters.
-/

set_option autoImplicit false

namespace MultimediaMessaging.Text

def quoteChar (mark c : Char) : List Char :=
  if c = '\x00' then ['\\', '0']
  else if c = '\t' then ['\\', 't']
  else if c = '\r' then ['\\', 'r']
  else if c = '\n' then ['\\', 'n']
  else if c = '\\' ∨ c = mark then ['\\', c]
  else if standsAlone c then [c]
  else ['\\', 'u', '\x7b'] ++ hexDigits c.toNat ++ ['\x7d']

def quotedChar (c : Char) : String := String.ofList ('\'' :: (quoteChar '\'' c ++ ['\'']))

def quoted (s : String) : String :=
  String.ofList ('"' :: (s.toList.flatMap (quoteChar '"') ++ ['"']))

end MultimediaMessaging.Text
