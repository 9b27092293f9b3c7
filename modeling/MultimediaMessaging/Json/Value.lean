/-!
Values of the data format JSON, with numbers as they are written. A string of the format may name
half of a surrogate pair alone; no text has such a character, so the value of that string is `none`.
-/

set_option autoImplicit false

namespace MultimediaMessaging

inductive Json where
  | null
  | bool (value : Bool)
  | number (written : List Char)
  | string (value : Option String)
  | array (elements : List Json)
  | object (members : List (Option String × Json))

end MultimediaMessaging
