/-!
Time, counted in nanoseconds from an arbitrary start. It is an argument of whatever depends on it
and never read inside.
-/

set_option autoImplicit false

namespace MultimediaMessaging

abbrev Time := Nat

def milliseconds (n : Nat) : Time := n * 1000000

end MultimediaMessaging
