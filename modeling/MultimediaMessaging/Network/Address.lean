/-!
Internet addresses. An address of the fourth version is never equal to one of the sixth, also where
the sixth version has a form that maps the fourth.
-/

set_option autoImplicit false

namespace MultimediaMessaging

inductive IpAddress where
  | v4 (a b c d : UInt8)
  | v6 (groups : Vector UInt16 8)
  deriving DecidableEq, Repr

structure SocketAddress where
  ip : IpAddress
  port : UInt16
  /-- The number of the link that an address of the sixth version belongs to, or zero. -/
  scope : UInt32 := 0
  deriving DecidableEq, Repr

namespace IpAddress

def unspecified : IpAddress := .v4 0 0 0 0

def mapped? : IpAddress → Option (UInt8 × UInt8 × UInt8 × UInt8)
  | .v4 .. => none
  | .v6 groups =>
    if groups.toList.take 6 = [0, 0, 0, 0, 0, 0xFFFF] then
      some ((groups[6] >>> 8).toUInt8, groups[6].toUInt8,
        (groups[7] >>> 8).toUInt8, groups[7].toUInt8)
    else none

end IpAddress

end MultimediaMessaging
