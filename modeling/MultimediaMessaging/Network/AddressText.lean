import MultimediaMessaging.Network.Address
import MultimediaMessaging.Text.Decimal
import MultimediaMessaging.Text.Hexadecimal

/-!
Internet addresses as text. Writing gives one form per address: the longest run of at least two zero
groups, the first of equally long ones, is left out, and a mapped address ends in dotted octets.
Reading takes every form of the standard, and refuses leading zeros in octets, names of links and
blanks.
-/

set_option autoImplicit false

namespace MultimediaMessaging

open Text

namespace IpAddress

def octetsText (a b c d : UInt8) : List Char :=
  digits a.toNat ++ '.' :: digits b.toNat ++ '.' :: digits c.toNat ++ '.' :: digits d.toNat

def groupsText : List UInt16 → List Char
  | [] => []
  | [g] => hexDigits g.toNat
  | g :: rest => hexDigits g.toNat ++ ':' :: groupsText rest

def zerosAt (groups : List UInt16) (i : Nat) : Nat := ((groups.drop i).takeWhile (· == 0)).length

/-- Start and length of the first of the longest runs of zero groups. -/
def longestZeros (groups : List UInt16) : Nat × Nat :=
  (List.range groups.length).foldl
    (fun best i => if best.2 < zerosAt groups i then (i, zerosAt groups i) else best) (0, 0)

def shortenedText (groups : List UInt16) : List Char :=
  if 1 < (longestZeros groups).2 then
    groupsText (groups.take (longestZeros groups).1) ++ [':', ':'] ++
      groupsText (groups.drop ((longestZeros groups).1 + (longestZeros groups).2))
  else groupsText groups

def chars : IpAddress → List Char
  | .v4 a b c d => octetsText a b c d
  | .v6 groups =>
    match mapped? (.v6 groups) with
    | some (a, b, c, d) => "::ffff:".toList ++ octetsText a b c d
    | none => shortenedText groups.toList

def text (ip : IpAddress) : String := String.ofList ip.chars

/-- One to three digits, at most 255, without a leading zero. -/
def readOctet (cs : List Char) : Option (UInt8 × List Char) :=
  let run := cs.takeWhile Char.isDigit
  if run.length ≤ 3 ∧ (run.head? ≠ some '0' ∨ run.length = 1) then
    (readDigits 255 run).map fun n => (n.toUInt8, cs.dropWhile Char.isDigit)
  else none

def readDot : List Char → Option (List Char)
  | '.' :: cs => some cs
  | _ => none

def readOctets (cs : List Char) : Option ((UInt8 × UInt8 × UInt8 × UInt8) × List Char) := do
  let (a, cs) ← readOctet cs
  let (b, cs) ← readOctet (← readDot cs)
  let (c, cs) ← readOctet (← readDot cs)
  let (d, cs) ← readOctet (← readDot cs)
  return ((a, b, c, d), cs)

def readGroup (cs : List Char) : Option (UInt16 × List Char) :=
  let run := cs.takeWhile fun c => (hexValue c).isSome
  if 0 < run.length ∧ run.length ≤ 4 then
    (ofHexDigits run).map fun n => (n.toUInt16, cs.drop run.length)
  else none

def readColon (first : Bool) : List Char → Option (List Char)
  | ':' :: cs => if first then some (':' :: cs) else some cs
  | cs => if first then some cs else none

def readGroups : (room : Nat) → (first : Bool) → List Char → List UInt16 × Bool × List Char
  | 0, _, cs => ([], false, cs)
  | room + 1, first, cs =>
    match readColon first cs with
    | none => ([], false, cs)
    | some rest =>
      match if room = 0 then none else readOctets rest with
      | some ((a, b, c, d), rest) =>
        ([a.toUInt16 <<< 8 ||| b.toUInt16, c.toUInt16 <<< 8 ||| d.toUInt16], true, rest)
      | none =>
        match readGroup rest with
        | none => ([], false, cs)
        | some (g, rest) =>
          let (more, dotted, rest) := readGroups room false rest
          (g :: more, dotted, rest)

/-- Eight groups; two colons stand for at least one zero group, once. -/
def readV6 (cs : List Char) : Option (IpAddress × List Char) :=
  match readGroups 8 true cs with
  | (head, dotted, rest) =>
    if h : head.length = 8 then some (.v6 ⟨head.toArray, by simpa using h⟩, rest)
    else if dotted then none
    else
      match rest with
      | ':' :: ':' :: rest =>
        match readGroups (7 - head.length) true rest with
        | (tail, _, rest) =>
          let groups := head ++ List.replicate (8 - head.length - tail.length) 0 ++ tail
          if h : groups.length = 8 then some (.v6 ⟨groups.toArray, by simpa using h⟩, rest)
          else none
      | _ => none

def read (cs : List Char) : Option (IpAddress × List Char) :=
  match readOctets cs with
  | some ((a, b, c, d), rest) => some (.v4 a b c d, rest)
  | none => readV6 cs

def parse (s : String) : Option IpAddress :=
  match read s.toList with
  | some (ip, []) => some ip
  | _ => none

end IpAddress

namespace SocketAddress

def text (addr : SocketAddress) : String :=
  match addr.ip with
  | .v4 .. => s!"{addr.ip.text}:{addr.port.toNat}"
  | .v6 _ =>
    let link := if addr.scope = 0 then "" else s!"%{addr.scope.toNat}"
    s!"[{addr.ip.text}{link}]:{addr.port.toNat}"

def readPort : List Char → Option UInt16
  | ':' :: cs => (readDigits limit16 cs).map Nat.toUInt16
  | _ => none

/-- The scope of a sixth-version address, a number after a percent sign. -/
def readScope : List Char → Option (UInt32 × List Char)
  | '%' :: cs =>
    (readDigits limit32 (cs.takeWhile Char.isDigit)).map fun n =>
      (n.toUInt32, cs.dropWhile Char.isDigit)
  | cs => some (0, cs)

def parse (s : String) : Option SocketAddress :=
  match s.toList with
  | '[' :: cs =>
    match IpAddress.readV6 cs with
    | some (ip, rest) =>
      match readScope rest with
      | some (scope, ']' :: rest) => (readPort rest).map fun port => { ip, port, scope }
      | _ => none
    | none => none
  | cs =>
    match IpAddress.readOctets cs with
    | some ((a, b, c, d), rest) => (readPort rest).map fun port => { ip := .v4 a b c d, port }
    | none => none

end SocketAddress

end MultimediaMessaging
