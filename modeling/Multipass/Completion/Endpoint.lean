import Multipass.Text.Find
import Multipass.Text.Utf8

/-!
# Addresses of services

An address of the web is a scheme, a host with a port, a path, and what follows it. Its written
form is normal: scheme and host in lower case, without the usual port, without points in the path,
and with every character that does not belong there by its bytes.
-/

namespace Multipass.Endpoint

open Text

/-- A hexadecimal digit in upper case. -/
def upperHex (n : Nat) : Char :=
  if n < 10 then Char.ofNat (48 + n) else Char.ofNat (55 + n)

/-- A byte by its two digits. -/
def byteEscape (b : UInt8) : List Char :=
  ['%', upperHex (b.toNat / 16), upperHex (b.toNat % 16)]

/-- Characters, those of some set by their bytes. -/
def escaped (escapes : Char → Bool) (s : List Char) : List Char :=
  s.flatMap fun c => if escapes c then (encode (String.ofList [c])).flatMap byteEscape else [c]

/-- Holds of characters that never stand in an address. -/
def isForeign (c : Char) : Bool :=
  c.toNat ≤ 0x1f || 0x7e < c.toNat

/-- Holds of characters that do not stand in a path. -/
def escapesInPath (c : Char) : Bool :=
  isForeign c || [' ', '"', '#', '<', '>', '?', '\x60', '\x7b', '\x7d'].contains c

/-- Holds of characters that do not stand in a query. -/
def escapesInQuery (c : Char) : Bool :=
  isForeign c || [' ', '"', '#', '\'', '<', '>'].contains c

/-- Holds of characters that do not stand in a fragment. -/
def escapesInFragment (c : Char) : Bool :=
  isForeign c || [' ', '"', '<', '>', '\x60'].contains c

/-- A point, also as its byte. -/
def isPoint (s : List Char) : Bool :=
  [".", "%2e"].contains (String.ofList s).toLower

/-- Two points, also as their bytes. -/
def isTwoPoints (s : List Char) : Bool :=
  ["..", ".%2e", "%2e.", "%2e%2e"].contains (String.ofList s).toLower

/-- The segments of a path without points, the last first. A point at the end leaves an empty
segment. -/
def segments : List (List Char) → List (List Char) → List (List Char)
  | done, [] => done
  | done, [s] =>
    if isTwoPoints s then [] :: done.tail
    else if isPoint s then [] :: done
    else s :: done
  | done, s :: rest =>
    if isTwoPoints s then segments done.tail rest
    else if isPoint s then segments done rest
    else segments (s :: done) rest

/-- The normal form of a path behind its first separator. -/
def path (s : List Char) : List Char :=
  let pieces := splitOnChar '/' (s.map fun c => if c = '\\' then '/' else c)
  (segments [] pieces).reverse.flatMap fun p => '/' :: escaped escapesInPath p

/-- The part of a text before the first of some characters, and the part from there on. -/
def cutAt (stops : List Char) (s : List Char) : List Char × List Char :=
  (s.takeWhile fun c => !stops.contains c, s.dropWhile fun c => !stops.contains c)

/-- A port, unless it is the usual one. -/
def port? (usual : Nat) (digits : List Char) : Option (List Char) :=
  if digits.all Char.isDigit then
    match (String.ofList digits).toNat? with
    | some n =>
      if 65535 < n then none
      else if n = usual then some []
      else some (':' :: (toString n).toList)
    | none => some []
  else none

/-- The normal form of a host and its port. -/
def host? (usual : Nat) (s : List Char) : Option (List Char) :=
  let (name, port) := cutAt [':'] s
  let name := name.map Char.toLower
  if name.isEmpty || name.any fun c => isForeign c || " #%/<>?@[\\]^|".toList.contains c then none
  else (port? usual port.tail).map fun p => name ++ p

/-- What follows a path. -/
def trailer : List Char → List Char
  | '?' :: s =>
    let (query, rest) := cutAt ['#'] s
    '?' :: escaped escapesInQuery query ++
      match rest with
      | '#' :: fragment => '#' :: escaped escapesInFragment fragment
      | _ => []
  | '#' :: s => '#' :: escaped escapesInFragment s
  | _ => []

/-- The normal form of what follows the scheme. -/
def rest? (usual : Nat) (s : List Char) : Option (List Char) :=
  let s := s.dropWhile fun c => c = '/' || c = '\\'
  let (authority, s) := cutAt ['/', '\\', '?', '#'] s
  let (way, s) := cutAt ['?', '#'] s
  (host? usual authority).map fun host => host ++ path way.tail ++ trailer s

/-- An address in normal form, or nothing if it is none. -/
def normal? (address : String) : Option String :=
  let outer (c : Char) : Bool := c.toNat ≤ 0x20
  let s := (address.toList.dropWhile outer).reverse.dropWhile outer |>.reverse
  let s := s.filter fun c => !(c = '\t' || c = '\n' || c = '\r')
  let (scheme, s) := cutAt [':'] s
  match (String.ofList scheme).toLower with
  | "http" => (rest? 80 s.tail).map fun r => "http://" ++ String.ofList r
  | "https" => (rest? 443 s.tail).map fun r => "https://" ++ String.ofList r
  | _ => none

end Multipass.Endpoint
