import VtiDidcomm.Did.Scid

/-!
# IP literals

The address classifier of `net-guard.js`: the strict IPv4 and IPv6 text forms and the ranges that
are not public.
-/

namespace VtiDidcomm
open Js

/-- `"."` -/
def dot : CodeUnit := 0x2e

/-- One decimal octet of a strict dotted quad. -/
def octet (m : JsString) : Option Nat :=
  if m = [] || 3 < m.length || !m.all isDigit then none
  else if 1 < m.length && m.head? = some 0x30 then none
  else if 255 < digitsValue m then none
  else some (digitsValue m)

/-- `parseIpv4`: four decimal octets, no leading zeros. -/
def parseIpv4 (s : JsString) : Option (List Nat) :=
  match split dot s with
  | [a, b, c, d] => [a, b, c, d].mapM octet
  | _ => none

/-- `v4ToUint` of four octets. -/
def v4ToUint (octets : List Nat) : Nat := octets.foldl (fun n o => 256 * n + o) 0

/-- `V4_BLOCKED`: the networks that are not public, with their prefix lengths. -/
def v4Ranges : List (List Nat × Nat) :=
  [([0, 0, 0, 0], 8), ([10, 0, 0, 0], 8), ([100, 64, 0, 0], 10), ([127, 0, 0, 0], 8),
    ([169, 254, 0, 0], 16), ([172, 16, 0, 0], 12), ([192, 0, 0, 0], 24), ([192, 0, 2, 0], 24),
    ([192, 168, 0, 0], 16), ([198, 18, 0, 0], 15), ([198, 51, 100, 0], 24), ([203, 0, 113, 0], 24),
    ([224, 0, 0, 0], 4), ([240, 0, 0, 0], 4)]

/-- `v4Blocked`: whether an address lies in one of those networks. -/
def v4Blocked (n : Nat) : Bool :=
  v4Ranges.any fun (net, len) => n >>> (32 - len) = v4ToUint net >>> (32 - len)

/-- `v6Blocked` of eight groups: by the embedded IPv4 address where there is one, else by the
range. -/
def v6Blocked (g : List Nat) : Bool :=
  let at' (i : Nat) : Nat := g.getD i 0
  let zeros (start stop : Nat) : Bool := ((g.take stop).drop start).all (· = 0)
  let embedded (hi lo : Nat) : Bool := v4Blocked (hi * 65536 + lo)
  if zeros 0 6 then embedded (at' 6) (at' 7)
  else if zeros 0 5 && at' 5 = 0xffff then embedded (at' 6) (at' 7)
  else if zeros 0 4 && at' 4 = 0xffff && at' 5 = 0 then embedded (at' 6) (at' 7)
  else if at' 0 = 0x64 && at' 1 = 0xff9b && zeros 2 6 then embedded (at' 6) (at' 7)
  else if at' 0 = 0x64 && at' 1 = 0xff9b && at' 2 = 1 then true
  else if at' 0 = 0x2002 then embedded (at' 1) (at' 2)
  else if at' 0 = 0x2001 && at' 1 < 0x200 then true
  else if at' 0 = 0x2001 && at' 1 = 0xdb8 then true
  else if at' 0 = 0x3fff && at' 1 &&& 0xf000 = 0 then true
  else at' 0 &&& 0xe000 != 0x2000

/-- One to four hexadecimal digits. -/
def hexGroup (piece : JsString) : Option Nat :=
  if piece = [] || 4 < piece.length then none
  else (piece.mapM hexDigitValue).map fun ds => ds.foldl (fun n d => 16 * n + d) 0

/-- `groups(part)` -/
def hexGroups (part : JsString) : Option (List Nat) :=
  if part = [] then some [] else (split colon part).mapM hexGroup

/-- `s.lastIndexOf(p)` for a non-empty pattern. -/
def lastIndexOfStr (p s : JsString) : Option Nat :=
  (indexOfStr p.reverse s.reverse).map fun i => s.length - p.length - i

/-- The dotted quad at the end of an IPv6 text as two groups, and the text before it. -/
def ipv6Tail (s : JsString) (lastColon : Nat) : Option (List Nat × JsString) :=
  if includes s dot then
    match parseIpv4 (sliceFrom s (lastColon + 1)) with
    | some [a, b, c, d] =>
      let head := sliceTo s (lastColon + 1)
      some ([256 * a + b, 256 * c + d], if endsWith head (js "::") then head else head.dropLast)
    | _ => none
  else some ([], s)

/-- `parseIpv6`: the eight groups of an RFC 4291 text form, brackets optional. -/
def parseIpv6 (input : JsString) : Option (List Nat) :=
  let s := if startsWith input (js "[") && endsWith input (js "]") then (sliceFrom input 1).dropLast
    else input
  if s = [] || !s.all fun c => (hexDigitValue c).isSome || c = colon || c = dot then none
  else
    match lastIndexOfStr [colon] s with
    | none => none
    | some lastColon =>
      match ipv6Tail s lastColon with
      | none => none
      | some (tail, s) =>
        let want := 8 - tail.length
        match indexOfStr (js "::") s with
        | none =>
          match hexGroups s with
          | some all => if all.length = want then some (all ++ tail) else none
          | none => none
        | some gap =>
          if lastIndexOfStr (js "::") s ≠ some gap then none
          else
            match hexGroups (sliceTo s gap), hexGroups (sliceFrom s (gap + 2)) with
            | some head, some rest =>
              if want < head.length + rest.length + 1 then none
              else some (head ++ List.replicate (want - head.length - rest.length) 0 ++ rest ++ tail)
            | _, _ => none

/-- `isBlockedIp`: true for an address that must not be dialed by default, and for anything that is
not an IP literal. -/
def isBlockedIp (ip : JsString) : Bool :=
  match parseIpv4 ip with
  | some v4 => v4Blocked (v4ToUint v4)
  | none =>
    match parseIpv6 ip with
    | some v6 => v6Blocked v6
    | none => true

example : isBlockedIp (js "::ffff:169.254.169.254") = true := by decide

example : isBlockedIp (js "[2606:4700:4700::1111]") = false := by decide

end VtiDidcomm
