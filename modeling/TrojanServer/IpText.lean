import TrojanServer.FrameDecoding

namespace TrojanServer.IpText

open TrojanServer.FrameDecoding

inductive IpAddr where
  | v4 (octets : Octets 4)
  | v6 (octets : Octets 16)
  deriving DecidableEq

def IpAddr.asV4 : IpAddr → Option (Octets 4)
  | .v4 octets => some octets
  | .v6 _ => none

def IpAddr.asV6 : IpAddr → Option (Octets 16)
  | .v4 _ => none
  | .v6 octets => some octets

/-- Entry `i` of `Ipv4Addr::octets`. -/
def octet (ip : Octets 4) (i : Nat) : UInt8 := ip.toList.getD i 0

def segment (ip : Octets 16) (i : Fin 8) : UInt16 :=
  fromBeBytes (ip.get ⟨2 * i.val, by omega⟩) (ip.get ⟨2 * i.val + 1, by omega⟩)

def segments (ip : Octets 16) : List UInt16 := List.ofFn (segment ip)

def ofSegments (groups : List UInt16) : Octets 16 :=
  ⟨(groups.flatMap toBeBytes ++ List.replicate 16 0).take 16, by simp⟩

def toIpv4Mapped (ip : Octets 16) : Option (Octets 4) :=
  if ip.toList.take 12 = [0, 0, 0, 0, 0, 0, 0, 0, 0, 0, 0xff, 0xff] then
    some ⟨[ip.get 12, ip.get 13, ip.get 14, ip.get 15], rfl⟩
  else none

section Parser

def toDigit (radix : Nat) (b : UInt8) : Option Nat :=
  let digit :=
    if 48 ≤ b ∧ b ≤ 57 then some (b.toNat - 48)
    else if 97 ≤ b ∧ b ≤ 102 then some (b.toNat - 97 + 10)
    else if 65 ≤ b ∧ b ≤ 70 then some (b.toNat - 65 + 10)
    else none
  digit.filter (· < radix)

/-- Read digits up to the first other byte; the number has to stay below
`limit` and within `maxDigits` digits. -/
def readDigits (radix maxDigits limit : Nat) :
    Nat → Nat → List UInt8 → Option (Nat × Nat × List UInt8)
  | result, count, [] => some (result, count, [])
  | result, count, b :: input =>
      match toDigit radix b with
      | none => some (result, count, b :: input)
      | some digit =>
          if limit ≤ result * radix + digit ∨ maxDigits < count + 1 then none
          else readDigits radix maxDigits limit (result * radix + digit) (count + 1) input

def readNumber (radix maxDigits limit : Nat) (allowZeroPrefix : Bool) (input : List UInt8) :
    Option (Nat × List UInt8) :=
  match readDigits radix maxDigits limit 0 0 input with
  | none => none
  | some (result, count, rest) =>
      if count = 0 then none
      else if !allowZeroPrefix && input.head? == some 48 && decide (1 < count) then none
      else some (result, rest)

def readSeparator {α : Type} (sep : UInt8) (index : Nat)
    (inner : List UInt8 → Option (α × List UInt8)) (input : List UInt8) :
    Option (α × List UInt8) :=
  if 0 < index then
    match input with
    | [] => none
    | b :: rest => if b = sep then inner rest else none
  else inner input

def readOctets : (n : Nat) → Nat → List UInt8 → Option (Octets n × List UInt8)
  | 0, _, input => some (List.Vector.nil, input)
  | n + 1, index, input =>
      match readSeparator 46 index (readNumber 10 3 256 false) input with
      | none => none
      | some (octet, rest) =>
          (readOctets n (index + 1) rest).map fun r => (r.1.cons (UInt8.ofNat octet), r.2)

def readIpv4Addr (input : List UInt8) : Option (Octets 4 × List UInt8) := readOctets 4 0 input

/-- Read up to `n` groups, and say whether they end in an embedded IPv4
address, which takes the place of two groups. -/
def readGroups : (n : Nat) → Nat → List UInt8 → List UInt16 × Bool × List UInt8
  | 0, _, input => ([], false, input)
  | n + 1, index, input =>
      match (if 0 < n then readSeparator 58 index readIpv4Addr input else none) with
      | some (v4, rest) =>
          ([fromBeBytes (octet v4 0) (octet v4 1), fromBeBytes (octet v4 2) (octet v4 3)], true,
            rest)
      | none =>
          match readSeparator 58 index (readNumber 16 4 65536 true) input with
          | none => ([], false, input)
          | some (group, rest) =>
              let r := readGroups n (index + 1) rest
              (UInt16.ofNat group :: r.1, r.2)

def readIpv6Addr (input : List UInt8) : Option (Octets 16 × List UInt8) :=
  let head := readGroups 8 0 input
  if head.1.length = 8 then some (ofSegments head.1, head.2.2)
  else if head.2.1 then none
  else
    match head.2.2 with
    | 58 :: 58 :: rest =>
        let tail := readGroups (7 - head.1.length) 0 rest
        let zeros := List.replicate (8 - head.1.length - tail.1.length) 0
        some (ofSegments (head.1 ++ zeros ++ tail.1), tail.2.2)
    | _ => none

def parseIpAddr (text : String) : Option IpAddr :=
  match readIpv4Addr (asBytes text) with
  | some (ip, rest) => if rest = [] then some (.v4 ip) else none
  | none =>
      match readIpv6Addr (asBytes text) with
      | some (ip, rest) => if rest = [] then some (.v6 ip) else none
      | none => none

end Parser

section Display

def ipv4ToString (ip : Octets 4) : String :=
  String.intercalate "." (ip.toList.map fun octet => toString octet.toNat)

def fmtSubslice (groups : List UInt16) : String :=
  String.intercalate ":" (groups.map fun group => String.ofList (Nat.toDigits 16 group.toNat))

/-- Start and length of the longest run of zero segments, the first one if there
are several.  The last two arguments are the run being read. -/
def longestZeros : List UInt16 → Nat → Nat × Nat → Nat × Nat → Nat × Nat
  | [], _, longest, _ => longest
  | group :: groups, i, longest, current =>
      if group = 0 then
        let current := if current.2 = 0 then (i, 1) else (current.1, current.2 + 1)
        let longest := if longest.2 < current.2 then current else longest
        longestZeros groups (i + 1) longest current
      else longestZeros groups (i + 1) longest (0, 0)

def ipv6ToString (ip : Octets 16) : String :=
  match toIpv4Mapped ip with
  | some v4 => "::ffff:" ++ ipv4ToString v4
  | none =>
      let groups := segments ip
      let zeros := longestZeros groups 0 (0, 0) (0, 0)
      if 1 < zeros.2 then
        fmtSubslice (groups.take zeros.1) ++ "::" ++ fmtSubslice (groups.drop (zeros.1 + zeros.2))
      else fmtSubslice groups

end Display

end TrojanServer.IpText
