import CastleWall.Support.Text
import Mathlib.Data.BitVec

/-! # IP address literals and CIDR prefixes

The textual forms the standard library reads as an IPv4 or IPv6 address, the address as a
bit vector, and containment in a prefix. -/

namespace CastleWall

inductive IpAddr where
  | v4 (bits : BitVec 32)
  | v6 (bits : BitVec 128)
  deriving DecidableEq

namespace IpAddr

open Text

/-- A reader consumes a front part of its input or fails without consuming any of it. -/
abbrev Reader (α : Type) : Type := List Char → Option (α × List Char)

/-- At most `maxDigits` digits, whose value is below `bound`. -/
def readNumber (radix maxDigits bound : Nat) (allowZeroPrefix : Bool) : Reader Nat := fun cs =>
  let p := spanDigits radix cs
  let hasLeadingZero := cs.head? = some '0'
  if p.1.length > maxDigits then none
  else if p.1.length=0 then none
  else if ¬ allowZeroPrefix ∧ hasLeadingZero ∧ p.1.length > 1 then none
  else if ofDigits radix p.1 < bound then some (ofDigits radix p.1,p.2)
  else none

def readGivenChar (target : Char) : Reader Unit
  | c::cs => if c=target then some ((),cs) else none
  | [] => none

/-- `inner`, preceded by the separator unless this is the first element. -/
def readSeparator {α : Type} (sep : Char) (index : Nat) (inner : Reader α) : Reader α := fun cs =>
  if index > 0 then (readGivenChar sep cs).bind fun p => inner p.2
  else inner cs

/-- The elements `index, …, index + count - 1` of a dotted quad. -/
def readOctets : Nat → Nat → Reader (List Nat)
  | _, 0, cs => some ([],cs)
  | index, count+1, cs => do
    let (octet,rest) ← readSeparator '.' index (readNumber 10 3 256 false) cs
    let (octets,rest') ← readOctets (index+1) count rest
    some (octet::octets,rest')

def readIpv4Addr : Reader (List Nat) := readOctets 0 4

/-- Reads groups from index `i` on while `room` of them are left to fill, up to the first that
cannot be read. An embedded dotted quad needs two free groups, fills them and ends the run; the
flag tells whether one was read. -/
def readGroups : Nat → Nat → List Char → List Nat × Bool × List Char
  | 0, _, cs => ([],false,cs)
  | room+1, i, cs =>
    match (if 1 ≤ room then readSeparator ':' i readIpv4Addr cs else none) with
    | some ([one,two,three,four],rest) => ([one * 256+two,three * 256+four],true,rest)
    | _ =>
      match readSeparator ':' i (readNumber 16 4 65536 true) cs with
      | some (group,rest) =>
        let r := readGroups room (i+1) rest
        (group::r.1,r.2)
      | none => ([],false,cs)

/-- The eight groups of an IPv6 address: all of them, or a head and a tail around `::`. -/
def readIpv6Addr : Reader (List Nat) := fun cs =>
  match readGroups 8 0 cs with
  | (head,headIpv4,rest) =>
    if head.length=8 then some (head,rest)
    else if headIpv4 then none
    else do
      let (_,rest) ← readGivenChar ':' rest
      let (_,rest) ← readGivenChar ':' rest
      let (tail,_,rest) := readGroups (8 - (head.length+1)) 0 rest
      some (head++List.replicate (8 - head.length - tail.length) 0++tail,rest)

def v4OfOctets (octets : List Nat) : IpAddr := v4 (BitVec.ofNat 32 (ofDigits 256 octets))

def v6OfGroups (groups : List Nat) : IpAddr := v6 (BitVec.ofNat 128 (ofDigits 65536 groups))

/-- The address the whole of `s` spells, if any: the dotted quad is tried first. -/
def parse (s : String) : Option IpAddr :=
  match readIpv4Addr s.toList with
  | some (octets,rest) => if rest=[] then some (v4OfOctets octets) else none
  | none =>
    match readIpv6Addr s.toList with
    | some (groups,rest) => if rest=[] then some (v6OfGroups groups) else none
    | none => none

/-- Agreement of the leading `width` bits, by masking; the families and the range must fit. -/
def prefixMatches (base : IpAddr) (width : Nat) (target : IpAddr) : Bool :=
  match base, target with
  | .v4 base, .v4 target =>
    if width > 32 then false
    else
      let mask : BitVec 32 := if width=0 then 0 else BitVec.allOnes 32 <<< (32 - width)
      base &&& mask == target &&& mask
  | .v6 base, .v6 target =>
    if width > 128 then false
    else
      let mask : BitVec 128 := if width=0 then 0 else BitVec.allOnes 128 <<< (128 - width)
      base &&& mask == target &&& mask
  | _, _ => false

def loopback4 : IpAddr := v4 0x7f000001#32

def loopback6 : IpAddr := v6 1#128

@[simp] theorem parse_empty : parse "" = none := by decide

@[simp] theorem parse_loopback4 : parse "127.0.0.1" = some loopback4 := by decide

@[simp] theorem parse_loopback6 : parse "::1" = some loopback6 := by decide

example : parse "0:0:0:0:0:0:127.0.0.1" = some (v6 0x7f000001#128) := by decide

example : parse "127.0.0.01" = none := by decide

end IpAddr

end CastleWall
