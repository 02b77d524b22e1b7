import Lodger.Throttle
import Lodger.Setup
import Lodger.Validate

namespace Lodger

open Setup (trim)
open Validate (Ipv4Net)

-- `IpAddr::from_str` of the standard library.
section Parser

-- `char::to_digit`.
def toDigit (radix : Nat) (c : Char) : Option Nat :=
  let value :=
    if '0' ≤ c ∧ c ≤ '9' then some (c.toNat - '0'.toNat)
    else if 'a' ≤ c ∧ c ≤ 'f' then some (c.toNat - 'a'.toNat + 10)
    else if 'A' ≤ c ∧ c ≤ 'F' then some (c.toNat - 'A'.toNat + 10)
    else none
  value.filter (· < radix)

def readNumber (radix maxDigits bound : Nat) (zeroPrefix : Bool) (text : List Char) :
    Option (Nat × List Char) :=
  let digits := text.takeWhile fun c => (toDigit radix c).isSome
  let value := digits.foldl (fun n c => n * radix + (toDigit radix c).getD 0) 0
  if digits = [] ∨ maxDigits < digits.length ∨ bound ≤ value ∨
      (!zeroPrefix ∧ digits.head? = some '0' ∧ 1 < digits.length) then none
  else some (value, text.drop digits.length)

def readChar (c : Char) : List Char → Option (List Char)
  | [] => none
  | d :: rest => if d = c then some rest else none

-- Every part but the first has a separator before it.
def readSeparator {α : Type} (separator : Char) (index : Nat)
    (inner : List Char → Option (α × List Char)) (text : List Char) : Option (α × List Char) :=
  if index = 0 then inner text else (readChar separator text).bind inner

def readIpv4Addr (text : List Char) : Option (List Nat × List Char) :=
  (List.range 4).foldlM (fun (octets, text) i => do
    let (octet, text) ← readSeparator '.' i (readNumber 10 3 256 false) text
    some (octets ++ [octet], text)) ([], text)

-- Up to `limit` groups of 16 bits, with an IPv4 address in the place of the last two;
-- the flag says whether there was one.
def readGroups (limit : Nat) : (fuel i : Nat) → List Char → List Nat × Bool × List Char
  | 0, _, text => ([], false, text)
  | fuel + 1, i, text =>
    match if i < limit - 1 then readSeparator ':' i readIpv4Addr text else none with
    | some ([a, b, c, d], rest) => ([a * 256 + b, c * 256 + d], true, rest)
    | _ =>
      match readSeparator ':' i (readNumber 16 4 65536 true) text with
      | none => ([], false, text)
      | some (group, rest) =>
        let (groups, ipv4, rest) := readGroups limit fuel (i + 1) rest
        (group :: groups, ipv4, rest)

def readIpv6Addr (text : List Char) : Option (List Nat × List Char) :=
  let (head, ipv4, rest) := readGroups 8 8 0 text
  if head.length = 8 then some (head, rest)
  else if ipv4 then none
  else do
    let rest ← readChar ':' rest
    let rest ← readChar ':' rest
    -- The `::` stands for one group of zeros at least.
    let limit := 8 - (head.length + 1)
    let (tail, _, rest) := readGroups limit limit 0 rest
    some (head ++ List.replicate (8 - head.length - tail.length) 0 ++ tail, rest)

def IpAddr.parse (text : String) : Option IpAddr :=
  match readIpv4Addr text.toList with
  | some (octets, rest) =>
    if rest = [] then some (.v4 (.ofNat 32 (octets.foldl (· * 256 + ·) 0))) else none
  | none =>
    match readIpv6Addr text.toList with
    | some (groups, []) => some (.v6 (.ofNat 128 (groups.foldl (· * 65536 + ·) 0)))
    | _ => none

end Parser

namespace ClientIp

-- `http::HeaderMap`: the lines in the order in which they came, with their names in
-- lower case.
abbrev HeaderValue := List UInt8
abbrev HeaderMap := List (String × HeaderValue)

-- The value of the first line of the name.
def HeaderMap.get (headers : HeaderMap) (name : String) : Option HeaderValue := headers.lookup name

-- `HeaderValue::to_str`: only visible ASCII characters and tabs make a text.
def visible (b : UInt8) : Bool := b = 9 || (32 ≤ b && b < 127)

def toStr (value : HeaderValue) : Option String :=
  if value.all visible then some (String.ofList (value.map fun b => Char.ofNat b.toNat)) else none

-- `ipnet::IpNet`. A network holds no address of the other family.
inductive IpNet where
  | v4 (net : Ipv4Net)
  | v6 (addr : BitVec 128) (prefixLen : Nat)
deriving DecidableEq, Repr

def IpNet.contains : IpNet → IpAddr → Bool
  | .v4 net, .v4 bits => net.containsAddr bits.toNat
  | .v6 addr prefixLen, .v6 bits => addr >>> (128 - prefixLen) = bits >>> (128 - prefixLen)
  | _, _ => false

-- `rsplit(',').next()`.
def lastEntry (text : String) : String := String.ofList ((text.toList.splitOn ',').getLastD [])

def trusts (trusted : List IpNet) (peer : IpAddr) : Bool := trusted.any (·.contains peer)

def header (headers : HeaderMap) (name : String) : Option String := (headers.get name).bind toStr

def clientIp (peer : IpAddr) (headers : HeaderMap) (trusted : List IpNet) : IpAddr :=
  if !trusts trusted peer then peer
  else
    match (header headers "x-real-ip").bind fun v => IpAddr.parse (trim v) with
    | some ip => ip
    | none =>
      (((header headers "x-forwarded-for").map lastEntry).bind fun v =>
        IpAddr.parse (trim v)).getD peer

end ClientIp

end Lodger
