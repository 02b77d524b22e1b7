import Mathlib

namespace Lodger

-- The longest name that setup accepts, in characters.
def NAME_MAX_LEN : Nat := 64

inductive IpAddr where
  | v4 (bits : BitVec 32)
  | v6 (bits : BitVec 128)
deriving DecidableEq, Hashable, Repr

-- An IPv4 address in IPv6 form, ::ffff:a.b.c.d, becomes the IPv4 address.
def IpAddr.toCanonical : IpAddr → IpAddr
  | .v4 bits => .v4 bits
  | .v6 bits =>
      if bits.extractLsb' 32 96 = 0xffff then .v4 (bits.extractLsb' 0 32) else .v6 bits

namespace Throttle

-- Instants and durations are numbers of nanoseconds.

def secs (n : Nat) : Nat := n * 1000000000

def FREE_FAILURES : Nat := 5
def WINDOW : Nat := secs (15 * 60)
def MAX_DELAY : Nat := secs 60
def MAX_KEYS : Nat := 10000
def USIZE_MAX : Nat := 2 ^ 64 - 1
def U32_MAX : Nat := 2 ^ 32 - 1

structure Entry where
  times : List Nat := []
  next : Option Nat := none
deriving DecidableEq, Repr

-- Whether the clean-up of a full map keeps the entry.
def Entry.inUse (e : Entry) (now : Nat) : Bool :=
  e.times.getLast?.any (fun t => now - t < WINDOW) || e.next.any (fun t => now < t)

-- The `while` loop that pops the expired times from the front.
def Entry.expire (e : Entry) (now : Nat) : Entry :=
  { e with times := e.times.dropWhile fun t => WINDOW ≤ now - t }

abbrev Counts (K : Type) [BEq K] [Hashable K] := Std.ExtHashMap K Entry

section Counts

variable {K : Type} [DecidableEq K] [Hashable K]

scoped instance equivBEqKey : EquivBEq K := inferInstance

scoped instance lawfulHashableKey : LawfulHashable K := inferInstance

scoped instance equivBEqAccount : EquivBEq String := inferInstance

scoped instance lawfulHashableAccount : LawfulHashable String := inferInstance

scoped instance equivBEqIp : EquivBEq IpAddr := inferInstance

scoped instance lawfulHashableIp : LawfulHashable IpAddr := inferInstance

def Counts.retain (map : Counts K) (now : Nat) : Counts K :=
  map.filter fun _ e => e.inUse now

-- `entry(key).or_default()`, then the expiry.
def Counts.touch (map : Counts K) (key : K) (now : Nat) : Counts K × Option Entry :=
  let e := (map[key]?.getD {}).expire now
  (map.insert key e, some e)

def Counts.entry (map : Counts K) (key : K) (now : Nat) : Counts K × Option Entry :=
  if MAX_KEYS ≤ map.size ∧ key ∉ map then
    let map := map.retain now
    if MAX_KEYS ≤ map.size then (map, none) else map.touch key now
  else map.touch key now

-- `get_mut(key)` followed by `push_back(now)`.
def Counts.record (map : Counts K) (key : K) (now : Nat) : Counts K :=
  match map[key]? with
  | some e => map.insert key { e with times := e.times ++ [now] }
  | none => map

-- `get_mut(key)`, then the removal of one time equal to `time`.
def Counts.takeBack (map : Counts K) (key : K) (time : Nat) : Counts K :=
  match map[key]? with
  | some e => map.insert key { e with times := e.times.erase time }
  | none => map

end Counts

structure Counters where
  accounts : Counts String := ∅
  ips : Counts IpAddr := ∅

structure Attempt where
  wait : Nat
  failures : Nat
  -- The source calls this field `at`.
  begun : Nat
deriving DecidableEq, Repr

def delayFor (failures : Nat) : Nat :=
  if failures < FREE_FAILURES then 0
  else
    let excess := failures - FREE_FAILURES
    let exponent := min (if excess ≤ U32_MAX then excess else U32_MAX) 6
    min (secs (2 ^ exponent)) MAX_DELAY

section Keys

-- Unicode's lower-case mapping of a string. Nothing below depends on its
-- tables, so it stays a parameter.
variable (lower : String → String)

def accountKey (account : String) : String :=
  lower (String.ofList (account.toList.take NAME_MAX_LEN))

def ipKey (ip : IpAddr) : IpAddr :=
  match ip.toCanonical with
  | .v6 bits => .v6 (bits &&& ~~~(BitVec.ofNat 128 (2 ^ 64 - 1)))
  | .v4 bits => .v4 bits

-- A key that a full map cannot count has the most failures.
def failuresOf : Option Entry → Option Entry → Nat
  | some account, some ip => max account.times.length ip.times.length
  | _, _ => USIZE_MAX

-- The `failures` that `begin` computes.
def Counters.failures (c : Counters) (account : String) (ip : IpAddr) (now : Nat) : Nat :=
  failuresOf (c.accounts.entry (accountKey lower account) now).2 (c.ips.entry (ipKey ip) now).2

def Counters.begin (c : Counters) (account : String) (ip : IpAddr) (now : Nat) :
    Except Nat Attempt × Counters :=
  let failures := c.failures lower account ip now
  let account := accountKey lower account
  let ip := ipKey ip
  let accounts := (c.accounts.entry account now).1
  let (ips, ipEntry) := c.ips.entry ip now
  let start := now + delayFor failures
  match ipEntry with
  | some entry =>
      let start := max start (entry.next.getD start)
      if MAX_DELAY < start - now then (.error (start - now), { accounts, ips })
      else
        let times := entry.times ++ [now]
        let entry := { times, next := some (start + delayFor times.length) }
        (.ok ⟨start - now, min failures MAX_KEYS, now⟩,
          { accounts := accounts.record account now, ips := ips.insert ip entry })
  | none =>
      (.ok ⟨start - now, min failures MAX_KEYS, now⟩,
        { accounts := accounts.record account now, ips })

def Counters.succeed (c : Counters) (account : String) (ip : IpAddr) (attempt : Attempt) :
    Counters where
  accounts := c.accounts.erase (accountKey lower account)
  ips := c.ips.takeBack (ipKey ip) attempt.begun

end Keys

end Throttle

end Lodger
