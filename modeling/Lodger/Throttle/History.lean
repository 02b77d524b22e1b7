import Lodger.Throttle
import Lodger.Lib.Machine

namespace Lodger.Throttle

-- A run of the throttle, with the plain history of its calls beside it. The
-- throttle never sees the history.

-- `call` is the position of the `begin` call whose attempt a caller gives to
-- `succeed`. Only the rule that callers follow looks at it.
inductive Op where
  | begin (account : String) (ip : IpAddr) (now : Nat)
  | succeed (account : String) (ip : IpAddr) (attempt : Attempt) (call : Nat)

inductive Logged where
  | began (account : String) (ip : IpAddr) (now : Nat) (failures : Nat)
      (result : Except Nat Attempt)
  | succeeded (account : String) (ip : IpAddr) (attempt : Attempt) (call : Nat)

structure Run where
  counters : Counters := {}
  clock : Nat := 0
  log : List Logged := []

section Step

variable (lower : String → String)

-- `begin` is not enabled at a time before an earlier call: the clock never
-- goes back.
def Run.step (r : Run) : Op → Option Run
  | .begin account ip now =>
      if r.clock ≤ now then
        let (result, counters) := r.counters.begin lower account ip now
        let failures := r.counters.failures lower account ip now
        some ⟨counters, now, r.log ++ [.began account ip now failures result]⟩
      else none
  | .succeed account ip attempt call =>
      some { r with
        counters := r.counters.succeed lower account ip attempt
        log := r.log ++ [.succeeded account ip attempt call] }

-- The map of the accounts, or of the IPs, does not refuse the key.
def AccountRoom (r : Run) : Op → Prop
  | .begin account _ now => (r.counters.accounts.entry (accountKey lower account) now).2.isSome
  | .succeed .. => True

def IpRoom (r : Run) : Op → Prop
  | .begin _ ip now => (r.counters.ips.entry (ipKey ip) now).2.isSome
  | .succeed .. => True

-- What one call leaves of the attempts that count against an account key: a
-- correct login clears them.
def countAccount (key : String) (times : List Nat) : Logged → List Nat
  | .began account _ now _ (.ok _) =>
      if accountKey lower account = key then times ++ [now] else times
  | .began .. => times
  | .succeeded account _ _ _ => if accountKey lower account = key then [] else times

-- The accepted attempts for an account key since its last correct login.
def sinceSuccess (log : List Logged) (key : String) : List Nat :=
  log.foldl (countAccount lower key) []

end Step

-- What one call leaves of the attempts that count against an IP key: a
-- correct login takes back one attempt that began at its time.
def countIp (key : IpAddr) (times : List Nat) : Logged → List Nat
  | .began _ ip now _ (.ok _) => if ipKey ip = key then times ++ [now] else times
  | .began .. => times
  | .succeeded _ ip attempt _ => if ipKey ip = key then times.erase attempt.begun else times

-- The accepted attempts of an IP key that no correct login took back.
def notTakenBack (log : List Logged) (key : IpAddr) : List Nat :=
  log.foldl (countIp key) []

-- The number of times that are in the window at `now`.
def inWindow (now : Nat) (times : List Nat) : Nat :=
  (times.filter fun t => now - t < WINDOW).length

-- The rule that the callers follow: `succeed` gets the attempt of an accepted
-- `begin` call with that call's account and IP, and each attempt only once.
def Callers (r : Run) : Op → Prop
  | .begin .. => True
  | .succeed account ip attempt call =>
      (∃ now failures, r.log[call]? = some (.began account ip now failures (.ok attempt))) ∧
      ∀ account' ip' attempt', .succeeded account' ip' attempt' call ∉ r.log

-- How long after `now` the IP's earlier attempts still hold the next one back.
def Counters.queued (c : Counters) (ip : IpAddr) (now : Nat) : Nat :=
  ((c.ips.entry (ipKey ip) now).2.bind (·.next)).getD now - now

-- Whether call `i` of the log gave its attempt to `succeed`.
def givenBack (log : List Logged) (i : Nat) : Bool :=
  log.any fun
    | .succeeded _ _ _ call => call == i
    | .began .. => false

-- Whether call `i` of the log is an accepted attempt of the IP key in the
-- window whose attempt was not given to `succeed`.
def outstanding (log : List Logged) (key : IpAddr) (now : Nat) (i : Nat) : Bool :=
  match log[i]? with
  | some (.began _ ip begun _ (.ok _)) =>
      ipKey ip = key && now - begun < WINDOW && !givenBack log i
  | _ => false

theorem sinceSuccess_append (lower : String → String) (log : List Logged) (r : Logged)
    (key : String) :
    sinceSuccess lower (log ++ [r]) key = countAccount lower key (sinceSuccess lower log key) r := by
  simp [sinceSuccess]

theorem notTakenBack_append (log : List Logged) (r : Logged) (key : IpAddr) :
    notTakenBack (log ++ [r]) key = countIp key (notTakenBack log key) r := by
  simp [notTakenBack]

end Lodger.Throttle
