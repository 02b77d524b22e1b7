import Lodger.Lib.Machine

namespace Lodger.Tickets

open Lodger.Lib

-- Instants and durations are numbers of nanoseconds.
def LIFETIME : Nat := 30 * 1000000000
def MAX_TICKETS : Nat := 10000

abbrev Sha256 := BitVec 256

structure Ticket where
  session : Sha256
  origin : Option String
  expires : Nat
deriving DecidableEq, Repr

abbrev Store := Std.ExtHashMap Sha256 Ticket

-- `hex::encode`: two lower-case digits for each byte.
def encode (bytes : List (BitVec 8)) : String :=
  String.ofList (bytes.flatMap fun b => [(b.toNat / 16).digitChar, (b.toNat % 16).digitChar])

def Store.retain (byHash : Store) (now : Nat) : Store := byHash.filter fun _ t => now < t.expires

section Calls

variable (hash : String → Sha256)

-- `random` is what `getrandom::fill` gives: 32 bytes, or its error.
def Store.issue (byHash : Store) (random : Except String (Vector (BitVec 8) 32))
    (session : Sha256) (origin : Option String) (now : Nat) :
    Except String (Option String) × Store :=
  match random with
  | .error e => (.error ("cannot make a ticket: " ++ e), byHash)
  | .ok bytes =>
      let ticket := encode bytes.toList
      let kept := if MAX_TICKETS ≤ byHash.size then byHash.retain now else byHash
      if MAX_TICKETS ≤ kept.size then (.ok none, kept)
      else (.ok (some ticket), kept.insert (hash ticket) ⟨session, origin, now + LIFETIME⟩)

-- The ticket is gone after one attempt, even a failed one.
def Store.redeem (byHash : Store) (ticket : String) (session : Sha256) (origin : Option String)
    (now : Nat) : Bool × Store :=
  (byHash[hash ticket]?.any fun t => t.session = session && t.origin = origin && now < t.expires,
    byHash.erase (hash ticket))

end Calls

-- A ticket that `issue` gave out, and to whom.
structure Issued where
  ticket : String
  session : Sha256
  origin : Option String
  issuedAt : Nat
deriving DecidableEq, Repr

inductive Logged where
  | issued (i : Issued)
  | refused (now : Nat)
  | redeemed (ticket : String) (session : Sha256) (origin : Option String) (now : Nat)
      (result : Bool)
deriving DecidableEq, Repr

inductive Op where
  | issue (random : Except String (Vector (BitVec 8) 32)) (session : Sha256)
      (origin : Option String) (now : Nat)
  | redeem (ticket : String) (session : Sha256) (origin : Option String) (now : Nat)

-- The tickets, and beside them the history of the calls.
structure Run where
  byHash : Store := ∅
  clock : Nat := 0
  log : List Logged := []

section Step

variable (hash : String → Sha256)

-- No call is enabled at a time before an earlier call: the clock never goes
-- back.
def Run.step (r : Run) : Op → Option Run
  | .issue random session origin now =>
      if r.clock ≤ now then
        match r.byHash.issue hash random session origin now with
        | (.error _, byHash) => some ⟨byHash, now, r.log⟩
        | (.ok none, byHash) => some ⟨byHash, now, r.log ++ [.refused now]⟩
        | (.ok (some ticket), byHash) =>
            some ⟨byHash, now, r.log ++ [.issued ⟨ticket, session, origin, now⟩]⟩
      else none
  | .redeem ticket session origin now =>
      if r.clock ≤ now then
        let (result, byHash) := r.byHash.redeem hash ticket session origin now
        some ⟨byHash, now, r.log ++ [.redeemed ticket session origin now result]⟩
      else none

def Logged.ticket? : Logged → Option String
  | .issued i => some i.ticket
  | _ => none

-- A fresh ticket differs from those issued before, and SHA-256 has no
-- collision with an issued ticket.
def Distinct (r : Run) : Op → Prop
  | .issue (.ok bytes) _ _ _ =>
      ∀ t ∈ r.log.filterMap Logged.ticket?, hash t ≠ hash (encode bytes.toList)
  | .issue (.error _) _ _ _ => True
  | .redeem ticket _ _ _ =>
      ∀ t ∈ r.log.filterMap Logged.ticket?, hash ticket = hash t → ticket = t

instance (r : Run) : (op : Op) → Decidable (Distinct hash r op)
  | .issue (.ok bytes) _ _ _ =>
      inferInstanceAs (Decidable (∀ t ∈ r.log.filterMap Logged.ticket?,
        hash t ≠ hash (encode bytes.toList)))
  | .issue (.error _) _ _ _ => inferInstanceAs (Decidable True)
  | .redeem ticket _ _ _ =>
      inferInstanceAs (Decidable (∀ t ∈ r.log.filterMap Logged.ticket?,
        hash ticket = hash t → ticket = t))

end Step

-- What one call leaves of the tickets that were issued and not used: any
-- attempt uses its ticket up.
def useUp (unused : List Issued) : Logged → List Issued
  | .issued i => unused ++ [i]
  | .refused _ => unused
  | .redeemed ticket _ _ _ _ => unused.filter fun i => i.ticket ≠ ticket

def unused (log : List Logged) : List Issued := log.foldl useUp []

-- Whether the ticket has not expired at `now`.
def Issued.live (now : Nat) (i : Issued) : Bool := now < i.issuedAt + LIFETIME

-- Whether call `k` of the log tries the ticket.
def Tries (log : List Logged) (ticket : String) (k : Nat) : Prop :=
  ∃ session origin now result, log[k]? = some (.redeemed ticket session origin now result)

end Lodger.Tickets
