import Lodger.Auth
import Lodger.Tickets

namespace Lodger.Setup

open Lodger.Db Lodger.Auth Lodger.Tickets

-- Instants and durations are numbers of nanoseconds.
def TOKEN_LIFETIME : Nat := 60 * 60 * 1000000000

structure SetupToken where
  hash : Sha256
  expires : Nat
deriving DecidableEq, Repr

-- `char::is_whitespace`: the White_Space property.
def isWhitespace (c : Char) : Bool :=
  let n := c.toNat
  (0x9 ≤ n && n ≤ 0xd) || n = 0x20 || n = 0x85 || n = 0xa0 || n = 0x1680 ||
    (0x2000 ≤ n && n ≤ 0x200a) || n = 0x2028 || n = 0x2029 || n = 0x202f || n = 0x205f || n = 0x3000

def trim (text : String) : String :=
  String.ofList ((text.toList.dropWhile isWhitespace).reverse.dropWhile isWhitespace).reverse

structure Claim where
  token : String
  username : String
  password : String
deriving DecidableEq, Repr

-- A claim between two steps. The name says what was done last. A claim whose
-- client is gone is orphaned while its database call still runs.
inductive Request where
  | received (body : Option Claim)
  | read (claim : Claim)
  | checked (claim : Claim)
  | hashed (username hash : String)
  | committed (username : String)
  | closed (username : String)
  | answered (answer : Answer)
  | orphaned (username hash : String)
  | dropped
deriving DecidableEq, Repr

-- An account route whose request passed the session check and its own rules.
inductive Web where
  | create (username hash : String)
  | delete (id : Nat)
  | done
deriving DecidableEq, Repr

-- The service process: not running, between the count and the token of
-- `open_setup`, or serving.
inductive Service where
  | down
  | counted (accounts : Nat)
  | up (setup : Option SetupToken)
deriving DecidableEq, Repr

-- What no table keeps: the starts of the service and what each claim did. A
-- claim is named by its number in the process.
inductive Event where
  | started (setup : Option SetupToken)
  | checked (claim : Nat) (submitted : String) (token : SetupToken) (now : Nat)
  | committed (claim : Nat) (accounts : Nat)
  | answered (claim : Nat) (answer : Answer)
deriving DecidableEq, Repr

structure State where
  db : Db
  service : Service := .down
  claims : List Request := []
  webs : List Web := []
  clock : Nat := 0
  log : List Event := []

inductive Action where
  | stop
  | boot
  | serve (random : Except String (Vector (BitVec 8) 16)) (now : Nat)
  | claim (body : Option Claim)
  | advance (i : Nat) (hash : String) (now : Nat)
  -- argon2 or the database fails.
  | fail (i : Nat)
  -- The client closes its connection.
  | drop (i : Nat)
  | login (new : NewSession) (wall : Int)
  | web (key : Key) (request : Web) (wall : Int)
  | runWeb (i : Nat)
  -- `lodger admin`, in its own process.
  | adminCreate (username hash : String) (now : Nat)
  | adminReset (username hash : String)
deriving DecidableEq

section Step

variable (sha256 : String → Sha256) (rules : Rules)

def SetupToken.generate (bytes : Vector (BitVec 8) 16) (now : Nat) : SetupToken where
  hash := sha256 (encode bytes.toList)
  expires := now + TOKEN_LIFETIME

def SetupToken.matches (token : SetupToken) (submitted : String) : Bool :=
  token.hash = sha256 (trim submitted)

-- `GET /api/setup`.
def State.status (s : State) (now : Nat) : Option Answer :=
  match s.service with
  | .up (some t) => if now < t.expires then some .ok else some .notFound
  | .up none => some .notFound
  | _ => none

-- One step of claim `i`: a lock of the setup state, an argon2 run or a
-- database call. `hash` is what argon2 gives.
def Request.next (i : Nat) (setup : Option SetupToken) (db : Db) (hash : String) (now : Nat) :
    Request → Option (Option SetupToken × Db × Request × List Event)
  | .received body =>
      match setup, body with
      | none, _ => some (setup, db, .answered .notFound, [.answered i .notFound])
      | some _, none => some (setup, db, .answered .unprocessable, [.answered i .unprocessable])
      | some _, some claim => some (setup, db, .read claim, [])
  | .read claim =>
      match setup with
      | none => some (setup, db, .answered .notFound, [.answered i .notFound])
      | some token =>
          if !token.matches sha256 claim.token then
            some (setup, db, .answered .forbidden, [.answered i .forbidden])
          else if token.expires ≤ now then
            some (setup, db, .answered .forbidden, [.answered i .forbidden])
          else some (setup, db, .checked claim, [.checked i claim.token token now])
  | .checked claim =>
      if rules.nameOk claim.username && rules.passwordOk claim.password then
        some (setup, db, .hashed claim.username hash, [])
      else some (setup, db, .answered .unprocessable, [.answered i .unprocessable])
  | .hashed username hash =>
      match db.createFirstAccount username hash with
      | (true, db') => some (setup, db', .committed username, [.committed i db.accountCount])
      | (false, db') => some (setup, db', .answered .notFound, [.answered i .notFound])
  | .committed username => some (none, db, .closed username, [])
  | .closed _ => some (setup, db, .answered .created, [.answered i .created])
  | .answered _ => none
  -- Nobody waits for the result of the call, so setup stays as it is.
  | .orphaned username hash =>
      match db.createFirstAccount username hash with
      | (true, db') => some (setup, db', .dropped, [.committed i db.accountCount])
      | (false, db') => some (setup, db', .dropped, [])
  | .dropped => none

-- The server drops the handler of a client that is gone at the await where it
-- stands. `spawn_blocking` runs what it was given all the same.
def Request.drop : Request → Option Request
  | .hashed username hash => some (.orphaned username hash)
  | .answered _ | .orphaned .. | .dropped => none
  | _ => some .dropped

def Web.run (db : Db) : Web → Db
  | .create username hash => (db.createAccount username hash).2
  | .delete id => (db.deleteAccount id).2
  | .done => db

def Request.mayFail : Request → Bool
  | .checked _ => true
  | .hashed .. => true
  | _ => false

-- The clock never goes back, and a process that stops takes its requests
-- with it.
def step (s : State) : Action → Option State
  | .stop => some { s with service := .down, claims := [], webs := [] }
  | .boot =>
      match s.service with
      | .down => some { s with service := .counted s.db.accountCount }
      | _ => none
  | .serve random now =>
      if s.clock ≤ now then
        match s.service, random with
        | .counted (_ + 1), _ => some { s with
            service := .up none, clock := now, log := s.log ++ [.started none] }
        | .counted 0, .ok bytes =>
            let token := SetupToken.generate sha256 bytes now
            some { s with
              service := .up (some token), clock := now, log := s.log ++ [.started (some token)] }
        | .counted 0, .error _ => some { s with service := .down, clock := now }
        | _, _ => none
      else none
  | .claim body =>
      match s.service with
      | .up _ => some { s with claims := s.claims ++ [.received body] }
      | _ => none
  | .advance i hash now =>
      if s.clock ≤ now then
        match s.service with
        | .up setup => s.claims[i]?.bind fun r =>
            (r.next sha256 rules i setup s.db hash now).map fun (setup', db, r', events) =>
              { s with
                db, service := .up setup', claims := s.claims.set i r', clock := now,
                log := s.log ++ events }
        | _ => none
      else none
  | .fail i =>
      match s.claims[i]? with
      | some r =>
          if r.mayFail then some { s with
            claims := s.claims.set i (.answered .internalServerError)
            log := s.log ++ [.answered i .internalServerError] }
          else none
      | none => none
  | .drop i => (s.claims[i]?.bind Request.drop).map fun r =>
      { s with claims := s.claims.set i r }
  | .login new wall =>
      match s.service with
      | .up _ => some { s with db := (s.db.createSession new wall).2 }
      | _ => none
  | .web key request wall =>
      match s.service, s.db.session key wall with
      | .up _, (some _, db) => some { s with db, webs := s.webs ++ [request] }
      | .up _, (none, db) => some { s with db }
      | _, _ => none
  | .runWeb i => s.webs[i]?.map fun w => { s with db := w.run s.db, webs := s.webs.set i .done }
  | .adminCreate username hash now =>
      if s.clock ≤ now then some { s with db := (s.db.createAccount username hash).2, clock := now }
      else none
  | .adminReset username hash => some { s with db := (s.db.resetPassword username hash).2 }

end Step

-- The claim is between its commit and its answer, which it will still give.
def Request.between : Request → Bool
  | .committed _ => true
  | .closed _ => true
  | _ => false

end Lodger.Setup
