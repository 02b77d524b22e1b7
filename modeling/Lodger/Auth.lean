import Lodger.Db
import Lodger.Lib.Machine

namespace Lodger.Auth

open Lodger.Db

-- What the handlers use of argon2 (`passwords::verify`) and of `lodger_core`
-- (the password policy and `Name::parse`).
structure Rules where
  verify : String → String → Bool
  passwordOk : String → Bool
  nameOk : String → Bool

inductive Answer where
  | ok
  | created
  | noContent
  | badRequest
  | unauthorized
  | forbidden
  | notFound
  | conflict
  | unprocessable
  | tooManyRequests
  | internalServerError
deriving DecidableEq, Repr

-- One password of one account. SQLite uses row ids again, so `birth` counts
-- which of the accounts with this id it is.
structure Password where
  id : Nat
  birth : Nat
  hash : String
deriving DecidableEq, Repr

-- An account row as a request read it.
structure Seen where
  account : Account
  birth : Nat
deriving DecidableEq, Repr

def Seen.password (seen : Seen) : Password :=
  ⟨seen.account.id, seen.birth, seen.account.passwordHash⟩

structure Login where
  username : String
  password : String
  cookie : Option Key
deriving DecidableEq, Repr

-- The routes behind `require_session` that write to the two tables.
inductive Handler where
  | logout
  | create (username password : String)
  | delete (id : Nat)
  | changePassword (current new : String)
deriving DecidableEq, Repr

-- A request between two database calls. The name says what comes next.
inductive Request where
  | login (l : Login)
  | loginFound (l : Login) (seen : Option Seen)
  | loginVerified (l : Login) (seen : Seen)
  | loginReady (seen : Seen)
  | guarded (key : Key) (csrf : Option String) (handler : Handler)
  | logout (key : Key)
  | create (username password : String)
  | delete (id : Nat)
  | change (session : Session) (key : Key) (current new : String)
  | changeFound (seen : Seen) (key : Key) (current new : String)
  | changeVerified (seen : Seen) (key : Key) (new : String)
  | answered (answer : Answer)
deriving DecidableEq, Repr

-- The database, and beside it what no table keeps: how many accounts had each
-- id, which password a login session was given for, which passwords a change
-- or a reset replaced, and every hash and session key made so far.
structure Site where
  db : Db
  births : Nat → Nat
  grants : Key → Option Password
  retired : List Password
  hashes : List String
  keys : List Key

def Site.see (site : Site) (a : Account) : Seen := ⟨a, site.births a.id⟩

def Site.login (site : Site) (seen : Seen) (new : NewSession) (now : Int) :
    Except SqlError Unit × Site :=
  match site.db.createSession new now with
  | (.ok (), db) => (.ok (), { site with
      db
      grants := Function.update site.grants new.tokenSha256 (some seen.password)
      keys := new.tokenSha256 :: site.keys })
  | (.error e, db) => (.error e, { site with db, keys := new.tokenSha256 :: site.keys })

def Site.changePassword (site : Site) (accountId : Nat) (passwordHash : String) (current : Key)
    (new : NewSession) (now : Int) : Except SqlError Nat × Site :=
  match site.db.changePassword accountId passwordHash current new now with
  | (.ok ended, db) => (.ok ended, { site with
      db
      grants := Function.update site.grants new.tokenSha256 none
      retired := (site.db.accountById accountId).toList.map (site.see · |>.password) ++ site.retired
      hashes := passwordHash :: site.hashes
      keys := new.tokenSha256 :: site.keys })
  | (.error e, db) => (.error e, { site with
      db
      hashes := passwordHash :: site.hashes
      keys := new.tokenSha256 :: site.keys })

def Site.resetPassword (site : Site) (username passwordHash : String) : Option Nat × Site :=
  match site.db.resetPassword username passwordHash with
  | (ended, db) => (ended, { site with
      db
      retired := (site.db.findAccount username).toList.map (site.see · |>.password) ++ site.retired
      hashes := passwordHash :: site.hashes })

def Site.createAccount (site : Site) (username passwordHash : String) : Option Nat × Site :=
  match site.db.createAccount username passwordHash with
  | (some id, db) => (some id, { site with
      db
      births := Function.update site.births id (site.births id + 1)
      hashes := passwordHash :: site.hashes })
  | (none, db) => (none, { site with db, hashes := passwordHash :: site.hashes })

-- What getrandom and argon2 give to one step.
structure Draw where
  key : Key
  csrf : String
  hash : String
deriving DecidableEq, Repr

-- A new hash has a fresh salt, and it verifies the password it was made from.
def Site.mayHash (site : Site) (rules : Rules) (password hash : String) : Bool :=
  hash ∉ site.hashes && rules.verify password hash

-- What the handler does before its first database call.
def Handler.start (rules : Rules) (key : Key) (session : Session) : Handler → Request
  | .logout => .logout key
  | .create username password =>
      if rules.nameOk username && rules.passwordOk password then .create username password
      else .answered .unprocessable
  | .delete id => .delete id
  | .changePassword current new =>
      if rules.passwordOk new then .change session key current new else .answered .unprocessable

-- One database call of a request, or one argon2 run between two of them.
-- `none` means that argon2 or getrandom cannot give this draw.
def Request.next (rules : Rules) (site : Site) (draw : Draw) (now : Int) :
    Request → Option (Site × Request)
  | .login l => some (site, .loginFound l ((site.db.findAccount l.username).map site.see))
  | .loginFound l (some seen) =>
      if rules.verify l.password seen.account.passwordHash then some (site, .loginVerified l seen)
      else some (site, .answered .unauthorized)
  -- `verify_nobody` always fails.
  | .loginFound _ none => some (site, .answered .unauthorized)
  | .loginVerified l seen =>
      match l.cookie with
      | some old => some ({ site with db := site.db.deleteSession old }, .loginReady seen)
      | none => some (site, .loginReady seen)
  | .loginReady seen =>
      if draw.key ∈ site.keys then none
      else
        match site.login seen ⟨draw.key, seen.account.id, draw.csrf⟩ now with
        | (.ok (), site') => some (site', .answered .ok)
        | (.error _, site') => some (site', .answered .internalServerError)
  | .guarded key csrf handler =>
      match site.db.session key now with
      | (none, db) => some ({ site with db }, .answered .unauthorized)
      | (some session, db) =>
          if csrf = some session.csrfToken then
            some ({ site with db }, handler.start rules key session)
          else some ({ site with db }, .answered .forbidden)
  | .logout key => some ({ site with db := site.db.deleteSession key }, .answered .noContent)
  | .create username password =>
      if site.mayHash rules password draw.hash then
        match site.createAccount username draw.hash with
        | (some _, site') => some (site', .answered .created)
        | (none, site') => some (site', .answered .conflict)
      else none
  | .delete id =>
      match site.db.deleteAccount id with
      | (.yes _, db) => some ({ site with db }, .answered .noContent)
      | (.noSuchAccount, db) => some ({ site with db }, .answered .notFound)
      | (.lastAccount, db) => some ({ site with db }, .answered .conflict)
  | .change session key current new =>
      match site.db.accountById session.accountId with
      | none => some (site, .answered .unauthorized)
      | some a => some (site, .changeFound (site.see a) key current new)
  | .changeFound seen key current new =>
      if rules.verify current seen.account.passwordHash then some (site, .changeVerified seen key new)
      else some (site, .answered .forbidden)
  | .changeVerified seen key new =>
      if site.mayHash rules new draw.hash && draw.key ∉ site.keys then
        match site.changePassword seen.account.id draw.hash key
            ⟨draw.key, seen.account.id, draw.csrf⟩ now with
        | (.ok _, site') => some (site', .answered .ok)
        | (.error _, site') => some (site', .answered .internalServerError)
      else none
  | .answered _ => none

structure State where
  site : Site
  requests : List Request

inductive Action where
  | login (l : Login)
  | request (key : Key) (csrf : Option String) (handler : Handler)
  | advance (i : Nat) (draw : Draw) (now : Int)
  -- The throttle, a bad body, a closed connection or a failed database call
  -- ends the request.
  | abandon (i : Nat) (answer : Answer)
  -- `lodger admin`, in its own process.
  | adminReset (username password hash : String)
  | adminCreate (username password hash : String)
deriving DecidableEq, Repr

def step (rules : Rules) (s : State) : Action → Option State
  | .login l => some { s with requests := s.requests ++ [.login l] }
  | .request key csrf handler =>
      some { s with requests := s.requests ++ [.guarded key csrf handler] }
  | .advance i draw now =>
      s.requests[i]?.bind fun r => (r.next rules s.site draw now).map fun (site, r') =>
        { site, requests := s.requests.set i r' }
  | .abandon i answer =>
      if i < s.requests.length then some { s with requests := s.requests.set i (.answered answer) }
      else none
  | .adminReset username password hash =>
      if rules.passwordOk password && s.site.mayHash rules password hash then
        some { s with site := (s.site.resetPassword username hash).2 }
      else none
  | .adminCreate username password hash =>
      if rules.passwordOk password && s.site.mayHash rules password hash then
        some { s with site := (s.site.createAccount username hash).2 }
      else none

-- A start of the service on a database that has been in use: every session in
-- it counts as given for the password that its account has now.
def start (db : Db) : State where
  site := {
    db
    births := fun _ => 0
    grants := fun key => (db.sessions.find? (·.tokenSha256 = key)).bind fun row =>
      (db.accountById row.accountId).map fun a => ⟨a.id, 0, a.passwordHash⟩
    retired := []
    hashes := db.accounts.map (·.passwordHash)
    keys := db.sessions.map (·.tokenSha256) }
  requests := []

end Lodger.Auth
