import Mathlib

namespace Lodger.Db

-- The SHA-256 of a session token. The token itself never reaches the database.
abbrev Key := BitVec 256

scoped instance lawfulBEqKey : LawfulBEq Key := inferInstance

-- Times are milliseconds. The tables store ISO 8601 text of that precision,
-- which compares in time order.
def MINUTE : Int := 60000
def IDLE_MINUTES : Int := 60
def ABSOLUTE_HOURS : Int := 24

structure Account where
  id : Nat
  username : String
  passwordHash : String
deriving DecidableEq, Repr

structure SessionRow where
  tokenSha256 : Key
  accountId : Nat
  csrfToken : String
  lastSeenAt : Int
  expiresAt : Int
deriving DecidableEq, Repr

structure NewSession where
  tokenSha256 : Key
  accountId : Nat
  csrfToken : String
deriving DecidableEq, Repr

structure Session where
  accountId : Nat
  username : String
  csrfToken : String
deriving DecidableEq, Repr

inductive Deleted where
  | yes (username : String)
  | noSuchAccount
  | lastAccount
deriving DecidableEq, Repr

-- The constraints of the schema that a session insert can break.
inductive SqlError where
  | primaryKey
  | foreignKey
deriving DecidableEq, Repr

-- The NOCASE collation folds the 26 ASCII letters only.
def nocase (name : String) : String := String.ofList (name.toList.map Char.toLower)

end Lodger.Db

namespace Lodger

open Lodger.Db

-- The two tables with the constraints that SQLite enforces.
structure Db where
  accounts : List Account
  sessions : List SessionRow
  ids : (accounts.map (·.id)).Nodup
  names : (accounts.map fun a => nocase a.username).Nodup
  tokens : (sessions.map (·.tokenSha256)).Nodup
  owners : ∀ row ∈ sessions, row.accountId ∈ accounts.map (·.id)

end Lodger

namespace Lodger.Db

def accountCount (db : Db) : Nat := db.accounts.length

def accountById (db : Db) (id : Nat) : Option Account := db.accounts.find? (·.id = id)

def findAccount (db : Db) (username : String) : Option Account :=
  db.accounts.find? fun a => nocase a.username = nocase username

-- The id that SQLite gives a new row of an INTEGER PRIMARY KEY table without
-- AUTOINCREMENT.
def nextId (accounts : List Account) : Nat := (accounts.map (·.id)).foldr max 0 + 1

theorem lt_nextId {accounts : List Account} {a : Account} (h : a ∈ accounts) :
    a.id < nextId accounts := by
  unfold nextId
  induction accounts with
  | nil => simp at h
  | cons b rest ih =>
      simp only [List.map_cons, List.foldr_cons]
      rcases List.mem_cons.mp h with rfl | h
      · omega
      · have := ih h
        omega

theorem nextId_notMem (accounts : List Account) : nextId accounts ∉ accounts.map (·.id) := by
  intro h
  obtain ⟨a, ha, hid⟩ := List.mem_map.mp h
  have := lt_nextId ha
  omega

-- INSERT INTO accounts, for a name that no row has.
def insertAccount (db : Db) (username passwordHash : String)
    (free : nocase username ∉ db.accounts.map fun a => nocase a.username) : Db where
  accounts := db.accounts ++ [⟨nextId db.accounts, username, passwordHash⟩]
  sessions := db.sessions
  ids := by
    rw [List.map_append, List.nodup_append_comm]
    simpa using ⟨by simpa using nextId_notMem db.accounts, db.ids⟩
  names := by
    rw [List.map_append, List.nodup_append_comm]
    simpa using ⟨by simpa using free, db.names⟩
  tokens := db.tokens
  owners row h := by
    rw [List.map_append, List.mem_append]
    exact .inl (db.owners row h)

-- DELETE FROM accounts, which takes the sessions of the row with it.
def removeAccount (db : Db) (id : Nat) : Db where
  accounts := db.accounts.filter (·.id ≠ id)
  sessions := db.sessions.filter (·.accountId ≠ id)
  ids := db.ids.sublist (List.filter_sublist.map _)
  names := db.names.sublist (List.filter_sublist.map _)
  tokens := db.tokens.sublist (List.filter_sublist.map _)
  owners row h := by
    obtain ⟨hrow, hid⟩ := List.mem_filter.mp h
    obtain ⟨a, ha, heq⟩ := List.mem_map.mp (db.owners row hrow)
    exact List.mem_map.mpr ⟨a, List.mem_filter.mpr ⟨ha, by simpa [heq] using hid⟩, heq⟩

def withHash (id : Nat) (passwordHash : String) (a : Account) : Account :=
  if a.id = id then { a with passwordHash } else a

@[simp] theorem withHash_id (id : Nat) (passwordHash : String) (a : Account) :
    (withHash id passwordHash a).id = a.id := by
  unfold withHash
  split <;> rfl

@[simp] theorem withHash_username (id : Nat) (passwordHash : String) (a : Account) :
    (withHash id passwordHash a).username = a.username := by
  unfold withHash
  split <;> rfl

-- UPDATE accounts SET password_hash.
def updateHash (db : Db) (id : Nat) (passwordHash : String) : Db where
  accounts := db.accounts.map (withHash id passwordHash)
  sessions := db.sessions
  ids := by simpa [Function.comp_def] using db.ids
  names := by simpa [Function.comp_def] using db.names
  tokens := db.tokens
  owners := by simpa [Function.comp_def] using db.owners

-- DELETE FROM sessions: the rows that meet `keep` stay.
def keepSessions (db : Db) (keep : SessionRow → Bool) : Db where
  accounts := db.accounts
  sessions := db.sessions.filter keep
  ids := db.ids
  names := db.names
  tokens := db.tokens.sublist (List.filter_sublist.map _)
  owners row h := db.owners row (List.mem_filter.mp h).1

def seenAt (key : Key) (now : Int) (row : SessionRow) : SessionRow :=
  if row.tokenSha256 = key ∧ row.lastSeenAt < now - MINUTE then { row with lastSeenAt := now }
  else row

@[simp] theorem seenAt_tokenSha256 (key : Key) (now : Int) (row : SessionRow) :
    (seenAt key now row).tokenSha256 = row.tokenSha256 := by
  unfold seenAt
  split <;> rfl

@[simp] theorem seenAt_accountId (key : Key) (now : Int) (row : SessionRow) :
    (seenAt key now row).accountId = row.accountId := by
  unfold seenAt
  split <;> rfl

-- UPDATE sessions SET last_seen_at, recorded at most once a minute.
def touch (db : Db) (key : Key) (now : Int) : Db where
  accounts := db.accounts
  sessions := db.sessions.map (seenAt key now)
  ids := db.ids
  names := db.names
  tokens := by simpa [Function.comp_def] using db.tokens
  owners row h := by
    obtain ⟨old, hold, rfl⟩ := List.mem_map.mp h
    simpa using db.owners old hold

def NewSession.row (new : NewSession) (now : Int) : SessionRow where
  tokenSha256 := new.tokenSha256
  accountId := new.accountId
  csrfToken := new.csrfToken
  lastSeenAt := now
  expiresAt := now + ABSOLUTE_HOURS * 60 * MINUTE

def insertSession (db : Db) (new : NewSession) (now : Int) : Except SqlError Db :=
  if fresh : new.tokenSha256 ∈ db.sessions.map (·.tokenSha256) then .error .primaryKey
  else if owned : new.accountId ∈ db.accounts.map (·.id) then
    .ok {
      accounts := db.accounts
      sessions := db.sessions ++ [new.row now]
      ids := db.ids
      names := db.names
      tokens := by
        rw [List.map_append, List.nodup_append_comm]
        simpa [NewSession.row] using ⟨by simpa using fresh, db.tokens⟩
      owners := by
        intro row h
        rcases List.mem_append.mp h with h | h
        · exact db.owners row h
        · rw [List.mem_singleton.mp h]
          exact owned }
  else .error .foreignKey

def createFirstAccount (db : Db) (username passwordHash : String) : Bool × Db :=
  if empty : db.accounts = [] then (true, db.insertAccount username passwordHash (by simp [empty]))
  else (false, db)

def createAccount (db : Db) (username passwordHash : String) : Option Nat × Db :=
  if taken : nocase username ∈ db.accounts.map fun a => nocase a.username then (none, db)
  else (some (nextId db.accounts), db.insertAccount username passwordHash (by exact taken))

def deleteAccount (db : Db) (id : Nat) : Deleted × Db :=
  match db.accountById id with
  | none => (.noSuchAccount, db)
  | some a =>
      if db.accountCount ≤ 1 then (.lastAccount, db)
      else (.yes a.username, db.removeAccount id)

-- One transaction: a failed insert rolls the whole change back.
def changePassword (db : Db) (accountId : Nat) (passwordHash : String) (current : Key)
    (new : NewSession) (now : Int) : Except SqlError Nat × Db :=
  let updated := db.updateHash accountId passwordHash
  let others := updated.keepSessions
    fun row => decide ¬(row.accountId = accountId ∧ row.tokenSha256 ≠ current)
  match (others.keepSessions (·.tokenSha256 ≠ current)).insertSession new now with
  | .ok db' => (.ok (updated.sessions.length - others.sessions.length), db')
  | .error e => (.error e, db)

def resetPassword (db : Db) (username passwordHash : String) : Option Nat × Db :=
  match db.findAccount username with
  | none => (none, db)
  | some a =>
      let updated := db.updateHash a.id passwordHash
      let ended := updated.keepSessions (·.accountId ≠ a.id)
      (some (updated.sessions.length - ended.sessions.length), ended)

def live (now : Int) (row : SessionRow) : Bool :=
  now < row.expiresAt && now - IDLE_MINUTES * MINUTE < row.lastSeenAt

-- The rows that ended go first, also when the insert then fails.
def createSession (db : Db) (new : NewSession) (now : Int) : Except SqlError Unit × Db :=
  let swept := db.keepSessions (live now)
  match swept.insertSession new now with
  | .ok db' => (.ok (), db')
  | .error e => (.error e, swept)

def session (db : Db) (key : Key) (now : Int) : Option Session × Db :=
  match db.sessions.find? fun row => row.tokenSha256 = key && live now row with
  | none => (none, db)
  | some row =>
      match db.accountById row.accountId with
      | none => (none, db)
      | some a => (some ⟨row.accountId, a.username, row.csrfToken⟩, db.touch key now)

def sessionAlive (db : Db) (key : Key) (now : Int) : Bool :=
  db.sessions.any fun row => row.tokenSha256 = key && live now row

def deleteSession (db : Db) (key : Key) : Db := db.keepSessions (·.tokenSha256 ≠ key)

end Lodger.Db
