import Lodger.Db.Lemmas
import Lodger.Lib.Calendar

namespace Lodger.Db.Text

open Lodger.Lib.Calendar

-- The tables as SQLite keeps them: every time is the text that strftime writes,
-- and the statements compare texts. `now` is the clock in milliseconds.

structure Row where
  tokenSha256 : Key
  accountId : Nat
  csrfToken : String
  lastSeenAt : String
  expiresAt : String
deriving DecidableEq, Repr

structure Tables where
  accounts : List Account
  sessions : List Row

def NOW (now : Int) : String := iso8601 now
def IDLE_CUTOFF (now : Int) : String := iso8601 (now - IDLE_MINUTES * MINUTE)

namespace Tables

def accountById (t : Tables) (id : Nat) : Option Account := t.accounts.find? (·.id = id)

def findAccount (t : Tables) (username : String) : Option Account :=
  t.accounts.find? fun a => nocase a.username = nocase username

def insertSession (t : Tables) (new : NewSession) (now : Int) : Except SqlError Tables :=
  if new.tokenSha256 ∈ t.sessions.map (·.tokenSha256) then .error .primaryKey
  else if new.accountId ∈ t.accounts.map (·.id) then
    .ok { t with sessions := t.sessions ++ [{
      tokenSha256 := new.tokenSha256
      accountId := new.accountId
      csrfToken := new.csrfToken
      lastSeenAt := NOW now
      expiresAt := iso8601 (now + ABSOLUTE_HOURS * 60 * MINUTE) }] }
  else .error .foreignKey

def createSession (t : Tables) (new : NewSession) (now : Int) : Except SqlError Unit × Tables :=
  let swept := { t with sessions := t.sessions.filter fun row =>
    !(row.expiresAt ≤ NOW now || row.lastSeenAt ≤ IDLE_CUTOFF now) }
  match swept.insertSession new now with
  | .ok t' => (.ok (), t')
  | .error e => (.error e, swept)

def session (t : Tables) (key : Key) (now : Int) : Option Session × Tables :=
  match t.sessions.find? fun row => row.tokenSha256 = key &&
      (row.expiresAt > NOW now && row.lastSeenAt > IDLE_CUTOFF now) with
  | none => (none, t)
  | some row =>
      match t.accountById row.accountId with
      | none => (none, t)
      | some a => (some ⟨row.accountId, a.username, row.csrfToken⟩,
          { t with sessions := t.sessions.map fun row =>
              if row.tokenSha256 = key ∧ row.lastSeenAt < iso8601 (now - MINUTE) then
                { row with lastSeenAt := NOW now }
              else row })

def sessionAlive (t : Tables) (key : Key) (now : Int) : Bool :=
  t.sessions.any fun row => row.tokenSha256 = key &&
    (row.expiresAt > NOW now && row.lastSeenAt > IDLE_CUTOFF now)

def deleteSession (t : Tables) (key : Key) : Tables :=
  { t with sessions := t.sessions.filter (·.tokenSha256 ≠ key) }

def changePassword (t : Tables) (accountId : Nat) (passwordHash : String) (current : Key)
    (new : NewSession) (now : Int) : Except SqlError Nat × Tables :=
  let others := t.sessions.filter
    fun row => decide ¬(row.accountId = accountId ∧ row.tokenSha256 ≠ current)
  let changed : Tables := {
    accounts := t.accounts.map (withHash accountId passwordHash)
    sessions := others.filter (·.tokenSha256 ≠ current) }
  match changed.insertSession new now with
  | .ok t' => (.ok (t.sessions.length - others.length), t')
  | .error e => (.error e, t)

def resetPassword (t : Tables) (username passwordHash : String) : Option Nat × Tables :=
  match t.findAccount username with
  | none => (none, t)
  | some a =>
      let kept := t.sessions.filter (·.accountId ≠ a.id)
      (some (t.sessions.length - kept.length),
        { accounts := t.accounts.map (withHash a.id passwordHash), sessions := kept })

def createAccount (t : Tables) (username passwordHash : String) : Option Nat × Tables :=
  if nocase username ∈ t.accounts.map fun a => nocase a.username then (none, t)
  else (some (nextId t.accounts),
    { t with accounts := t.accounts ++ [⟨nextId t.accounts, username, passwordHash⟩] })

def deleteAccount (t : Tables) (id : Nat) : Deleted × Tables :=
  match t.accountById id with
  | none => (.noSuchAccount, t)
  | some a =>
      if t.accounts.length ≤ 1 then (.lastAccount, t)
      else (.yes a.username, {
        accounts := t.accounts.filter (·.id ≠ id)
        sessions := t.sessions.filter (·.accountId ≠ id) })

end Tables

end Lodger.Db.Text

namespace Lodger.Db

open Lodger.Lib.Calendar Lodger.Db.Text

-- The same tables, with the times as texts.
def SessionRow.text (row : SessionRow) : Row where
  tokenSha256 := row.tokenSha256
  accountId := row.accountId
  csrfToken := row.csrfToken
  lastSeenAt := iso8601 row.lastSeenAt
  expiresAt := iso8601 row.expiresAt

def texts (db : Db) : Tables := ⟨db.accounts, db.sessions.map SessionRow.text⟩

-- The years 0000 to 9999.
def Dated (t : Int) : Prop := FIRST ≤ t ∧ t ≤ LAST

-- Every time that a call at `now` writes or compares is in these years.
def InYears (now : Int) : Prop :=
  Dated (now - IDLE_MINUTES * MINUTE) ∧ Dated (now + ABSOLUTE_HOURS * 60 * MINUTE)

instance (now : Int) : Decidable (InYears now) :=
  inferInstanceAs (Decidable ((_ ∧ _) ∧ (_ ∧ _)))

def DatedRows (db : Db) : Prop :=
  ∀ row ∈ db.sessions, Dated row.lastSeenAt ∧ Dated row.expiresAt

section Refinement

variable {db : Db} {now : Int}

theorem InYears.dated (h : InYears now) : Dated now := by
  simp only [InYears, Dated, IDLE_MINUTES, ABSOLUTE_HOURS, MINUTE] at *
  omega

theorem InYears.minuteAgo (h : InYears now) : Dated (now - MINUTE) := by
  simp only [InYears, Dated, IDLE_MINUTES, ABSOLUTE_HOURS, MINUTE] at *
  omega

theorem iso8601_lt {s t : Int} (hs : Dated s) (ht : Dated t) : iso8601 s < iso8601 t ↔ s < t :=
  iso8601_lt_iff hs.1 hs.2 ht.1 ht.2

theorem iso8601_le {s t : Int} (hs : Dated s) (ht : Dated t) : iso8601 s ≤ iso8601 t ↔ s ≤ t := by
  rw [← not_lt, ← not_lt, iso8601_lt ht hs]

-- The rule of the two queries and the rule of the clean-up are both `live`.
theorem live_text (h : InYears now) {row : SessionRow}
    (hrow : Dated row.lastSeenAt ∧ Dated row.expiresAt) :
    (row.text.expiresAt > NOW now && row.text.lastSeenAt > IDLE_CUTOFF now) = live now row := by
  have hexpires : row.text.expiresAt > NOW now ↔ now < row.expiresAt := iso8601_lt h.dated hrow.2
  have hseen : row.text.lastSeenAt > IDLE_CUTOFF now ↔
      now - IDLE_MINUTES * MINUTE < row.lastSeenAt := iso8601_lt h.1 hrow.1
  simp only [hexpires, hseen, live]

theorem ended_text (h : InYears now) {row : SessionRow}
    (hrow : Dated row.lastSeenAt ∧ Dated row.expiresAt) :
    (!(row.text.expiresAt ≤ NOW now || row.text.lastSeenAt ≤ IDLE_CUTOFF now)) = live now row := by
  have hexpires : row.text.expiresAt ≤ NOW now ↔ row.expiresAt ≤ now := iso8601_le hrow.2 h.dated
  have hseen : row.text.lastSeenAt ≤ IDLE_CUTOFF now ↔
      row.lastSeenAt ≤ now - IDLE_MINUTES * MINUTE := iso8601_le hrow.1 h.1
  simp only [hexpires, hseen, live, Bool.not_or]
  simp only [← decide_not, not_le]

-- Each call on the texts gives what the call on the times gives.

theorem sessions_texts_filter (db : Db) (p : Row → Bool) (q : SessionRow → Bool)
    (h : ∀ row ∈ db.sessions, p row.text = q row) :
    (db.sessions.map SessionRow.text).filter p = (db.sessions.filter q).map SessionRow.text := by
  rw [List.filter_map]
  congr 1
  exact List.filter_congr h

theorem insertSession_texts (db : Db) (new : NewSession) (now : Int) :
    db.texts.insertSession new now = (db.insertSession new now).map texts := by
  have hkeys : db.texts.sessions.map (·.tokenSha256) = db.sessions.map (·.tokenSha256) := by
    simp [texts, SessionRow.text, Function.comp_def]
  by_cases hkey : new.tokenSha256 ∈ db.sessions.map (·.tokenSha256)
  · simp only [Tables.insertSession, hkeys, insertSession, hkey, if_true, dif_pos, Except.map]
  · by_cases howned : new.accountId ∈ db.accounts.map (·.id)
    · have hrow : (new.row now).text = ⟨new.tokenSha256, new.accountId, new.csrfToken, NOW now,
          iso8601 (now + ABSOLUTE_HOURS * 60 * MINUTE)⟩ := rfl
      have howned' : new.accountId ∈ db.texts.accounts.map (·.id) := howned
      simp only [Tables.insertSession, hkeys, insertSession, hkey, howned, howned', if_true,
        if_false, dif_pos, dif_neg, not_false_eq_true, Except.map]
      simp only [texts, List.map_append, List.map_cons, List.map_nil, hrow]
    · have howned' : new.accountId ∉ db.texts.accounts.map (·.id) := howned
      simp only [Tables.insertSession, hkeys, insertSession, hkey, howned, howned', if_false,
        dif_neg, not_false_eq_true, Except.map]

theorem createSession_texts (hdb : DatedRows db) (hnow : InYears now) (new : NewSession) :
    db.texts.createSession new now =
      ((db.createSession new now).1, (db.createSession new now).2.texts) := by
  have hswept : { db.texts with sessions := db.texts.sessions.filter fun row =>
      !(row.expiresAt ≤ NOW now || row.lastSeenAt ≤ IDLE_CUTOFF now) } =
      (db.keepSessions (live now)).texts := by
    simp only [texts, Tables.mk.injEq, accounts_keepSessions, sessions_keepSessions, true_and]
    exact sessions_texts_filter db _ _ fun row hrow => ended_text hnow (hdb row hrow)
  simp only [Tables.createSession, hswept, insertSession_texts, createSession]
  cases (db.keepSessions (live now)).insertSession new now with
  | ok db' => rfl
  | error e => rfl

theorem seenAt_text (hnow : InYears now) (key : Key) {row : SessionRow}
    (hrow : Dated row.lastSeenAt) :
    (if row.text.tokenSha256 = key ∧ row.text.lastSeenAt < iso8601 (now - MINUTE) then
      { row.text with lastSeenAt := NOW now } else row.text) = (seenAt key now row).text := by
  have hseen : row.text.lastSeenAt < iso8601 (now - MINUTE) ↔ row.lastSeenAt < now - MINUTE :=
    iso8601_lt hrow hnow.minuteAgo
  have hkey : row.text.tokenSha256 = row.tokenSha256 := rfl
  by_cases hold : row.tokenSha256 = key ∧ row.lastSeenAt < now - MINUTE
  · simp only [hseen, hkey, seenAt, hold, and_self, if_true]
    rfl
  · simp only [hseen, hkey, seenAt, hold, if_false]

theorem session_texts (hdb : DatedRows db) (hnow : InYears now) (key : Key) :
    db.texts.session key now = ((db.session key now).1, (db.session key now).2.texts) := by
  have hfind : (db.texts.sessions.find? fun row => row.tokenSha256 = key &&
      (row.expiresAt > NOW now && row.lastSeenAt > IDLE_CUTOFF now)) =
      (db.sessions.find? fun row => row.tokenSha256 = key && live now row).map SessionRow.text := by
    simp only [texts, List.find?_map]
    congr 1
    apply List.find?_congr
    intro row hrow
    simp only [Function.comp_apply, live_text hnow (hdb row hrow)]
    rfl
  have htouch : { db.texts with sessions := db.texts.sessions.map fun row =>
      if row.tokenSha256 = key ∧ row.lastSeenAt < iso8601 (now - MINUTE) then
        { row with lastSeenAt := NOW now } else row } = (db.touch key now).texts := by
    simp only [texts, Tables.mk.injEq, accounts_touch, sessions_touch, List.map_map, true_and]
    exact List.map_congr_left fun row hrow => seenAt_text hnow key (hdb row hrow).1
  simp only [Tables.session, hfind, htouch, session]
  cases db.sessions.find? fun row => row.tokenSha256 = key && live now row with
  | none => rfl
  | some row =>
      have haccount : db.texts.accountById row.text.accountId = db.accountById row.accountId := rfl
      simp only [Option.map_some, haccount]
      cases db.accountById row.accountId with
      | none => rfl
      | some a => rfl

theorem sessionAlive_texts (hdb : DatedRows db) (hnow : InYears now) (key : Key) :
    db.texts.sessionAlive key now = db.sessionAlive key now := by
  simp only [Tables.sessionAlive, sessionAlive, texts, List.any_map]
  rw [Bool.eq_iff_iff, List.any_eq_true, List.any_eq_true]
  have hrow : ∀ row ∈ db.sessions, ((fun row : Row => row.tokenSha256 = key &&
      (row.expiresAt > NOW now && row.lastSeenAt > IDLE_CUTOFF now)) ∘ SessionRow.text) row =
      (row.tokenSha256 = key && live now row) := by
    intro row hrow
    simp only [Function.comp_apply, live_text hnow (hdb row hrow)]
    rfl
  constructor
  · rintro ⟨row, hmem, h⟩
    exact ⟨row, hmem, by rwa [hrow row hmem] at h⟩
  · rintro ⟨row, hmem, h⟩
    exact ⟨row, hmem, by rwa [hrow row hmem]⟩

theorem deleteSession_texts (db : Db) (key : Key) :
    db.texts.deleteSession key = (db.deleteSession key).texts := by
  simp only [Tables.deleteSession, texts, deleteSession, Tables.mk.injEq, accounts_keepSessions,
    sessions_keepSessions, true_and]
  exact sessions_texts_filter db _ _ fun row _ => rfl

theorem changePassword_texts (db : Db) (accountId : Nat) (hash : String) (current : Key)
    (new : NewSession) (now : Int) :
    db.texts.changePassword accountId hash current new now =
      ((db.changePassword accountId hash current new now).1,
        (db.changePassword accountId hash current new now).2.texts) := by
  let updated := db.updateHash accountId hash
  let others := updated.keepSessions
    fun row => decide ¬(row.accountId = accountId ∧ row.tokenSha256 ≠ current)
  have hothers : (db.texts.sessions.filter
      fun row => decide ¬(row.accountId = accountId ∧ row.tokenSha256 ≠ current)) =
      others.sessions.map SessionRow.text := sessions_texts_filter updated _ _ fun row _ => rfl
  have hkept : (others.sessions.map SessionRow.text).filter (·.tokenSha256 ≠ current) =
      (others.keepSessions (·.tokenSha256 ≠ current)).sessions.map SessionRow.text :=
    sessions_texts_filter others _ _ fun row _ => rfl
  have hlength : db.texts.sessions.length = updated.sessions.length := by simp [texts, updated]
  have hchanged : (⟨db.texts.accounts.map (withHash accountId hash),
      (others.keepSessions (·.tokenSha256 ≠ current)).sessions.map SessionRow.text⟩ : Tables) =
      (others.keepSessions (·.tokenSha256 ≠ current)).texts := rfl
  simp only [Tables.changePassword, hothers, hkept, hlength, List.length_map, hchanged,
    insertSession_texts, changePassword]
  cases (others.keepSessions (·.tokenSha256 ≠ current)).insertSession new now with
  | ok db' => rfl
  | error e => rfl

theorem resetPassword_texts (db : Db) (username hash : String) :
    db.texts.resetPassword username hash =
      ((db.resetPassword username hash).1, (db.resetPassword username hash).2.texts) := by
  have hfind : db.texts.findAccount username = db.findAccount username := rfl
  simp only [Tables.resetPassword, hfind, resetPassword]
  cases db.findAccount username with
  | none => rfl
  | some a =>
      have hkept : db.texts.sessions.filter (·.accountId ≠ a.id) =
          (db.sessions.filter (·.accountId ≠ a.id)).map SessionRow.text :=
        sessions_texts_filter db _ _ fun row _ => rfl
      simp only [hkept, List.length_map]
      simp [texts]

theorem createAccount_texts (db : Db) (username hash : String) :
    db.texts.createAccount username hash =
      ((db.createAccount username hash).1, (db.createAccount username hash).2.texts) := by
  simp only [Tables.createAccount, createAccount]
  by_cases htaken : nocase username ∈ db.accounts.map fun a => nocase a.username
  · simp [texts, htaken]
  · simp [texts, htaken, insertAccount]

theorem deleteAccount_texts (db : Db) (id : Nat) :
    db.texts.deleteAccount id = ((db.deleteAccount id).1, (db.deleteAccount id).2.texts) := by
  have hfind : db.texts.accountById id = db.accountById id := rfl
  have hcount : db.texts.accounts.length = db.accountCount := rfl
  simp only [Tables.deleteAccount, hfind, hcount, deleteAccount]
  cases db.accountById id with
  | none => rfl
  | some a =>
      by_cases hlast : db.accountCount ≤ 1
      · simp only [hlast, if_true]
      · have hkept : db.texts.sessions.filter (·.accountId ≠ id) =
            (db.sessions.filter (·.accountId ≠ id)).map SessionRow.text :=
          sessions_texts_filter db _ _ fun row _ => rfl
        simp only [hlast, if_false, hkept]
        rfl

end Refinement

end Lodger.Db
