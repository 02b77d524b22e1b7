import Lodger.Db
import Lodger.Lib.Table

namespace Lodger.Db

variable {db db' : Db} {id : Nat} {hash username : String} {key : Key} {new : NewSession} {now : Int}

section Accounts

theorem accountById_eq_some {a : Account} :
    db.accountById id = some a ↔ a ∈ db.accounts ∧ a.id = id := Lib.find?_key_eq_some db.ids

theorem findAccount_mem {a : Account} (h : db.findAccount username = some a) :
    a ∈ db.accounts := List.mem_of_find?_eq_some h

@[simp] theorem accounts_updateHash :
    (db.updateHash id hash).accounts = db.accounts.map (withHash id hash) := rfl

@[simp] theorem sessions_updateHash : (db.updateHash id hash).sessions = db.sessions := rfl

@[simp] theorem accounts_keepSessions {keep : SessionRow → Bool} :
    (db.keepSessions keep).accounts = db.accounts := rfl

@[simp] theorem sessions_keepSessions {keep : SessionRow → Bool} :
    (db.keepSessions keep).sessions = db.sessions.filter keep := rfl

@[simp] theorem accounts_touch : (db.touch key now).accounts = db.accounts := rfl

@[simp] theorem sessions_touch :
    (db.touch key now).sessions = db.sessions.map (seenAt key now) := rfl

@[simp] theorem accounts_removeAccount :
    (db.removeAccount id).accounts = db.accounts.filter (·.id ≠ id) := rfl

@[simp] theorem sessions_removeAccount :
    (db.removeAccount id).sessions = db.sessions.filter (·.accountId ≠ id) := rfl

theorem withHash_of_eq {a : Account} (h : a.id = id) : (withHash id hash a).passwordHash = hash := by
  simp [withHash, h]

theorem withHash_of_ne {a : Account} (h : a.id ≠ id) : withHash id hash a = a := by
  simp [withHash, h]

end Accounts

-- What each call can do to the tables.
section Calls

theorem insertSession_eq_ok (h : db.insertSession new now = .ok db') :
    new.tokenSha256 ∉ db.sessions.map (·.tokenSha256) ∧
    new.accountId ∈ db.accounts.map (·.id) ∧
    db'.accounts = db.accounts ∧ db'.sessions = db.sessions ++ [new.row now] := by
  unfold insertSession at h
  split at h
  · cases h
  · split at h
    · rename_i hfresh howned
      cases h
      exact ⟨hfresh, howned, rfl, rfl⟩
    · cases h

theorem createSession_cases (db : Db) (new : NewSession) (now : Int) :
    (∃ db', db.createSession new now = (.ok (), db') ∧
      new.accountId ∈ db.accounts.map (·.id) ∧ db'.accounts = db.accounts ∧
      new.tokenSha256 ∉ (db.sessions.filter (live now)).map (·.tokenSha256) ∧
      db'.sessions = db.sessions.filter (live now) ++ [new.row now]) ∨
    (∃ e, db.createSession new now = (.error e, db.keepSessions (live now))) := by
  unfold createSession
  simp only
  split
  · rename_i db' h
    obtain ⟨hfresh, howned, haccounts, hsessions⟩ := insertSession_eq_ok h
    exact .inl ⟨db', rfl, howned, haccounts, hfresh, hsessions⟩
  · rename_i e h
    exact .inr ⟨e, rfl⟩

-- A session outlives a change of its account's password only as the new one.
def afterChange (accountId : Nat) (current : Key) (row : SessionRow) : Bool :=
  row.accountId ≠ accountId ∧ row.tokenSha256 ≠ current

theorem changePassword_cases (db : Db) (accountId : Nat) (hash : String) (current : Key)
    (new : NewSession) (now : Int) :
    (∃ ended db', db.changePassword accountId hash current new now = (.ok ended, db') ∧
      new.accountId ∈ db.accounts.map (·.id) ∧
      db'.accounts = db.accounts.map (withHash accountId hash) ∧
      new.tokenSha256 ∉ (db.sessions.filter (afterChange accountId current)).map (·.tokenSha256) ∧
      db'.sessions = db.sessions.filter (afterChange accountId current) ++ [new.row now]) ∨
    (∃ e, db.changePassword accountId hash current new now = (.error e, db)) := by
  unfold changePassword
  simp only
  split
  · rename_i db' h
    obtain ⟨hfresh, howned, haccounts, hsessions⟩ := insertSession_eq_ok h
    have hfilter : (db.sessions.filter fun row =>
        decide ¬(row.accountId = accountId ∧ row.tokenSha256 ≠ current)).filter
          (·.tokenSha256 ≠ current) = db.sessions.filter (afterChange accountId current) := by
      rw [List.filter_filter]
      apply List.filter_congr
      intro row _
      unfold afterChange
      by_cases hkey : row.tokenSha256 = current <;> simp [hkey]
    simp only [sessions_keepSessions, sessions_updateHash, hfilter] at hfresh hsessions
    refine .inl ⟨_, db', rfl, ?_, haccounts, hfresh, hsessions⟩
    simpa [Function.comp_def] using howned
  · rename_i e h
    exact .inr ⟨e, rfl⟩

theorem resetPassword_cases (db : Db) (username hash : String) :
    (∃ a ended db', db.findAccount username = some a ∧
      db.resetPassword username hash = (some ended, db') ∧
      db'.accounts = db.accounts.map (withHash a.id hash) ∧
      db'.sessions = db.sessions.filter (·.accountId ≠ a.id)) ∨
    (db.findAccount username = none ∧ db.resetPassword username hash = (none, db)) := by
  unfold resetPassword
  split
  · rename_i h
    exact .inr ⟨h, rfl⟩
  · rename_i a h
    exact .inl ⟨a, _, _, h, rfl, rfl, rfl⟩

theorem createAccount_cases (db : Db) (username hash : String) :
    (∃ db', db.createAccount username hash = (some (nextId db.accounts), db') ∧
      db'.accounts = db.accounts ++ [⟨nextId db.accounts, username, hash⟩] ∧
      db'.sessions = db.sessions) ∨
    db.createAccount username hash = (none, db) := by
  unfold createAccount
  split
  · exact .inr rfl
  · exact .inl ⟨_, rfl, rfl, rfl⟩

theorem deleteAccount_cases (db : Db) (id : Nat) :
    (db.deleteAccount id).2 = db ∨ (db.deleteAccount id).2 = db.removeAccount id := by
  unfold deleteAccount
  split
  · exact .inl rfl
  · split
    · exact .inl rfl
    · exact .inr rfl

theorem session_cases (db : Db) (key : Key) (now : Int) :
    db.session key now = (none, db) ∨
    ∃ row ∈ db.sessions, ∃ a ∈ db.accounts, row.tokenSha256 = key ∧ a.id = row.accountId ∧
      live now row = true ∧
      db.session key now = (some ⟨row.accountId, a.username, row.csrfToken⟩, db.touch key now) := by
  unfold session
  split
  · exact .inl rfl
  · rename_i row hrow
    have hprops := List.find?_some hrow
    simp only [Bool.and_eq_true, decide_eq_true_eq] at hprops
    split
    · exact .inl rfl
    · rename_i a ha
      obtain ⟨hmem, hid⟩ := accountById_eq_some.mp ha
      exact .inr ⟨row, List.mem_of_find?_eq_some hrow, a, hmem, hprops.1, hid, hprops.2, rfl⟩

end Calls

end Lodger.Db
