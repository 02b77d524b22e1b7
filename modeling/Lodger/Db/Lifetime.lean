import Lodger.Db.Text
import Lodger.Lib.Machine

namespace Lodger.Db

open Lodger.Lib Lodger.Db.Text

-- A run of the calls on the tables, with the plain history of each session
-- beside it.

inductive Call where
  | createSession (new : NewSession)
  | session (key : Key)
  | sessionAlive (key : Key)
  | deleteSession (key : Key)
  | changePassword (accountId : Nat) (passwordHash : String) (current : Key) (new : NewSession)
  | resetPassword (username passwordHash : String)
  | deleteAccount (id : Nat)
  | createAccount (username passwordHash : String)
deriving DecidableEq, Repr

inductive Event where
  | created (key : Key) (account : Nat) (now : Int)
  | used (key : Key) (now : Int)
  | loggedOut (key : Key)
  | passwordChanged (account : Nat) (current : Key)
  | passwordReset (account : Nat)
  | accountDeleted (account : Nat)
deriving DecidableEq, Repr

-- What a call leaves in the tables, and what it does to sessions.
def Text.Tables.call (t : Tables) (now : Int) : Call → Tables × List Event
  | .createSession new =>
      match t.createSession new now with
      | (.ok (), t') => (t', [.created new.tokenSha256 new.accountId now])
      | (.error _, t') => (t', [])
  | .session key =>
      match t.session key now with
      | (some _, t') => (t', [.used key now])
      | (none, t') => (t', [])
  | .sessionAlive _ => (t, [])
  | .deleteSession key => (t.deleteSession key, [.loggedOut key])
  | .changePassword accountId passwordHash current new =>
      match t.changePassword accountId passwordHash current new now with
      | (.ok _, t') => (t', [.passwordChanged accountId current,
          .created new.tokenSha256 new.accountId now])
      | (.error _, t') => (t', [])
  | .resetPassword username passwordHash =>
      ((t.resetPassword username passwordHash).2,
        (t.findAccount username).toList.map fun a => .passwordReset a.id)
  | .deleteAccount id =>
      match t.deleteAccount id with
      | (.yes _, t') => (t', [.accountDeleted id])
      | (_, t') => (t', [])
  | .createAccount username passwordHash => ((t.createAccount username passwordHash).2, [])

structure Run where
  tables : Tables
  clock : Int
  log : List Event

-- No call is enabled at a time before an earlier call.
def Run.step (r : Run) : Call × Int → Option Run
  | (call, now) =>
      if r.clock ≤ now then
        let (tables, events) := r.tables.call now call
        some ⟨tables, now, r.log ++ events⟩
      else none

-- A session that no call has ended, when it began and when `session` last
-- found it.
structure Life where
  account : Nat
  created : Int
  used : Int
deriving DecidableEq, Repr

def Life.after (key : Key) (life : Option Life) : Event → Option Life
  | .created k account now => if k = key then some ⟨account, now, now⟩ else life
  | .used k now => if k = key then life.map fun l => { l with used := now } else life
  | .loggedOut k => if k = key then none else life
  | .passwordChanged account current =>
      if current = key then none else life.filter (·.account ≠ account)
  | .passwordReset account => life.filter (·.account ≠ account)
  | .accountDeleted account => life.filter (·.account ≠ account)

def lifeOf (key : Key) (log : List Event) : Option Life := log.foldl (Life.after key) none

def ABSOLUTE : Int := ABSOLUTE_HOURS * 60 * MINUTE

theorem lifeOf_append (key : Key) (log events : List Event) :
    lifeOf key (log ++ events) = events.foldl (Life.after key) (lifeOf key log) := by
  simp [lifeOf]

section Rows

variable {db : Db} {key : Key} {now clock : Int}

-- The row of a session.
def rowOf (sessions : List SessionRow) (key : Key) : Option SessionRow :=
  sessions.find? (·.tokenSha256 = key)

theorem rowOf_eq_some {sessions : List SessionRow} (h : (sessions.map (·.tokenSha256)).Nodup)
    {row : SessionRow} : rowOf sessions key = some row ↔ row ∈ sessions ∧ row.tokenSha256 = key :=
  Lib.find?_key_eq_some h

theorem rowOf_filter {sessions : List SessionRow} (h : (sessions.map (·.tokenSha256)).Nodup)
    (keep : SessionRow → Bool) : rowOf (sessions.filter keep) key = (rowOf sessions key).filter keep := by
  have h' : ((sessions.filter keep).map (·.tokenSha256)).Nodup :=
    h.sublist (List.filter_sublist.map _)
  ext row
  rw [rowOf_eq_some h', Option.filter_eq_some_iff, rowOf_eq_some h, List.mem_filter]
  constructor
  · rintro ⟨⟨hmem, hkeep⟩, hkey⟩
    exact ⟨⟨hmem, hkey⟩, hkeep⟩
  · rintro ⟨⟨hmem, hkey⟩, hkeep⟩
    exact ⟨⟨hmem, hkeep⟩, hkey⟩

theorem rowOf_append {sessions : List SessionRow} (row : SessionRow)
    (h : row.tokenSha256 ∉ sessions.map (·.tokenSha256)) :
    rowOf (sessions ++ [row]) key =
      if row.tokenSha256 = key then some row else rowOf sessions key := by
  unfold rowOf
  rw [List.find?_append]
  by_cases hkey : row.tokenSha256 = key
  · have hnone : sessions.find? (·.tokenSha256 = key) = none := by
      rw [List.find?_eq_none]
      intro other hother
      simp only [decide_eq_true_eq]
      intro hsame
      exact h (List.mem_map.mpr ⟨other, hother, hsame.trans hkey.symm⟩)
    simp [hkey, hnone]
  · simp [hkey]

theorem rowOf_seenAt (sessions : List SessionRow) (k : Key) :
    rowOf (sessions.map (seenAt k now)) key = (rowOf sessions key).map (seenAt k now) := by
  simp only [rowOf, List.find?_map, Function.comp_def, seenAt_tokenSha256]

-- The row of a session that no call has ended fits its history, and without a
-- row its time is over.
def Keeps (clock : Int) : Option Life → Option SessionRow → Prop
  | some life, some row =>
      row.accountId = life.account ∧ row.expiresAt = life.created + ABSOLUTE ∧
        life.used - MINUTE ≤ row.lastSeenAt ∧ row.lastSeenAt ≤ life.used ∧ life.used ≤ clock
  | some life, none =>
      life.created + ABSOLUTE ≤ clock ∨ life.used + (IDLE_MINUTES - 1) * MINUTE ≤ clock
  | none, some _ => False
  | none, none => True

variable {life : Option Life} {row : Option SessionRow}

theorem Keeps.later (h : Keeps clock life row) (hclock : clock ≤ now) : Keeps now life row := by
  cases life with
  | none =>
      cases row with
      | none => trivial
      | some row => exact h
  | some life =>
      cases row with
      | none =>
          simp only [Keeps] at h ⊢
          omega
      | some row =>
          obtain ⟨haccount, hexpires, hmin, hmax, hused⟩ := h
          exact ⟨haccount, hexpires, hmin, hmax, by omega⟩

-- The clean-up at a login takes only rows whose time is over.
theorem Keeps.sweep (h : Keeps now life row) : Keeps now life (row.filter (live now)) := by
  cases life with
  | none =>
      cases row with
      | none => trivial
      | some row => exact h.elim
  | some life =>
      cases row with
      | none => exact h
      | some row =>
          by_cases hlive : live now row = true
          · simpa [Option.filter_some, hlive] using h
          · rw [Option.filter_some, if_neg hlive]
            obtain ⟨-, hexpires, hmin, -, -⟩ := h
            simp only [live, Bool.and_eq_true, decide_eq_true_eq] at hlive
            simp only [Keeps, IDLE_MINUTES, MINUTE, ABSOLUTE] at *
            omega

-- A call that ends sessions by their account ends them in the history too.
theorem Keeps.endAccount (h : Keeps clock life row) (account : Nat) :
    Keeps clock (life.filter (·.account ≠ account)) (row.filter (·.accountId ≠ account)) := by
  cases life with
  | none =>
      cases row with
      | none => trivial
      | some row => exact h.elim
  | some life =>
      cases row with
      | none =>
          by_cases hacc : life.account = account
          · simp [Option.filter_some, hacc, Keeps]
          · simpa [Option.filter_some, hacc] using h
      | some row =>
          obtain ⟨haccount, hrest⟩ := h
          by_cases hacc : life.account = account
          · simp [Option.filter_some, hacc, haccount, Keeps]
          · simpa [Option.filter_some, hacc, haccount, Keeps] using hrest

-- A use that is not written down is less than a minute after the last one
-- that was.
theorem Keeps.use {row : SessionRow} (h : Keeps clock life (some row)) (hclock : clock ≤ now)
    (hkey : row.tokenSha256 = key) :
    Keeps now (life.map fun l => { l with used := now }) (some (seenAt key now row)) := by
  cases life with
  | none => exact h.elim
  | some life =>
      obtain ⟨haccount, hexpires, hmin, hmax, hused⟩ := h
      simp only [Option.map_some, Keeps, seenAt, hkey, true_and]
      by_cases hold : row.lastSeenAt < now - MINUTE
      · simp only [hold, if_true]
        exact ⟨haccount, hexpires, by simp [MINUTE], le_refl _, le_refl _⟩
      · simp only [hold, if_false]
        exact ⟨haccount, hexpires, by omega, by omega, le_refl _⟩

theorem seenAt_of_ne {row : SessionRow} {k : Key} (h : row.tokenSha256 ≠ k) :
    seenAt k now row = row := by
  simp [seenAt, h]

theorem DatedRows.filter {db' : Db} (h : DatedRows db) {keep : SessionRow → Bool}
    (hrows : db'.sessions = db.sessions.filter keep) : DatedRows db' := by
  intro row hrow
  rw [hrows] at hrow
  exact h row (List.mem_of_mem_filter hrow)

theorem DatedRows.insert {db' : Db} (h : DatedRows db) (hnow : InYears now)
    {keep : SessionRow → Bool} {new : NewSession}
    (hrows : db'.sessions = db.sessions.filter keep ++ [new.row now]) : DatedRows db' := by
  intro row hrow
  rw [hrows, List.mem_append, List.mem_singleton] at hrow
  rcases hrow with hrow | rfl
  · exact h row (List.mem_of_mem_filter hrow)
  · exact ⟨hnow.dated, hnow.2⟩

theorem DatedRows.touch (h : DatedRows db) (hnow : InYears now) (key : Key) :
    DatedRows (db.touch key now) := by
  intro row hrow
  obtain ⟨old, hold, rfl⟩ := List.mem_map.mp hrow
  have hdated := h old hold
  unfold seenAt
  split
  · exact ⟨hnow.dated, hdated.2⟩
  · exact hdated

end Rows

section Runs

variable {r r' : Run} {now : Int}

-- Every session's row fits its history.
def Kept (db : Db) (clock : Int) (log : List Event) : Prop :=
  ∀ key, Keeps clock (lifeOf key log) (rowOf db.sessions key)

def Sound (r : Run) : Prop :=
  ∃ db : Db, r.tables = db.texts ∧ DatedRows db ∧ Kept db r.clock r.log

variable {db db' : Db} {log : List Event}

theorem Kept.same (h : Kept db now log) (hrows : db'.sessions = db.sessions) :
    Kept db' now (log ++ []) := by
  intro key
  rw [List.append_nil, hrows]
  exact h key

theorem Kept.sweep (h : Kept db now log) (hrows : db'.sessions = db.sessions.filter (live now)) :
    Kept db' now (log ++ []) := by
  intro key
  rw [List.append_nil, hrows, rowOf_filter db.tokens]
  exact (h key).sweep

theorem keeps_new (new : NewSession) (now : Int) :
    Keeps now (some ⟨new.accountId, now, now⟩) (some (new.row now)) :=
  ⟨rfl, rfl, by simp [NewSession.row, MINUTE], le_refl _, le_refl _⟩

theorem Kept.create (h : Kept db now log) {new : NewSession}
    (hfresh : new.tokenSha256 ∉ (db.sessions.filter (live now)).map (·.tokenSha256))
    (hrows : db'.sessions = db.sessions.filter (live now) ++ [new.row now]) :
    Kept db' now (log ++ [.created new.tokenSha256 new.accountId now]) := by
  intro key
  rw [lifeOf_append, hrows, rowOf_append (new.row now) hfresh, rowOf_filter db.tokens]
  simp only [List.foldl_cons, List.foldl_nil, Life.after]
  by_cases hkey : new.tokenSha256 = key
  · have hrow : (new.row now).tokenSha256 = key := hkey
    simp only [hkey, hrow, if_true]
    exact keeps_new new now
  · have hrow : (new.row now).tokenSha256 ≠ key := hkey
    simp only [hkey, hrow, if_false]
    exact (h key).sweep

theorem Kept.use {clock : Int} (h : Kept db clock log) (hclock : clock ≤ now) {row : SessionRow}
    (hrow : row ∈ db.sessions) :
    Kept (db.touch row.tokenSha256 now) now (log ++ [.used row.tokenSha256 now]) := by
  intro key
  rw [lifeOf_append, sessions_touch, rowOf_seenAt]
  simp only [List.foldl_cons, List.foldl_nil, Life.after]
  by_cases hkey : row.tokenSha256 = key
  · subst hkey
    have hsome := (rowOf_eq_some db.tokens).mpr ⟨hrow, rfl⟩
    have hkeeps := h row.tokenSha256
    rw [hsome] at hkeeps ⊢
    simp only [if_true]
    exact hkeeps.use hclock rfl
  · simp only [hkey, if_false]
    have hsame : (rowOf db.sessions key).map (seenAt row.tokenSha256 now) =
        rowOf db.sessions key := by
      cases hother : rowOf db.sessions key with
      | none => rfl
      | some other =>
          have hne : other.tokenSha256 ≠ row.tokenSha256 := by
            rw [((rowOf_eq_some db.tokens).mp hother).2]
            exact Ne.symm hkey
          rw [Option.map_some, seenAt_of_ne hne]
    rw [hsame]
    exact (h key).later hclock

theorem Kept.logout (h : Kept db now log) (key : Key)
    (hrows : db'.sessions = db.sessions.filter (·.tokenSha256 ≠ key)) :
    Kept db' now (log ++ [.loggedOut key]) := by
  intro k
  rw [lifeOf_append, hrows, rowOf_filter db.tokens]
  simp only [List.foldl_cons, List.foldl_nil, Life.after]
  cases hrow : rowOf db.sessions k with
  | none =>
      by_cases hkey : key = k
      · simp [hkey, Keeps]
      · have := h k
        rw [hrow] at this
        simpa [hkey] using this
  | some row =>
      have htoken : row.tokenSha256 = k := ((rowOf_eq_some db.tokens).mp hrow).2
      by_cases hkey : key = k
      · simp [hkey, htoken, Option.filter_some, Keeps]
      · have := h k
        rw [hrow] at this
        simpa [hkey, htoken, Option.filter_some, Ne.symm hkey] using this

theorem Kept.endAccount (h : Kept db now log) (account : Nat) {event : Event}
    (hevent : ∀ key life, Life.after key life event = life.filter (·.account ≠ account))
    (hrows : db'.sessions = db.sessions.filter (·.accountId ≠ account)) :
    Kept db' now (log ++ [event]) := by
  intro key
  rw [lifeOf_append, hrows, rowOf_filter db.tokens]
  simp only [List.foldl_cons, List.foldl_nil, hevent]
  exact (h key).endAccount account

theorem Kept.changePassword (h : Kept db now log) (account : Nat) (current : Key)
    {new : NewSession}
    (hfresh : new.tokenSha256 ∉
      (db.sessions.filter (afterChange account current)).map (·.tokenSha256))
    (hrows : db'.sessions = db.sessions.filter (afterChange account current) ++ [new.row now]) :
    Kept db' now (log ++ [.passwordChanged account current,
      .created new.tokenSha256 new.accountId now]) := by
  intro key
  rw [lifeOf_append, hrows, rowOf_append (new.row now) hfresh, rowOf_filter db.tokens]
  simp only [List.foldl_cons, List.foldl_nil, Life.after]
  by_cases hkey : new.tokenSha256 = key
  · have hrow : (new.row now).tokenSha256 = key := hkey
    simp only [hkey, hrow, if_true]
    exact keeps_new new now
  · have hrow : (new.row now).tokenSha256 ≠ key := hkey
    have hended := (h key).endAccount account
    simp only [hkey, hrow, if_false]
    cases hold : rowOf db.sessions key with
    | none =>
        rw [hold] at hended
        by_cases hcurrent : current = key
        · simp [hcurrent, Keeps]
        · simpa [hcurrent] using hended
    | some row =>
        have htoken : row.tokenSha256 = key := ((rowOf_eq_some db.tokens).mp hold).2
        rw [hold] at hended
        by_cases hcurrent : current = key
        · simp [hcurrent, htoken, Option.filter_some, afterChange, Keeps]
        · simpa [hcurrent, htoken, Option.filter_some, afterChange, Ne.symm hcurrent] using hended

-- One call on the texts of the tables.
theorem Kept.call (hdb : DatedRows db) (hnow : InYears now) (h : Kept db now log) (call : Call) :
    ∃ db', (db.texts.call now call).1 = db'.texts ∧ DatedRows db' ∧
      Kept db' now (log ++ (db.texts.call now call).2) := by
  cases call with
  | createSession new =>
      simp only [Tables.call, createSession_texts hdb hnow]
      rcases createSession_cases db new now with ⟨db', hok, -, -, hfresh, hrows⟩ | ⟨e, herror⟩
      · rw [hok]
        exact ⟨db', rfl, hdb.insert hnow hrows, h.create hfresh hrows⟩
      · rw [herror]
        exact ⟨_, rfl, hdb.filter rfl, h.sweep rfl⟩
  | session key =>
      simp only [Tables.call, session_texts hdb hnow]
      rcases session_cases db key now with hnone | ⟨row, hrow, a, -, rfl, -, -, hsome⟩
      · rw [hnone]
        exact ⟨db, rfl, hdb, h.same rfl⟩
      · rw [hsome]
        exact ⟨_, rfl, hdb.touch hnow _, h.use (le_refl now) hrow⟩
  | sessionAlive key => exact ⟨db, rfl, hdb, h.same rfl⟩
  | deleteSession key =>
      exact ⟨db.deleteSession key, deleteSession_texts db key, hdb.filter rfl, h.logout key rfl⟩
  | changePassword accountId hash current new =>
      simp only [Tables.call, changePassword_texts]
      rcases changePassword_cases db accountId hash current new now with
        ⟨ended, db', hok, -, -, hfresh, hrows⟩ | ⟨e, herror⟩
      · rw [hok]
        exact ⟨db', rfl, hdb.insert hnow hrows, h.changePassword accountId current hfresh hrows⟩
      · rw [herror]
        exact ⟨db, rfl, hdb, h.same rfl⟩
  | resetPassword username hash =>
      have hfind : db.texts.findAccount username = db.findAccount username := rfl
      simp only [Tables.call, resetPassword_texts, hfind]
      rcases resetPassword_cases db username hash with
        ⟨a, ended, db', ha, hreset, -, hrows⟩ | ⟨hnone, hreset⟩
      · rw [hreset, ha]
        exact ⟨db', rfl, hdb.filter hrows, h.endAccount a.id (fun _ _ => rfl) hrows⟩
      · rw [hreset, hnone]
        exact ⟨db, rfl, hdb, h.same rfl⟩
  | deleteAccount id =>
      simp only [Tables.call, deleteAccount_texts, deleteAccount]
      cases db.accountById id with
      | none => exact ⟨db, rfl, hdb, h.same rfl⟩
      | some a =>
          by_cases hlast : db.accountCount ≤ 1
          · simp only [hlast, if_true]
            exact ⟨db, rfl, hdb, h.same rfl⟩
          · simp only [hlast, if_false]
            exact ⟨_, rfl, hdb.filter rfl, h.endAccount id (fun _ _ => rfl) rfl⟩
  | createAccount username hash =>
      simp only [Tables.call, createAccount_texts]
      rcases createAccount_cases db username hash with ⟨db', hok, -, hrows⟩ | hnone
      · rw [hok]
        refine ⟨db', rfl, fun row hrow => hdb row (by rwa [← hrows]), h.same hrows⟩
      · rw [hnone]
        exact ⟨db, rfl, hdb, h.same rfl⟩

theorem Run.step_eq_some {c : Call × Int} (h : r.step c = some r') :
    r.clock ≤ c.2 ∧ r' = ⟨(r.tables.call c.2 c.1).1, c.2, r.log ++ (r.tables.call c.2 c.1).2⟩ := by
  simp only [Run.step, Option.ite_none_right_eq_some, Option.some.injEq] at h
  exact ⟨h.1, h.2.symm⟩

theorem Sound.step {c : Call × Int} (h : Sound r) (hnow : InYears c.2) (hs : r.step c = some r') :
    Sound r' := by
  obtain ⟨hclock, rfl⟩ := Run.step_eq_some hs
  obtain ⟨db, htables, hdb, hkept⟩ := h
  obtain ⟨db', htables', hdb', hkept'⟩ :=
    Kept.call hdb hnow (fun key => (hkept key).later hclock) c.1
  rw [← htables] at htables' hkept'
  exact ⟨db', htables', hdb', hkept'⟩

-- Both queries ask for the row of the session and whether it is live.
theorem sessionAlive_eq (db : Db) (key : Key) (now : Int) :
    db.sessionAlive key now = (rowOf db.sessions key).any (live now) := by
  rw [Bool.eq_iff_iff, sessionAlive, List.any_eq_true, Option.any_eq_true]
  constructor
  · rintro ⟨row, hrow, h⟩
    simp only [Bool.and_eq_true, decide_eq_true_eq] at h
    exact ⟨row, (rowOf_eq_some db.tokens).mpr ⟨hrow, h.1⟩, h.2⟩
  · rintro ⟨row, hrow, h⟩
    obtain ⟨hmem, hkey⟩ := (rowOf_eq_some db.tokens).mp hrow
    exact ⟨row, hmem, by simp [hkey, h]⟩

theorem session_isSome (db : Db) (key : Key) (now : Int) :
    (db.session key now).1.isSome = db.sessionAlive key now := by
  rw [Bool.eq_iff_iff]
  constructor
  · intro h
    rcases session_cases db key now with hnone | ⟨row, hrow, a, -, hkey, -, hlive, -⟩
    · rw [hnone] at h
      simp at h
    · exact List.any_eq_true.mpr ⟨row, hrow, by simp [hkey, hlive]⟩
  · intro h
    obtain ⟨row, hrow, hprops⟩ := List.any_eq_true.mp h
    unfold session
    split
    · rename_i hnone
      exact absurd hprops (List.find?_eq_none.mp hnone row hrow)
    · rename_i found hfound
      -- The foreign key: the account of a session exists.
      have howner := db.owners found (List.mem_of_find?_eq_some hfound)
      obtain ⟨a, ha, hid⟩ := List.mem_map.mp howner
      rw [accountById_eq_some.mpr ⟨ha, hid⟩]
      rfl

-- A start of the calls on a database without sessions.
def Run.start (db : Db) (clock : Int) : Run := ⟨db.texts, clock, []⟩

theorem sound_run {clock : Int} {calls : List (Call × Int)} (hempty : db.sessions = [])
    (hyears : ∀ c ∈ calls, InYears c.2) (hrun : exec Run.step (Run.start db clock) calls = some r) :
    Sound r := by
  have hstart : Sound (Run.start db clock) := by
    refine ⟨db, rfl, by simp [DatedRows, hempty], fun key => ?_⟩
    simp [Run.start, lifeOf, hempty, rowOf, Keeps]
  generalize Run.start db clock = s at hstart hrun
  induction calls generalizing s with
  | nil =>
      cases hrun
      exact hstart
  | cons c rest ih =>
      obtain ⟨u, hu, hrest⟩ := exec_cons_eq_some.mp hrun
      exact ih (fun c hc => hyears c (List.mem_cons_of_mem _ hc)) u
        (hstart.step (hyears c (List.mem_cons_self ..)) hu) hrest

def Call.isAlive : Call → Bool
  | .sessionAlive _ => true
  | _ => false

-- Without its `session_alive` calls, a run ends in the same tables.
theorem exec_without_alive {calls : List (Call × Int)} {s t : Run} (htables : s.tables = t.tables)
    (hclock : t.clock ≤ s.clock) (hrun : exec Run.step s calls = some r) :
    ∃ r', exec Run.step t (calls.filter fun c => !c.1.isAlive) = some r' ∧
      r'.tables = r.tables := by
  induction calls generalizing s t with
  | nil =>
      cases hrun
      exact ⟨t, rfl, htables.symm⟩
  | cons c rest ih =>
      obtain ⟨u, hu, hrest⟩ := exec_cons_eq_some.mp hrun
      obtain ⟨hnow, rfl⟩ := Run.step_eq_some hu
      by_cases halive : c.1.isAlive = true
      · rw [List.filter_cons_of_neg (by simp [halive])]
        refine ih ?_ (by simp only; omega) hrest
        obtain ⟨call, now⟩ := c
        cases call <;> simp [Call.isAlive] at halive
        exact htables
      · rw [List.filter_cons_of_pos (by simpa using halive)]
        have hstep : t.step c =
            some ⟨(t.tables.call c.2 c.1).1, c.2, t.log ++ (t.tables.call c.2 c.1).2⟩ := by
          simp only [Run.step]
          rw [if_pos (by omega)]
        have hsame : (s.tables.call c.2 c.1).1 = (t.tables.call c.2 c.1).1 := by rw [htables]
        obtain ⟨r', hr', heq⟩ := ih
          (t := ⟨(t.tables.call c.2 c.1).1, c.2, t.log ++ (t.tables.call c.2 c.1).2⟩)
          (by exact hsame) (by exact le_refl _) hrest
        exact ⟨r', exec_cons_eq_some.mpr ⟨_, hstep, hr'⟩, heq⟩

-- A session that a query finds was created less than 24 hours ago, was created
-- or used less than 60 minutes ago, and nothing ended it. A session that was
-- used less than 59 minutes ago is found. The queries agree, and the one that
-- does not count as use changes nothing.
theorem session_lifetime (db : Db) (hempty : db.sessions = []) (clock : Int)
    (calls : List (Call × Int)) (r : Run)
    (hrun : exec Run.step (Run.start db clock) calls = some r)
    (hyears : ∀ c ∈ calls, InYears c.2) (key : Key) (now : Int) (hclock : r.clock ≤ now)
    (hnow : InYears now) :
    ((r.tables.session key now).1.isSome ∨ r.tables.sessionAlive key now →
      ∃ life, lifeOf key r.log = some life ∧ now - life.created < ABSOLUTE_HOURS * 60 * MINUTE ∧
        now - life.used < 60 * MINUTE) ∧
    (∀ life, lifeOf key r.log = some life → now - life.created < ABSOLUTE_HOURS * 60 * MINUTE →
      now - life.used < 59 * MINUTE →
      (r.tables.session key now).1.isSome ∧ r.tables.sessionAlive key now) ∧
    (r.tables.session key now).1.isSome = r.tables.sessionAlive key now ∧
    ∃ r', exec Run.step (Run.start db clock) (calls.filter fun c => !c.1.isAlive) = some r' ∧
      r'.tables = r.tables := by
  obtain ⟨db', htables, hdated, hkept⟩ := sound_run hempty hyears hrun
  have hagree : (r.tables.session key now).1.isSome = r.tables.sessionAlive key now := by
    rw [htables, session_texts hdated hnow, sessionAlive_texts hdated hnow]
    exact session_isSome db' key now
  have halive : r.tables.sessionAlive key now = (rowOf db'.sessions key).any (live now) := by
    rw [htables, sessionAlive_texts hdated hnow, sessionAlive_eq]
  have hkeeps := (hkept key).later hclock
  rw [hagree, halive, or_self, and_self]
  refine ⟨?_, ?_, rfl, exec_without_alive rfl (le_refl _) hrun⟩
  · intro hfound
    obtain ⟨row, hrow, hlive⟩ := (Option.any_eq_true _ _).mp hfound
    rw [hrow] at hkeeps
    cases hlife : lifeOf key r.log with
    | none =>
        rw [hlife] at hkeeps
        exact hkeeps.elim
    | some life =>
        rw [hlife] at hkeeps
        obtain ⟨-, hexpires, -, hseen, -⟩ := hkeeps
        simp only [live, Bool.and_eq_true, decide_eq_true_eq] at hlive
        refine ⟨life, rfl, ?_, ?_⟩ <;> simp only [ABSOLUTE, IDLE_MINUTES] at * <;> omega
  · intro life hlife hyoung hused
    rw [hlife] at hkeeps
    cases hrow : rowOf db'.sessions key with
    | none =>
        rw [hrow] at hkeeps
        simp only [Keeps, ABSOLUTE, IDLE_MINUTES, MINUTE] at *
        omega
    | some row =>
        rw [hrow] at hkeeps
        obtain ⟨-, hexpires, hseen, -, -⟩ := hkeeps
        simp only [Option.any_some, live, Bool.and_eq_true, decide_eq_true_eq]
        simp only [ABSOLUTE, IDLE_MINUTES, MINUTE] at *
        omega

-- One login at noon, and a use 45 minutes later, keep the session for 80
-- minutes.
def oneAdmin : Db where
  accounts := [⟨1, "admin", "$argon2id$"⟩]
  sessions := []
  ids := by simp
  names := by simp
  tokens := by simp
  owners := by simp

def noon : Int := 1767268800000

def oneLogin : List (Call × Int) :=
  [(.createSession ⟨5, 1, "csrf"⟩, noon), (.session 5, noon + 45 * MINUTE),
    (.sessionAlive 5, noon + 50 * MINUTE)]

theorem session_lifetime_login :
    ∃ r, exec Run.step (Run.start oneAdmin noon) oneLogin = some r ∧
      lifeOf 5 r.log = some ⟨1, noon, noon + 45 * MINUTE⟩ ∧
      (r.tables.session 5 (noon + 80 * MINUTE)).1.isSome ∧
      r.tables.sessionAlive 5 (noon + 80 * MINUTE) := by
  obtain ⟨r, hrun, hlog⟩ := Option.map_eq_some_iff.mp
    (show (exec Run.step (Run.start oneAdmin noon) oneLogin).map (fun r => (r.clock, r.log)) =
      some (noon + 50 * MINUTE, [.created 5 1 noon, .used 5 (noon + 45 * MINUTE)]) by
        decide +kernel)
  obtain ⟨hclock, hlog⟩ := Prod.mk.inj hlog
  have hlife : lifeOf 5 r.log = some ⟨1, noon, noon + 45 * MINUTE⟩ := by
    rw [hlog]
    decide
  have hfound := (session_lifetime oneAdmin rfl noon oneLogin r hrun (by decide) 5
    (noon + 80 * MINUTE) (by rw [hclock]; decide) (by decide)).2.1 _ hlife (by decide) (by decide)
  exact ⟨r, hrun, hlife, hfound⟩

end Runs

end Lodger.Db
