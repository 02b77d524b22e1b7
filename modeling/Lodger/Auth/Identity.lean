import Lodger.Auth.Lemmas

namespace Lodger.Auth

open Lodger.Lib Lodger.Db

variable {rules : Rules} {site site' : Site} {s t : State} {r r' : Request} {act : Action}
  {draw : Draw} {now : Int} {key : Key} {id : Nat}

-- When the request writes, the row with the id that it read, if there is one,
-- is still the row of the account that it read.
def SameAccount (s : State) : Action → Prop
  | .advance i _ _ => ∀ seen ∈ s.requests[i]?.bind Request.writesFor,
      ∀ a ∈ s.site.db.accountById seen.account.id, s.site.births a.id = seen.birth
  | _ => True

instance (s : State) : ∀ act, Decidable (SameAccount s act)
  | .advance i _ _ => inferInstanceAs (Decidable (∀ seen ∈ s.requests[i]?.bind Request.writesFor,
      ∀ a ∈ s.site.db.accountById seen.account.id, s.site.births a.id = seen.birth))
  | .login .. | .request .. | .abandon .. | .adminReset .. | .adminCreate .. =>
      inferInstanceAs (Decidable True)

-- `Db::session` gives a login session to the account whose password the login
-- verified, and to no other account that has the same id.
def Resolves (site : Site) : Prop :=
  ∀ key p now session, site.grants key = some p → (site.db.session key now).1 = some session →
    session.accountId = p.id ∧ site.births session.accountId = p.birth

-- The password and the sessions of the account with this id stay as they are.
def Untouched (db db' : Db) (id : Nat) : Prop :=
  db'.accountById id = db.accountById id ∧
    db'.sessions.filter (·.accountId = id) = db.sessions.filter (·.accountId = id)

-- Sessions of logins stay with the account that the login was for.
def Granted (site : Site) : Prop :=
  ∀ row ∈ site.db.sessions, ∀ p, site.grants row.tokenSha256 = some p →
    row.accountId = p.id ∧ site.births p.id = p.birth

theorem Granted.resolves (h : Granted site) : Resolves site := by
  intro key p now session hp hsession
  rcases site.db.session_cases key now with hnone | ⟨row, hrow, a, -, rfl, -, -, hsome⟩
  · rw [hnone] at hsession
    cases hsession
  · rw [hsome] at hsession
    cases hsession
    obtain ⟨hid, hbirth⟩ := h row hrow p hp
    exact ⟨hid, by rw [hid, hbirth]⟩

theorem Granted.insert {db' : Db} {keep : SessionRow → Bool} {new : NewSession}
    {grant : Option Password} {now : Int} (h : Granted site)
    (hfresh : new.tokenSha256 ∉ (site.db.sessions.filter keep).map (·.tokenSha256))
    (hsessions : db'.sessions = site.db.sessions.filter keep ++ [new.row now])
    (hgrant : ∀ p ∈ grant, new.accountId = p.id ∧ site.births p.id = p.birth) :
    ∀ row ∈ db'.sessions, ∀ p,
      Function.update site.grants new.tokenSha256 grant row.tokenSha256 = some p →
        row.accountId = p.id ∧ site.births p.id = p.birth := by
  intro row hrow p hp
  rw [hsessions, List.mem_append, List.mem_singleton] at hrow
  rcases hrow with hrow | rfl
  · have hne : row.tokenSha256 ≠ new.tokenSha256 := by
      intro heq
      exact hfresh (heq ▸ List.mem_map_of_mem hrow)
    rw [Function.update_of_ne hne] at hp
    exact h row (List.mem_filter.mp hrow).1 p hp
  · simp only [NewSession.row, Function.update_self] at hp
    exact hgrant p hp

theorem step_granted (h : Granted s.site) (hok : SameAccount s act)
    (hs : step rules s act = some t) : Granted t.site := by
  cases step_write hs with
  | quiet hq =>
      intro row hrow p hp
      obtain ⟨old, hold, htoken, hid⟩ := hq.sessions row hrow
      rw [hq.grants, ← htoken] at hp
      rw [hq.births, ← hid]
      exact h old hold p hp
  | login i draw now seen hact hr hkey hsite =>
      subst hact
      rw [hsite, Site.login]
      rcases s.site.db.createSession_cases ⟨draw.key, seen.account.id, draw.csrf⟩ now with
        ⟨db', hdb, howned, -, hfresh, hsessions⟩ | ⟨e, hdb⟩
      · rw [hdb]
        refine h.insert hfresh hsessions ?_
        rintro _ ⟨⟩
        obtain ⟨a, ha, haid⟩ := List.mem_map.mp howned
        have hbirth := hok seen (by simp [hr, Request.writesFor]) a
          (accountById_eq_some.mpr ⟨ha, haid⟩)
        exact ⟨rfl, by simpa [Seen.password, haid] using hbirth⟩
      · rw [hdb]
        exact fun row hrow => h row (List.mem_filter.mp hrow).1
  | change i draw now seen current new hact hr hkey hhash hsite =>
      rw [hsite, Site.changePassword]
      rcases s.site.db.changePassword_cases seen.account.id draw.hash current
        ⟨draw.key, seen.account.id, draw.csrf⟩ now with
        ⟨ended, db', hdb, -, -, hfresh, hsessions⟩ | ⟨e, hdb⟩
      · rw [hdb]
        exact h.insert hfresh hsessions (by simp)
      · rw [hdb]
        exact h
  | reset username hash hhash hsite =>
      rw [hsite, Site.resetPassword]
      rcases s.site.db.resetPassword_cases username hash with
        ⟨a, ended, db', -, hdb, -, hsessions⟩ | ⟨-, hdb⟩
      · rw [hdb]
        intro row hrow
        rw [hsessions] at hrow
        exact h row (List.mem_filter.mp hrow).1
      · rw [hdb]
        exact h
  | create username hash hhash hsite =>
      rw [hsite, Site.createAccount]
      rcases s.site.db.createAccount_cases username hash with ⟨db', hdb, -, hsessions⟩ | hdb
      · rw [hdb]
        intro row hrow p hp
        simp only [hsessions] at hrow
        obtain ⟨hid, hbirth⟩ := h row hrow p hp
        -- The new row's id belongs to no session.
        have hne : p.id ≠ nextId s.site.db.accounts := by
          rw [← hid]
          intro heq
          exact nextId_notMem _ (heq ▸ s.site.db.owners row hrow)
        exact ⟨hid, (Function.update_of_ne hne _ _).trans hbirth⟩
      · rw [hdb]
        exact h
  | delete id hsite =>
      rw [hsite]
      rcases s.site.db.deleteAccount_cases id with hdb | hdb
      · rw [hdb]
        exact h
      · rw [hdb]
        exact fun row hrow => h row (List.mem_filter.mp hrow).1

-- The session key and the account id that a change request carries.
def Request.holds : Request → Option (Key × Nat)
  | .change session key _ _ => some (key, session.accountId)
  | .changeFound seen key _ _ => some (key, seen.account.id)
  | .changeVerified seen key _ => some (key, seen.account.id)
  | _ => none

-- The key was given out, so no later session gets it, and no session with it
-- belongs to another id.
def Bound (site : Site) (key : Key) (id : Nat) : Prop :=
  key ∈ site.keys ∧ ∀ row ∈ site.db.sessions, row.tokenSha256 = key → row.accountId = id

-- A step forgets no key, and a session it adds has a new key.
structure Site.Onward (site site' : Site) : Prop where
  keys : ∀ key ∈ site.keys, key ∈ site'.keys
  sessions : ∀ row ∈ site'.db.sessions,
    (∃ old ∈ site.db.sessions, old.tokenSha256 = row.tokenSha256 ∧ old.accountId = row.accountId) ∨
      row.tokenSha256 ∉ site.keys ∧ row.tokenSha256 ∈ site'.keys

theorem Bound.onward (h : Bound site key id) (ho : site.Onward site') : Bound site' key id := by
  refine ⟨ho.keys key h.1, ?_⟩
  intro row hrow hkey
  rcases ho.sessions row hrow with ⟨old, hold, htoken, hid⟩ | ⟨hnew, -⟩
  · rw [← hid]
    exact h.2 old hold (htoken.trans hkey)
  · exact absurd h.1 (hkey ▸ hnew)

theorem Site.Onward.filter {keep : SessionRow → Bool}
    (hsessions : site'.db.sessions = site.db.sessions.filter keep)
    (hkeys : site.keys ⊆ site'.keys) : site.Onward site' where
  keys _ hkey := hkeys hkey
  sessions row hrow := by
    rw [hsessions] at hrow
    exact .inl ⟨row, (List.mem_filter.mp hrow).1, rfl, rfl⟩

theorem Site.Onward.same (hsessions : site'.db.sessions = site.db.sessions)
    (hkeys : site.keys ⊆ site'.keys) : site.Onward site' where
  keys _ hkey := hkeys hkey
  sessions row hrow := .inl ⟨row, hsessions ▸ hrow, rfl, rfl⟩

theorem Site.Onward.insert {keep : SessionRow → Bool} {new : NewSession} {now : Int}
    (hnew : new.tokenSha256 ∉ site.keys)
    (hsessions : site'.db.sessions = site.db.sessions.filter keep ++ [new.row now])
    (hkeys : site'.keys = new.tokenSha256 :: site.keys) : site.Onward site' where
  keys key hkey := by
    rw [hkeys]
    exact List.mem_cons_of_mem _ hkey
  sessions row hrow := by
    rw [hsessions, List.mem_append, List.mem_singleton] at hrow
    rcases hrow with hrow | rfl
    · exact .inl ⟨row, (List.mem_filter.mp hrow).1, rfl, rfl⟩
    · exact .inr ⟨hnew, by simp [hkeys, NewSession.row]⟩

theorem step_onward (hs : step rules s act = some t) : s.site.Onward t.site := by
  cases step_write hs with
  | quiet hq =>
      refine ⟨fun key hkey => hq.keys ▸ hkey, ?_⟩
      intro row hrow
      exact .inl (hq.sessions row hrow)
  | login i draw now seen hact hr hkey hsite =>
      rw [hsite, Site.login]
      rcases s.site.db.createSession_cases ⟨draw.key, seen.account.id, draw.csrf⟩ now with
        ⟨db', hdb, -, -, -, hsessions⟩ | ⟨e, hdb⟩
      · rw [hdb]
        exact .insert hkey hsessions rfl
      · rw [hdb]
        exact .filter rfl (List.subset_cons_self _ _)
  | change i draw now seen current new hact hr hkey hhash hsite =>
      rw [hsite, Site.changePassword]
      rcases s.site.db.changePassword_cases seen.account.id draw.hash current
        ⟨draw.key, seen.account.id, draw.csrf⟩ now with
        ⟨ended, db', hdb, -, -, -, hsessions⟩ | ⟨e, hdb⟩
      · rw [hdb]
        exact .insert hkey hsessions rfl
      · rw [hdb]
        exact .same rfl (List.subset_cons_self _ _)
  | reset username hash hhash hsite =>
      rw [hsite, Site.resetPassword]
      rcases s.site.db.resetPassword_cases username hash with
        ⟨a, ended, db', -, hdb, -, hsessions⟩ | ⟨-, hdb⟩
      · rw [hdb]
        exact .filter hsessions (List.Subset.refl _)
      · rw [hdb]
        exact .same rfl (List.Subset.refl _)
  | create username hash hhash hsite =>
      rw [hsite, Site.createAccount]
      rcases s.site.db.createAccount_cases username hash with ⟨db', hdb, -, hsessions⟩ | hdb
      · rw [hdb]
        exact .same hsessions (List.Subset.refl _)
      · rw [hdb]
        exact .same rfl (List.Subset.refl _)
  | delete id hsite =>
      rw [hsite]
      rcases s.site.db.deleteAccount_cases id with hdb | hdb
      · rw [hdb]
        exact .same rfl (List.Subset.refl _)
      · rw [hdb]
        exact .filter rfl (List.Subset.refl _)

-- A change request takes its key and id from a session that `require_session`
-- found, and keeps them.
theorem next_holds (h : r.next rules site draw now = some (site', r'))
    (hholds : r'.holds = some (key, id)) :
    r.holds = some (key, id) ∨ ∃ row ∈ site.db.sessions, row.tokenSha256 = key ∧ row.accountId = id := by
  cases r with
  | login l =>
      cases h
      cases hholds
  | loginFound l seen =>
      cases seen with
      | none =>
          cases h
          cases hholds
      | some seen =>
          simp only [Request.next] at h
          split at h <;> cases h <;> cases hholds
  | loginVerified l seen =>
      simp only [Request.next] at h
      split at h <;> cases h <;> cases hholds
  | loginReady seen =>
      simp only [Request.next] at h
      split at h
      · cases h
      · split at h <;> cases h <;> cases hholds
  | guarded key' csrf handler =>
      simp only [Request.next] at h
      rcases site.db.session_cases key' now with hnone | ⟨row, hrow, a, -, hkey, -, -, hsome⟩
      · rw [hnone] at h
        cases h
        cases hholds
      · rw [hsome] at h
        simp only at h
        split at h
        · cases h
          right
          refine ⟨row, hrow, ?_⟩
          cases handler with
          | changePassword current new =>
              simp only [Handler.start] at hholds
              split at hholds <;> cases hholds
              exact ⟨hkey, rfl⟩
          | create username password =>
              simp only [Handler.start] at hholds
              split at hholds <;> cases hholds
          | logout => cases hholds
          | delete id => cases hholds
        · cases h
          cases hholds
  | logout key =>
      cases h
      cases hholds
  | create username password =>
      simp only [Request.next] at h
      split at h
      · split at h <;> cases h <;> cases hholds
      · cases h
  | delete id =>
      simp only [Request.next] at h
      split at h <;> cases h <;> cases hholds
  | change session key current new =>
      simp only [Request.next] at h
      split at h <;> cases h
      · cases hholds
      · rename_i a ha
        cases hholds
        exact .inl (by simp [Request.holds, Site.see, (accountById_eq_some.mp ha).2])
  | changeFound seen key current new =>
      simp only [Request.next] at h
      split at h <;> cases h
      · exact .inl hholds
      · cases hholds
  | changeVerified seen key new =>
      simp only [Request.next] at h
      split at h
      · split at h <;> cases h <;> cases hholds
      · cases h
  | answered answer => cases h

theorem step_holds (hs : step rules s act = some t) (hr : r ∈ t.requests)
    (hholds : r.holds = some (key, id)) :
    (∃ old ∈ s.requests, old.holds = some (key, id)) ∨
      ∃ row ∈ s.site.db.sessions, row.tokenSha256 = key ∧ row.accountId = id := by
  cases act with
  | login l =>
      cases hs
      rcases List.mem_append.mp hr with hr | hr
      · exact .inl ⟨r, hr, hholds⟩
      · rw [List.mem_singleton.mp hr] at hholds
        cases hholds
  | request key' csrf handler =>
      cases hs
      rcases List.mem_append.mp hr with hr | hr
      · exact .inl ⟨r, hr, hholds⟩
      · rw [List.mem_singleton.mp hr] at hholds
        cases hholds
  | advance i draw now =>
      obtain ⟨old, r', hold, hnext, hrequests⟩ := advance_eq_some hs
      rw [hrequests] at hr
      rcases List.mem_or_eq_of_mem_set hr with hr | rfl
      · exact .inl ⟨r, hr, hholds⟩
      · rcases next_holds hnext hholds with hsame | hrow
        · exact .inl ⟨old, List.mem_of_getElem? hold, hsame⟩
        · exact .inr hrow
  | abandon i answer =>
      simp only [step, Option.ite_none_right_eq_some, Option.some.injEq] at hs
      obtain ⟨-, rfl⟩ := hs
      rcases List.mem_or_eq_of_mem_set hr with hr | rfl
      · exact .inl ⟨r, hr, hholds⟩
      · cases hholds
  | adminReset username password hash =>
      simp only [step, Option.ite_none_right_eq_some, Option.some.injEq] at hs
      obtain ⟨-, rfl⟩ := hs
      exact .inl ⟨r, hr, hholds⟩
  | adminCreate username password hash =>
      simp only [step, Option.ite_none_right_eq_some, Option.some.injEq] at hs
      obtain ⟨-, rfl⟩ := hs
      exact .inl ⟨r, hr, hholds⟩

structure Owned (s : State) : Prop where
  known : ∀ row ∈ s.site.db.sessions, row.tokenSha256 ∈ s.site.keys
  bound : ∀ r ∈ s.requests, ∀ key id, r.holds = some (key, id) → Bound s.site key id

theorem step_owned (h : Owned s) (hs : step rules s act = some t) : Owned t := by
  have honward := step_onward hs
  constructor
  · intro row hrow
    rcases honward.sessions row hrow with ⟨old, hold, htoken, -⟩ | ⟨-, hnew⟩
    · rw [← htoken]
      exact honward.keys _ (h.known old hold)
    · exact hnew
  · intro r hr key id hholds
    rcases step_holds hs hr hholds with ⟨old, hold, hsame⟩ | ⟨row, hrow, hkey, hid⟩
    · exact (h.bound old hold key id hsame).onward honward
    · have hbound : Bound s.site key id := by
        refine ⟨hkey ▸ h.known row hrow, ?_⟩
        intro other hother hsame
        rw [List.inj_on_of_nodup_map s.site.db.tokens hother hrow (hsame.trans hkey.symm)]
        exact hid
      exact hbound.onward honward

theorem start_granted (db : Db) : Granted (start db).site := by
  intro row hrow p hp
  simp only [start, Option.bind_eq_some_iff, Option.map_eq_some_iff] at hp
  obtain ⟨row', hrow', a, ha, rfl⟩ := hp
  have hkey : row'.tokenSha256 = row.tokenSha256 := by simpa using List.find?_some hrow'
  have heq : row' = row :=
    List.inj_on_of_nodup_map db.tokens (List.mem_of_find?_eq_some hrow') hrow hkey
  subst heq
  exact ⟨(accountById_eq_some.mp ha).2.symm, rfl⟩

theorem start_owned (db : Db) : Owned (start db) where
  known row hrow := List.mem_map_of_mem hrow
  bound r hr := by cases hr

-- The commit of a change writes to the account with the id it carries only.
theorem changePassword_untouched {db : Db} {hash csrf : String} {current key : Key} {id other : Nat}
    (hcurrent : ∀ row ∈ db.sessions, row.tokenSha256 = current → row.accountId = id)
    (hother : other ≠ id) :
    Untouched db (db.changePassword id hash current ⟨key, id, csrf⟩ now).2 other := by
  rcases db.changePassword_cases id hash current ⟨key, id, csrf⟩ now with
    ⟨ended, db', hdb, -, haccounts, -, hsessions⟩ | ⟨e, hdb⟩
  · rw [hdb]
    constructor
    · ext a
      rw [accountById_eq_some, accountById_eq_some, haccounts, List.mem_map]
      constructor
      · rintro ⟨⟨b, hb, rfl⟩, hid⟩
        rw [withHash_id] at hid
        rw [withHash_of_ne (hid ▸ hother)]
        exact ⟨hb, hid⟩
      · rintro ⟨ha, rfl⟩
        exact ⟨⟨a, ha, withHash_of_ne hother⟩, rfl⟩
    · rw [hsessions, List.filter_append, List.filter_filter]
      have hnew : [NewSession.row ⟨key, id, csrf⟩ now].filter (·.accountId = other) = [] := by
        simp [NewSession.row, hother.symm]
      rw [hnew, List.append_nil]
      apply List.filter_congr
      intro row hrow
      simp only [afterChange, Bool.decide_and, Bool.and_eq_left_iff_imp, decide_eq_true_eq,
        Bool.and_eq_true]
      rintro rfl
      exact ⟨hother, fun hkey => hother (hcurrent row hrow hkey)⟩
  · rw [hdb]
    exact ⟨rfl, rfl⟩

theorem step_untouched {i : Nat} {seen : Seen} {current : Key} {new : String} (h : Owned s)
    (hr : s.requests[i]? = some (.changeVerified seen current new))
    (hok : SameAccount s (.advance i draw now)) (hs : step rules s (.advance i draw now) = some t)
    (hid : id = seen.account.id → s.site.births id ≠ seen.birth) :
    Untouched s.site.db t.site.db id := by
  have hbound := h.bound _ (List.mem_of_getElem? hr) current seen.account.id rfl
  have hdb : t.site.db = (s.site.db.changePassword seen.account.id draw.hash current
      ⟨draw.key, seen.account.id, draw.csrf⟩ now).2 := by
    rw [advance_changeVerified hr hs, Site.changePassword]
    split <;> rename_i hchange <;> rw [hchange]
  rw [hdb]
  by_cases hsame : id = seen.account.id
  · -- The id was given to another account, so its row would have been seen.
    rcases s.site.db.changePassword_cases seen.account.id draw.hash current
      ⟨draw.key, seen.account.id, draw.csrf⟩ now with ⟨_, _, -, howned, -⟩ | ⟨e, hchange⟩
    · obtain ⟨a, ha, haid⟩ := List.mem_map.mp howned
      have hbirth := hok seen (by simp [hr, Request.writesFor]) a
        (accountById_eq_some.mpr ⟨ha, haid⟩)
      rw [haid] at hbirth
      exact absurd (hsame ▸ hbirth) (hid hsame)
    · rw [hchange]
      exact ⟨rfl, rfl⟩
  · exact changePassword_untouched hbound.2 hsame

-- In every run in which no id that a request carries over its password check
-- is given to another account before the request writes, a verified password
-- counts for its own account only.
theorem password_proves_its_account (rules : Rules) (db : Db) (acts : List Action) (s : State)
    (hok : Along (step rules) SameAccount (start db) acts)
    (hrun : exec (step rules) (start db) acts = some s) :
    Resolves s.site ∧
    ∀ i draw now seen current new t,
      s.requests[i]? = some (.changeVerified seen current new) →
      SameAccount s (.advance i draw now) → step rules s (.advance i draw now) = some t →
      ∀ id, (id = seen.account.id → s.site.births id ≠ seen.birth) →
        Untouched s.site.db t.site.db id := by
  have hgranted : Granted s.site :=
    exec_invariant (fun s => Granted s.site) (fun _ _ _ h hok hs => step_granted h hok hs)
      (start_granted db) hok hrun
  have howned : Owned s :=
    exec_invariant_all Owned (fun _ _ _ h hs => step_owned h hs) (start_owned db) hrun
  exact ⟨hgranted.resolves, fun i draw now seen current new t hr hact hs id hid =>
    step_untouched howned hr hact hs hid⟩

def twoAccounts : Db where
  accounts := [⟨1, "admin", "admin password#1"⟩, ⟨2, "bob", "bob password#2"⟩]
  sessions := [⟨1, 1, "csrf1", 0, 86400000⟩, ⟨2, 2, "csrf2", 0, 86400000⟩]
  ids := by decide
  names := by decide
  tokens := by decide
  owners := by decide

-- A login and a password change of bob verify his password.
def bobVerified : List Action := [
  .login ⟨"bob", "bob password", none⟩,
  .request 2 (some "csrf2") (.changePassword "bob password" "new password"),
  .advance 0 ⟨0, "", ""⟩ 1, .advance 0 ⟨0, "", ""⟩ 1,
  .advance 1 ⟨0, "", ""⟩ 1, .advance 1 ⟨0, "", ""⟩ 1, .advance 1 ⟨0, "", ""⟩ 1]

-- The admin deletes bob and adds carol, who gets his id.
def bobReplaced : List Action := [
  .request 1 (some "csrf1") (.delete 2),
  .request 1 (some "csrf1") (.create "carol" "carol password"),
  .advance 2 ⟨0, "", ""⟩ 2, .advance 2 ⟨0, "", ""⟩ 2,
  .advance 3 ⟨0, "", ""⟩ 2, .advance 3 ⟨0, "", "carol password#3"⟩ 2]

def loginEnds : List Action := [.advance 0 ⟨0, "", ""⟩ 3, .advance 0 ⟨3, "csrf3", ""⟩ 3]

def changeCommits : Action := .advance 1 ⟨4, "csrf4", "new password#4"⟩ 4

theorem password_proves_its_account_bob :
    ∃ s t session, exec (step plainRules) (start twoAccounts) (bobVerified ++ loginEnds) = some s ∧
      step plainRules s changeCommits = some t ∧ (s.site.db.session 3 4).1 = some session ∧
      session.accountId = 2 ∧ Untouched s.site.db t.site.db 1 := by
  obtain ⟨s, hs, hstate⟩ := Option.map_eq_some_iff.mp (show
    (exec (step plainRules) (start twoAccounts) (bobVerified ++ loginEnds)).map
      (fun s => (s.site.grants 3, (s.site.db.session 3 4).1, s.requests[1]?,
        (step plainRules s changeCommits).isSome)) =
      some (some ⟨2, 0, "bob password#2"⟩, some ⟨2, "bob", "csrf3"⟩,
        some (.changeVerified ⟨⟨2, "bob", "bob password#2"⟩, 0⟩ 2 "new password"), true) from rfl)
  simp only [Prod.mk.injEq] at hstate
  obtain ⟨hgrant, hsession, hrequest, hcommit⟩ := hstate
  obtain ⟨t, ht⟩ := Option.isSome_iff_exists.mp hcommit
  have hok : Along (step plainRules) SameAccount (start twoAccounts)
      (bobVerified ++ loginEnds ++ [changeCommits]) := by decide
  have hboth := password_proves_its_account plainRules twoAccounts (bobVerified ++ loginEnds) s
    (by decide) hs
  exact ⟨s, t, _, hs, ht, hsession, (hboth.1 3 _ 4 _ hgrant hsession).1,
    hboth.2 1 _ 4 _ 2 _ t hrequest (hok.append_right hs).1 ht 1 (by simp)⟩

-- The login of bob ends in a session of carol, and his change replaces her
-- password.
theorem password_proves_reused_id :
    ∃ s t, exec (step plainRules) (start twoAccounts) (bobVerified ++ bobReplaced ++ loginEnds) =
        some s ∧
      (s.site.db.session 3 4).1 = some ⟨2, "carol", "csrf3"⟩ ∧ ¬Resolves s.site ∧
      s.requests[1]? = some (.changeVerified ⟨⟨2, "bob", "bob password#2"⟩, 0⟩ 2 "new password") ∧
      s.site.births 2 ≠ 0 ∧ step plainRules s changeCommits = some t ∧
      ¬Untouched s.site.db t.site.db 2 := by
  obtain ⟨s, hs, hstate⟩ := Option.map_eq_some_iff.mp (show
    (exec (step plainRules) (start twoAccounts) (bobVerified ++ bobReplaced ++ loginEnds)).map
      (fun s => (s.site.grants 3, (s.site.db.session 3 4).1, s.site.births 2, s.requests[1]?,
        s.site.db.accountById 2,
        (step plainRules s changeCommits).map (·.site.db.accountById 2))) =
      some (some ⟨2, 0, "bob password#2"⟩, some ⟨2, "carol", "csrf3"⟩, 1,
        some (.changeVerified ⟨⟨2, "bob", "bob password#2"⟩, 0⟩ 2 "new password"),
        some ⟨2, "carol", "carol password#3"⟩, some (some ⟨2, "carol", "new password#4"⟩)) from rfl)
  simp only [Prod.mk.injEq] at hstate
  obtain ⟨hgrant, hsession, hbirth, hrequest, hbefore, hcommit⟩ := hstate
  obtain ⟨t, ht, hafter⟩ := Option.map_eq_some_iff.mp hcommit
  refine ⟨s, t, hs, hsession, ?_, hrequest, by simp [hbirth], ht, ?_⟩
  · intro hresolves
    have hsame := (hresolves 3 _ 4 _ hgrant hsession).2
    simp [hbirth] at hsame
  · rintro ⟨haccount, -⟩
    rw [hbefore, hafter] at haccount
    simp at haccount

end Lodger.Auth
