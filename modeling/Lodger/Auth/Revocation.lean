import Lodger.Auth.Lemmas

namespace Lodger.Auth

open Lodger.Lib Lodger.Db

variable {rules : Rules} {site site' : Site} {s t : State} {act : Action}

-- When the request writes, the account it read, if it still exists, has the
-- hash that the request read.
def HashUnchanged (s : State) : Action → Prop
  | .advance i _ _ => ∀ seen ∈ s.requests[i]?.bind Request.writesFor,
      ∀ a ∈ s.site.db.accountById seen.account.id,
        s.site.births a.id = seen.birth → a.passwordHash = seen.account.passwordHash
  | _ => True

instance (s : State) : ∀ act, Decidable (HashUnchanged s act)
  | .advance i _ _ => inferInstanceAs (Decidable (∀ seen ∈ s.requests[i]?.bind Request.writesFor,
      ∀ a ∈ s.site.db.accountById seen.account.id,
        s.site.births a.id = seen.birth → a.passwordHash = seen.account.passwordHash))
  | .login .. | .request .. | .abandon .. | .adminReset .. | .adminCreate .. =>
      inferInstanceAs (Decidable True)

-- No session row of an account was given by a login for a password of that
-- account that a change or a reset replaced.
def Revoked (site : Site) : Prop :=
  ∀ row ∈ site.db.sessions, ∀ p, site.grants row.tokenSha256 = some p → row.accountId = p.id →
    site.births p.id = p.birth → p ∉ site.retired

-- The next call of request `i` is the write of a password change that verified
-- the replaced password `p` of an account that still exists.
def StaleChange (s : State) (act : Action) (p : Password) : Prop :=
  ∃ i draw now seen current new, act = .advance i draw now ∧
    s.requests[i]? = some (.changeVerified seen current new) ∧ seen.password = p ∧
    p ∈ s.site.retired ∧ s.site.births p.id = p.birth

-- The invariant: sessions of logins stand for the stored hash, and no stored
-- hash is one that was replaced, because each hash has its own salt.
structure Settled (site : Site) : Prop where
  known : ∀ a ∈ site.db.accounts, a.passwordHash ∈ site.hashes
  retiredKnown : ∀ p ∈ site.retired, p.hash ∈ site.hashes
  replaced : ∀ p ∈ site.retired, ∀ a ∈ site.db.accounts, a.id = p.id → a.passwordHash ≠ p.hash
  current : ∀ row ∈ site.db.sessions, ∀ p, site.grants row.tokenSha256 = some p →
    row.accountId = p.id ∧ (site.births p.id = p.birth →
      ∀ a ∈ site.db.accounts, a.id = p.id → a.passwordHash = p.hash)

theorem Settled.revoked (h : Settled site) : Revoked site := by
  intro row hrow p hp hid hbirth hretired
  obtain ⟨a, ha, haid⟩ := List.mem_map.mp (site.db.owners row hrow)
  have hcurrent := (h.current row hrow p hp).2 hbirth a ha (haid.trans hid)
  exact h.replaced p hretired a ha (haid.trans hid) hcurrent

theorem Settled.quiet (h : Settled site) (hq : site.Quiet site') : Settled site' where
  known := by
    rw [hq.accounts, hq.hashes]
    exact h.known
  retiredKnown := by
    rw [hq.retired, hq.hashes]
    exact h.retiredKnown
  replaced := by
    rw [hq.retired, hq.accounts]
    exact h.replaced
  current row hrow p hp := by
    obtain ⟨old, hold, htoken, hid⟩ := hq.sessions row hrow
    rw [hq.grants, ← htoken] at hp
    rw [hq.births, hq.accounts, ← hid]
    exact h.current old hold p hp

theorem Settled.login {seen : Seen} {key : Key} {csrf : String} {now : Int} (h : Settled site)
    (hsame : ∀ a, site.db.accountById seen.account.id = some a →
      site.births a.id = seen.birth → a.passwordHash = seen.account.passwordHash) :
    Settled (site.login seen ⟨key, seen.account.id, csrf⟩ now).2 := by
  unfold Site.login
  rcases site.db.createSession_cases ⟨key, seen.account.id, csrf⟩ now with
    ⟨db', hdb, -, haccounts, hfresh, hsessions⟩ | ⟨e, hdb⟩
  · rw [hdb]
    refine ⟨?_, h.retiredKnown, ?_, ?_⟩
    · simpa [haccounts] using h.known
    · simpa [haccounts] using h.replaced
    · intro row hrow p hp
      simp only [haccounts, hsessions, List.mem_append, List.mem_singleton] at hrow hp ⊢
      rcases hrow with hrow | rfl
      · have hne : row.tokenSha256 ≠ key := by
          rintro rfl
          exact hfresh (List.mem_map_of_mem hrow)
        rw [Function.update_of_ne hne] at hp
        exact h.current row (List.mem_filter.mp hrow).1 p hp
      · simp only [NewSession.row, Function.update_self, Option.some.injEq] at hp
        subst hp
        refine ⟨rfl, ?_⟩
        intro hbirth a ha haid
        simp only [Seen.password] at hbirth haid ⊢
        exact hsame a (accountById_eq_some.mpr ⟨ha, haid⟩) (haid ▸ hbirth)
  · rw [hdb]
    refine ⟨h.known, h.retiredKnown, h.replaced, ?_⟩
    intro row hrow
    exact h.current row (List.mem_filter.mp hrow).1

-- A new hash for the account `id`, after which no old session of it is left.
theorem Settled.rehash {id : Nat} {hash : String} {grants : Key → Option Password} {db' : Db}
    {keys : List Key} {old : List Password} (h : Settled site) (hhash : hash ∉ site.hashes)
    (hold : ∀ p ∈ old, ∃ a ∈ site.db.accounts, p = (site.see a).password ∧ a.id = id)
    (haccounts : db'.accounts = site.db.accounts.map (withHash id hash))
    (hsessions : ∀ row ∈ db'.sessions, ∀ p, grants row.tokenSha256 = some p →
      row ∈ site.db.sessions ∧ row.accountId ≠ id ∧ site.grants row.tokenSha256 = some p) :
    Settled { site with
      db := db', grants, retired := old ++ site.retired, hashes := hash :: site.hashes, keys } where
  known a ha := by
    simp only [haccounts, List.mem_map] at ha
    obtain ⟨b, hb, rfl⟩ := ha
    by_cases hid : b.id = id
    · simp [withHash_of_eq hid]
    · rw [withHash_of_ne hid]
      exact List.mem_cons_of_mem _ (h.known b hb)
  retiredKnown p hp := by
    rcases List.mem_append.mp hp with hp | hp
    · obtain ⟨a, ha, rfl, -⟩ := hold p hp
      exact List.mem_cons_of_mem _ (h.known a ha)
    · exact List.mem_cons_of_mem _ (h.retiredKnown p hp)
  replaced p hp a ha haid := by
    simp only [haccounts, List.mem_map] at ha
    obtain ⟨b, hb, rfl⟩ := ha
    by_cases hid : b.id = id
    · -- The new hash was never seen before, the replaced one was.
      rw [withHash_of_eq hid]
      rintro rfl
      rcases List.mem_append.mp hp with hp | hp
      · obtain ⟨c, hc, rfl, -⟩ := hold p hp
        exact hhash (h.known c hc)
      · exact hhash (h.retiredKnown p hp)
    · rw [withHash_id] at haid
      rw [withHash_of_ne hid]
      rcases List.mem_append.mp hp with hp | hp
      · obtain ⟨c, -, rfl, hc⟩ := hold p hp
        exact absurd (haid.trans hc) hid
      · exact h.replaced p hp b hb haid
  current row hrow p hp := by
    obtain ⟨hmem, hid, hgrant⟩ := hsessions row hrow p hp
    obtain ⟨hrowid, hcurrent⟩ := h.current row hmem p hgrant
    refine ⟨hrowid, ?_⟩
    intro hbirth a ha haid
    simp only [haccounts, List.mem_map] at ha
    obtain ⟨b, hb, rfl⟩ := ha
    rw [withHash_id] at haid
    rw [withHash_of_ne (by rw [haid, ← hrowid]; exact hid)]
    exact hcurrent hbirth b hb haid

theorem Settled.changePassword {id : Nat} {hash csrf : String} {current key : Key} {now : Int}
    (h : Settled site) (hhash : hash ∉ site.hashes) :
    Settled (site.changePassword id hash current ⟨key, id, csrf⟩ now).2 := by
  unfold Site.changePassword
  rcases site.db.changePassword_cases id hash current ⟨key, id, csrf⟩ now with
    ⟨ended, db', hdb, -, haccounts, hfresh, hsessions⟩ | ⟨e, hdb⟩
  · rw [hdb]
    refine h.rehash hhash ?_ haccounts ?_
    · intro p hp
      obtain ⟨a, ha, rfl⟩ := List.mem_map.mp hp
      obtain ⟨hmem, hid⟩ := accountById_eq_some.mp (Option.mem_toList.mp ha)
      exact ⟨a, hmem, rfl, hid⟩
    · intro row hrow p hp
      rw [hsessions, List.mem_append, List.mem_singleton] at hrow
      rcases hrow with hrow | rfl
      · have hne : row.tokenSha256 ≠ key := by
          rintro rfl
          exact hfresh (List.mem_map_of_mem hrow)
        rw [Function.update_of_ne hne] at hp
        obtain ⟨hmem, hafter⟩ := List.mem_filter.mp hrow
        simp only [afterChange, decide_eq_true_eq] at hafter
        exact ⟨hmem, hafter.1, hp⟩
      · simp [NewSession.row] at hp
  · rw [hdb]
    exact ⟨fun a ha => List.mem_cons_of_mem _ (h.known a ha),
      fun p hp => List.mem_cons_of_mem _ (h.retiredKnown p hp), h.replaced, h.current⟩

theorem Settled.resetPassword {username hash : String} (h : Settled site)
    (hhash : hash ∉ site.hashes) : Settled (site.resetPassword username hash).2 := by
  unfold Site.resetPassword
  rcases site.db.resetPassword_cases username hash with
    ⟨a, ended, db', ha, hdb, haccounts, hsessions⟩ | ⟨hnone, hdb⟩
  · rw [hdb, ha]
    refine h.rehash hhash ?_ haccounts ?_
    · intro p hp
      simp only [Option.toList_some, List.map_cons, List.map_nil, List.mem_singleton] at hp
      exact ⟨a, findAccount_mem ha, hp, rfl⟩
    · intro row hrow p hp
      rw [hsessions] at hrow
      obtain ⟨hmem, hid⟩ := List.mem_filter.mp hrow
      exact ⟨hmem, by simpa using hid, hp⟩
  · rw [hdb, hnone]
    exact ⟨fun a ha => List.mem_cons_of_mem _ (h.known a ha),
      fun p hp => List.mem_cons_of_mem _ (h.retiredKnown p hp), h.replaced, h.current⟩

theorem Settled.createAccount {username hash : String} (h : Settled site)
    (hhash : hash ∉ site.hashes) : Settled (site.createAccount username hash).2 := by
  unfold Site.createAccount
  rcases site.db.createAccount_cases username hash with ⟨db', hdb, haccounts, hsessions⟩ | hdb
  · rw [hdb]
    refine ⟨?_, fun p hp => List.mem_cons_of_mem _ (h.retiredKnown p hp), ?_, ?_⟩
    · intro a ha
      simp only [haccounts, List.mem_append, List.mem_singleton] at ha
      rcases ha with ha | rfl
      · exact List.mem_cons_of_mem _ (h.known a ha)
      · exact List.mem_cons_self
    · intro p hp a ha haid
      simp only [haccounts, List.mem_append, List.mem_singleton] at ha
      rcases ha with ha | rfl
      · exact h.replaced p hp a ha haid
      · rintro rfl
        exact hhash (h.retiredKnown p hp)
    · intro row hrow p hp
      simp only [hsessions] at hrow
      obtain ⟨hrowid, hcurrent⟩ := h.current row hrow p hp
      -- The new id is no session's account.
      have hne : p.id ≠ nextId site.db.accounts := by
        rw [← hrowid]
        intro heq
        exact nextId_notMem _ (heq ▸ site.db.owners row hrow)
      refine ⟨hrowid, ?_⟩
      intro hbirth a ha haid
      simp only [Function.update_of_ne hne, haccounts, List.mem_append, List.mem_singleton]
        at hbirth ha
      rcases ha with ha | rfl
      · exact hcurrent hbirth a ha haid
      · exact absurd haid.symm hne
  · rw [hdb]
    exact ⟨fun a ha => List.mem_cons_of_mem _ (h.known a ha),
      fun p hp => List.mem_cons_of_mem _ (h.retiredKnown p hp), h.replaced, h.current⟩

theorem Settled.deleteAccount {id : Nat} (h : Settled site) :
    Settled { site with db := (site.db.deleteAccount id).2 } := by
  rcases site.db.deleteAccount_cases id with hdb | hdb
  · rw [hdb]
    exact h
  · rw [hdb]
    refine ⟨fun a ha => h.known a (List.mem_filter.mp ha).1, h.retiredKnown,
      fun p hp a ha => h.replaced p hp a (List.mem_filter.mp ha).1, ?_⟩
    intro row hrow p hp
    obtain ⟨hrowid, hcurrent⟩ := h.current row (List.mem_filter.mp hrow).1 p hp
    exact ⟨hrowid, fun hbirth a ha => hcurrent hbirth a (List.mem_filter.mp ha).1⟩

theorem step_settled (h : Settled s.site) (hok : HashUnchanged s act)
    (hs : step rules s act = some t) : Settled t.site := by
  cases step_write hs with
  | quiet hq => exact h.quiet hq
  | login i draw now seen hact hr hkey hsite =>
      subst hact
      rw [hsite]
      exact h.login (hok seen (by simp [hr, Request.writesFor]))
  | change i draw now seen current new hact hr hkey hhash hsite =>
      rw [hsite]
      exact h.changePassword hhash
  | reset username hash hhash hsite =>
      rw [hsite]
      exact h.resetPassword hhash
  | create username hash hhash hsite =>
      rw [hsite]
      exact h.createAccount hhash
  | delete id hsite =>
      rw [hsite]
      exact h.deleteAccount

theorem start_settled (db : Db) : Settled (start db).site where
  known a ha := List.mem_map_of_mem ha
  retiredKnown p hp := by cases hp
  replaced p hp := by cases hp
  current row hrow p hp := by
    simp only [start, Option.bind_eq_some_iff, Option.map_eq_some_iff] at hp
    obtain ⟨row', hrow', a, ha, rfl⟩ := hp
    have hkey : row'.tokenSha256 = row.tokenSha256 := by simpa using List.find?_some hrow'
    have heq : row' = row :=
      List.inj_on_of_nodup_map db.tokens (List.mem_of_find?_eq_some hrow') hrow hkey
    subst heq
    obtain ⟨hmem, hid⟩ := accountById_eq_some.mp ha
    refine ⟨hid.symm, ?_⟩
    intro _ b hb hbid
    rw [List.inj_on_of_nodup_map db.ids hb hmem hbid]

theorem run_settled {acts : List Action} {db : Db}
    (hok : Along (step rules) HashUnchanged (start db) acts)
    (hrun : exec (step rules) (start db) acts = some s) : Settled s.site :=
  exec_invariant (fun s => Settled s.site) (fun _ _ _ h hok hs => step_settled h hok hs)
    (start_settled db) hok hrun

-- A stale change finds no row with the hash that it read.
theorem Settled.staleChange {p : Password} (h : Settled s.site) (hok : HashUnchanged s act)
    (hstale : StaleChange s act p) (hs : step rules s act = some t) :
    t.site.db.accounts = s.site.db.accounts := by
  obtain ⟨i, draw, now, seen, current, new, rfl, hr, rfl, hretired, hbirth⟩ := hstale
  rw [advance_changeVerified hr hs, Site.changePassword]
  rcases s.site.db.changePassword_cases seen.account.id draw.hash current
    ⟨draw.key, seen.account.id, draw.csrf⟩ now with ⟨_, _, -, howned, -⟩ | ⟨e, hdb⟩
  · obtain ⟨a, ha, haid⟩ := List.mem_map.mp howned
    have hsame := hok seen (by simp [hr, Request.writesFor]) a
      (accountById_eq_some.mpr ⟨ha, haid⟩) (haid ▸ hbirth)
    exact absurd hsame (h.replaced _ hretired a ha haid)
  · rw [hdb]

-- In every run whose logins and changes write only while the hash they read
-- is still the stored one, a change or a reset ends what the old password
-- gave: no session of it is left, none is added later, and no change that
-- verified it overwrites the new hash.
theorem password_change_revokes (rules : Rules) (db : Db) (acts : List Action) (s : State)
    (hok : Along (step rules) HashUnchanged (start db) acts)
    (hrun : exec (step rules) (start db) acts = some s) :
    Revoked s.site ∧
    ∀ act t p, HashUnchanged s act → StaleChange s act p → step rules s act = some t →
      t.site.db.accounts = s.site.db.accounts := by
  have hsettled := run_settled hok hrun
  exact ⟨hsettled.revoked, fun act t p hact hstale hs => hsettled.staleChange hact hstale hs⟩

def oneAdmin : Db where
  accounts := [⟨1, "admin", "old password#1"⟩]
  sessions := [⟨1, 1, "csrf", 0, 86400000⟩]
  ids := by decide
  names := by decide
  tokens := by decide
  owners := by decide

-- A login that runs alone, then a change that runs alone.
def inTurn : List Action := [
  .login ⟨"admin", "old password", none⟩,
  .advance 0 ⟨0, "", ""⟩ 1, .advance 0 ⟨0, "", ""⟩ 1, .advance 0 ⟨0, "", ""⟩ 1,
  .advance 0 ⟨2, "csrf2", ""⟩ 1,
  .request 1 (some "csrf") (.changePassword "old password" "new password"),
  .advance 1 ⟨0, "", ""⟩ 2, .advance 1 ⟨0, "", ""⟩ 2, .advance 1 ⟨0, "", ""⟩ 2,
  .advance 1 ⟨3, "csrf3", "new password#2"⟩ 2]

theorem password_change_revokes_inTurn :
    ∃ s, exec (step plainRules) (start oneAdmin) inTurn = some s ∧
      s.site.retired = [⟨1, 0, "old password#1"⟩] ∧ Revoked s.site := by
  obtain ⟨s, hs, hretired⟩ := Option.map_eq_some_iff.mp (show
    (exec (step plainRules) (start oneAdmin) inTurn).map (·.site.retired) =
      some [⟨1, 0, "old password#1"⟩] by decide)
  exact ⟨s, hs, hretired,
    (password_change_revokes plainRules oneAdmin inTurn s (by decide) hs).1⟩

-- Two changes and a login verify the old password. Then the first change
-- commits, and only after it the login adds its session.
def race : List Action := [
  .login ⟨"admin", "old password", none⟩,
  .request 1 (some "csrf") (.changePassword "old password" "new password"),
  .request 1 (some "csrf") (.changePassword "old password" "other password"),
  .advance 0 ⟨0, "", ""⟩ 1, .advance 0 ⟨0, "", ""⟩ 1,
  .advance 1 ⟨0, "", ""⟩ 1, .advance 1 ⟨0, "", ""⟩ 1, .advance 1 ⟨0, "", ""⟩ 1,
  .advance 2 ⟨0, "", ""⟩ 1, .advance 2 ⟨0, "", ""⟩ 1, .advance 2 ⟨0, "", ""⟩ 1,
  .advance 1 ⟨2, "csrf2", "new password#2"⟩ 2,
  .advance 0 ⟨0, "", ""⟩ 3, .advance 0 ⟨3, "csrf3", ""⟩ 3]

def secondCommit : Action := .advance 2 ⟨4, "csrf4", "other password#3"⟩ 4

-- The session of the login stands after the change, and the second change
-- replaces the hash that the first one stored.
theorem old_password_outlives_change :
    ∃ s, exec (step plainRules) (start oneAdmin) race = some s ∧ ¬Revoked s.site ∧
      ∃ t, StaleChange s secondCommit ⟨1, 0, "old password#1"⟩ ∧
        step plainRules s secondCommit = some t ∧ t.site.db.accounts ≠ s.site.db.accounts := by
  obtain ⟨s, hs, hstate⟩ := Option.map_eq_some_iff.mp (show
    (exec (step plainRules) (start oneAdmin) race).map
      (fun s => (s.site.db.sessions[1]?, s.site.grants 3, s.site.births 1, s.site.retired,
        s.requests[2]?, s.site.db.accounts, (step plainRules s secondCommit).map
          (·.site.db.accounts))) =
      some (some ⟨3, 1, "csrf3", 3, 86400003⟩, some ⟨1, 0, "old password#1"⟩, 0,
        [⟨1, 0, "old password#1"⟩],
        some (.changeVerified ⟨⟨1, "admin", "old password#1"⟩, 0⟩ 1 "other password"),
        [⟨1, "admin", "new password#2"⟩], some [⟨1, "admin", "other password#3"⟩]) from rfl)
  simp only [Prod.mk.injEq] at hstate
  obtain ⟨hrow, hgrant, hbirth, hretired, hrequest, haccounts, hcommit⟩ := hstate
  obtain ⟨t, ht, haccounts'⟩ := Option.map_eq_some_iff.mp hcommit
  refine ⟨s, hs, ?_, t, ?_, ht, ?_⟩
  · intro hrevoked
    exact hrevoked _ (List.mem_of_getElem? hrow) _ hgrant rfl hbirth (by simp [hretired])
  · exact ⟨2, _, 4, _, 1, _, rfl, hrequest, rfl, by simp [hretired], hbirth⟩
  · rw [haccounts', haccounts]
    decide

end Lodger.Auth
