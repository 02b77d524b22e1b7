import Lodger.Auth
import Lodger.Db.Lemmas

namespace Lodger.Auth

open Lodger.Lib Lodger.Db

variable {rules : Rules} {site site' : Site} {s t : State} {r r' : Request} {draw : Draw} {now : Int}
  {act : Action}

-- The account row that the next call of a request will write for.
def Request.writesFor : Request → Option Seen
  | .loginReady seen => some seen
  | .changeVerified seen _ _ => some seen
  | _ => none

-- The same tables, except that sessions may be gone or count as used.
structure Site.Quiet (site site' : Site) : Prop where
  births : site'.births = site.births
  grants : site'.grants = site.grants
  retired : site'.retired = site.retired
  hashes : site'.hashes = site.hashes
  keys : site'.keys = site.keys
  accounts : site'.db.accounts = site.db.accounts
  sessions : ∀ row ∈ site'.db.sessions, ∃ old ∈ site.db.sessions,
    old.tokenSha256 = row.tokenSha256 ∧ old.accountId = row.accountId

theorem Site.Quiet.refl (site : Site) : site.Quiet site :=
  ⟨rfl, rfl, rfl, rfl, rfl, rfl, fun row h => ⟨row, h, rfl, rfl⟩⟩

theorem Site.Quiet.deleteSession (site : Site) (key : Key) :
    site.Quiet { site with db := site.db.deleteSession key } :=
  ⟨rfl, rfl, rfl, rfl, rfl, rfl, fun row h => ⟨row, (List.mem_filter.mp h).1, rfl, rfl⟩⟩

theorem Site.Quiet.session (site : Site) (key : Key) (now : Int) :
    site.Quiet { site with db := (site.db.session key now).2 } := by
  rcases site.db.session_cases key now with h | ⟨row, -, a, -, -, -, -, h⟩
  · rw [h]
    exact .refl site
  · rw [h]
    refine ⟨rfl, rfl, rfl, rfl, rfl, rfl, ?_⟩
    intro row hrow
    obtain ⟨old, hold, rfl⟩ := List.mem_map.mp hrow
    exact ⟨old, hold, (seenAt_tokenSha256 ..).symm, (seenAt_accountId ..).symm⟩

-- What one step can do to the site.
inductive Write (s : State) (act : Action) (site' : Site) : Prop where
  | quiet (h : s.site.Quiet site')
  | login (i : Nat) (draw : Draw) (now : Int) (seen : Seen)
      (hact : act = .advance i draw now) (hr : s.requests[i]? = some (.loginReady seen))
      (hkey : draw.key ∉ s.site.keys)
      (h : site' = (s.site.login seen ⟨draw.key, seen.account.id, draw.csrf⟩ now).2)
  | change (i : Nat) (draw : Draw) (now : Int) (seen : Seen) (current : Key) (new : String)
      (hact : act = .advance i draw now)
      (hr : s.requests[i]? = some (.changeVerified seen current new))
      (hkey : draw.key ∉ s.site.keys) (hhash : draw.hash ∉ s.site.hashes)
      (h : site' = (s.site.changePassword seen.account.id draw.hash current
        ⟨draw.key, seen.account.id, draw.csrf⟩ now).2)
  | reset (username hash : String) (hhash : hash ∉ s.site.hashes)
      (h : site' = (s.site.resetPassword username hash).2)
  | create (username hash : String) (hhash : hash ∉ s.site.hashes)
      (h : site' = (s.site.createAccount username hash).2)
  | delete (id : Nat) (h : site' = { s.site with db := (s.site.db.deleteAccount id).2 })

theorem advance_eq_some {i : Nat} (h : step rules s (.advance i draw now) = some t) :
    ∃ r r', s.requests[i]? = some r ∧ r.next rules s.site draw now = some (t.site, r') ∧
      t.requests = s.requests.set i r' := by
  simp only [step, Option.bind_eq_some_iff, Option.map_eq_some_iff, Prod.exists] at h
  obtain ⟨r, hr, site', r', hnext, rfl⟩ := h
  exact ⟨r, r', hr, hnext, rfl⟩

theorem next_changeVerified {seen : Seen} {current : Key} {new : String}
    (h : (Request.changeVerified seen current new).next rules site draw now = some (site', r')) :
    draw.key ∉ site.keys ∧ draw.hash ∉ site.hashes ∧
      site' = (site.changePassword seen.account.id draw.hash current
        ⟨draw.key, seen.account.id, draw.csrf⟩ now).2 := by
  simp only [Request.next] at h
  split at h
  · rename_i hmay
    simp only [Site.mayHash, Bool.and_eq_true, decide_eq_true_eq] at hmay
    split at h <;> rename_i hchange <;> cases h <;> exact ⟨hmay.2, hmay.1.1, by rw [hchange]⟩
  · cases h

theorem advance_changeVerified {i : Nat} {seen : Seen} {current : Key} {new : String}
    (hr : s.requests[i]? = some (.changeVerified seen current new))
    (h : step rules s (.advance i draw now) = some t) :
    t.site = (s.site.changePassword seen.account.id draw.hash current
      ⟨draw.key, seen.account.id, draw.csrf⟩ now).2 := by
  obtain ⟨r, r', hr', hnext, -⟩ := advance_eq_some h
  rw [hr] at hr'
  cases hr'
  exact (next_changeVerified hnext).2.2

theorem next_write {i : Nat} (hr : s.requests[i]? = some r)
    (h : r.next rules s.site draw now = some (site', r')) :
    Write s (.advance i draw now) site' := by
  cases r with
  | login l =>
      cases h
      exact .quiet (.refl _)
  | loginFound l seen =>
      cases seen with
      | none =>
          cases h
          exact .quiet (.refl _)
      | some seen =>
          simp only [Request.next] at h
          split at h <;> cases h <;> exact .quiet (.refl _)
  | loginVerified l seen =>
      simp only [Request.next] at h
      split at h <;> cases h
      · exact .quiet (.deleteSession _ _)
      · exact .quiet (.refl _)
  | loginReady seen =>
      simp only [Request.next] at h
      split at h
      · cases h
      · rename_i hkey
        split at h <;> rename_i hlogin <;> cases h <;>
          exact .login i draw now seen rfl hr hkey (by rw [hlogin])
  | guarded key csrf handler =>
      have hquiet := Site.Quiet.session s.site key now
      simp only [Request.next] at h
      split at h <;> rename_i hsession
      · cases h
        exact .quiet (by simpa [hsession] using hquiet)
      · split at h <;> cases h <;> exact .quiet (by simpa [hsession] using hquiet)
  | logout key =>
      cases h
      exact .quiet (.deleteSession _ _)
  | create username password =>
      simp only [Request.next] at h
      split at h
      · rename_i hmay
        simp only [Site.mayHash, Bool.and_eq_true, decide_eq_true_eq] at hmay
        split at h <;> rename_i hcreate <;> cases h <;>
          exact .create username draw.hash hmay.1 (by rw [hcreate])
      · cases h
  | delete id =>
      simp only [Request.next] at h
      split at h <;> rename_i hdelete <;> cases h <;> exact .delete id (by rw [hdelete])
  | change session key current new =>
      simp only [Request.next] at h
      split at h <;> cases h <;> exact .quiet (.refl _)
  | changeFound seen key current new =>
      simp only [Request.next] at h
      split at h <;> cases h <;> exact .quiet (.refl _)
  | changeVerified seen key new =>
      obtain ⟨hkey, hhash, hsite⟩ := next_changeVerified h
      exact .change i draw now seen key new rfl hr hkey hhash hsite
  | answered answer => cases h

theorem step_write (h : step rules s act = some t) : Write s act t.site := by
  cases act with
  | login l =>
      cases h
      exact .quiet (.refl _)
  | request key csrf handler =>
      cases h
      exact .quiet (.refl _)
  | advance i draw now =>
      obtain ⟨r, r', hr, hnext, -⟩ := advance_eq_some h
      exact next_write hr hnext
  | abandon i answer =>
      simp only [step, Option.ite_none_right_eq_some, Option.some.injEq] at h
      obtain ⟨-, rfl⟩ := h
      exact .quiet (.refl _)
  | adminReset username password hash =>
      simp only [step, Option.ite_none_right_eq_some, Option.some.injEq, Bool.and_eq_true,
        Site.mayHash, decide_eq_true_eq] at h
      obtain ⟨⟨-, hhash, -⟩, rfl⟩ := h
      exact .reset username hash hhash rfl
  | adminCreate username password hash =>
      simp only [step, Option.ite_none_right_eq_some, Option.some.injEq, Bool.and_eq_true,
        Site.mayHash, decide_eq_true_eq] at h
      obtain ⟨⟨-, hhash, -⟩, rfl⟩ := h
      exact .create username hash hhash rfl

-- A hash that shows its password, so that runs can be evaluated.
def plainRules : Rules where
  verify password hash := password.toList.isPrefixOf hash.toList
  passwordOk _ := true
  nameOk _ := true

end Lodger.Auth
