import Lodger.Setup
import Lodger.Db.Lemmas

namespace Lodger.Setup

open Lodger.Db Lodger.Auth Lodger.Tickets

-- Which calls can fill or empty the accounts table.
section Accounts

theorem accounts_session (db : Db) (key : Key) (wall : Int) :
    (db.session key wall).2.accounts = db.accounts := by
  rcases session_cases db key wall with h | ⟨row, -, a, -, -, -, -, h⟩
  · rw [h]
  · rw [h]
    rfl

theorem accounts_of_session {db db' : Db} {key : Key} {wall : Int} {session : Session}
    (h : db.session key wall = (some session, db')) : db.accounts ≠ [] := by
  rcases session_cases db key wall with hnone | ⟨row, -, a, ha, -⟩
  · rw [hnone] at h
    simp at h
  · exact List.ne_nil_of_mem ha

theorem accounts_createSession (db : Db) (new : NewSession) (wall : Int) :
    (db.createSession new wall).2.accounts = db.accounts := by
  rcases createSession_cases db new wall with ⟨db', h, -, haccounts, -⟩ | ⟨e, h⟩
  · rw [h]
    exact haccounts
  · rw [h]
    rfl

theorem createAccount_ne_nil (db : Db) (username hash : String) :
    (db.createAccount username hash).2.accounts ≠ [] := by
  unfold createAccount
  split
  · rename_i htaken
    obtain ⟨a, ha, -⟩ := List.mem_map.mp htaken
    exact List.ne_nil_of_mem ha
  · exact List.append_ne_nil_of_right_ne_nil _ (by simp)

theorem resetPassword_eq_nil (db : Db) (username hash : String) :
    (db.resetPassword username hash).2.accounts = [] ↔ db.accounts = [] := by
  rcases resetPassword_cases db username hash with ⟨a, ended, db', -, h, haccounts, -⟩ | ⟨-, h⟩
  · rw [h, haccounts, List.map_eq_nil_iff]
  · rw [h]

-- The last account stays.
theorem deleteAccount_eq_nil (db : Db) (id : Nat) :
    (db.deleteAccount id).2.accounts = [] ↔ db.accounts = [] := by
  unfold deleteAccount
  cases ha : db.accountById id with
  | none => rfl
  | some a =>
      obtain ⟨hmem, hid⟩ := accountById_eq_some.mp ha
      by_cases hlast : db.accountCount ≤ 1
      · simp only [hlast, if_true]
      · simp only [hlast, if_false, accounts_removeAccount]
        refine ⟨fun hnone => ?_, fun hnone => by rw [hnone]; rfl⟩
        -- Two rows cannot both have the id.
        have hall : ∀ b ∈ db.accounts, b = a := by
          intro b hb
          have hkept := List.filter_eq_nil_iff.mp hnone b hb
          simp only [ne_eq, decide_not, Bool.not_eq_true', decide_eq_false_iff_not,
            Decidable.not_not] at hkept
          exact List.inj_on_of_nodup_map db.ids hb hmem (hkept.trans hid.symm)
        have hnodup : db.accounts.Nodup := List.Nodup.of_map _ db.ids
        have htwo : 1 < db.accounts.length := by
          simp only [accountCount] at hlast
          omega
        have hsame : db.accounts[0] = db.accounts[1] :=
          (hall _ (List.getElem_mem _)).trans (hall _ (List.getElem_mem _)).symm
        exact absurd (hnodup.getElem_inj_iff.mp hsame) (by decide)

theorem createFirstAccount_cases (db : Db) (username hash : String) :
    (db.accounts = [] ∧ (db.createFirstAccount username hash).1 = true ∧
      (db.createFirstAccount username hash).2.accounts ≠ []) ∨
    (db.accounts ≠ [] ∧ db.createFirstAccount username hash = (false, db)) := by
  unfold createFirstAccount
  split
  · rename_i hempty
    exact .inl ⟨hempty, rfl, List.append_ne_nil_of_right_ne_nil _ (by simp)⟩
  · rename_i hne
    exact .inr ⟨hne, rfl⟩

theorem Web.run_ne_nil {db : Db} (w : Web) (h : db.accounts ≠ []) : (w.run db).accounts ≠ [] := by
  cases w with
  | create username hash => exact createAccount_ne_nil db username hash
  | delete id => exact fun hnil => h ((deleteAccount_eq_nil db id).mp hnil)
  | done => exact h

end Accounts

section Steps

variable {sha256 : String → Sha256} {rules : Rules} {s t : State} {a : Action}
variable {i : Nat} {setup setup' : Option SetupToken} {db db' : Db} {hash : String} {now : Nat}
variable {r r' : Request} {events : List Event}

-- What one step of a claim can do.
inductive Progress (sha256 : String → Sha256) (i : Nat) (setup : Option SetupToken) (db : Db)
    (now : Nat) : Request → Option SetupToken → Db → Request → List Event → Prop where
  | refused (r : Request) (answer : Answer) (h : answer ≠ .created) (hr : r.between = false) :
      Progress sha256 i setup db now r setup db (.answered answer) [.answered i answer]
  | read (claim : Claim) :
      Progress sha256 i setup db now (.received (some claim)) setup db (.read claim) []
  | checked (claim : Claim) (token : SetupToken) (hsetup : setup = some token)
      (hmatch : token.matches sha256 claim.token = true) (hlive : now < token.expires) :
      Progress sha256 i setup db now (.read claim) setup db (.checked claim)
        [.checked i claim.token token now]
  | hashed (claim : Claim) (hash : String) :
      Progress sha256 i setup db now (.checked claim) setup db (.hashed claim.username hash) []
  | committed (username hash : String) (db' : Db) (hempty : db.accounts = [])
      (hfull : db'.accounts ≠ []) :
      Progress sha256 i setup db now (.hashed username hash) setup db' (.committed username)
        [.committed i 0]
  | closed (username : String) :
      Progress sha256 i setup db now (.committed username) none db (.closed username) []
  | created (username : String) :
      Progress sha256 i setup db now (.closed username) setup db (.answered .created)
        [.answered i .created]
  | orphanCommitted (username hash : String) (db' : Db) (hempty : db.accounts = [])
      (hfull : db'.accounts ≠ []) :
      Progress sha256 i setup db now (.orphaned username hash) setup db' .dropped [.committed i 0]
  | orphanRefused (username hash : String) :
      Progress sha256 i setup db now (.orphaned username hash) setup db .dropped []

theorem Request.next_progress
    (h : r.next sha256 rules i setup db hash now = some (setup', db', r', events)) :
    Progress sha256 i setup db now r setup' db' r' events := by
  cases r with
  | received body =>
      cases setup with
      | none =>
          cases h
          exact .refused _ _ (by simp) rfl
      | some token =>
          cases body with
          | none =>
              cases h
              exact .refused _ _ (by simp) rfl
          | some claim =>
              cases h
              exact .read claim
  | read claim =>
      cases setup with
      | none =>
          cases h
          exact .refused _ _ (by simp) rfl
      | some token =>
          simp only [Request.next] at h
          by_cases hmatch : token.matches sha256 claim.token = true
          · by_cases hexpired : token.expires ≤ now
            · simp only [hmatch, hexpired, Bool.not_true, Bool.false_eq_true, if_false, if_true] at h
              cases h
              exact .refused _ _ (by simp) rfl
            · simp only [hmatch, hexpired, Bool.not_true, Bool.false_eq_true, if_false] at h
              cases h
              exact .checked claim token rfl hmatch (by omega)
          · simp only [Bool.not_eq_true] at hmatch
            simp only [hmatch, Bool.not_false, if_true] at h
            cases h
            exact .refused _ _ (by simp) rfl
  | checked claim =>
      simp only [Request.next] at h
      split at h
      · cases h
        exact .hashed claim hash
      · cases h
        exact .refused _ _ (by simp) rfl
  | hashed username hash =>
      simp only [Request.next] at h
      rcases createFirstAccount_cases db username hash with ⟨hempty, htrue, hfull⟩ | ⟨-, hfalse⟩
      · have hpair : db.createFirstAccount username hash =
            (true, (db.createFirstAccount username hash).2) := by rw [← htrue]
        have hcount : db.accountCount = 0 := by simp [accountCount, hempty]
        rw [hpair, hcount] at h
        cases h
        exact .committed username hash _ hempty hfull
      · rw [hfalse] at h
        cases h
        exact .refused _ _ (by simp) rfl
  | committed username =>
      cases h
      exact .closed username
  | closed username =>
      cases h
      exact .created username
  | answered answer => cases h
  | orphaned username hash =>
      simp only [Request.next] at h
      rcases createFirstAccount_cases db username hash with ⟨hempty, htrue, hfull⟩ | ⟨-, hfalse⟩
      · have hpair : db.createFirstAccount username hash =
            (true, (db.createFirstAccount username hash).2) := by rw [← htrue]
        have hcount : db.accountCount = 0 := by simp [accountCount, hempty]
        rw [hpair, hcount] at h
        cases h
        exact .orphanCommitted username hash _ hempty hfull
      · rw [hfalse] at h
        cases h
        exact .orphanRefused username hash
  | dropped => cases h

-- What one action can do. Only a claim's commit and `create_account` can fill
-- an empty accounts table.
inductive Effect (sha256 : String → Sha256) (rules : Rules) (s : State) : Action → State → Prop where
  | stop : Effect sha256 rules s .stop { s with service := .down, claims := [], webs := [] }
  | boot (h : s.service = .down) :
      Effect sha256 rules s .boot { s with service := .counted s.db.accountCount }
  | serveClosed (n now : Nat) (random : Except String (Vector (BitVec 8) 16))
      (h : s.service = .counted (n + 1)) (hnow : s.clock ≤ now) :
      Effect sha256 rules s (.serve random now) { s with
        service := .up none, clock := now, log := s.log ++ [.started none] }
  | serveOpen (now : Nat) (random : Except String (Vector (BitVec 8) 16)) (token : SetupToken)
      (h : s.service = .counted 0) (hnow : s.clock ≤ now) :
      Effect sha256 rules s (.serve random now) { s with
        service := .up (some token), clock := now, log := s.log ++ [.started (some token)] }
  | serveFailed (now : Nat) (random : Except String (Vector (BitVec 8) 16))
      (h : s.service = .counted 0) (hnow : s.clock ≤ now) :
      Effect sha256 rules s (.serve random now) { s with service := .down, clock := now }
  | claim (body : Option Claim) (setup : Option SetupToken) (h : s.service = .up setup) :
      Effect sha256 rules s (.claim body) { s with claims := s.claims ++ [.received body] }
  | advance (i : Nat) (hash : String) (now : Nat) (r r' : Request)
      (setup setup' : Option SetupToken) (db' : Db) (events : List Event)
      (hservice : s.service = .up setup) (hr : s.claims[i]? = some r) (hnow : s.clock ≤ now)
      (h : Progress sha256 i setup s.db now r setup' db' r' events) :
      Effect sha256 rules s (.advance i hash now) { s with
        db := db', service := .up setup', claims := s.claims.set i r', clock := now,
        log := s.log ++ events }
  | fail (i : Nat) (r : Request) (hr : s.claims[i]? = some r) (h : r.mayFail = true) :
      Effect sha256 rules s (.fail i) { s with
        claims := s.claims.set i (.answered .internalServerError)
        log := s.log ++ [.answered i .internalServerError] }
  | drop (i : Nat) (r r' : Request) (hr : s.claims[i]? = some r) (h : r.drop = some r') :
      Effect sha256 rules s (.drop i) { s with claims := s.claims.set i r' }
  | sessions (a : Action) (db' : Db) (h : db'.accounts = s.db.accounts) :
      Effect sha256 rules s a { s with db := db' }
  | web (key : Key) (request : Web) (wall : Int) (db' : Db) (setup : Option SetupToken)
      (hup : s.service = .up setup) (h : db'.accounts = s.db.accounts)
      (hne : s.db.accounts ≠ []) :
      Effect sha256 rules s (.web key request wall) { s with db := db', webs := s.webs ++ [request] }
  | runWeb (i : Nat) (w : Web) (h : s.webs[i]? = some w) :
      Effect sha256 rules s (.runWeb i) { s with db := w.run s.db, webs := s.webs.set i .done }
  | adminCreate (username hash : String) (now : Nat) (hnow : s.clock ≤ now) :
      Effect sha256 rules s (.adminCreate username hash now) { s with
        db := (s.db.createAccount username hash).2, clock := now }
  | adminReset (username hash : String) :
      Effect sha256 rules s (.adminReset username hash) { s with
        db := (s.db.resetPassword username hash).2 }

theorem step_effect (h : step sha256 rules s a = some t) : Effect sha256 rules s a t := by
  cases a with
  | stop =>
      cases h
      exact .stop
  | boot =>
      simp only [step] at h
      split at h
      · rename_i hdown
        cases h
        exact .boot hdown
      · cases h
  | serve random now =>
      simp only [step, Option.ite_none_right_eq_some] at h
      obtain ⟨hnow, h⟩ := h
      split at h
      · rename_i _ n hcounted
        cases h
        exact .serveClosed n now _ hcounted hnow
      · rename_i bytes hcounted
        cases h
        exact .serveOpen now _ _ hcounted hnow
      · rename_i e hcounted
        cases h
        exact .serveFailed now _ hcounted hnow
      · cases h
  | claim body =>
      simp only [step] at h
      split at h
      · rename_i setup hup
        cases h
        exact .claim body setup hup
      · cases h
  | advance i hash now =>
      simp only [step, Option.ite_none_right_eq_some] at h
      obtain ⟨hnow, h⟩ := h
      split at h
      · rename_i setup hup
        obtain ⟨r, hr, h⟩ := Option.bind_eq_some_iff.mp h
        obtain ⟨⟨setup', db', r', events⟩, hnext, rfl⟩ := Option.map_eq_some_iff.mp h
        exact .advance i hash now r r' setup setup' db' events hup hr hnow
          (Request.next_progress hnext)
      · cases h
  | fail i =>
      simp only [step] at h
      split at h
      · rename_i r hr
        split at h
        · rename_i hmay
          cases h
          exact .fail i r hr hmay
        · cases h
      · cases h
  | drop i =>
      simp only [step, Option.map_eq_some_iff, Option.bind_eq_some_iff] at h
      obtain ⟨r', ⟨r, hr, hdrop⟩, rfl⟩ := h
      exact .drop i r r' hr hdrop
  | login new wall =>
      simp only [step] at h
      split at h
      · cases h
        exact .sessions _ _ (accounts_createSession s.db new wall)
      · cases h
  | web key request wall =>
      simp only [step] at h
      have haccounts := accounts_session s.db key wall
      split at h
      · rename_i setup session db' hup hsession
        cases h
        rw [hsession] at haccounts
        exact .web key request wall db' setup hup haccounts (accounts_of_session hsession)
      · rename_i hsession
        cases h
        rw [hsession] at haccounts
        exact .sessions _ _ haccounts
      · cases h
  | runWeb i =>
      obtain ⟨w, hw, rfl⟩ := Option.map_eq_some_iff.mp h
      exact .runWeb i w hw
  | adminCreate username hash now =>
      simp only [step, Option.ite_none_right_eq_some] at h
      obtain ⟨hnow, h⟩ := h
      cases h
      exact .adminCreate username hash now hnow
  | adminReset username hash =>
      cases h
      exact .adminReset username hash

-- Nothing empties the accounts table again.
theorem step_accounts_ne_nil (hs : step sha256 rules s a = some t) (h : s.db.accounts ≠ []) :
    t.db.accounts ≠ [] := by
  cases step_effect hs with
  | stop => exact h
  | boot => exact h
  | serveClosed => exact h
  | serveOpen => exact h
  | serveFailed => exact h
  | claim => exact h
  | advance i hash now r r' setup setup' db' events _ _ _ hprogress =>
      cases hprogress with
      | refused => exact h
      | read => exact h
      | checked => exact h
      | hashed => exact h
      | committed _ _ _ _ hfull => exact hfull
      | closed => exact h
      | created => exact h
      | orphanCommitted _ _ _ _ hfull => exact hfull
      | orphanRefused => exact h
  | fail => exact h
  | drop => exact h
  | sessions _ db' hdb =>
      simp only [hdb]
      exact h
  | web key request wall db' setup _ hdb _ =>
      simp only [hdb]
      exact h
  | runWeb i w _ => exact w.run_ne_nil h
  | adminCreate username hash => exact createAccount_ne_nil s.db username hash
  | adminReset username hash =>
      exact fun hnil => h ((resetPassword_eq_nil s.db username hash).mp hnil)

end Steps

end Lodger.Setup
