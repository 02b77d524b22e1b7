import Lodger.Setup.Lemmas

namespace Lodger.Setup

open Lodger.Lib Lodger.Db Lodger.Auth Lodger.Tickets

section Claims

variable {sha256 : String → Sha256} {rules : Rules} {s t : State} {a : Action} {log : List Event}

def Event.isStart : Event → Bool
  | .started _ => true
  | _ => false

def Event.isCommit : Event → Bool
  | .committed .. => true
  | _ => false

def Event.isCreated : Event → Bool
  | .answered _ .created => true
  | _ => false

-- The process that runs now started with the token, and this is what its
-- claims did since.
def Since (log : List Event) (token : SetupToken) (rest : List Event) : Prop :=
  (∃ before, log = before ++ .started (some token) :: rest) ∧ ∀ e ∈ rest, e.isStart = false

-- Claim `i` of the process gave the token of the process before it expired.
def Passed (sha256 : String → Sha256) (i : Nat) (token : SetupToken) (rest : List Event) : Prop :=
  ∃ submitted now, .checked i submitted token now ∈ rest ∧
    token.matches sha256 submitted = true ∧ now < token.expires

theorem Since.append {token : SetupToken} {rest events : List Event} (h : Since log token rest)
    (hevents : ∀ e ∈ events, e.isStart = false) :
    Since (log ++ events) token (rest ++ events) := by
  obtain ⟨⟨before, rfl⟩, hrest⟩ := h
  refine ⟨⟨before, by simp⟩, fun e he => ?_⟩
  rcases List.mem_append.mp he with he | he
  · exact hrest e he
  · exact hevents e he

theorem Passed.append {i : Nat} {token : SetupToken} {rest : List Event}
    (h : Passed sha256 i token rest) (events : List Event) :
    Passed sha256 i token (rest ++ events) := by
  obtain ⟨submitted, now, hmem, hmatch, hlive⟩ := h
  exact ⟨submitted, now, List.mem_append_left _ hmem, hmatch, hlive⟩

-- What the history says of a claim in this state.
def Backed (sha256 : String → Sha256) (log : List Event) (i : Nat) : Request → Prop
  | .received _ => True
  | .read _ => True
  | .checked _ => ∃ token rest, Since log token rest ∧ Passed sha256 i token rest
  | .hashed .. => ∃ token rest, Since log token rest ∧ Passed sha256 i token rest
  | .committed _ =>
      ∃ token rest, Since log token rest ∧ Passed sha256 i token rest ∧ .committed i 0 ∈ rest
  | .closed _ =>
      ∃ token rest, Since log token rest ∧ Passed sha256 i token rest ∧ .committed i 0 ∈ rest
  | .answered _ | .orphaned .. | .dropped => True

theorem Backed.append {i : Nat} {r : Request} (h : Backed sha256 log i r) {events : List Event}
    (hevents : ∀ e ∈ events, e.isStart = false) : Backed sha256 (log ++ events) i r := by
  cases r with
  | received => trivial
  | read => trivial
  | checked =>
      obtain ⟨token, rest, hsince, hpassed⟩ := h
      exact ⟨token, rest ++ events, hsince.append hevents, hpassed.append events⟩
  | hashed =>
      obtain ⟨token, rest, hsince, hpassed⟩ := h
      exact ⟨token, rest ++ events, hsince.append hevents, hpassed.append events⟩
  | committed =>
      obtain ⟨token, rest, hsince, hpassed, hcommit⟩ := h
      exact ⟨token, rest ++ events, hsince.append hevents, hpassed.append events,
        List.mem_append_left _ hcommit⟩
  | closed =>
      obtain ⟨token, rest, hsince, hpassed, hcommit⟩ := h
      exact ⟨token, rest ++ events, hsince.append hevents, hpassed.append events,
        List.mem_append_left _ hcommit⟩
  | answered | orphaned | dropped => trivial

-- What holds in every state of a run.
structure Sound (sha256 : String → Sha256) (s : State) : Prop where
  token : ∀ t, s.service = .up (some t) → ∃ rest, Since s.log t rest
  idle : (∀ setup, s.service ≠ .up setup) → s.claims = []
  backed : ∀ i r, s.claims[i]? = some r → Backed sha256 s.log i r
  once : s.log.countP Event.isCommit ≤ 1
  stays : 0 < s.log.countP Event.isCommit → s.db.accounts ≠ []
  room : s.log.countP Event.isCreated + s.claims.countP Request.between ≤
    s.log.countP Event.isCommit
  answers : ∀ front i back, s.log = front ++ .answered i .created :: back →
    ∃ token rest, Since front token rest ∧ Passed sha256 i token rest ∧ .committed i 0 ∈ rest

-- An entry of a longer log is in the old part or in the new one.
theorem append_eq_split {log events front back : List Event} {e : Event}
    (h : log ++ events = front ++ e :: back) :
    (∃ back', log = front ++ e :: back') ∨
      ∃ front', front = log ++ front' ∧ events = front' ++ e :: back := by
  rcases List.append_eq_append_iff.mp h with ⟨new, hfront, hevents⟩ | ⟨old, hlog, hrest⟩
  · exact .inr ⟨new, hfront, hevents⟩
  · cases old with
    | nil => exact .inr ⟨[], by simpa using hlog.symm, by simpa using hrest.symm⟩
    | cons x old =>
        obtain ⟨rfl, -⟩ := List.cons.inj hrest
        exact .inl ⟨old, hlog⟩

theorem Sound.quiet (h : Sound sha256 s) (hservice : t.service = s.service)
    (hclaims : t.claims = s.claims) (hlog : t.log = s.log)
    (hdb : s.db.accounts ≠ [] → t.db.accounts ≠ []) : Sound sha256 t where
  token := by rw [hservice, hlog]; exact h.token
  idle := by rw [hservice, hclaims]; exact h.idle
  backed := by rw [hclaims, hlog]; exact h.backed
  once := by rw [hlog]; exact h.once
  stays := by rw [hlog]; exact fun hpos => hdb (h.stays hpos)
  room := by rw [hlog, hclaims]; exact h.room
  answers := by rw [hlog]; exact h.answers

-- A claim takes a step.
theorem Sound.claimStep (h : Sound sha256 s) {i : Nat} {r : Request} (r' : Request)
    (events : List Event) (hr : s.claims[i]? = some r) (hstart : ∀ e ∈ events, e.isStart = false)
    (hback : Backed sha256 (s.log ++ events) i r')
    (hservice : ∀ tok, t.service = .up (some tok) → s.service = .up (some tok))
    (hup : ∃ setup, t.service = .up setup)
    (hclaims : t.claims = s.claims.set i r') (hlog : t.log = s.log ++ events)
    (hdb : s.db.accounts ≠ [] → t.db.accounts ≠ [])
    (hcommit : 0 < events.countP Event.isCommit →
      events.countP Event.isCommit = 1 ∧ s.db.accounts = [] ∧ t.db.accounts ≠ [])
    (hroom : events.countP Event.isCreated + (if r'.between then 1 else 0) ≤
      events.countP Event.isCommit + if r.between then 1 else 0)
    (hanswers : ∀ front j back, events = front ++ .answered j .created :: back →
      ∃ token rest, Since (s.log ++ front) token rest ∧ Passed sha256 j token rest ∧
        .committed j 0 ∈ rest) : Sound sha256 t := by
  have hlt : i < s.claims.length := (List.getElem?_eq_some_iff.mp hr).1
  have hget : s.claims[i] = r := (List.getElem?_eq_some_iff.mp hr).2
  have hcount := List.countP_set (p := Request.between) (l := s.claims) (a := r') hlt
  rw [hget] at hcount
  have hroomOld := h.room
  have hle : (if r.between then 1 else 0) ≤ s.claims.countP Request.between := by
    split
    · rename_i hb
      exact List.countP_pos_iff.mpr ⟨r, List.mem_of_getElem? hr, hb⟩
    · exact Nat.zero_le _
  refine ⟨fun tok htok => ?_, fun hidle => ?_, fun j x hj => ?_, ?_, ?_, ?_, ?_⟩
  · obtain ⟨rest, hsince⟩ := h.token tok (hservice tok htok)
    exact ⟨rest ++ events, hlog ▸ hsince.append hstart⟩
  · obtain ⟨setup, hup⟩ := hup
    exact absurd hup (hidle setup)
  · rw [hclaims, List.getElem?_set] at hj
    rw [hlog]
    split at hj
    · rename_i heq
      subst heq
      simp only [Option.some.injEq] at hj
      exact hj ▸ hback
    · exact (h.backed j x hj).append hstart
  · rw [hlog, List.countP_append]
    have hstays := h.stays
    have honce := h.once
    by_cases hpos : 0 < events.countP Event.isCommit
    · obtain ⟨hone, hempty, -⟩ := hcommit hpos
      have hzero : ¬ 0 < s.log.countP Event.isCommit := fun hp => hstays hp hempty
      omega
    · omega
  · rw [hlog, List.countP_append]
    intro hpos
    by_cases hnew : 0 < events.countP Event.isCommit
    · exact (hcommit hnew).2.2
    · exact hdb (h.stays (by omega))
  · rw [hlog, hclaims, List.countP_append, List.countP_append, hcount]
    omega
  · intro front j back hsplit
    rw [hlog] at hsplit
    rcases append_eq_split hsplit with ⟨back', hold⟩ | ⟨front', rfl, hnew⟩
    · exact h.answers front j back' hold
    · exact hanswers front' j back hnew

theorem Sound.started (h : Sound sha256 s) (hdown : ∀ setup, s.service ≠ .up setup)
    (setup : Option SetupToken) (now : Nat) :
    Sound sha256 { s with
      service := .up setup, clock := now, log := s.log ++ [.started setup] } := by
  have hclaims := h.idle hdown
  refine ⟨fun tok htok => ?_, fun hidle => absurd rfl (hidle setup), fun i r hr => ?_, ?_, ?_, ?_,
    ?_⟩
  · cases htok
    exact ⟨[], ⟨s.log, rfl⟩, by simp⟩
  · simp only [hclaims] at hr
    simp at hr
  · simpa [List.countP_append, List.countP_cons, Event.isCommit] using h.once
  · simpa [List.countP_append, List.countP_cons, Event.isCommit] using h.stays
  · simpa [List.countP_append, List.countP_cons, Event.isCommit, Event.isCreated] using h.room
  · intro front i back hsplit
    rcases append_eq_split hsplit with ⟨back', hold⟩ | ⟨front', rfl, hnew⟩
    · exact h.answers front i back' hold
    · cases front' with
      | nil => simp at hnew
      | cons x front' => simp at hnew

theorem Sound.progress (h : Sound sha256 s) {i : Nat} {now : Nat} {r r' : Request}
    {setup setup' : Option SetupToken} {db' : Db} {events : List Event}
    (hup : s.service = .up setup) (hr : s.claims[i]? = some r)
    (hp : Progress sha256 i setup s.db now r setup' db' r' events) :
    Sound sha256 { s with
      db := db', service := .up setup', claims := s.claims.set i r', clock := now,
      log := s.log ++ events } := by
  have hold := h.backed i r hr
  cases hp with
  | refused _ answer hanswer hbetween =>
      refine h.claimStep (.answered answer) [.answered i answer] hr (by simp [Event.isStart]) trivial
        (fun tok htok => ?_) ⟨_, rfl⟩ rfl rfl id (by simp [Event.isCommit]) ?_ ?_
      · exact hup.trans htok
      · have hnot : Event.isCreated (.answered i answer) = false := by
          cases answer <;> first | rfl | exact absurd rfl hanswer
        simp [hnot, Request.between]
      · intro front j back hsplit
        cases front with
        | nil =>
            simp only [List.nil_append, List.cons.injEq, Event.answered.injEq] at hsplit
            exact absurd hsplit.1.2 hanswer
        | cons x front => simp at hsplit
  | read claim =>
      refine h.claimStep (.read claim) [] hr (by simp) trivial (fun tok htok => hup.trans htok)
        ⟨_, rfl⟩ rfl rfl id (by simp) (by simp [Request.between]) (by simp)
  | checked claim token hsetup hmatch hlive =>
      obtain ⟨rest, hsince⟩ := h.token token (hup.trans (by rw [hsetup]))
      have hstart : ∀ e ∈ [Event.checked i claim.token token now], e.isStart = false := by
        simp [Event.isStart]
      refine h.claimStep (.checked claim) _ hr hstart
        ⟨token, _, hsince.append hstart, claim.token, now, by simp, hmatch, hlive⟩
        (fun tok htok => hup.trans htok) ⟨_, rfl⟩ rfl rfl id
        (by simp [Event.isCommit]) (by simp [Event.isCreated, Request.between]) ?_
      intro front j back hsplit
      cases front with
      | nil => simp at hsplit
      | cons x front => simp at hsplit
  | hashed claim hash =>
      obtain ⟨token, rest, hsince, hpassed⟩ := hold
      refine h.claimStep (.hashed claim.username hash) [] hr (by simp)
        ⟨token, rest, by simpa using hsince, hpassed⟩
        (fun tok htok => hup.trans htok) ⟨_, rfl⟩ rfl rfl id (by simp) (by simp [Request.between])
        (by simp)
  | committed username hash _ hempty hfull =>
      obtain ⟨token, rest, hsince, hpassed⟩ := hold
      have hstart : ∀ e ∈ [Event.committed i 0], e.isStart = false := by simp [Event.isStart]
      refine h.claimStep (.committed username) _ hr hstart
        ⟨token, _, hsince.append hstart, hpassed.append _, by simp⟩
        (fun tok htok => hup.trans htok) ⟨_, rfl⟩ rfl rfl (fun _ => hfull)
        (fun _ => ⟨by simp [Event.isCommit], hempty, hfull⟩)
        (by simp [Event.isCommit, Event.isCreated, Request.between]) ?_
      intro front j back hsplit
      cases front with
      | nil => simp at hsplit
      | cons x front => simp at hsplit
  | closed username =>
      obtain ⟨token, rest, hsince, hpassed, hcommit⟩ := hold
      refine h.claimStep (.closed username) [] hr (by simp)
        ⟨token, rest, by simpa using hsince, hpassed, hcommit⟩
        (fun tok htok => by cases htok) ⟨_, rfl⟩ rfl rfl id (by simp) (by simp [Request.between])
        (by simp)
  | created username =>
      refine h.claimStep (.answered .created) [.answered i .created] hr (by simp [Event.isStart])
        trivial (fun tok htok => hup.trans htok) ⟨_, rfl⟩ rfl rfl id (by simp [Event.isCommit])
        (by simp [Event.isCommit, Event.isCreated, Request.between]) ?_
      intro front j back hsplit
      cases front with
      | nil =>
          simp only [List.nil_append, List.cons.injEq, Event.answered.injEq] at hsplit
          obtain ⟨⟨rfl, -⟩, -⟩ := hsplit
          rw [List.append_nil]
          exact hold
      | cons x front => simp at hsplit
  | orphanCommitted username hash _ hempty hfull =>
      refine h.claimStep .dropped [.committed i 0] hr (by simp [Event.isStart]) trivial
        (fun tok htok => hup.trans htok) ⟨_, rfl⟩ rfl rfl (fun _ => hfull)
        (fun _ => ⟨by simp [Event.isCommit], hempty, hfull⟩)
        (by simp [Event.isCommit, Event.isCreated, Request.between]) ?_
      intro front j back hsplit
      cases front with
      | nil => simp at hsplit
      | cons x front => simp at hsplit
  | orphanRefused username hash =>
      refine h.claimStep .dropped [] hr (by simp) trivial (fun tok htok => hup.trans htok)
        ⟨_, rfl⟩ rfl rfl id (by simp) (by simp [Request.between]) (by simp)

theorem Sound.up_of_claim (h : Sound sha256 s) {i : Nat} {r : Request}
    (hr : s.claims[i]? = some r) : ∃ setup, s.service = .up setup := by
  by_contra hnot
  simp only [not_exists] at hnot
  rw [h.idle hnot] at hr
  simp at hr

theorem Sound.step (h : Sound sha256 s) (hs : step sha256 rules s a = some t) : Sound sha256 t := by
  have hne : s.db.accounts ≠ [] → t.db.accounts ≠ [] := step_accounts_ne_nil hs
  cases step_effect hs with
  | stop =>
      have hroom := h.room
      exact ⟨by simp, fun _ => rfl, by simp, h.once, h.stays, by simp; omega, h.answers⟩
  | boot hdown =>
      have hclaims := h.idle (by simp [hdown])
      exact ⟨by simp, fun _ => hclaims, h.backed, h.once, h.stays, h.room, h.answers⟩
  | serveClosed n now _ hcounted _ => exact h.started (by simp [hcounted]) none now
  | serveOpen now _ token hcounted _ => exact h.started (by simp [hcounted]) (some token) now
  | serveFailed now _ hcounted _ =>
      have hclaims := h.idle (by simp [hcounted])
      exact ⟨by simp, fun _ => hclaims, h.backed, h.once, h.stays, h.room, h.answers⟩
  | claim body setup hup =>
      refine ⟨h.token, fun hidle => absurd hup (hidle setup), fun i r hr => ?_, h.once, h.stays, ?_,
        h.answers⟩
      · rw [List.getElem?_append] at hr
        split at hr
        · exact h.backed i r hr
        · rw [List.getElem?_singleton] at hr
          split at hr
          · cases hr
            trivial
          · cases hr
      · simpa [List.countP_append, Request.between] using h.room
  | advance i hash now r r' setup setup' db' events hup hr _ hprogress =>
      exact h.progress hup hr hprogress
  | fail i r hr hmay =>
      have hbetween : r.between = false := by
        cases r <;> first | rfl | cases hmay
      refine h.claimStep (.answered .internalServerError) [.answered i .internalServerError] hr
        (by simp [Event.isStart]) trivial (fun _ => id) (h.up_of_claim hr) rfl rfl id
        (by simp [Event.isCommit])
        (by simp [Event.isCreated, Request.between]) ?_
      intro front j back hsplit
      cases front with
      | nil => simp at hsplit
      | cons x front => simp at hsplit
  | drop i r r' hr hdrop =>
      -- Whatever the claim was about to do, it answers nothing any more.
      have hgone : (∃ username hash, r' = .orphaned username hash) ∨ r' = .dropped := by
        cases r <;> simp only [Request.drop, Option.some.injEq, reduceCtorEq] at hdrop <;>
          subst hdrop <;> simp
      have hback : Backed sha256 (s.log ++ []) i r' := by
        rcases hgone with ⟨username, hash, rfl⟩ | rfl <;> trivial
      have hbetween : r'.between = false := by
        rcases hgone with ⟨username, hash, rfl⟩ | rfl <;> rfl
      exact h.claimStep r' [] hr (by simp) hback (fun _ => id) (h.up_of_claim hr) rfl (by simp) id
        (by simp) (by simp [hbetween]) (by simp)
  | sessions _ db' hdb => exact h.quiet rfl rfl rfl hne
  | web key request wall db' setup _ hdb _ => exact h.quiet rfl rfl rfl hne
  | runWeb i w _ => exact h.quiet rfl rfl rfl hne
  | adminCreate username hash => exact h.quiet rfl rfl rfl hne
  | adminReset username hash => exact h.quiet rfl rfl rfl hne

-- A database that no service has opened yet.
def fresh (db : Db) : State := { db }

theorem fresh_sound (sha256 : String → Sha256) (db : Db) : Sound sha256 (fresh db) := by
  refine ⟨by simp [fresh], fun _ => rfl, by simp [fresh], by simp [fresh], by simp [fresh],
    by simp [fresh], ?_⟩
  intro front i back hsplit
  simp [fresh] at hsplit

-- From the first account on there is always one. At most one claim is ever
-- answered 201: it committed when there was no account, in the process whose
-- token it had given before the token expired.
theorem one_claim_ever (sha256 : String → Sha256) (rules : Rules) (db : Db) (acts : List Action)
    (s : State) (hrun : exec (step sha256 rules) (fresh db) acts = some s) :
    (s.db.accounts ≠ [] → ∀ later t, exec (step sha256 rules) s later = some t →
      t.db.accounts ≠ []) ∧
    s.log.countP Event.isCreated ≤ 1 ∧
    ∀ front i back, s.log = front ++ .answered i .created :: back →
      ∃ token rest submitted now, Since front token rest ∧
        .checked i submitted token now ∈ rest ∧ token.matches sha256 submitted = true ∧
        now < token.expires ∧ .committed i 0 ∈ rest := by
  have hsound : Sound sha256 s := exec_invariant_all (Sound sha256)
    (fun _ _ _ h hs => h.step hs) (fresh_sound sha256 db) hrun
  refine ⟨fun hne later t hlater => ?_, ?_, fun front i back hsplit => ?_⟩
  · exact exec_invariant_all (fun s => s.db.accounts ≠ [])
      (fun _ _ _ h hs => step_accounts_ne_nil hs h) hne hlater
  · have hroom := hsound.room
    have honce := hsound.once
    omega
  · obtain ⟨token, rest, hsince, ⟨submitted, now, hchecked, hmatch, hlive⟩, hcommit⟩ :=
      hsound.answers front i back hsplit
    exact ⟨token, rest, submitted, now, hsince, hchecked, hmatch, hlive, hcommit⟩

-- A new install, and the SHA-256 of the setup token of 16 zero bytes.
def emptyDb : Db where
  accounts := []
  sessions := []
  ids := by simp
  names := by simp
  tokens := List.nodup_nil
  owners := by simp

def zeroToken : String := encode (List.replicate 16 0)

def zeroSha (text : String) : Sha256 :=
  if text = zeroToken then 0x84e0c0eafaa95a34c293f278ac52e45ce537bab5e752a00e6959a13ae103b65a
  else 0

def anyRules : Rules := ⟨fun _ _ => true, fun _ => true, fun _ => true⟩

def firstClaim : List Action :=
  [.boot, .serve (.ok (Vector.replicate 16 0)) 0, .claim (some ⟨zeroToken, "admin", "pass"⟩),
    .advance 0 "" 1, .advance 0 "" 2, .advance 0 "$argon2id$" 3, .advance 0 "" 4, .advance 0 "" 5,
    .advance 0 "" 6]

theorem one_claim_ever_first :
    ∃ s, exec (step zeroSha anyRules) (fresh emptyDb) firstClaim = some s ∧
      .answered 0 .created ∈ s.log ∧ s.log.countP Event.isCreated ≤ 1 := by
  obtain ⟨s, hrun, hlog⟩ := Option.map_eq_some_iff.mp
    (show (exec (step zeroSha anyRules) (fresh emptyDb) firstClaim).map
      (fun s => decide (.answered 0 .created ∈ s.log)) = some true by decide +kernel)
  exact ⟨s, hrun, by simpa using hlog,
    (one_claim_ever zeroSha anyRules emptyDb firstClaim s hrun).2.1⟩

end Claims

section Page

variable {sha256 : String → Sha256} {rules : Rules} {s t : State} {a : Action}

-- No setup is open at `now`, and none is about to open.
def Shut (service : Service) (now : Nat) : Prop :=
  match service with
  | .down => True
  | .counted accounts => accounts ≠ 0
  | .up none => True
  | .up (some token) => token.expires ≤ now

-- `lodger admin create` and a claim whose client is gone make the first account
-- only while setup is shut, and a client stays from the commit of its claim
-- until setup is closed.
def Waits (s : State) : Action → Prop
  | .adminCreate _ _ now => s.db.accounts = [] → Shut s.service now
  | .advance i _ now => ∀ username hash, s.claims[i]? = some (.orphaned username hash) →
      s.db.accounts = [] → Shut s.service now
  | .drop i => ∀ username, s.claims[i]? = some (.committed username) → Shut s.service s.clock
  | _ => True

structure Agrees (s : State) : Prop where
  page : ∀ token, s.service = .up (some token) →
    s.db.accounts = [] ∨ token.expires ≤ s.clock ∨ ∃ username, .committed username ∈ s.claims
  counted : s.service = .counted 0 → s.db.accounts = []
  webs : s.webs ≠ [] → s.db.accounts ≠ []
  idle : (∀ setup, s.service ≠ .up setup) → s.webs = []

theorem fresh_agrees (db : Db) : Agrees (fresh db) :=
  ⟨by simp [fresh], by simp [fresh], by simp [fresh], fun _ => rfl⟩

-- Another claim's step leaves a commit that is not closed yet.
theorem mem_set_of_mem {claims : List Request} {i : Nat} {r r' : Request} {username : String}
    (hr : claims[i]? = some r) (hne : ∀ username, r ≠ .committed username)
    (h : .committed username ∈ claims) : .committed username ∈ claims.set i r' := by
  obtain ⟨j, hj⟩ := List.mem_iff_getElem?.mp h
  have hij : i ≠ j := by
    rintro rfl
    rw [hr] at hj
    exact hne username (Option.some.inj hj)
  exact List.mem_iff_getElem?.mpr ⟨j, by rw [List.getElem?_set_ne hij]; exact hj⟩

theorem Agrees.keepClaim (h : Agrees s) {i : Nat} {r r' : Request} {setup : Option SetupToken}
    {now : Nat} {log : List Event} (hup : s.service = .up setup) (hnow : s.clock ≤ now)
    (hr : s.claims[i]? = some r) (hne : ∀ username, r ≠ .committed username) :
    Agrees { s with service := .up setup, claims := s.claims.set i r', clock := now, log } := by
  refine ⟨fun token htoken => ?_, by simp, h.webs, fun hidle => absurd rfl (hidle setup)⟩
  rcases h.page token (hup.trans htoken) with hempty | hexpired | ⟨username, hmem⟩
  · exact .inl hempty
  · exact .inr (.inl (hexpired.trans hnow))
  · exact .inr (.inr ⟨username, mem_set_of_mem hr hne hmem⟩)

theorem Agrees.sameAccounts (h : Agrees s) (hservice : t.service = s.service)
    (hclaims : t.claims = s.claims) (hclock : t.clock = s.clock)
    (hdb : t.db.accounts = [] ↔ s.db.accounts = [])
    (hwebs : t.webs ≠ [] → s.db.accounts ≠ [])
    (hidle : (∀ setup, s.service ≠ .up setup) → t.webs = []) : Agrees t where
  page := by
    rw [hservice, hclaims, hclock, hdb]
    exact h.page
  counted := by
    rw [hservice, hdb]
    exact h.counted
  webs := by
    rw [ne_eq t.db.accounts, hdb]
    exact hwebs
  idle := by
    rw [hservice]
    exact hidle

theorem Agrees.step (h : Agrees s) (hwaits : Waits s a) (hs : step sha256 rules s a = some t) :
    Agrees t := by
  cases step_effect hs with
  | stop => exact ⟨by simp, by simp, by simp, fun _ => rfl⟩
  | boot hdown =>
      refine ⟨by simp, fun hzero => ?_, h.webs, fun _ => h.idle (by simp [hdown])⟩
      simpa [accountCount] using hzero
  | serveClosed n now _ hcounted _ =>
      exact ⟨by simp, by simp, h.webs, fun hidle => absurd rfl (hidle none)⟩
  | serveOpen now _ token hcounted _ =>
      exact ⟨fun _ _ => .inl (h.counted hcounted), by simp, h.webs,
        fun hidle => absurd rfl (hidle (some token))⟩
  | serveFailed now _ hcounted _ =>
      exact ⟨by simp, by simp, h.webs, fun _ => h.idle (by simp [hcounted])⟩
  | claim body setup hup =>
      refine ⟨fun token htoken => ?_, h.counted, h.webs, h.idle⟩
      rcases h.page token htoken with hempty | hexpired | ⟨username, hmem⟩
      · exact .inl hempty
      · exact .inr (.inl hexpired)
      · exact .inr (.inr ⟨username, List.mem_append_left _ hmem⟩)
  | advance i hash now r r' setup setup' db' events hup hr hnow hprogress =>
      cases hprogress with
      | refused _ answer hanswer hbetween =>
          exact h.keepClaim hup hnow hr (by rintro username rfl; cases hbetween)
      | read claim => exact h.keepClaim hup hnow hr (by simp)
      | checked claim => exact h.keepClaim hup hnow hr (by simp)
      | hashed claim => exact h.keepClaim hup hnow hr (by simp)
      | committed username hash db' hempty hfull =>
          have hlt : i < s.claims.length := (List.getElem?_eq_some_iff.mp hr).1
          exact ⟨fun _ _ => .inr (.inr ⟨username, List.mem_set hlt _⟩), by simp, fun _ => hfull,
            fun hidle => absurd rfl (hidle setup)⟩
      | closed username =>
          exact ⟨by simp, by simp, h.webs, fun hidle => absurd rfl (hidle none)⟩
      | created username => exact h.keepClaim hup hnow hr (by simp)
      | orphanCommitted username hash db' hempty hfull =>
          have hshut := hwaits username hash hr hempty
          rw [hup] at hshut
          refine ⟨fun token htoken => ?_, by simp, fun _ => hfull,
            fun hidle => absurd rfl (hidle setup)⟩
          cases htoken
          exact .inr (.inl hshut)
      | orphanRefused username hash => exact h.keepClaim hup hnow hr (by simp)
  | drop i r r' hr hdrop =>
      refine ⟨fun token htoken => ?_, h.counted, h.webs, h.idle⟩
      by_cases hcommitted : ∃ username, r = .committed username
      · obtain ⟨username, rfl⟩ := hcommitted
        have hshut := hwaits username hr
        have hup : s.service = .up (some token) := htoken
        rw [hup] at hshut
        exact .inr (.inl hshut)
      · rcases h.page token htoken with hempty | hexpired | ⟨username, hmem⟩
        · exact .inl hempty
        · exact .inr (.inl hexpired)
        · exact .inr (.inr ⟨username,
            mem_set_of_mem hr (fun username hr => hcommitted ⟨username, hr⟩) hmem⟩)
  | fail i r hr hmay =>
      refine ⟨fun token htoken => ?_, h.counted, h.webs, h.idle⟩
      rcases h.page token htoken with hempty | hexpired | ⟨username, hmem⟩
      · exact .inl hempty
      · exact .inr (.inl hexpired)
      · exact .inr (.inr ⟨username,
          mem_set_of_mem hr (by rintro username rfl; cases hmay) hmem⟩)
  | sessions _ db' hdb => exact h.sameAccounts rfl rfl rfl (by simp only [hdb]) h.webs h.idle
  | web key request wall db' setup hup hdb hne =>
      exact h.sameAccounts rfl rfl rfl (by simp only [hdb]) (fun _ => hne)
        (fun hidle => absurd hup (hidle setup))
  | runWeb i w hw =>
      have hwebs : s.webs ≠ [] := List.ne_nil_of_mem (List.mem_of_getElem? hw)
      have hne := h.webs hwebs
      have hset : s.webs.set i .done ≠ [] → s.db.accounts ≠ [] := fun _ => hne
      refine h.sameAccounts rfl rfl rfl ?_ hset (fun hidle => absurd (h.idle hidle) hwebs)
      exact ⟨fun hnil => absurd hnil (w.run_ne_nil hne), fun hnil => absurd hnil hne⟩
  | adminCreate username hash now hnow =>
      have hfull := createAccount_ne_nil s.db username hash
      refine ⟨fun token htoken => ?_, fun hzero => ?_, fun _ => hfull, h.idle⟩
      · by_cases hempty : s.db.accounts = []
        · have hclosed := hwaits hempty
          have hup : s.service = .up (some token) := htoken
          rw [hup] at hclosed
          exact .inr (.inl hclosed)
        · rcases h.page token htoken with hnil | hexpired | hcommitted
          · exact absurd hnil hempty
          · exact .inr (.inl (hexpired.trans hnow))
          · exact .inr (.inr hcommitted)
      · have hempty := h.counted hzero
        have hclosed := hwaits hempty
        have hcounted : s.service = .counted 0 := hzero
        rw [hcounted] at hclosed
        exact absurd rfl hclosed
  | adminReset username hash =>
      exact h.sameAccounts rfl rfl rfl (resetPassword_eq_nil s.db username hash) h.webs h.idle

-- While `lodger admin create` and the claims of clients that are gone keep out of
-- an open setup, the setup page says that setup is open only when there is no
-- account.
theorem setup_page_agrees (sha256 : String → Sha256) (rules : Rules) (db : Db)
    (acts : List Action) (s : State) (hrun : exec (step sha256 rules) (fresh db) acts = some s)
    (hwaits : Along (step sha256 rules) Waits (fresh db) acts) (now : Nat) (hnow : s.clock ≤ now)
    (hbetween : ∀ r ∈ s.claims, r.between = false) (hopen : s.status now = some .ok) :
    s.db.accounts = [] := by
  have hagrees : Agrees s := exec_invariant Agrees (fun _ _ _ h hok hs => h.step hok hs)
    (fresh_agrees db) hwaits hrun
  cases hservice : s.service with
  | down => simp [State.status, hservice] at hopen
  | counted n => simp [State.status, hservice] at hopen
  | up setup =>
      cases setup with
      | none => simp [State.status, hservice] at hopen
      | some token =>
          have hlive : now < token.expires := by
            by_contra hover
            simp [State.status, hservice, hover] at hopen
          rcases hagrees.page token hservice with hempty | hexpired | ⟨username, hmem⟩
          · exact hempty
          · omega
          · exact absurd (hbetween _ hmem) (by simp [Request.between])

theorem setup_page_agrees_first :
    ∃ s, exec (step zeroSha anyRules) (fresh emptyDb)
        [.boot, .serve (.ok (Vector.replicate 16 0)) 0] = some s ∧
      s.status 7 = some .ok ∧ s.db.accounts = [] := by
  have hstatus : (exec (step zeroSha anyRules) (fresh emptyDb)
      [.boot, .serve (.ok (Vector.replicate 16 0)) 0]).map
      (fun s => (s.status 7, s.clock, s.claims)) = some (some .ok, 0, []) := by decide +kernel
  obtain ⟨s, hrun, hs⟩ := Option.map_eq_some_iff.mp hstatus
  simp only [Prod.mk.injEq] at hs
  obtain ⟨hopen, hclock, hclaims⟩ := hs
  refine ⟨s, hrun, hopen, setup_page_agrees zeroSha anyRules emptyDb _ s hrun ?_ 7 (by omega)
    (by simp [hclaims]) hopen⟩
  exact ⟨trivial, fun _ _ => ⟨trivial, fun _ _ => trivial⟩⟩

-- The service runs with setup open, and `lodger admin create` adds an account.
theorem setup_page_open_with_account :
    ∃ s, exec (step zeroSha anyRules) (fresh emptyDb)
        [.boot, .serve (.ok (Vector.replicate 16 0)) 0, .adminCreate "root" "$argon2id$" 5] =
          some s ∧
      (∀ r ∈ s.claims, r.between = false) ∧ s.status 7 = some .ok ∧ s.db.accounts ≠ [] := by
  have hstatus : (exec (step zeroSha anyRules) (fresh emptyDb)
      [.boot, .serve (.ok (Vector.replicate 16 0)) 0, .adminCreate "root" "$argon2id$" 5]).map
      (fun s => (s.status 7, s.claims, s.db.accounts)) =
        some (some .ok, [], [⟨1, "root", "$argon2id$"⟩]) := by decide +kernel
  obtain ⟨s, hrun, hs⟩ := Option.map_eq_some_iff.mp hstatus
  simp only [Prod.mk.injEq] at hs
  obtain ⟨hopen, hclaims, haccounts⟩ := hs
  exact ⟨s, hrun, by simp [hclaims], hopen, by simp [haccounts]⟩

-- The same with a claim whose client goes away right after the commit.
example : (exec (step zeroSha anyRules) (fresh emptyDb)
    [.boot, .serve (.ok (Vector.replicate 16 0)) 0, .claim (some ⟨zeroToken, "admin", "pass"⟩),
      .advance 0 "" 1, .advance 0 "" 2, .advance 0 "$argon2id$" 3, .advance 0 "" 4, .drop 0]).map
      (fun s => (s.status 7, s.claims, s.db.accounts)) =
    some (some .ok, [.dropped], [⟨1, "admin", "$argon2id$"⟩]) := by decide +kernel

end Page

end Lodger.Setup
