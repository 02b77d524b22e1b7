import Lodger.Throttle.Lemmas

namespace Lodger.Throttle

open Lodger.Lib Lodger.Lib.Window

variable {lower : String → String} {r r' : Run} {op : Op}

-- What one step can do to a run.
theorem Run.step_cases (h : r.step lower op = some r') :
    (∃ account ip now, op = .begin account ip now ∧ r.clock ≤ now ∧
      r' = ⟨(r.counters.begin lower account ip now).2, now,
        r.log ++ [.began account ip now (r.counters.failures lower account ip now)
          (r.counters.begin lower account ip now).1]⟩) ∨
    (∃ account ip attempt call, op = .succeed account ip attempt call ∧
      r' = ⟨r.counters.succeed lower account ip attempt, r.clock,
        r.log ++ [.succeeded account ip attempt call]⟩) := by
  cases op with
  | begin account ip now =>
      simp only [Run.step, Option.ite_none_right_eq_some, Option.some.injEq] at h
      exact .inl ⟨account, ip, now, rfl, h.1, h.2.symm⟩
  | succeed account ip attempt call =>
      simp only [Run.step, Option.some.injEq] at h
      exact .inr ⟨account, ip, attempt, call, rfl, h.symm⟩

theorem Run.step_begin (lower : String → String) (account : String) (ip : IpAddr) {now : Nat}
    (h : r.clock ≤ now) :
    r.step lower (.begin account ip now) =
      some ⟨(r.counters.begin lower account ip now).2, now,
        r.log ++ [.began account ip now (r.counters.failures lower account ip now)
          (r.counters.begin lower account ip now).1]⟩ := by
  simp [Run.step, h]

theorem log_length {ops : List Op} (hrun : exec (Run.step lower) {} ops = some r) :
    r.log.length = ops.length := by
  induction ops using List.reverseRecOn generalizing r with
  | nil =>
      cases hrun
      rfl
  | append_singleton ops op ih =>
      obtain ⟨q, hq, hs⟩ := exec_concat.mp hrun
      rcases Run.step_cases hs with ⟨account, ip, now, -, -, rfl⟩ | ⟨account, ip, attempt, call, -, rfl⟩
      · simp [ih hq]
      · simp [ih hq]

-- While no call for the account key is refused, the map counts that key as
-- the history does.
def AccountRoomFor (lower : String → String) (key : String) (r : Run) (op : Op) : Prop :=
  match op with
  | .begin account _ _ => accountKey lower account = key → AccountRoom lower r op
  | .succeed .. => True

theorem step_tracks_account (key : String)
    (h : Tracks r.counters.accounts r.clock key (sinceSuccess lower r.log key))
    (hroom : AccountRoomFor lower key r op) (hs : r.step lower op = some r') :
    Tracks r'.counters.accounts r'.clock key (sinceSuccess lower r'.log key) := by
  rcases Run.step_cases hs with ⟨account, ip, now, rfl, hclock, rfl⟩ |
    ⟨account, ip, attempt, call, rfl, rfl⟩
  · have hentry := h.entry hclock (accountKey lower account)
    have haccepted : Tracks ((r.counters.accounts.entry (accountKey lower account) now).1.record
        (accountKey lower account) now) now key
        (if accountKey lower account = key then sinceSuccess lower r.log key ++ [now]
          else sinceSuccess lower r.log key) := by
      by_cases hk : accountKey lower account = key
      · obtain ⟨e, he⟩ := Option.isSome_iff_exists.mp (hroom hk)
        subst hk
        simpa using hentry.record_self (h.entry_times hclock he).2
      · simpa [hk] using hentry.record_ne hk
    simp only [sinceSuccess_append]
    rcases r.counters.begin_cases lower account ip now with
      ⟨e, -, -, hb⟩ | ⟨e, -, -, hb⟩ | ⟨-, -, hb⟩
    · simpa [hb, countAccount] using hentry
    · simpa [hb, countAccount] using haccepted
    · simpa [hb, countAccount] using haccepted
  · simp only [sinceSuccess_append, countAccount, Counters.succeed]
    by_cases hk : accountKey lower account = key
    · subst hk
      simpa using Tracks.erase_self _ _ _
    · simpa [hk] using h.erase_ne hk

theorem step_tracks_ip (key : IpAddr)
    (h : Tracks r.counters.ips r.clock key (notTakenBack r.log key))
    (hroom : IpRoom r op) (hs : r.step lower op = some r') :
    Tracks r'.counters.ips r'.clock key (notTakenBack r'.log key) := by
  rcases Run.step_cases hs with ⟨account, ip, now, rfl, hclock, rfl⟩ |
    ⟨account, ip, attempt, call, rfl, rfl⟩
  · have hentry := h.entry hclock (ipKey ip)
    simp only [notTakenBack_append]
    rcases r.counters.begin_cases lower account ip now with
      ⟨e, -, -, hb⟩ | ⟨e, he, -, hb⟩ | ⟨hnone, -, -⟩
    · simpa [hb, countIp] using hentry
    · by_cases hk : ipKey ip = key
      · subst hk
        have hkept : Kept WINDOW now e.times (notTakenBack r.log (ipKey ip)) :=
          ⟨now, le_rfl, (h.entry_times hclock he).1⟩
        simpa [hb, countIp] using hentry.push e.times hkept _
      · simpa [hb, countIp, hk] using hentry.insert_ne hk _
    · simp [IpRoom, hnone] at hroom
  · simp only [notTakenBack_append, countIp, Counters.succeed]
    by_cases hk : ipKey ip = key
    · subst hk
      simpa using h.takeBack_self attempt.begun
    · simpa [hk] using h.takeBack_ne hk attempt.begun

theorem run_tracks_account {ops : List Op} (key : String)
    (hroom : Along (Run.step lower) (AccountRoomFor lower key) {} ops)
    (hrun : exec (Run.step lower) {} ops = some r) :
    Tracks r.counters.accounts r.clock key (sinceSuccess lower r.log key) :=
  exec_invariant (fun r => Tracks r.counters.accounts r.clock key (sinceSuccess lower r.log key))
    (fun _ _ _ h hroom hs => step_tracks_account key h hroom hs) (Tracks.empty 0 key) hroom hrun

theorem run_tracks_ip {ops : List Op} (key : IpAddr)
    (hroom : Along (Run.step lower) IpRoom {} ops)
    (hrun : exec (Run.step lower) {} ops = some r) :
    Tracks r.counters.ips r.clock key (notTakenBack r.log key) :=
  exec_invariant (fun r => Tracks r.counters.ips r.clock key (notTakenBack r.log key))
    (fun _ _ _ h hroom hs => step_tracks_ip key h hroom hs) (Tracks.empty 0 key) hroom hrun

-- The moment from which the attempt that call `i` of the log accepted lets
-- the next one of its IP start.
def turnEnds (log : List Logged) (key : IpAddr) (i : Nat) (attempt : Attempt) : Nat :=
  attempt.begun + attempt.wait +
    delayFor (inWindow attempt.begun (notTakenBack (log.take (i + 1)) key))

-- Every turn that was given out is over, or the map still holds it back.
def Spaced (r : Run) : Prop :=
  ∀ i account ip now failures attempt,
    r.log[i]? = some (.began account ip now failures (.ok attempt)) →
    turnEnds r.log (ipKey ip) i attempt ≤
      max r.clock ((r.counters.ips.nextOf (ipKey ip)).getD 0)

theorem turnEnds_append (log : List Logged) (x : Logged) (key : IpAddr) {i : Nat}
    (hi : i < log.length) (attempt : Attempt) :
    turnEnds (log ++ [x]) key i attempt = turnEnds log key i attempt := by
  unfold turnEnds
  rw [List.take_append_of_le_length (by omega)]

-- A later call keeps the invariant for the earlier ones as long as the map
-- forgets no turn that is still to come.
theorem Spaced.append {x : Logged} {counters : Counters} {clock : Nat} (h : Spaced r)
    (hclock : r.clock ≤ clock)
    (hnext : ∀ key, (r.counters.ips.nextOf key).getD 0 ≤
      max clock ((counters.ips.nextOf key).getD 0))
    (hlast : ∀ account ip now failures attempt,
      x = .began account ip now failures (.ok attempt) →
      turnEnds (r.log ++ [x]) (ipKey ip) r.log.length attempt ≤
        max clock ((counters.ips.nextOf (ipKey ip)).getD 0)) :
    Spaced ⟨counters, clock, r.log ++ [x]⟩ := by
  intro i account ip now failures attempt hi
  simp only at hi ⊢
  rcases Nat.lt_or_ge i r.log.length with hlt | hge
  · rw [List.getElem?_append_left hlt] at hi
    rw [turnEnds_append _ _ _ hlt]
    have hold := h i account ip now failures attempt hi
    have := hnext (ipKey ip)
    omega
  · rw [List.getElem?_append_right hge, List.getElem?_singleton] at hi
    split at hi
    · have hi' : i = r.log.length := by omega
      subst hi'
      exact hlast account ip now failures attempt (by simpa using hi)
    · simp at hi

theorem step_spaced (h : Spaced r)
    (htracks : ∀ key, Tracks r.counters.ips r.clock key (notTakenBack r.log key))
    (hroom : IpRoom r op) (hs : r.step lower op = some r') : Spaced r' := by
  rcases Run.step_cases hs with ⟨account, ip, now, rfl, hclock, rfl⟩ |
    ⟨account, ip, attempt, call, rfl, rfl⟩
  · have hentry (key : IpAddr) := r.counters.ips.nextOf_entry key (ipKey ip) now
    rcases r.counters.begin_cases lower account ip now with
      ⟨e, -, -, hb⟩ | ⟨e, he, -, hb⟩ | ⟨hnone, -, -⟩
    · rw [hb]
      apply h.append hclock hentry
      rintro _ _ _ _ _ ⟨⟩
    · -- The accepted attempt moves `next` of its own key only, and never back.
      rw [hb]
      have hstored := ((htracks (ipKey ip)).entry_times hclock he).2
      apply h.append hclock
      · intro key
        have hkey := hentry key
        unfold Counts.nextOf at hkey ⊢
        rw [Counts.getElem?_insert]
        by_cases hk : ipKey ip = key
        · subst hk
          rw [hstored] at hkey
          have := next_le_startOf (r.counters.failures lower account ip now) e now
          simp only [Option.getD_some] at hkey
          simp only [if_true, Option.getD_some]
          omega
        · simpa [hk] using hkey
      · rintro account' ip' now' failures' attempt ⟨⟩
        have hcount : inWindow now (notTakenBack (r.log ++ [.began account ip now
            (r.counters.failures lower account ip now) (.ok ⟨startOf
              (r.counters.failures lower account ip now) e now - now,
              min (r.counters.failures lower account ip now) MAX_KEYS, now⟩)]) (ipKey ip)) =
            e.times.length + 1 := by
          have hyoung : young WINDOW now now = true := by
            have := window_pos
            simp only [young, decide_eq_true_eq]
            omega
          rw [inWindow_eq, notTakenBack_append, ((htracks (ipKey ip)).entry_times hclock he).1]
          simp [countIp, hyoung]
        have hle := le_startOf (r.counters.failures lower account ip now) e now
        unfold turnEnds Counts.nextOf
        rw [List.take_of_length_le (by simp), Counts.getElem?_insert]
        simp only [if_true, Option.getD_some, hcount]
        omega
    · simp [IpRoom, hnone] at hroom
  · apply h.append le_rfl
    · intro key
      simp only [Counters.succeed, Counts.nextOf_takeBack]
      exact le_max_right _ _
    · rintro _ _ _ _ _ ⟨⟩

theorem run_spaced {ops : List Op} (hroom : Along (Run.step lower) IpRoom {} ops)
    (hrun : exec (Run.step lower) {} ops = some r) : Spaced r := by
  have hboth := exec_invariant
    (fun r => Spaced r ∧ ∀ key, Tracks r.counters.ips r.clock key (notTakenBack r.log key))
    (fun _ _ _ h hroom hs => ⟨step_spaced h.1 h.2 hroom hs,
      fun key => step_tracks_ip key (h.2 key) hroom hs⟩)
    ⟨by intro i; simp, fun key => Tracks.empty 0 key⟩ hroom hrun
  exact hboth.1

-- What an attempt does to the entries of its two keys, if the maps hold both.
def attemptOn (a i : Entry) (now : Nat) : Except Nat Attempt × Entry × Entry :=
  let a := a.expire now
  let i := i.expire now
  let failures := max a.times.length i.times.length
  let start := startOf failures i now
  if MAX_DELAY < start - now then (.error (start - now), a, i)
  else
    (.ok ⟨start - now, min failures MAX_KEYS, now⟩, { a with times := a.times ++ [now] },
      ⟨i.times ++ [now], some (start + delayFor (i.times.length + 1))⟩)

-- The maps hold these entries for `admin` and this host.
structure Held (a i : Entry) (r : Run) : Prop where
  account : r.counters.accounts["admin"]? = some a
  ip : r.counters.ips[localhost]? = some i

theorem Held.room {a i : Entry} (h : Held a i r) (now : Nat) :
    IpRoom r (.begin "admin" localhost now) := by
  have hkey : ipKey localhost = localhost := rfl
  simp only [IpRoom, hkey, Counts.entry_of_getElem? h.ip now, Option.isSome_some]

theorem begin_held {a i : Entry} (h : Held a i r) (now : Nat) (hclock : r.clock ≤ now) :
    ∃ s, r.step asciiLower (.begin "admin" localhost now) = some s ∧ s.clock = now ∧
      s.log = r.log ++ [.began "admin" localhost now
        (max (a.expire now).times.length (i.expire now).times.length) (attemptOn a i now).1] ∧
      Held (attemptOn a i now).2.1 (attemptOn a i now).2.2 s := by
  have ha := Counts.entry_of_getElem? h.account now
  have hi := Counts.entry_of_getElem? h.ip now
  have hkey : ipKey localhost = localhost := rfl
  have hf : r.counters.failures asciiLower "admin" localhost now =
      max (a.expire now).times.length (i.expire now).times.length := by
    unfold Counters.failures
    rw [accountKey_admin, hkey, ha, hi]
    rfl
  refine ⟨_, Run.step_begin asciiLower "admin" localhost hclock, rfl, ?_⟩
  have hcases := r.counters.begin_cases asciiLower "admin" localhost now
  rw [hf, accountKey_admin, hkey, ha, hi] at hcases
  rw [hf]
  rcases hcases with ⟨e, he, hmax, hb⟩ | ⟨e, he, hmax, hb⟩ | ⟨he, -, -⟩
  · obtain rfl := Option.some.inj he
    simp only [attemptOn, if_pos hmax, hb]
    exact ⟨trivial, by simp, by simp⟩
  · obtain rfl := Option.some.inj he
    simp only [attemptOn, if_neg (Nat.not_lt.mpr hmax), hb]
    exact ⟨trivial, by simp [Counts.record], by simp⟩
  · cases he

-- The entries after `n` attempts at once.
def hammered : Nat → Entry × Entry
  | 0 => (⟨[0], none⟩, ⟨[0], some 0⟩)
  | n + 1 => (attemptOn (hammered n).1 (hammered n).2 0).2

theorem exec_hammer (n : Nat) :
    ∃ r, exec (Run.step asciiLower) {} (List.replicate (n + 1) (.begin "admin" localhost 0)) =
        some r ∧
      Along (Run.step asciiLower) IpRoom {} (List.replicate (n + 1) (.begin "admin" localhost 0)) ∧
      r.clock = 0 ∧ Held (hammered n).1 (hammered n).2 r := by
  induction n with
  | zero =>
      exact ⟨firstLogin, by simp [exec, step_firstLogin], ⟨(room_empty _).2, fun _ _ => trivial⟩,
        rfl, by simp [firstLogin, hammered], by simp [firstLogin, hammered]⟩
  | succ n ih =>
      obtain ⟨r, hr, hroom, hclock, hheld⟩ := ih
      obtain ⟨s, hs, hclock', -, hheld'⟩ := begin_held hheld 0 (le_of_eq hclock)
      rw [List.replicate_succ']
      refine ⟨s, exec_concat.mpr ⟨r, hr, hs⟩, hroom.concat ?_, hclock', hheld'⟩
      intro t ht
      obtain rfl : r = t := Option.some.inj (hr.symm.trans ht)
      exact hheld.room 0

-- The turns of one client do not overlap: an attempt that `begin` accepts
-- after any run starts after the turn of every earlier accepted attempt of the
-- same IP key, and no accepted attempt waits longer than the limit.
theorem begin_spaces_attempts (lower : String → String) (ops : List Op) (r : Run)
    (hrun : exec (Run.step lower) {} ops = some r)
    (hroom : Along (Run.step lower) IpRoom {} ops)
    (account : String) (ip : IpAddr) (now : Nat) (attempt : Attempt) (hclock : r.clock ≤ now)
    (hnow : IpRoom r (.begin account ip now))
    (hok : (r.counters.begin lower account ip now).1 = .ok attempt) :
    attempt.wait ≤ MAX_DELAY ∧
    ∀ i account' ip' now' failures' earlier,
      r.log[i]? = some (.began account' ip' now' failures' (.ok earlier)) →
      ipKey ip' = ipKey ip →
      earlier.begun + earlier.wait +
          delayFor (inWindow earlier.begun (notTakenBack (r.log.take (i + 1)) (ipKey ip'))) ≤
        attempt.begun + attempt.wait := by
  refine ⟨(r.counters.begin_wait lower account ip now hok).2.1, ?_⟩
  intro i account' ip' now' failures' earlier hi hkey
  have hold : turnEnds r.log (ipKey ip') i earlier ≤
      max r.clock ((r.counters.ips.nextOf (ipKey ip')).getD 0) :=
    run_spaced hroom hrun i account' ip' now' failures' earlier hi
  change turnEnds r.log (ipKey ip') i earlier ≤ _
  rw [hkey] at hold ⊢
  have hentry := r.counters.ips.nextOf_entry (ipKey ip) (ipKey ip) now
  have htracks := run_tracks_ip (ipKey ip) hroom hrun
  rcases r.counters.begin_cases lower account ip now with
    ⟨e, -, -, hb⟩ | ⟨e, he, -, hb⟩ | ⟨hnone, -, -⟩
  · simp [hb] at hok
  · rw [hb] at hok
    cases hok
    rw [Counts.nextOf, Counts.nextOf, (htracks.entry_times hclock he).2] at hentry
    have hnext := next_le_startOf (r.counters.failures lower account ip now) e now
    have hle := le_startOf (r.counters.failures lower account ip now) e now
    simp only [Option.getD_some] at hentry
    unfold Counts.nextOf at hold
    simp only
    omega
  · simp [IpRoom, hnone] at hnow

-- Six attempts at once: the sixth waits a second, and the seventh two more.
theorem begin_spaces_attempts_hammer :
    ∃ r first second,
      exec (Run.step asciiLower) {} (List.replicate 6 (.begin "admin" localhost 0)) = some r ∧
      r.log[5]? = some (.began "admin" localhost 0 5 (.ok first)) ∧
      (r.counters.begin asciiLower "admin" localhost 0).1 = .ok second ∧
      first.wait = secs 1 ∧ second.wait = secs 3 ∧
      first.begun + first.wait + delayFor (inWindow first.begun
        (notTakenBack (r.log.take 6) (ipKey localhost))) ≤ second.begun + second.wait := by
  obtain ⟨q, hq, -, hclock, hheld⟩ := exec_hammer 4
  obtain ⟨r, hr, hclock', hlog, hheld'⟩ := begin_held hheld 0 (le_of_eq hclock)
  obtain ⟨r', hrun, hroom, -, -⟩ := exec_hammer 5
  obtain rfl : r = r' := Option.some.inj ((exec_concat.mpr ⟨q, hq, hr⟩).symm.trans hrun)
  obtain ⟨s, hs, -, hlog', -⟩ := begin_held hheld' 0 (le_of_eq hclock')
  have hsixth : max ((hammered 4).1.expire 0).times.length ((hammered 4).2.expire 0).times.length =
      5 ∧ (attemptOn (hammered 4).1 (hammered 4).2 0).1 = .ok ⟨secs 1, 5, 0⟩ := by decide +kernel
  have hseventh : (attemptOn (hammered 5).1 (hammered 5).2 0).1 = .ok ⟨secs 3, 6, 0⟩ := by
    decide +kernel
  have hfirst : r.log[5]? = some (.began "admin" localhost 0 5 (.ok ⟨secs 1, 5, 0⟩)) := by
    have hlen : q.log.length = 5 := log_length hq
    rw [hlog, hsixth.1, hsixth.2]
    simp [hlen]
  have hsecond : (r.counters.begin asciiLower "admin" localhost 0).1 = .ok ⟨secs 3, 6, 0⟩ := by
    rw [Run.step_begin asciiLower "admin" localhost (le_of_eq hclock'), Option.some.injEq] at hs
    rw [← hs, List.append_cancel_left_eq, List.cons.injEq, Logged.began.injEq] at hlog'
    rw [hlog'.1.2.2.2.2]
    exact hseventh
  have hlaw := (begin_spaces_attempts asciiLower _ r hrun hroom "admin" localhost 0 _
    (le_of_eq hclock') (hheld'.room 0) hsecond).2 5 "admin" localhost 0 5 _ hfirst rfl
  exact ⟨r, _, _, hrun, hfirst, hsecond, rfl, rfl, hlaw⟩

end Lodger.Throttle
