import Lodger.Throttle.Theorems

namespace Lodger.Throttle

open Lodger.Lib

variable {lower : String → String} {r r' : Run} {op : Op}

-- `Duration::as_secs`, for the Retry-After header.
def asSecs (d : Nat) : Nat := d / secs 1

section Next

variable {K : Type} [DecidableEq K] [Hashable K] {map : Counts K} {key other : K} {now next : Nat}

-- `entry` sets no `next`: it may only forget one.
theorem nextOf_retain (h : (map.retain now).nextOf key = some next) : map.nextOf key = some next := by
  unfold Counts.nextOf at h ⊢
  rw [Counts.getElem?_retain] at h
  cases he : map[key]? with
  | none => simp [he] at h
  | some e =>
      cases hu : e.inUse now with
      | true => simpa [he, Option.filter, hu] using h
      | false => simp [he, Option.filter, hu] at h

theorem entry_next {e : Entry} (h : (map.entry key now).2 = some e) (hnext : e.next = some next) :
    map.nextOf key = some next := by
  rcases Counts.entry_cases map key now with ⟨hnone, -⟩ | ⟨base, hbase, heq⟩
  · simp [hnone] at h
  · rw [heq, Option.some.injEq] at h
    subst h
    have hown : base.nextOf key = some next := hnext
    rcases hbase with rfl | ⟨rfl, -⟩
    · exact hown
    · exact nextOf_retain hown

theorem nextOf_of_entry (h : (map.entry other now).1.nextOf key = some next) :
    map.nextOf key = some next := by
  rcases Counts.entry_cases map other now with ⟨hnone, -⟩ | ⟨base, hbase, heq⟩
  · rw [hnone] at h
    exact nextOf_retain h
  · have hown : base.nextOf key = some next := by
      rw [heq] at h
      unfold Counts.nextOf at h ⊢
      rw [Counts.getElem?_insert] at h
      by_cases hk : other = key
      · subst hk
        simpa [Entry.expire] using h
      · simpa [hk] using h
    rcases hbase with rfl | ⟨rfl, -⟩
    · exact hown
    · exact nextOf_retain hown

end Next

section Queue

-- The turn that an IP key has to wait for was given out at most 120 seconds before it.
def Queued (r : Run) : Prop :=
  ∀ key next, r.counters.ips.nextOf key = some next → ∃ account ip now failures attempt,
    .began account ip now failures (.ok attempt) ∈ r.log ∧ ipKey ip = key ∧ now ≤ r.clock ∧
      next ≤ now + secs 120

theorem max_delay_twice : MAX_DELAY + MAX_DELAY = secs 120 := by decide

theorem Queued.append {x : Logged} {counters : Counters} {clock : Nat} (h : Queued r)
    (hclock : r.clock ≤ clock) (hnext : ∀ key next, counters.ips.nextOf key = some next →
      r.counters.ips.nextOf key = some next ∨ ∃ account ip failures attempt,
        x = .began account ip clock failures (.ok attempt) ∧ ipKey ip = key ∧
          next ≤ clock + secs 120) :
    Queued ⟨counters, clock, r.log ++ [x]⟩ := by
  intro key next hkey
  obtain hold | ⟨account, ip, failures, attempt, rfl, hip, hle⟩ := hnext key next hkey
  · obtain ⟨account, ip, now, failures, attempt, hmem, hip, hnow, hle⟩ := h key next hold
    exact ⟨account, ip, now, failures, attempt, List.mem_append_left _ hmem, hip,
      hnow.trans hclock, hle⟩
  · exact ⟨account, ip, clock, failures, attempt, by simp, hip, le_rfl, hle⟩

theorem step_queued (h : Queued r) (hs : r.step lower op = some r') : Queued r' := by
  rcases Run.step_cases hs with ⟨account, ip, now, rfl, hclock, rfl⟩ |
    ⟨account, ip, attempt, call, rfl, rfl⟩
  · rcases r.counters.begin_cases lower account ip now with
      ⟨e, -, -, hb⟩ | ⟨e, he, hmax, hb⟩ | ⟨-, -, hb⟩
    · rw [hb]
      exact h.append hclock fun key next hkey => Or.inl (nextOf_of_entry hkey)
    · -- The accepted attempt waits at most 60 seconds, and the next one at most 60 more.
      rw [hb]
      refine h.append hclock fun key next hkey => ?_
      simp only [Counts.nextOf, Counts.getElem?_insert] at hkey
      by_cases hk : ipKey ip = key
      · subst hk
        simp only [if_true, Option.getD_some, Option.some.injEq] at hkey
        have hdelay := delayFor_le_max (e.times.length + 1)
        have htwice := max_delay_twice
        exact Or.inr ⟨account, ip, _, _, rfl, rfl, by omega⟩
      · rw [if_neg hk] at hkey
        exact Or.inl (nextOf_of_entry hkey)
    · rw [hb]
      exact h.append hclock fun key next hkey => Or.inl (nextOf_of_entry hkey)
  · refine h.append le_rfl fun key next hkey => Or.inl ?_
    rwa [Counters.succeed, Counts.nextOf_takeBack] at hkey

theorem run_queued {ops : List Op} (hrun : exec (Run.step lower) {} ops = some r) : Queued r := by
  refine exec_invariant_all Queued (fun _ _ _ h hs => step_queued h hs) ?_ hrun
  intro key next hkey
  simp [Counts.nextOf] at hkey

end Queue

section Turns

-- A key whose turn is near enough gets it.
theorem begin_accepted {c : Counters} {ip : IpAddr} {now : Nat} (account : String)
    (h : ∀ next, c.ips.nextOf (ipKey ip) = some next → next ≤ now + MAX_DELAY) :
    ∃ attempt, (c.begin lower account ip now).1 = .ok attempt ∧ attempt.wait ≤ MAX_DELAY := by
  rcases c.begin_cases lower account ip now with ⟨e, he, hmax, hb⟩ | ⟨e, -, hmax, hb⟩ | ⟨-, -, hb⟩
  · exfalso
    have hdelay := delayFor_le_max (c.failures lower account ip now)
    unfold startOf at hmax
    cases hnext : e.next with
    | none =>
        simp only [hnext, Option.getD_none] at hmax
        omega
    | some next =>
        have hle := h next (entry_next he hnext)
        simp only [hnext, Option.getD_some] at hmax
        omega
  · rw [hb]
    exact ⟨_, rfl, hmax⟩
  · rw [hb]
    exact ⟨_, rfl, delayFor_le_max USIZE_MAX⟩

-- A refusal gives the time until the key's turn.
theorem begin_refused {c : Counters} {account : String} {ip : IpAddr} {now d : Nat}
    (h : (c.begin lower account ip now).1 = .error d) :
    c.ips.nextOf (ipKey ip) = some (now + d) := by
  rcases c.begin_cases lower account ip now with ⟨e, he, hmax, hb⟩ | ⟨e, -, -, hb⟩ | ⟨-, -, hb⟩
  · rw [hb, Except.error.injEq] at h
    have hdelay := delayFor_le_max (c.failures lower account ip now)
    unfold startOf at hmax h
    cases hnext : e.next with
    | none =>
        simp only [hnext, Option.getD_none] at hmax
        omega
    | some next =>
        simp only [hnext, Option.getD_some] at hmax h
        have hsum : next = now + d := by omega
        rw [← hsum]
        exact entry_next he hnext
  · rw [hb] at h
    cases h
  · rw [hb] at h
    cases h

-- No attempt of the IP key is accepted.
def NotAccepted (lower : String → String) (key : IpAddr) (r : Run) : Op → Prop
  | .begin account ip now => ipKey ip = key → ∃ d, (r.counters.begin lower account ip now).1 = .error d
  | .succeed .. => True

-- The turn of the IP key is at `turn` at the latest.
def TurnBy (key : IpAddr) (turn : Nat) (r : Run) : Prop :=
  ∀ next, r.counters.ips.nextOf key = some next → next ≤ turn

theorem step_turnBy {key : IpAddr} {turn : Nat} (h : TurnBy key turn r)
    (hnot : NotAccepted lower key r op) (hs : r.step lower op = some r') : TurnBy key turn r' := by
  rcases Run.step_cases hs with ⟨account, ip, now, rfl, hclock, rfl⟩ |
    ⟨account, ip, attempt, call, rfl, rfl⟩
  · intro next hkey
    apply h next
    rcases r.counters.begin_cases lower account ip now with
      ⟨e, -, -, hb⟩ | ⟨e, -, -, hb⟩ | ⟨-, -, hb⟩
    · rw [hb] at hkey
      exact nextOf_of_entry hkey
    · by_cases hk : ipKey ip = key
      · obtain ⟨d, hd⟩ := hnot hk
        rw [hb] at hd
        cases hd
      · simp only [hb, Counts.nextOf, Counts.getElem?_insert, if_neg hk] at hkey
        exact nextOf_of_entry hkey
    · rw [hb] at hkey
      exact nextOf_of_entry hkey
  · intro next hkey
    rw [Counters.succeed, Counts.nextOf_takeBack] at hkey
    exact h next hkey

-- The throttle locks nobody out: an IP with no accepted attempt in the last 120 seconds
-- gets its turn, and one that is refused gets it after the seconds that Retry-After names.
theorem throttle_never_locks_out (lower : String → String) (ops : List Op) (r : Run)
    (hrun : exec (Run.step lower) {} ops = some r)
    (account : String) (ip : IpAddr) (now : Nat) (hclock : r.clock ≤ now) :
    ((∀ account' ip' now' failures attempt,
        .began account' ip' now' failures (.ok attempt) ∈ r.log → ipKey ip' = ipKey ip →
          now' + secs 120 ≤ now) →
      ∃ attempt, (r.counters.begin lower account ip now).1 = .ok attempt ∧
        attempt.wait ≤ MAX_DELAY) ∧
    ∀ d, (r.counters.begin lower account ip now).1 = .error d → d ≤ secs 120 ∧
      ∀ r₁ ops' r₂, r.step lower (.begin account ip now) = some r₁ →
        exec (Run.step lower) r₁ ops' = some r₂ →
        Along (Run.step lower) (NotAccepted lower (ipKey ip)) r₁ ops' →
        ∀ account' ip' later, ipKey ip' = ipKey ip → r₂.clock ≤ later →
          now + secs (asSecs d) ≤ later →
          ∃ attempt, (r₂.counters.begin lower account' ip' later).1 = .ok attempt ∧
            attempt.wait ≤ MAX_DELAY := by
  have hqueued := run_queued hrun
  refine ⟨?_, ?_⟩
  · intro hquiet
    apply begin_accepted
    intro next hnext
    obtain ⟨account', ip', now', failures, attempt, hmem, hip, -, hle⟩ := hqueued _ next hnext
    have hlong := hquiet account' ip' now' failures attempt hmem hip
    omega
  · intro d hd
    have hturn := begin_refused hd
    refine ⟨?_, ?_⟩
    · obtain ⟨account', ip', now', failures, attempt, -, -, hnow, hle⟩ := hqueued _ _ hturn
      omega
    · intro r₁ ops' r₂ hfirst hrest hnot account' ip' later hip hlater hretry
      have hstart : TurnBy (ipKey ip) (now + d) r := by
        intro next hnext
        rw [hturn, Option.some.injEq] at hnext
        omega
      have hrefused : NotAccepted lower (ipKey ip) r (.begin account ip now) := fun _ => ⟨d, hd⟩
      have hlast := exec_invariant (TurnBy (ipKey ip) (now + d))
        (fun _ _ _ h hnot hs => step_turnBy h hnot hs) (step_turnBy hstart hrefused hfirst) hnot hrest
      apply begin_accepted
      intro next hnext
      rw [hip] at hnext
      have hle := hlast next hnext
      -- The header drops less than a second.
      have hfloor : d < secs (asSecs d) + secs 1 := by
        have hmod := Nat.div_add_mod d (secs 1)
        have hlt := Nat.mod_lt d (show 0 < secs 1 by decide)
        have hsecs : secs (asSecs d) = secs 1 * (d / secs 1) := by
          unfold asSecs secs
          omega
        omega
      have hsecond : secs 1 ≤ MAX_DELAY := by decide
      omega

theorem throttle_never_locks_out_admin :
    ∃ attempt, (firstLogin.counters.begin asciiLower "admin" localhost (secs 120)).1 = .ok attempt ∧
      attempt.wait ≤ MAX_DELAY := by
  refine (throttle_never_locks_out asciiLower [.begin "admin" localhost 0] firstLogin
    (by simp [exec, step_firstLogin]) "admin" localhost (secs 120) (Nat.zero_le _)).1 ?_
  intro account ip now failures attempt hmem _
  simp only [firstLogin, List.mem_singleton, Logged.began.injEq] at hmem
  omega

end Turns

end Lodger.Throttle
