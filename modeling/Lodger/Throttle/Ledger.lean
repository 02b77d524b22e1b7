import Lodger.Throttle.Theorems

namespace Lodger.Throttle

open Lodger.Lib Lodger.Lib.Window

variable {lower : String → String} {r r' : Run} {op : Op} {log : List Logged}

-- Whether call `i` of the log is an accepted attempt of the IP key whose
-- attempt was not given to `succeed`, in the window or not.
def standing (log : List Logged) (key : IpAddr) (i : Nat) : Bool :=
  match log[i]? with
  | some (.began _ ip _ _ (.ok _)) => ipKey ip = key && !givenBack log i
  | _ => false

def begunAt (log : List Logged) (i : Nat) : Nat :=
  match log[i]? with
  | some (.began _ _ now _ _) => now
  | _ => 0

-- Callers name attempts by call, the throttle finds them by their time. While
-- the callers follow their rule, the two books agree.
structure Ledger (log : List Logged) : Prop where
  begun : ∀ account ip now failures attempt,
    .began account ip now failures (.ok attempt) ∈ log → attempt.begun = now
  calls : ∀ account ip attempt call,
    .succeeded account ip attempt call ∈ log → call < log.length
  agree : ∀ key, (notTakenBack log key).Perm
    (((List.range log.length).filter (standing log key)).map (begunAt log))

theorem outstanding_eq (log : List Logged) (key : IpAddr) (now i : Nat) :
    outstanding log key now i =
      (standing log key i && young WINDOW now (begunAt log i)) := by
  unfold outstanding standing begunAt
  rw [← lt_window_iff_young]
  cases hi : log[i]? with
  | none => rfl
  | some call =>
      cases call with
      | succeeded account ip attempt call => rfl
      | began account ip begun failures result =>
          cases result with
          | error wait => rfl
          | ok attempt =>
              simp only
              ac_rfl

theorem Ledger.count (h : Ledger log) (key : IpAddr) (now : Nat) :
    inWindow now (notTakenBack log key) =
      (List.range log.length).countP (outstanding log key now) := by
  have hboth : outstanding log key now =
      fun i => (young WINDOW now ∘ begunAt log) i && standing log key i := by
    funext i
    rw [outstanding_eq, Bool.and_comm, Function.comp_apply]
  rw [inWindow_eq, ((h.agree key).filter _).length_eq, List.filter_map, List.length_map,
    List.filter_filter, List.countP_eq_length_filter, hboth]

theorem getElem?_append_of_lt {x : Logged} {i : Nat} (hi : i < log.length) :
    (log ++ [x])[i]? = log[i]? := List.getElem?_append_left hi

theorem begunAt_append {x : Logged} {i : Nat} (hi : i < log.length) :
    begunAt (log ++ [x]) i = begunAt log i := by
  simp only [begunAt, getElem?_append_of_lt hi]

theorem map_begunAt_append {x : Logged} {l : List Nat} (hl : ∀ i ∈ l, i < log.length) :
    l.map (begunAt (log ++ [x])) = l.map (begunAt log) :=
  List.map_congr_left fun i hi => begunAt_append (hl i hi)

theorem standing_append_began {account : String} {ip key : IpAddr} {now failures i : Nat}
    {result : Except Nat Attempt} (hi : i < log.length) :
    standing (log ++ [.began account ip now failures result]) key i = standing log key i := by
  simp only [standing, getElem?_append_of_lt hi, givenBack, List.any_append, List.any_cons,
    List.any_nil, Bool.or_false]

theorem standing_append_succeeded {account : String} {ip key : IpAddr} {attempt : Attempt}
    {call i : Nat} (hi : i < log.length) :
    standing (log ++ [.succeeded account ip attempt call]) key i =
      (standing log key i && !(call == i)) := by
  simp only [standing, getElem?_append_of_lt hi, givenBack, List.any_append, List.any_cons,
    List.any_nil, Bool.or_false]
  split <;> simp [Bool.and_assoc]

theorem mem_filter_range_lt {p : Nat → Bool} {n i : Nat} (h : i ∈ (List.range n).filter p) :
    i < n := by
  simpa using (List.mem_filter.mp h).1

-- A new call keeps the standing of the earlier ones and adds its own.
theorem filter_standing_began (log : List Logged) (account : String) (ip key : IpAddr)
    (now failures : Nat) (result : Except Nat Attempt) :
    (List.range (log.length + 1)).filter
        (standing (log ++ [.began account ip now failures result]) key) =
      (List.range log.length).filter (standing log key) ++
        [log.length].filter (standing (log ++ [.began account ip now failures result]) key) := by
  rw [List.range_succ, List.filter_append]
  congr 1
  apply List.filter_congr
  intro i hi
  exact standing_append_began (by simpa using hi)

theorem filter_standing_succeeded (log : List Logged) (account : String) (ip key : IpAddr)
    (attempt : Attempt) (call : Nat) :
    (List.range (log.length + 1)).filter
        (standing (log ++ [.succeeded account ip attempt call]) key) =
      ((List.range log.length).filter (standing log key)).erase call := by
  have hlast : standing (log ++ [.succeeded account ip attempt call]) key log.length = false := by
    simp [standing]
  have hnodup : ((List.range log.length).filter (standing log key)).Nodup :=
    List.nodup_range.filter _
  rw [List.range_succ, List.filter_append, List.filter_singleton, hlast, 
    hnodup.erase_eq_filter, List.filter_filter]
  simp only [cond_false, List.append_nil]
  apply List.filter_congr
  intro i hi
  rw [standing_append_succeeded (by simpa using hi), Bool.and_comm]
  congr 1
  simp [bne, BEq.comm (a := call)]

theorem Ledger.began (h : Ledger log) {account : String} {ip : IpAddr} {now failures : Nat}
    {result : Except Nat Attempt} (hb : ∀ attempt, result = .ok attempt → attempt.begun = now) :
    Ledger (log ++ [.began account ip now failures result]) where
  begun account' ip' now' failures' attempt hm := by
    rcases List.mem_append.mp hm with hm | hm
    · exact h.begun _ _ _ _ _ hm
    · simp only [List.mem_singleton, Logged.began.injEq] at hm
      obtain ⟨rfl, rfl, rfl, rfl, hr⟩ := hm
      exact hb attempt hr.symm
  calls account' ip' attempt call hm := by
    have := h.calls account' ip' attempt call (by simpa using hm)
    simp only [List.length_append, List.length_singleton]
    omega
  agree key := by
    have hnew : givenBack log log.length = false := by
      rw [givenBack, List.any_eq_false]
      intro x hx
      cases x with
      | began => simp
      | succeeded account' ip' attempt call =>
          have := h.calls _ _ _ _ hx
          simp; omega
    rw [List.length_append, List.length_singleton, filter_standing_began, List.map_append,
      map_begunAt_append (fun i hi => mem_filter_range_lt hi), notTakenBack_append]
    have hlast (attempt : Attempt) (hr : result = .ok attempt) :
        standing (log ++ [.began account ip now failures result]) key log.length =
          decide (ipKey ip = key) := by
      subst hr
      have : givenBack (log ++ [.began account ip now failures (.ok attempt)]) log.length =
          false := by
        rw [← hnew]
        simp [givenBack]
      simp [standing, this]
    cases result with
    | error retry =>
        have : standing (log ++ [.began account ip now failures (.error retry)]) key
            log.length = false := by simp [standing]
        simpa [countIp, this] using h.agree key
    | ok attempt =>
        rw [List.filter_singleton, hlast attempt rfl]
        by_cases hk : ipKey ip = key
        · have : begunAt (log ++ [.began account ip now failures (.ok attempt)]) log.length = now := by
            simp [begunAt]
          simpa [countIp, hk, this] using (h.agree key).append_right [now]
        · simpa [countIp, hk] using h.agree key

theorem Ledger.succeeded (h : Ledger log) {account : String} {ip : IpAddr} {attempt : Attempt}
    {call now failures : Nat}
    (hcall : log[call]? = some (.began account ip now failures (.ok attempt)))
    (honce : ∀ account' ip' attempt', .succeeded account' ip' attempt' call ∉ log) :
    Ledger (log ++ [.succeeded account ip attempt call]) where
  begun account' ip' now' failures' attempt' hm := by
    exact h.begun account' ip' now' failures' attempt' (by simpa using hm)
  calls account' ip' attempt' call' hm := by
    simp only [List.length_append, List.length_singleton]
    rcases List.mem_append.mp hm with hm | hm
    · have := h.calls _ _ _ _ hm
      omega
    · simp only [List.mem_singleton, Logged.succeeded.injEq] at hm
      obtain ⟨-, -, -, rfl⟩ := hm
      have := (List.getElem?_eq_some_iff.mp hcall).1
      omega
  agree key := by
    have hlt := (List.getElem?_eq_some_iff.mp hcall).1
    have hbegun : attempt.begun = now := h.begun _ _ _ _ _ (List.mem_of_getElem? hcall)
    rw [List.length_append, List.length_singleton, filter_standing_succeeded,
      map_begunAt_append (fun i hi => mem_filter_range_lt (List.mem_of_mem_erase hi)),
      notTakenBack_append]
    have hnot : givenBack log call = false := by
      rw [givenBack, List.any_eq_false]
      intro x hx
      cases x with
      | began => simp
      | succeeded account' ip' attempt' call' =>
          have : call' ≠ call := by
            rintro rfl
            exact honce _ _ _ hx
          simpa using this
    have hstands : standing log key call = decide (ipKey ip = key) := by
      simp [standing, hcall, hnot]
    have hat : begunAt log call = attempt.begun := by simp [begunAt, hcall, hbegun]
    by_cases hk : ipKey ip = key
    · -- The attempt stands, so both sides lose one entry with its time.
      have hmem : call ∈ (List.range log.length).filter (standing log key) := by
        simp [hlt, hstands, hk]
      have hperm := ((List.perm_cons_erase hmem).map (begunAt log))
      rw [List.map_cons, hat] at hperm
      have := ((h.agree key).trans hperm).erase attempt.begun
      simpa [countIp, hk] using this
    · have hmem : call ∉ (List.range log.length).filter (standing log key) := by
        simp [hstands, hk]
      rw [List.erase_of_not_mem hmem]
      simpa [countIp, hk] using h.agree key

theorem step_ledger (h : Ledger r.log) (hcallers : Callers r op)
    (hs : r.step lower op = some r') : Ledger r'.log := by
  rcases Run.step_cases hs with ⟨account, ip, now, rfl, -, rfl⟩ |
    ⟨account, ip, attempt, call, rfl, rfl⟩
  · exact h.began fun attempt hr => (r.counters.begin_wait lower account ip now hr).1
  · obtain ⟨⟨now, failures, hcall⟩, honce⟩ := hcallers
    exact h.succeeded hcall honce

-- The callers' rule and room for every key, for the runs whose counters never
-- drift from the history.
def Orderly (lower : String → String) (r : Run) (op : Op) : Prop :=
  AccountRoom lower r op ∧ IpRoom r op ∧ Callers r op

-- What a `begin` call computes after any such run comes from the larger of two
-- plain counts: the account's attempts since its last correct login, and the
-- IP's attempts that no correct login took back.
theorem failures_eq_history (lower : String → String) (ops : List Op) (r : Run)
    (hrun : exec (Run.step lower) {} ops = some r)
    (horderly : Along (Run.step lower) (Orderly lower) {} ops)
    (account : String) (ip : IpAddr) (now : Nat) (hclock : r.clock ≤ now)
    (haccount : AccountRoom lower r (.begin account ip now))
    (hip : IpRoom r (.begin account ip now)) :
    let failures := max (inWindow now (sinceSuccess lower r.log (accountKey lower account)))
      ((List.range r.log.length).countP (outstanding r.log (ipKey ip) now))
    r.counters.failures lower account ip now = failures ∧
      match (r.counters.begin lower account ip now).1 with
      | .ok attempt =>
          attempt.failures = min failures MAX_KEYS ∧ attempt.wait ≤ MAX_DELAY ∧
            attempt.wait = max (delayFor failures) (r.counters.queued ip now)
      | .error wait =>
          MAX_DELAY < wait ∧ wait = max (delayFor failures) (r.counters.queued ip now) := by
  intro failures
  have hledger : Ledger r.log :=
    exec_invariant (fun r => Ledger r.log) (fun _ _ _ h hok hs => step_ledger h hok.2.2 hs)
      ⟨by simp, by simp, by simp [notTakenBack]⟩ horderly hrun
  have hroom : ∀ r op, Orderly lower r op →
      AccountRoomFor lower (accountKey lower account) r op := by
    intro r op hok
    cases op with
    | begin => exact fun _ => hok.1
    | succeed => trivial
  have haccounts := run_tracks_account (accountKey lower account) (horderly.imp hroom) hrun
  have hips := run_tracks_ip (ipKey ip) (horderly.imp fun _ _ hok => hok.2.1) hrun
  obtain ⟨a, ha⟩ := Option.isSome_iff_exists.mp haccount
  obtain ⟨i, hi⟩ := Option.isSome_iff_exists.mp hip
  have hfailures : r.counters.failures lower account ip now = failures := by
    unfold failures
    rw [← hledger.count, inWindow_eq, inWindow_eq, ← (haccounts.entry_times hclock ha).1,
      ← (hips.entry_times hclock hi).1]
    simp [Counters.failures, failuresOf, ha, hi]
  refine ⟨hfailures, ?_⟩
  rw [← hfailures]
  exact r.counters.begin_answer lower account ip now

-- The attempt of `firstLogin` had the right password.
def correctLogin : Run where
  counters := firstLogin.counters.succeed asciiLower "admin" localhost ⟨0, 0, 0⟩
  clock := 0
  log := firstLogin.log ++ [.succeeded "admin" localhost ⟨0, 0, 0⟩ 0]

theorem room_correctLogin (op : Op) :
    AccountRoom asciiLower correctLogin op ∧ IpRoom correctLogin op := by
  have hkey : ipKey localhost = localhost := rfl
  cases op with
  | begin account ip now =>
      constructor
      · apply Counts.entry_isSome
        simp [correctLogin, Counters.succeed, firstLogin, accountKey_admin,
          Std.ExtHashMap.size_erase, Std.ExtHashMap.size_insert, MAX_KEYS]
      · apply Counts.entry_isSome
        simp [correctLogin, Counters.succeed, firstLogin, Counts.takeBack, hkey,
          Std.ExtHashMap.size_insert, MAX_KEYS]
  | succeed => exact ⟨trivial, trivial⟩

theorem failures_eq_history_after_login :
    let failures := max
      (inWindow 0 (sinceSuccess asciiLower correctLogin.log (accountKey asciiLower "admin")))
      ((List.range correctLogin.log.length).countP
        (outstanding correctLogin.log (ipKey localhost) 0))
    correctLogin.counters.failures asciiLower "admin" localhost 0 = failures ∧
      match (correctLogin.counters.begin asciiLower "admin" localhost 0).1 with
      | .ok attempt =>
          attempt.failures = min failures MAX_KEYS ∧ attempt.wait ≤ MAX_DELAY ∧
            attempt.wait = max (delayFor failures) (correctLogin.counters.queued localhost 0)
      | .error wait =>
          MAX_DELAY < wait ∧
            wait = max (delayFor failures) (correctLogin.counters.queued localhost 0) := by
  have hsecond : firstLogin.step asciiLower (.succeed "admin" localhost ⟨0, 0, 0⟩ 0) =
      some correctLogin := rfl
  apply failures_eq_history asciiLower
    [.begin "admin" localhost 0, .succeed "admin" localhost ⟨0, 0, 0⟩ 0] correctLogin
    (by simp [exec, step_firstLogin, hsecond])
  · refine ⟨⟨(room_empty _).1, (room_empty _).2, trivial⟩, ?_⟩
    intro r hr
    rw [step_firstLogin] at hr
    cases hr
    refine ⟨⟨trivial, trivial, ⟨0, 0, rfl⟩, by simp [firstLogin]⟩, fun _ _ => trivial⟩
  · exact le_rfl
  · exact (room_correctLogin _).1
  · exact (room_correctLogin _).2

end Lodger.Throttle
