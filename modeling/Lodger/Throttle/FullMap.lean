import Lodger.Throttle.Theorems

namespace Lodger.Throttle

open Lodger.Lib Lodger.Lib.Window

-- A full map refuses a new key. The attempt then gets the longest wait, but
-- nothing records it: the count of the account is right only if every earlier
-- call for it found room.
theorem begin_waits_for_account (lower : String → String) (ops : List Op) (r : Run)
    (hrun : exec (Run.step lower) {} ops = some r)
    (account : String) (ip : IpAddr) (now : Nat) (attempt : Attempt) (hclock : r.clock ≤ now)
    (hroom : Along (Run.step lower) (AccountRoomFor lower (accountKey lower account)) {} ops)
    (hok : (r.counters.begin lower account ip now).1 = .ok attempt) :
    delayFor (inWindow now (sinceSuccess lower r.log (accountKey lower account))) ≤
      attempt.wait := by
  have htracks := run_tracks_account (accountKey lower account) hroom hrun
  have hwait := (r.counters.begin_wait lower account ip now hok).2.2
  apply le_trans _ hwait
  unfold Counters.failures
  cases ha : (r.counters.accounts.entry (accountKey lower account) now).2 with
  | none =>
      have : failuresOf none (r.counters.ips.entry (ipKey ip) now).2 = USIZE_MAX := rfl
      rw [this, delayFor_usize_max]
      exact delayFor_le_max _
  | some a =>
      cases (r.counters.ips.entry (ipKey ip) now).2 with
      | none =>
          have : failuresOf (some a) none = USIZE_MAX := rfl
          rw [this, delayFor_usize_max]
          exact delayFor_le_max _
      | some i =>
          rw [inWindow_eq, ← (htracks.entry_times hclock ha).1]
          exact delayFor_mono (le_max_left _ _)

theorem begin_waits_for_account_once :
    ∃ attempt, (firstLogin.counters.begin asciiLower "admin" localhost 0).1 = .ok attempt ∧
      delayFor (inWindow 0 (sinceSuccess asciiLower firstLogin.log
        (accountKey asciiLower "admin"))) ≤ attempt.wait :=
  ⟨⟨0, 1, 0⟩, begin_firstLogin,
    begin_waits_for_account asciiLower [.begin "admin" localhost 0] firstLogin
      (by simp [exec, step_firstLogin]) "admin" localhost 0 _ le_rfl
      ⟨fun _ => (room_empty _).1, fun _ _ => trivial⟩ begin_firstLogin⟩

section Flood

-- 10,000 different names of one letter each, and as many IPv4 clients.
def junkName (n : Nat) : String := String.ofList [Char.ofNat (0x4e00 + n)]

def junkIp (n : Nat) : IpAddr := .v4 (BitVec.ofNat 32 (0x0a000000 + n))

-- One attempt for each junk name fills the map. One second before these leave
-- the window, there are 5 attempts for the account `admin`.
def flood : List Op :=
  (List.range MAX_KEYS).map (fun n => .begin (junkName n) (junkIp n) 0) ++
    (List.range 5).map (fun n => .begin "admin" (junkIp n) (secs 899))

theorem toNat_junk {n : Nat} (hn : n < MAX_KEYS) : (Char.ofNat (0x4e00 + n)).toNat = 0x4e00 + n := by
  rw [Char.toNat_ofNat, if_pos]
  left
  simp only [MAX_KEYS] at hn
  omega

theorem junkName_inj {m n : Nat} (hm : m < MAX_KEYS) (hn : n < MAX_KEYS)
    (h : junkName m = junkName n) : m = n := by
  have hc : Char.ofNat (0x4e00 + m) = Char.ofNat (0x4e00 + n) := by
    simpa [junkName, String.ofList_inj] using h
  have := congrArg Char.toNat hc
  rw [toNat_junk hm, toNat_junk hn] at this
  omega

theorem junkIp_inj {m n : Nat} (hm : m < MAX_KEYS) (hn : n < MAX_KEYS)
    (h : junkIp m = junkIp n) : m = n := by
  simp only [junkIp, IpAddr.v4.injEq] at h
  have := congrArg BitVec.toNat h
  simp only [MAX_KEYS] at hm hn
  simp only [BitVec.toNat_ofNat] at this
  omega

theorem ipKey_junkIp (n : Nat) : ipKey (junkIp n) = junkIp n := rfl

theorem accountKey_junkName {n : Nat} (hn : n < MAX_KEYS) :
    accountKey asciiLower (junkName n) = junkName n := by
  have hc : (Char.ofNat (0x4e00 + n)).toLower = Char.ofNat (0x4e00 + n) := by
    have h := toNat_junk hn
    rw [Char.toLower, dif_neg]
    intro hle
    have h2 : (Char.ofNat (0x4e00 + n)).toNat ≤ 'Z'.toNat := hle.2
    rw [h] at h2
    have hz : 'Z'.toNat = 90 := rfl
    omega
  simp [accountKey, junkName, asciiLower, NAME_MAX_LEN, hc]

theorem junkName_ne_admin (n : Nat) : junkName n ≠ "admin" := by
  intro h
  have := congrArg (fun s : String => s.toList.length) h
  simp [junkName] at this

-- The state after the first `k` junk attempts.
structure Filled (k : Nat) (r : Run) : Prop where
  clock : r.clock = 0
  accountSize : r.counters.accounts.size = k
  accounts : ∀ name e, r.counters.accounts[name]? = some e →
    e = ⟨[0], none⟩ ∧ ∃ n < k, name = junkName n
  ipSize : r.counters.ips.size = k
  ips : ∀ n < k, r.counters.ips[junkIp n]? = some ⟨[0], some 0⟩
  onlyIps : ∀ ip ∈ r.counters.ips, ∃ n < k, ip = junkIp n
  admin : sinceSuccess asciiLower r.log "admin" = []

theorem Filled.admin_notMem {k : Nat} {r : Run} (h : Filled k r) :
    "admin" ∉ r.counters.accounts := by
  intro hm
  rw [Std.ExtHashMap.mem_iff_isSome_getElem?] at hm
  obtain ⟨e, he⟩ := Option.isSome_iff_exists.mp hm
  obtain ⟨-, n, -, hn⟩ := h.accounts _ _ he
  exact junkName_ne_admin n hn.symm

theorem Filled.next {k : Nat} {r : Run} (h : Filled k r) (hk : k < MAX_KEYS) :
    ∃ r', r.step asciiLower (.begin (junkName k) (junkIp k) 0) = some r' ∧ Filled (k + 1) r' := by
  have hna : junkName k ∉ r.counters.accounts := by
    intro hm
    rw [Std.ExtHashMap.mem_iff_isSome_getElem?] at hm
    obtain ⟨e, he⟩ := Option.isSome_iff_exists.mp hm
    obtain ⟨-, n, hn, heq⟩ := h.accounts _ _ he
    have := junkName_inj hk (by omega) heq
    omega
  have hni : junkIp k ∉ r.counters.ips := by
    intro hm
    obtain ⟨n, hn, heq⟩ := h.onlyIps _ hm
    have := junkIp_inj hk (by omega) heq
    omega
  have hb := r.counters.begin_fresh asciiLower (junkName k) (junkIp k) 0 (h.accountSize ▸ hk)
    (by rwa [accountKey_junkName hk]) (h.ipSize ▸ hk) hni
  rw [accountKey_junkName hk, ipKey_junkIp] at hb
  refine ⟨_, Run.step_begin _ _ _ h.clock.le, ?_⟩
  rw [hb]
  constructor
  · rfl
  · simp [Std.ExtHashMap.size_insert, hna, h.accountSize]
  · intro name e he
    rw [Counts.getElem?_insert] at he
    by_cases heq : junkName k = name
    · simp only [heq, if_true, Option.some.injEq] at he
      exact ⟨he.symm, k, by omega, heq.symm⟩
    · rw [if_neg heq, Counts.getElem?_insert, if_neg heq] at he
      obtain ⟨he, n, hn, hname⟩ := h.accounts name e he
      exact ⟨he, n, by omega, hname⟩
  · simp [Std.ExtHashMap.size_insert, hni, h.ipSize]
  · intro n hn
    rw [Counts.getElem?_insert]
    by_cases heq : junkIp k = junkIp n
    · simp [heq]
    · have hne : n ≠ k := by rintro rfl; exact heq rfl
      rw [if_neg heq, Counts.getElem?_insert, if_neg heq]
      exact h.ips n (by omega)
  · intro ip hm
    simp only [Std.ExtHashMap.mem_insert, beq_iff_eq] at hm
    rcases hm with rfl | rfl | hm
    · exact ⟨k, by omega, rfl⟩
    · exact ⟨k, by omega, rfl⟩
    · obtain ⟨n, hn, heq⟩ := h.onlyIps ip hm
      exact ⟨n, by omega, heq⟩
  · rw [sinceSuccess_append, h.admin]
    simp [countAccount, accountKey_junkName hk, junkName_ne_admin]

theorem exec_fill {k : Nat} (hk : k ≤ MAX_KEYS) :
    ∃ r, exec (Run.step asciiLower) {}
        ((List.range k).map fun n => .begin (junkName n) (junkIp n) 0) = some r ∧ Filled k r := by
  induction k with
  | zero => exact ⟨{}, rfl, by constructor <;> simp [sinceSuccess]⟩
  | succ k ih =>
      obtain ⟨r, hr, hfilled⟩ := ih (by omega)
      obtain ⟨r', hstep, hnext⟩ := hfilled.next hk
      refine ⟨r', ?_, hnext⟩
      rw [List.range_succ, List.map_append, exec_append]
      exact ⟨r, hr, by simp [exec, hstep]⟩

-- The state after `j` of the attempts for `admin`: the map of the accounts is
-- still full of junk, and the history knows about them.
structure Late (j : Nat) (r : Run) : Prop where
  clock : r.clock ≤ secs 899
  accountSize : r.counters.accounts.size = MAX_KEYS
  accounts : ∀ name ∈ r.counters.accounts, r.counters.accounts[name]? = some ⟨[0], none⟩
  absent : "admin" ∉ r.counters.accounts
  ips : ∀ n, j ≤ n → n < MAX_KEYS → r.counters.ips[junkIp n]? = some ⟨[0], some 0⟩
  admin : sinceSuccess asciiLower r.log "admin" = List.replicate j (secs 899)

theorem Filled.late {r : Run} (h : Filled MAX_KEYS r) : Late 0 r where
  clock := by simp [h.clock]
  accountSize := h.accountSize
  accounts name hm := by
    rw [Std.ExtHashMap.mem_iff_isSome_getElem?] at hm
    obtain ⟨e, he⟩ := Option.isSome_iff_exists.mp hm
    rw [he, (h.accounts _ _ he).1]
  absent := h.admin_notMem
  ips n _ hn := h.ips n hn
  admin := h.admin

-- A map in which every entry is in use stays as it is.
theorem retain_eq_self {map : Counts String} {now : Nat} {e : Entry}
    (hall : ∀ name ∈ map, map[name]? = some e) (he : e.inUse now = true) :
    map.retain now = map := by
  apply Std.ExtHashMap.ext_getElem?
  intro name
  rw [Counts.getElem?_retain]
  by_cases hm : name ∈ map
  · simp [hall name hm, Option.filter, he]
  · simp [Std.ExtHashMap.getElem?_eq_none hm]

theorem retain_eq_empty {map : Counts String} {now : Nat} {e : Entry}
    (hall : ∀ name ∈ map, map[name]? = some e) (he : e.inUse now = false) :
    map.retain now = ∅ := by
  apply Std.ExtHashMap.ext_getElem?
  intro name
  rw [Counts.getElem?_retain]
  by_cases hm : name ∈ map
  · simp [hall name hm, Option.filter, he]
  · simp [Std.ExtHashMap.getElem?_eq_none hm]

theorem Late.next {j : Nat} {r : Run} (h : Late j r) (hj : j < MAX_KEYS) :
    ∃ r', r.step asciiLower (.begin "admin" (junkIp j) (secs 899)) = some r' ∧
      Late (j + 1) r' := by
  have hretain : r.counters.accounts.retain (secs 899) = r.counters.accounts :=
    retain_eq_self h.accounts (by decide)
  have hentry : r.counters.accounts.entry "admin" (secs 899) = (r.counters.accounts, none) := by
    simp [Counts.entry, h.accountSize, h.absent, hretain]
  have hexpire : (⟨[0], some 0⟩ : Entry).expire (secs 899) = ⟨[0], some 0⟩ := by decide
  have hip : r.counters.ips.entry (junkIp j) (secs 899) =
      (r.counters.ips.insert (junkIp j) ⟨[0], some 0⟩, some ⟨[0], some 0⟩) := by
    rw [Counts.entry_of_getElem? (h.ips j le_rfl hj), hexpire]
  have hdelay : delayFor USIZE_MAX = secs 60 := by decide
  have hlimit : ¬ MAX_DELAY < secs 60 := by decide
  have hb : ∃ attempt, r.counters.begin asciiLower "admin" (junkIp j) (secs 899) =
      (.ok attempt, ⟨r.counters.accounts, (r.counters.ips.insert (junkIp j) ⟨[0], some 0⟩).insert
        (junkIp j) ⟨[0, secs 899], some (secs 899 + secs 60 + delayFor 2)⟩⟩) := by
    simp [Counters.begin, Counters.failures, accountKey_admin, ipKey_junkIp, hentry, hip, failuresOf,
      hdelay, hlimit, Counts.record, Std.ExtHashMap.getElem?_eq_none h.absent]
  obtain ⟨attempt, hb⟩ := hb
  refine ⟨_, Run.step_begin _ _ _ h.clock, ?_⟩
  rw [hb]
  constructor
  · exact le_rfl
  · exact h.accountSize
  · exact h.accounts
  · exact h.absent
  · intro n hle hn
    have hne : junkIp j ≠ junkIp n := by
      intro heq
      have := junkIp_inj hj hn heq
      omega
    simp only [Counts.getElem?_insert, if_neg hne]
    exact h.ips n (by omega) hn
  · rw [sinceSuccess_append, h.admin]
    simp [countAccount, accountKey_admin, List.replicate_succ']

theorem exec_late {r : Run} (h : Late 0 r) {j : Nat} (hj : j ≤ MAX_KEYS) :
    ∃ r', exec (Run.step asciiLower) r
        ((List.range j).map fun n => .begin "admin" (junkIp n) (secs 899)) = some r' ∧
      Late j r' := by
  induction j with
  | zero => exact ⟨r, rfl, h⟩
  | succ j ih =>
      obtain ⟨r', hr, hlate⟩ := ih (by omega)
      obtain ⟨r'', hstep, hnext⟩ := hlate.next hj
      refine ⟨r'', ?_, hnext⟩
      rw [List.range_succ, List.map_append, exec_append]
      exact ⟨r', hr, by simp [exec, hstep]⟩

-- When the junk leaves the window there is room again, and the next attempt
-- for `admin` does not wait: its 5 attempts of the last second count nothing.
theorem Late.begin_admin {r : Run} (h : Late 5 r) :
    (r.counters.begin asciiLower "admin" (junkIp 5) (secs 900)).1 = .ok ⟨0, 0, secs 900⟩ := by
  have hretain : r.counters.accounts.retain (secs 900) = ∅ :=
    retain_eq_empty h.accounts (by decide)
  have hfree : ¬ MAX_KEYS ≤ 0 := by decide
  have hentry : (r.counters.accounts.entry "admin" (secs 900)).2 = some {} := by
    simp [Counts.entry, h.accountSize, h.absent, hretain, hfree, Counts.touch, Entry.expire]
  have hstored : r.counters.ips[junkIp 5]? = some ⟨[0], some 0⟩ := h.ips 5 le_rfl (by decide)
  have hexpire : (⟨[0], some 0⟩ : Entry).expire (secs 900) = ⟨[], some 0⟩ := by decide
  have hip : (r.counters.ips.entry (junkIp 5) (secs 900)).2 = some ⟨[], some 0⟩ := by
    rw [Counts.entry_of_getElem? hstored, hexpire]
  have hdelay : delayFor 0 = 0 := by decide
  simp [Counters.begin, Counters.failures, accountKey_admin, ipKey_junkIp, hentry, hip, failuresOf,
    hdelay]

theorem flood_switches_throttle_off :
    ∃ r attempt, exec (Run.step asciiLower) {} flood = some r ∧ r.clock ≤ secs 900 ∧
      (r.counters.begin asciiLower "admin" (junkIp 5) (secs 900)).1 = .ok attempt ∧
      attempt.wait <
        delayFor (inWindow (secs 900)
          (sinceSuccess asciiLower r.log (accountKey asciiLower "admin"))) := by
  obtain ⟨r, hr, hfilled⟩ := exec_fill le_rfl
  obtain ⟨r', hr', hlate⟩ := exec_late hfilled.late (j := 5) (by decide)
  refine ⟨r', ⟨0, 0, secs 900⟩, ?_, ?_, hlate.begin_admin, ?_⟩
  · rw [flood, exec_append]
    exact ⟨r, hr, hr'⟩
  · exact hlate.clock.trans (by decide)
  · rw [accountKey_admin, hlate.admin]
    decide

end Flood

end Lodger.Throttle
