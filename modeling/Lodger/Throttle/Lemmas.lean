import Lodger.Throttle.History
import Lodger.Lib.Window

namespace Lodger.Throttle

open Lodger.Lib Lodger.Lib.Window

theorem delayFor_le_max (n : Nat) : delayFor n ≤ MAX_DELAY := by
  unfold delayFor
  split_ifs <;> simp

theorem delayFor_mono {m n : Nat} (h : m ≤ n) : delayFor m ≤ delayFor n := by
  unfold delayFor
  by_cases hm : m < FREE_FAILURES
  · simp [hm]
  · have hn : ¬ n < FREE_FAILURES := by omega
    simp only [hm, hn, if_false]
    have hexp : min (if m - FREE_FAILURES ≤ U32_MAX then m - FREE_FAILURES else U32_MAX) 6 ≤
        min (if n - FREE_FAILURES ≤ U32_MAX then n - FREE_FAILURES else U32_MAX) 6 := by
      split_ifs <;> omega
    have hpow := Nat.pow_le_pow_right (n := 2) (by decide) hexp
    exact min_le_min (Nat.mul_le_mul_right _ hpow) le_rfl

-- The count of a key that a full map refuses stands for the longest wait.
theorem delayFor_usize_max : delayFor USIZE_MAX = MAX_DELAY := by decide

theorem window_pos : 0 < WINDOW := by decide

theorem lt_window_iff_young (now t : Nat) :
    decide (now - t < WINDOW) = young WINDOW now t := by
  have := window_pos
  simp only [young, decide_eq_decide]
  omega

theorem inWindow_eq (now : Nat) (times : List Nat) :
    inWindow now times = (times.filter (young WINDOW now)).length := by
  simp only [inWindow, lt_window_iff_young]

theorem Entry.expire_times (e : Entry) (now : Nat) (hs : e.times.Pairwise (· ≤ ·)) :
    (e.expire now).times = e.times.filter (young WINDOW now) := by
  rw [← dropWhile_eq_filter hs]
  simp only [Entry.expire]
  congr 1
  funext t
  rw [← lt_window_iff_young, ← decide_not]
  simp

section Maps

variable {K : Type} [DecidableEq K] [Hashable K]

def Counts.timesOf (map : Counts K) (key : K) : List Nat := (map[key]?.getD {}).times

def Counts.nextOf (map : Counts K) (key : K) : Option Nat := (map[key]?.getD {}).next

-- What `entry` can do: it works on the map or on the cleaned map, and either
-- has no room for the key or stores the key's entry without its old times.
theorem Counts.entry_cases (map : Counts K) (key : K) (now : Nat) :
    (map.entry key now = (map.retain now, none) ∧ key ∉ map) ∨
    ∃ base, (base = map ∨ base = map.retain now ∧ key ∉ map) ∧
      map.entry key now = (base.insert key ((base[key]?.getD {}).expire now),
        some ((base[key]?.getD {}).expire now)) := by
  unfold Counts.entry
  by_cases hfull : MAX_KEYS ≤ map.size ∧ key ∉ map
  · by_cases hkept : MAX_KEYS ≤ (map.retain now).size
    · exact .inl ⟨by simp [hfull, hkept], hfull.2⟩
    · exact .inr ⟨map.retain now, .inr ⟨rfl, hfull.2⟩, by simp [hfull, hkept, Counts.touch]⟩
  · exact .inr ⟨map, .inl rfl, by simp only [hfull, if_false, Counts.touch]⟩

-- A key that the map holds is never refused.
theorem Counts.entry_of_getElem? {map : Counts K} {key : K} {e : Entry}
    (he : map[key]? = some e) (now : Nat) :
    map.entry key now = (map.insert key (e.expire now), some (e.expire now)) := by
  have hm : ¬ (MAX_KEYS ≤ map.size ∧ key ∉ map) := by
    rintro ⟨-, hm⟩
    simp [Std.ExtHashMap.getElem?_eq_none hm] at he
  rw [Counts.entry, if_neg hm, Counts.touch, he, Option.getD_some]

theorem Counts.getElem?_retain (map : Counts K) (now : Nat) (key : K) :
    (map.retain now)[key]? = map[key]?.filter (·.inUse now) :=
  Std.ExtHashMap.getElem?_filter'

theorem Counts.getElem?_insert (map : Counts K) (key other : K) (e : Entry) :
    (map.insert key e)[other]? = if key = other then some e else map[other]? := by
  simp [Std.ExtHashMap.getElem?_insert]

-- The map keeps those logged times of the key that may still count.
structure Tracks (map : Counts K) (now : Nat) (key : K) (log : List Nat) : Prop where
  kept : Kept WINDOW now (map.timesOf key) log
  sorted : log.Pairwise (· ≤ ·)
  past : ∀ t ∈ log, t ≤ now

namespace Tracks

variable {map : Counts K} {now later : Nat} {key : K} {log : List Nat}

theorem empty (now : Nat) (key : K) : Tracks (∅ : Counts K) now key [] where
  kept := by simpa [Counts.timesOf] using Kept.nil
  sorted := List.Pairwise.nil
  past := by simp

theorem times_sorted (h : Tracks map now key log) : (map.timesOf key).Pairwise (· ≤ ·) :=
  h.sorted.sublist h.kept.sublist

theorem mono (h : Tracks map now key log) (hn : now ≤ later) : Tracks map later key log where
  kept := h.kept.mono hn
  sorted := h.sorted
  past t ht := (h.past t ht).trans hn

-- The clean-up drops only entries whose times all left the window.
theorem retain (h : Tracks map now key log) (hn : now ≤ later) :
    Tracks (map.retain later) later key log where
  kept := by
    have hk := h.kept
    have hs := h.times_sorted
    unfold Counts.timesOf at hk hs ⊢
    rw [Counts.getElem?_retain]
    cases he : map[key]? with
    | none => simpa [he] using hk.mono hn
    | some e =>
        simp only [he, Option.getD_some] at hk hs
        cases hu : e.inUse later with
        | true => simpa [Option.filter, hu] using hk.mono hn
        | false =>
            have hdrop := hu
            simp only [Entry.inUse, lt_window_iff_young, Bool.or_eq_false_iff] at hdrop
            simpa [Option.filter, hu] using hk.drop hn (old_of_getLast? hs hdrop.1)
  sorted := h.sorted
  past t ht := (h.past t ht).trans hn

theorem insert_ne (h : Tracks map now key log) {other : K} (hne : other ≠ key) (e : Entry) :
    Tracks (map.insert other e) now key log where
  kept := by simpa [Counts.timesOf, Counts.getElem?_insert, hne] using h.kept
  sorted := h.sorted
  past := h.past

theorem insert_self (h : Tracks map now key log) (e : Entry)
    (he : Kept WINDOW now e.times log) : Tracks (map.insert key e) now key log where
  kept := by simpa [Counts.timesOf] using he
  sorted := h.sorted
  past := h.past

-- A time that both the map and the log add.
theorem push (h : Tracks map now key log) (times : List Nat)
    (ht : Kept WINDOW now times log) (next : Option Nat) :
    Tracks (map.insert key ⟨times ++ [now], next⟩) now key (log ++ [now]) where
  kept := by simpa [Counts.timesOf] using ht.push window_pos
  sorted := List.pairwise_append.mpr ⟨h.sorted, by simp, by simpa using h.past⟩
  past t ht := by
    rcases List.mem_append.mp ht with ht | ht
    · exact h.past t ht
    · simp at ht; omega

theorem expired (h : Tracks map now key log) :
    ((map[key]?.getD {}).expire now).times = log.filter (young WINDOW now) := by
  rw [Entry.expire_times _ _ h.times_sorted]
  exact h.kept.filter_eq le_rfl

theorem entry (h : Tracks map now key log) (hn : now ≤ later) (other : K) :
    Tracks (map.entry other later).1 later key log := by
  rcases Counts.entry_cases map other later with ⟨he, -⟩ | ⟨base, hbase, he⟩
  · rw [he]
    exact h.retain hn
  · have hb : Tracks base later key log := by
      rcases hbase with rfl | ⟨rfl, -⟩
      · exact h.mono hn
      · exact h.retain hn
    rw [he]
    by_cases hne : other = key
    · subst hne
      exact hb.insert_self _ ⟨later, le_rfl, hb.expired⟩
    · exact hb.insert_ne hne _

-- The entry that `entry` returns counts exactly the young times of the log.
theorem entry_times (h : Tracks map now key log) (hn : now ≤ later) {e : Entry}
    (he : (map.entry key later).2 = some e) :
    e.times = log.filter (young WINDOW later) ∧ (map.entry key later).1[key]? = some e := by
  rcases Counts.entry_cases map key later with ⟨hnone, -⟩ | ⟨base, hbase, heq⟩
  · simp [hnone] at he
  · have hb : Tracks base later key log := by
      rcases hbase with rfl | ⟨rfl, -⟩
      · exact h.mono hn
      · exact h.retain hn
    rw [heq] at he ⊢
    cases he
    exact ⟨hb.expired, by simp⟩

theorem record_ne (h : Tracks map now key log) {other : K} (hne : other ≠ key) :
    Tracks (map.record other now) now key log := by
  unfold Counts.record
  cases map[other]? with
  | none => exact h
  | some e => exact h.insert_ne hne _

theorem record_self (h : Tracks map now key log) {e : Entry} (he : map[key]? = some e) :
    Tracks (map.record key now) now key (log ++ [now]) := by
  have hk := h.kept
  simp only [Counts.timesOf, he, Option.getD_some] at hk
  simpa [Counts.record, he] using h.push e.times hk e.next

theorem takeBack_ne (h : Tracks map now key log) {other : K} (hne : other ≠ key) (time : Nat) :
    Tracks (map.takeBack other time) now key log := by
  unfold Counts.takeBack
  cases map[other]? with
  | none => exact h
  | some e => exact h.insert_ne hne _

theorem takeBack_self (h : Tracks map now key log) (time : Nat) :
    Tracks (map.takeBack key time) now key (log.erase time) where
  kept := by
    have hk := h.kept.erase time
    unfold Counts.timesOf at hk
    unfold Counts.timesOf Counts.takeBack
    cases he : map[key]? with
    | none => simpa [he] using hk
    | some e => simpa [he] using hk
  sorted := h.sorted.sublist List.erase_sublist
  past t ht := h.past t (List.mem_of_mem_erase ht)

theorem erase_ne (h : Tracks map now key log) {other : K} (hne : other ≠ key) :
    Tracks (map.erase other) now key log where
  kept := by simpa [Counts.timesOf, Std.ExtHashMap.getElem?_erase, hne] using h.kept
  sorted := h.sorted
  past := h.past

theorem erase_self (map : Counts K) (now : Nat) (key : K) :
    Tracks (map.erase key) now key [] where
  kept := by simpa [Counts.timesOf] using Kept.nil
  sorted := List.Pairwise.nil
  past := by simp

end Tracks

-- The clean-up never drops an entry whose `next` is still ahead.
theorem Counts.nextOf_entry (map : Counts K) (key other : K) (now : Nat) :
    (map.nextOf key).getD 0 ≤ max now (((map.entry other now).1.nextOf key).getD 0) := by
  have hretain : (map.nextOf key).getD 0 ≤ max now (((map.retain now).nextOf key).getD 0) := by
    unfold Counts.nextOf
    rw [Counts.getElem?_retain]
    cases he : map[key]? with
    | none => simp
    | some e =>
        cases hu : e.inUse now with
        | true => simp [Option.filter, hu]
        | false =>
            have hn : e.next.getD 0 ≤ now := by
              simp only [Entry.inUse, Bool.or_eq_false_iff] at hu
              cases hnext : e.next with
              | none => simp
              | some next => simpa [hnext] using hu.2
            simp [hn]
  have htouch (base : Counts K) :
      Counts.nextOf (base.insert other ((base[other]?.getD {}).expire now)) key =
        base.nextOf key := by
    unfold Counts.nextOf
    rw [Counts.getElem?_insert]
    by_cases hne : other = key
    · subst hne; simp [Entry.expire]
    · simp [hne]
  rcases Counts.entry_cases map other now with ⟨he, -⟩ | ⟨base, hbase, he⟩
  · rw [he]; exact hretain
  · rw [he, htouch]
    rcases hbase with rfl | ⟨rfl, -⟩
    · exact le_max_right _ _
    · exact hretain

theorem Counts.nextOf_takeBack (map : Counts K) (key other : K) (time : Nat) :
    (map.takeBack other time).nextOf key = map.nextOf key := by
  unfold Counts.takeBack
  cases he : map[other]? with
  | none => rfl
  | some e =>
      unfold Counts.nextOf
      rw [Counts.getElem?_insert]
      by_cases hne : other = key
      · subst hne; simp [he]
      · simp [hne]

end Maps

section Begin

variable (lower : String → String) (c : Counters) (account : String) (ip : IpAddr) (now : Nat)

-- The moment at which an attempt with this IP entry may check its password.
def startOf (failures : Nat) (entry : Entry) (now : Nat) : Nat :=
  max (now + delayFor failures) (entry.next.getD (now + delayFor failures))

theorem le_startOf (failures : Nat) (entry : Entry) (now : Nat) :
    now + delayFor failures ≤ startOf failures entry now := le_max_left _ _

theorem next_le_startOf (failures : Nat) (entry : Entry) (now : Nat) :
    entry.next.getD 0 ≤ startOf failures entry now := by
  unfold startOf
  cases entry.next with
  | none => simp
  | some next => simp

-- What `begin` can do: refuse a turn, accept and count, or accept without a
-- count for an IP that the full map does not hold.
theorem Counters.begin_cases :
    (∃ entry, (c.ips.entry (ipKey ip) now).2 = some entry ∧
      MAX_DELAY < startOf (c.failures lower account ip now) entry now - now ∧
      c.begin lower account ip now =
        (.error (startOf (c.failures lower account ip now) entry now - now),
          ⟨(c.accounts.entry (accountKey lower account) now).1,
            (c.ips.entry (ipKey ip) now).1⟩)) ∨
    (∃ entry, (c.ips.entry (ipKey ip) now).2 = some entry ∧
      startOf (c.failures lower account ip now) entry now - now ≤ MAX_DELAY ∧
      c.begin lower account ip now =
        (.ok ⟨startOf (c.failures lower account ip now) entry now - now,
            min (c.failures lower account ip now) MAX_KEYS, now⟩,
          ⟨(c.accounts.entry (accountKey lower account) now).1.record
              (accountKey lower account) now,
            (c.ips.entry (ipKey ip) now).1.insert (ipKey ip)
              ⟨entry.times ++ [now], some (startOf (c.failures lower account ip now) entry now +
                delayFor (entry.times.length + 1))⟩⟩)) ∨
    ((c.ips.entry (ipKey ip) now).2 = none ∧ c.failures lower account ip now = USIZE_MAX ∧
      c.begin lower account ip now =
        (.ok ⟨delayFor USIZE_MAX, min USIZE_MAX MAX_KEYS, now⟩,
          ⟨(c.accounts.entry (accountKey lower account) now).1.record
              (accountKey lower account) now,
            (c.ips.entry (ipKey ip) now).1⟩)) := by
  unfold Counters.begin Counters.failures
  cases hip : (c.ips.entry (ipKey ip) now).2 with
  | none =>
      refine .inr (.inr ⟨rfl, ?_, ?_⟩)
      · simp [failuresOf]
      · simp [hip, failuresOf]
  | some entry =>
      by_cases hmax : MAX_DELAY < startOf (c.failures lower account ip now) entry now - now
      · refine .inl ⟨entry, rfl, ?_⟩
        simp only [startOf, Counters.failures, hip] at hmax ⊢
        exact ⟨hmax, by rw [if_pos hmax]⟩
      · refine .inr (.inl ⟨entry, rfl, ?_⟩)
        simp only [startOf, Counters.failures, hip] at hmax ⊢
        refine ⟨Nat.le_of_not_lt hmax, ?_⟩
        rw [if_neg hmax]
        simp

-- Only an accepted attempt has a wait, and it is never longer than the limit.
theorem Counters.begin_wait {attempt : Attempt}
    (h : (c.begin lower account ip now).1 = .ok attempt) :
    attempt.begun = now ∧ attempt.wait ≤ MAX_DELAY ∧
      delayFor (c.failures lower account ip now) ≤ attempt.wait := by
  rcases c.begin_cases lower account ip now with ⟨e, -, -, hb⟩ | ⟨e, -, hmax, hb⟩ | ⟨-, hf, hb⟩
  · simp [hb] at h
  · rw [hb] at h
    cases h
    have := le_startOf (c.failures lower account ip now) e now
    exact ⟨rfl, hmax, by simp only; omega⟩
  · rw [hb] at h
    cases h
    exact ⟨rfl, delayFor_le_max USIZE_MAX, by rw [hf]⟩

-- What `begin` answers, in terms of the failures that it computes and of the
-- wait that the earlier attempts of the IP leave.
theorem Counters.begin_answer :
    match (c.begin lower account ip now).1 with
    | .ok attempt =>
        attempt.failures = min (c.failures lower account ip now) MAX_KEYS ∧
          attempt.wait ≤ MAX_DELAY ∧
          attempt.wait = max (delayFor (c.failures lower account ip now)) (c.queued ip now)
    | .error wait =>
        MAX_DELAY < wait ∧
          wait = max (delayFor (c.failures lower account ip now)) (c.queued ip now) := by
  have hstart (entry : Entry) (he : (c.ips.entry (ipKey ip) now).2 = some entry) :
      startOf (c.failures lower account ip now) entry now - now =
        max (delayFor (c.failures lower account ip now)) (c.queued ip now) := by
    unfold startOf Counters.queued
    rw [he]
    cases hnext : entry.next with
    | none => simp [hnext]
    | some next =>
        simp only [Option.bind_some, hnext, Option.getD_some]
        omega
  rcases c.begin_cases lower account ip now with
    ⟨e, he, hmax, hb⟩ | ⟨e, he, hmax, hb⟩ | ⟨hnone, hf, hb⟩
  · rw [hb]
    exact ⟨hmax, hstart e he⟩
  · rw [hb]
    exact ⟨rfl, hmax, hstart e he⟩
  · rw [hb, hf]
    exact ⟨rfl, delayFor_le_max USIZE_MAX, by simp [Counters.queued, hnone]⟩

-- An attempt with two new keys, while both maps have room.
theorem Counters.begin_fresh (ha : c.accounts.size < MAX_KEYS)
    (hna : accountKey lower account ∉ c.accounts)
    (hi : c.ips.size < MAX_KEYS) (hni : ipKey ip ∉ c.ips) :
    c.begin lower account ip now = (.ok ⟨0, 0, now⟩,
      ⟨(c.accounts.insert (accountKey lower account) {}).insert (accountKey lower account)
          ⟨[now], none⟩,
        (c.ips.insert (ipKey ip) {}).insert (ipKey ip) ⟨[now], some now⟩⟩) := by
  have hdelay : delayFor 0 = 0 ∧ delayFor 1 = 0 := by decide
  simp [Counters.begin, Counters.failures, Counts.entry, Counts.touch, Nat.not_le.mpr ha,
    Nat.not_le.mpr hi, Std.ExtHashMap.getElem?_eq_none hna, Std.ExtHashMap.getElem?_eq_none hni,
    Entry.expire, failuresOf, hdelay, Counts.record]

theorem Counts.entry_isSome {K : Type} [DecidableEq K] [Hashable K] (map : Counts K) (key : K)
    (now : Nat) (h : map.size < MAX_KEYS) : (map.entry key now).2.isSome := by
  simp [Counts.entry, Nat.not_le.mpr h, Counts.touch]

end Begin

section FirstLogin

-- Rust's `to_lowercase` on a name of ASCII letters and letters without case.
def asciiLower (s : String) : String := String.ofList (s.toList.map Char.toLower)

theorem accountKey_admin : accountKey asciiLower "admin" = "admin" := by decide

def localhost : IpAddr := .v4 0x7f000001

-- The run after one attempt for `admin` from this host.
def firstLogin : Run where
  counters :=
    ⟨(∅ : Counts String).insert "admin" {} |>.insert "admin" ⟨[0], none⟩,
      (∅ : Counts IpAddr).insert localhost {} |>.insert localhost ⟨[0], some 0⟩⟩
  clock := 0
  log := [.began "admin" localhost 0 0 (.ok ⟨0, 0, 0⟩)]

theorem room_empty (op : Op) : AccountRoom asciiLower {} op ∧ IpRoom {} op := by
  cases op with
  | begin account ip now =>
      exact ⟨Counts.entry_isSome _ _ _ (by simp [MAX_KEYS]),
        Counts.entry_isSome _ _ _ (by simp [MAX_KEYS])⟩
  | succeed => exact ⟨trivial, trivial⟩

theorem step_firstLogin :
    Run.step asciiLower {} (.begin "admin" localhost 0) = some firstLogin := by
  have hb := Counters.begin_fresh asciiLower {} "admin" localhost 0 (by simp [MAX_KEYS])
    (by simp) (by simp [MAX_KEYS]) (by simp)
  have hf : Counters.failures asciiLower {} "admin" localhost 0 = 0 := by
    simp [Counters.failures, Counts.entry, MAX_KEYS, Counts.touch, Entry.expire, failuresOf]
  rw [accountKey_admin] at hb
  simp only [Run.step, le_refl, if_true, hb, hf]
  rfl

theorem begin_firstLogin :
    (firstLogin.counters.begin asciiLower "admin" localhost 0).1 = .ok ⟨0, 1, 0⟩ := by
  have haccount : firstLogin.counters.accounts["admin"]? = some ⟨[0], none⟩ := by
    simp [firstLogin]
  have hip : firstLogin.counters.ips[localhost]? = some ⟨[0], some 0⟩ := by
    simp [firstLogin]
  have ha := Counts.entry_of_getElem? haccount 0
  have hi := Counts.entry_of_getElem? hip 0
  have hkey : ipKey localhost = localhost := rfl
  have hexpire : (⟨[0], none⟩ : Entry).expire 0 = ⟨[0], none⟩ ∧
      (⟨[0], some 0⟩ : Entry).expire 0 = ⟨[0], some 0⟩ := by decide
  have hdelay : delayFor 1 = 0 := by decide
  simp [Counters.begin, Counters.failures, accountKey_admin, hkey, ha, hi, hexpire, failuresOf,
    hdelay, MAX_KEYS]

end FirstLogin

end Lodger.Throttle
