import Lodger.Throttle.Theorems

namespace Lodger.Throttle

open Lodger.Lib Lodger.Lib.Window

-- A `begin` call that is rejected still writes to the maps: it drops old times, it may clean
-- a full map and it may store an entry without times. Two maps that differ in such things
-- only are alike: for each key the times in the window are the same, and so is the next
-- turn as long as it is ahead.

-- What of an entry still counts.
def Entry.live (e : Entry) (now : Nat) : Entry where
  times := e.times.filter (young WINDOW now)
  next := e.next.filter fun next => now < next

def Entry.Sorted (e : Entry) (now : Nat) : Prop :=
  e.times.Pairwise (· ≤ ·) ∧ ∀ t ∈ e.times, t ≤ now

section Entries

variable {e : Entry} {now later : Nat}

theorem live_empty (now : Nat) : ({} : Entry).live now = {} := rfl

theorem live_live (e : Entry) (h : now ≤ later) : (e.live now).live later = e.live later := by
  unfold Entry.live
  rw [filter_young_filter h]
  cases e.next with
  | none => rfl
  | some next =>
      by_cases hnow : now < next
      · simp [Option.filter, hnow]
      · have hlater : ¬ later < next := by omega
        simp [Option.filter, hnow, hlater]

-- The clean-up keeps the entries of which something counts.
theorem inUse_iff (hs : e.Sorted now) (later : Nat) : e.inUse later = true ↔ e.live later ≠ {} := by
  have htimes : e.times.getLast?.any (young WINDOW later) = false ↔
      e.times.filter (young WINDOW later) = [] := by
    rw [List.filter_eq_nil_iff]
    constructor
    · intro hlast t ht
      rw [old_of_getLast? hs.1 hlast t ht]
      exact Bool.false_ne_true
    · intro hold
      cases hl : e.times.getLast? with
      | none => exact Option.any_none
      | some t =>
          rw [Option.any_some, ← Bool.not_eq_true]
          exact hold t (List.mem_of_getLast? hl)
  have hnext : e.next.any (fun t => decide (later < t)) = false ↔
      e.next.filter (fun t => decide (later < t)) = none := by
    cases e.next with
    | none => simp
    | some next => simp [Option.filter]
  have hdead : e.inUse later = false ↔ e.live later = {} := by
    unfold Entry.inUse Entry.live
    simp only [lt_window_iff_young]
    rw [Bool.or_eq_false_iff, Entry.mk.injEq, htimes, hnext]
  rw [ne_eq, ← hdead, Bool.not_eq_false]

theorem Sorted.mono (h : e.Sorted now) (hn : now ≤ later) : e.Sorted later :=
  ⟨h.1, fun t ht => (h.2 t ht).trans hn⟩

theorem Sorted.expire (h : e.Sorted now) (later : Nat) : (e.expire later).Sorted now :=
  ⟨h.1.sublist (List.dropWhile_sublist _), fun t ht =>
    h.2 t ((List.dropWhile_sublist _).subset ht)⟩

theorem Sorted.erase (h : e.Sorted now) (time : Nat) :
    Entry.Sorted { e with times := e.times.erase time } now :=
  ⟨h.1.sublist List.erase_sublist, fun t ht => h.2 t (List.mem_of_mem_erase ht)⟩

theorem Sorted.push (h : e.Sorted now) (next : Option Nat) :
    Entry.Sorted ⟨e.times ++ [now], next⟩ now := by
  refine ⟨List.pairwise_append.mpr ⟨h.1, by simp, by simpa using h.2⟩, ?_⟩
  intro t ht
  rcases List.mem_append.mp ht with ht | ht
  · exact h.2 t ht
  · simp only [List.mem_singleton] at ht
    omega

theorem live_expire (h : e.Sorted now) (later : Nat) : (e.expire later).live later = e.live later := by
  have ht := Entry.expire_times e later h.1
  simp only [Entry.live, ht, filter_young_filter le_rfl]
  rfl

end Entries

section Maps

variable {K : Type} [DecidableEq K] [Hashable K] {map other : Counts K} {key : K} {now later : Nat}

def Counts.live (map : Counts K) (now : Nat) (key : K) : Entry := (map[key]?.getD {}).live now

-- A map as the calls leave it: it has at most `MAX_KEYS` keys and its times are in order.
structure Tidy (map : Counts K) (now : Nat) : Prop where
  size : map.size ≤ MAX_KEYS
  sorted : ∀ key : K, (map[key]?.getD {}).Sorted now

theorem sorted_empty (now : Nat) : ({} : Entry).Sorted now := ⟨List.Pairwise.nil, by simp⟩

theorem Tidy.empty (now : Nat) : Tidy (∅ : Counts K) now where
  size := by simp
  sorted key := by simpa using sorted_empty now

theorem Tidy.mono (h : Tidy map now) (hn : now ≤ later) : Tidy map later where
  size := h.size
  sorted key := Sorted.mono (h.sorted key) hn

theorem Tidy.retain (h : Tidy map now) (later : Nat) : Tidy (map.retain later) now where
  size := le_trans Std.ExtHashMap.size_filter_le_size h.size
  sorted key := by
    have hs := h.sorted key
    rw [Counts.getElem?_retain]
    cases he : map[key]? with
    | none => simpa [he] using hs
    | some e =>
        by_cases hu : e.inUse later = true
        · simpa [he, Option.filter, hu] using hs
        · simpa [Option.filter, hu] using sorted_empty now

theorem Tidy.insert (h : Tidy map now) {e : Entry} (he : e.Sorted now)
    (hroom : key ∈ map ∨ map.size < MAX_KEYS) : Tidy (map.insert key e) now where
  size := by
    have hsize := h.size
    rw [Std.ExtHashMap.size_insert]
    split_ifs with hm
    · exact hsize
    · rcases hroom with hin | hlt
      · exact absurd hin hm
      · omega
  sorted k := by
    rw [Counts.getElem?_insert]
    by_cases hk : key = k
    · simpa [hk] using he
    · simpa [hk] using h.sorted k

theorem Tidy.erase (h : Tidy map now) (key : K) : Tidy (map.erase key) now where
  size := le_trans Std.ExtHashMap.size_erase_le h.size
  sorted k := by
    rw [Std.ExtHashMap.getElem?_erase]
    by_cases hk : key = k
    · simpa [hk] using sorted_empty now
    · simpa [hk] using h.sorted k

-- What `entry` returns is the key's entry of the map itself, without its old times: where
-- the map was cleaned, the map did not hold the key.
theorem entry_some {e : Entry} (h : (map.entry key now).2 = some e) :
    e = (map[key]?.getD {}).expire now := by
  rcases Counts.entry_cases map key now with ⟨hnone, -⟩ | ⟨base, hbase, heq⟩
  · simp [hnone] at h
  · rw [heq, Option.some.injEq] at h
    rcases hbase with rfl | ⟨rfl, hk⟩
    · exact h.symm
    · rw [Counts.getElem?_retain, Std.ExtHashMap.getElem?_eq_none hk] at h
      rw [Std.ExtHashMap.getElem?_eq_none hk]
      exact h.symm

theorem Tidy.entry (h : Tidy map now) (key : K) (later : Nat) : Tidy (map.entry key later).1 now := by
  unfold Counts.entry Counts.touch
  by_cases hfull : MAX_KEYS ≤ map.size ∧ key ∉ map
  · by_cases hkept : MAX_KEYS ≤ (map.retain later).size
    · simpa [hfull, hkept] using h.retain later
    · have hr := h.retain later
      simpa [hfull, hkept] using
        hr.insert (Sorted.expire (hr.sorted key) later) (Or.inr (by omega))
  · have hroom : key ∈ map ∨ map.size < MAX_KEYS := by
      by_cases hm : key ∈ map
      · exact Or.inl hm
      · exact Or.inr (by simp only [hm, not_false_eq_true, and_true] at hfull; omega)
    simpa [hfull] using h.insert (Sorted.expire (h.sorted key) later) hroom

theorem live_insert (map : Counts K) (key k : K) (e : Entry) (now : Nat) :
    Counts.live (map.insert key e) now k = if key = k then e.live now else map.live now k := by
  unfold Counts.live
  rw [Counts.getElem?_insert]
  by_cases hk : key = k
  · simp [hk]
  · simp [hk]

theorem live_retain (h : Tidy map now) (later : Nat) (k : K) :
    (map.retain later).live later k = map.live later k := by
  have hs := h.sorted k
  unfold Counts.live
  rw [Counts.getElem?_retain]
  cases he : map[k]? with
  | none => rfl
  | some e =>
      rw [he, Option.getD_some] at hs
      by_cases hu : e.inUse later = true
      · simp [Option.filter, hu]
      · have hdead : e.live later = {} := by
          rw [inUse_iff hs, not_not] at hu
          exact hu
        simp [Option.filter, hu, hdead, live_empty]

theorem live_entry (h : Tidy map now) (key : K) (later : Nat) (k : K) :
    (map.entry key later).1.live later k = map.live later k := by
  have htouch (base : Counts K) (hb : Tidy base now) :
      Counts.live (base.insert key ((base[key]?.getD {}).expire later)) later k =
        base.live later k := by
    rw [live_insert, live_expire (hb.sorted key)]
    by_cases hk : key = k
    · simp [hk, Counts.live]
    · simp [hk]
  rcases Counts.entry_cases map key later with ⟨he, -⟩ | ⟨base, hbase, he⟩
  · rw [he]
    exact live_retain h later k
  · rw [he]
    rcases hbase with rfl | ⟨rfl, -⟩
    · exact htouch base h
    · rw [htouch _ (h.retain later)]
      exact live_retain h later k

-- A key is refused if nothing of it counts and the other keys that count fill the map. A map
-- that holds the key has at most `MAX_KEYS` keys, so the others do not fill it.
theorem entry_none_iff (h : Tidy map now) (key : K) (later : Nat) :
    (map.entry key later).2 = none ↔
      map.live later key = {} ∧ MAX_KEYS ≤ (map.retain later).size := by
  have hle : (map.retain later).size ≤ map.size := Std.ExtHashMap.size_filter_le_size
  have hsize := h.size
  constructor
  · intro hnone
    unfold Counts.entry Counts.touch at hnone
    by_cases hfull : MAX_KEYS ≤ map.size ∧ key ∉ map
    · by_cases hkept : MAX_KEYS ≤ (map.retain later).size
      · refine ⟨?_, hkept⟩
        rw [Counts.live, Std.ExtHashMap.getElem?_eq_none hfull.2]
        exact live_empty later
      · simp [hfull, hkept] at hnone
    · simp [hfull] at hnone
  · rintro ⟨hdead, hkept⟩
    have habsent : key ∉ map := by
      intro hm
      have herase : (map.erase key).size + 1 = map.size := by
        have hpos : map.size ≠ 0 := by
          intro hz
          rw [← Std.ExtHashMap.eq_empty_iff_size_eq_zero] at hz
          simp [hz] at hm
        rw [Std.ExtHashMap.size_erase, if_pos hm]
        omega
      have hsame : Counts.retain (map.erase key) later = map.retain later := by
        apply Std.ExtHashMap.ext_getElem?
        intro k
        rw [Counts.getElem?_retain, Counts.getElem?_retain, Std.ExtHashMap.getElem?_erase]
        by_cases hk : key = k
        · subst hk
          have hs := h.sorted key
          unfold Counts.live at hdead
          cases he : map[key]? with
          | none => simp
          | some e =>
              rw [he, Option.getD_some] at hs hdead
              have hu : e.inUse later = false := by
                rw [← Bool.not_eq_true, inUse_iff hs, not_not]
                exact hdead
              simp [Option.filter, hu]
        · simp [hk]
      have hsub : (Counts.retain (map.erase key) later).size ≤ (map.erase key).size :=
        Std.ExtHashMap.size_filter_le_size
      rw [hsame] at hsub
      omega
    have hfull : MAX_KEYS ≤ map.size ∧ key ∉ map := ⟨by omega, habsent⟩
    unfold Counts.entry
    rw [if_pos hfull]
    simp [hkept]

structure Alike (map other : Counts K) (now : Nat) : Prop where
  live : ∀ key, map.live now key = other.live now key
  left : Tidy map now
  right : Tidy other now

namespace Alike

theorem symm (h : Alike map other now) : Alike other map now :=
  ⟨fun key => (h.live key).symm, h.right, h.left⟩

theorem mono (h : Alike map other now) (hn : now ≤ later) : Alike map other later where
  live key := by
    have hkey := congrArg (fun e => e.live later) (h.live key)
    simpa only [Counts.live, live_live _ hn] using hkey
  left := h.left.mono hn
  right := h.right.mono hn

-- The clean-up leaves the same keys in both maps.
theorem retain_size (h : Alike map other now) :
    (map.retain now).size = (other.retain now).size := by
  have hunit : (map.retain now).map (fun _ _ => ()) = (other.retain now).map (fun _ _ => ()) := by
    apply Std.ExtHashMap.ext_getElem?
    intro key
    have hiff (m : Counts K) (hm : Tidy m now) :
        ((m.retain now).map fun _ _ => ())[key]? =
          if m.live now key = {} then none else some () := by
      have hs := hm.sorted key
      rw [Std.ExtHashMap.getElem?_map, Counts.getElem?_retain, Counts.live]
      cases he : m[key]? with
      | none => simp [live_empty]
      | some e =>
          rw [he, Option.getD_some] at hs
          have hu := inUse_iff hs now
          by_cases hdead : e.live now = {}
          · have hf : e.inUse now = false := by simpa [hdead] using hu
            simp [Option.filter, hf, hdead]
          · simp [Option.filter, hu.mpr hdead, hdead]
    rw [hiff map h.left, hiff other h.right, h.live key]
  have hsize := congrArg Std.ExtHashMap.size hunit
  simpa only [Std.ExtHashMap.size_map] using hsize

-- Both maps answer `entry` alike.
theorem entry_snd (h : Alike map other now) (key : K) :
    (map.entry key now).2.map (·.live now) = (other.entry key now).2.map (·.live now) := by
  have hiff : (map.entry key now).2 = none ↔ (other.entry key now).2 = none := by
    rw [entry_none_iff h.left, entry_none_iff h.right, h.live, h.retain_size]
  have hsome {m : Counts K} {e : Entry} (hm : Tidy m now) (he : (m.entry key now).2 = some e) :
      e.live now = m.live now key := by
    rw [entry_some he, live_expire (hm.sorted key)]
    rfl
  cases he : (map.entry key now).2 with
  | none => rw [hiff.mp he]
  | some e =>
      cases he' : (other.entry key now).2 with
      | none => simp [hiff.mpr he'] at he
      | some e' =>
          rw [Option.map_some, Option.map_some, hsome h.left he, hsome h.right he', h.live]

-- A call of `entry` on one side only.
theorem entry_left (h : Alike map other now) (key : K) : Alike (map.entry key now).1 other now where
  live k := (live_entry h.left key now k).trans (h.live k)
  left := h.left.entry key now
  right := h.right

theorem entry (h : Alike map other now) (key : K) :
    Alike (map.entry key now).1 (other.entry key now).1 now :=
  ((h.entry_left key).symm.entry_left key).symm

theorem insert (h : Alike map other now) {e e' : Entry} (he : e.live now = e'.live now)
    (hs : e.Sorted now) (hs' : e'.Sorted now) (hm : key ∈ map) (hm' : key ∈ other) :
    Alike (map.insert key e) (other.insert key e') now where
  live k := by rw [live_insert, live_insert, he, h.live]
  left := h.left.insert hs (Or.inl hm)
  right := h.right.insert hs' (Or.inl hm')

theorem erase (h : Alike map other now) (key : K) :
    Alike (map.erase key) (other.erase key) now where
  live k := by
    have hk := h.live k
    simp only [Counts.live, Std.ExtHashMap.getElem?_erase] at hk ⊢
    by_cases heq : key = k
    · simp [heq]
    · simpa [heq] using hk
  left := h.left.erase key
  right := h.right.erase key

end Alike

-- A time that is taken back is gone from what counts too.
theorem live_takeBack (map : Counts K) (key k : K) (time now : Nat) :
    (map.takeBack key time).live now k = if key = k then
      { map.live now k with times := (map.live now k).times.erase time } else map.live now k := by
  unfold Counts.takeBack
  cases he : map[key]? with
  | none =>
      by_cases hk : key = k
      · subst hk
        simp [Counts.live, he, live_empty]
      · simp [hk]
  | some e =>
      simp only [live_insert]
      by_cases hk : key = k
      · subst hk
        simp only [if_true, Counts.live, he, Option.getD_some, Entry.live]
        rw [List.erase_filter]
      · simp [hk]

theorem Tidy.takeBack (h : Tidy map now) (key : K) (time : Nat) :
    Tidy (map.takeBack key time) now := by
  have hs := h.sorted key
  unfold Counts.takeBack
  cases he : map[key]? with
  | none => exact h
  | some e =>
      rw [he, Option.getD_some] at hs
      refine h.insert (Sorted.erase hs time) (Or.inl ?_)
      rw [Std.ExtHashMap.mem_iff_isSome_getElem?, he]
      rfl

theorem Alike.takeBack (h : Alike map other now) (key : K) (time : Nat) :
    Alike (map.takeBack key time) (other.takeBack key time) now where
  live k := by rw [live_takeBack, live_takeBack, h.live]
  left := h.left.takeBack key time
  right := h.right.takeBack key time

-- What `entry` returned stands in the map.
theorem getElem?_entry (map : Counts K) (key : K) (now : Nat) :
    (map.entry key now).1[key]? = (map.entry key now).2 := by
  rcases Counts.entry_cases map key now with ⟨he, hk⟩ | ⟨base, -, he⟩
  · rw [he, Counts.getElem?_retain, Std.ExtHashMap.getElem?_eq_none hk]
    rfl
  · rw [he, Counts.getElem?_insert, if_pos rfl]

theorem mem_entry {e : Entry} (h : (map.entry key now).2 = some e) :
    key ∈ (map.entry key now).1 := by
  rw [Std.ExtHashMap.mem_iff_isSome_getElem?, getElem?_entry, h]
  rfl

theorem live_push (e : Entry) (next : Option Nat) :
    Entry.live ⟨e.times ++ [now], next⟩ now =
      ⟨(e.live now).times ++ [now], next.filter fun next => now < next⟩ := by
  have hy : young WINDOW now now = true := by
    rw [young, decide_eq_true_eq]
    exact Nat.lt_add_of_pos_right window_pos
  have hlast : [now].filter (young WINDOW now) = [now] := List.filter_cons_of_pos hy
  unfold Entry.live
  rw [List.filter_append, hlast]

theorem Tidy.entry_sorted {e : Entry} (h : Tidy map now) (he : (map.entry key now).2 = some e) :
    e.Sorted now := by
  rw [entry_some he]
  exact Sorted.expire (h.sorted key) now

-- The entry that `entry` returns has only times in the window.
theorem Tidy.entry_live {e : Entry} (h : Tidy map now) (he : (map.entry key now).2 = some e) :
    (e.live now).times = e.times := by
  rw [entry_some he, live_expire (h.sorted key), Entry.expire_times _ _ (h.sorted key).1]
  rfl

-- Both maps refuse the key, or both have an entry with the same times for it.
theorem Alike.entry_eq (h : Alike map other now) (key : K) :
    ((map.entry key now).2 = none ∧ (other.entry key now).2 = none) ∨
    ∃ e e', (map.entry key now).2 = some e ∧ (other.entry key now).2 = some e' ∧
      e.live now = e'.live now ∧ e.times = e'.times := by
  have hsnd := h.entry_snd key
  cases he : (map.entry key now).2 with
  | none =>
      rw [he, Option.map_none, eq_comm, Option.map_eq_none_iff] at hsnd
      exact Or.inl ⟨rfl, hsnd⟩
  | some e =>
      cases he' : (other.entry key now).2 with
      | none => simp [he, he'] at hsnd
      | some e' =>
          rw [he, he', Option.map_some, Option.map_some, Option.some.injEq] at hsnd
          refine Or.inr ⟨e, e', rfl, rfl, hsnd, ?_⟩
          rw [← h.left.entry_live he, ← h.right.entry_live he', hsnd]

theorem Alike.record (h : Alike map other now) (key : K) :
    Alike ((map.entry key now).1.record key now) ((other.entry key now).1.record key now) now := by
  unfold Counts.record
  rw [getElem?_entry, getElem?_entry]
  rcases h.entry_eq key with ⟨he, he'⟩ | ⟨e, e', he, he', hlive, -⟩
  · rw [he, he']
    exact h.entry key
  · rw [he, he']
    refine (h.entry key).insert ?_ (Sorted.push (h.left.entry_sorted he) _)
      (Sorted.push (h.right.entry_sorted he') _) (mem_entry he) (mem_entry he')
    have hnext := congrArg Entry.next hlive
    simp only [Entry.live] at hnext
    rw [live_push, live_push, hlive, hnext]

end Maps

section Calls

variable {lower : String → String} {c d : Counters} {now : Nat}

structure AlikeCounters (c d : Counters) (now : Nat) : Prop where
  accounts : Alike c.accounts d.accounts now
  ips : Alike c.ips d.ips now

-- A turn that is not ahead does not move the start.
theorem startOf_live (failures : Nat) (e : Entry) (now : Nat) :
    startOf failures (e.live now) now = startOf failures e now := by
  unfold startOf Entry.live
  cases e.next with
  | none => rfl
  | some next =>
      by_cases hnow : now < next
      · simp [Option.filter, hnow]
      · simp only [Option.filter, hnow, decide_false, Bool.false_eq_true, if_false,
          Option.getD_none, Option.getD_some]
        omega

theorem AlikeCounters.failures (h : AlikeCounters c d now) (lower : String → String)
    (account : String) (ip : IpAddr) :
    c.failures lower account ip now = d.failures lower account ip now := by
  unfold Counters.failures
  rcases h.accounts.entry_eq (accountKey lower account) with ⟨ha, ha'⟩ | ⟨a, a', ha, ha', -, hat⟩
  · rw [ha, ha']
    rfl
  · rcases h.ips.entry_eq (ipKey ip) with ⟨hi, hi'⟩ | ⟨i, i', hi, hi', -, hit⟩
    · rw [ha, ha', hi, hi']
      rfl
    · rw [ha, ha', hi, hi']
      simp only [failuresOf, hat, hit]

-- A rejected call leaves counters that are alike.
theorem AlikeCounters.rejected (h : AlikeCounters c d now) {account : String} {ip : IpAddr}
    {wait : Nat} (hr : (c.begin lower account ip now).1 = .error wait) :
    AlikeCounters (c.begin lower account ip now).2 d now := by
  rcases c.begin_cases lower account ip now with ⟨e, -, -, hb⟩ | ⟨e, -, -, hb⟩ | ⟨-, -, hb⟩
  · rw [hb]
    exact ⟨h.accounts.entry_left _, h.ips.entry_left _⟩
  · rw [hb] at hr
    cases hr
  · rw [hb] at hr
    cases hr

theorem AlikeCounters.begin (h : AlikeCounters c d now) (lower : String → String)
    (account : String) (ip : IpAddr) :
    (c.begin lower account ip now).1 = (d.begin lower account ip now).1 ∧
      AlikeCounters (c.begin lower account ip now).2 (d.begin lower account ip now).2 now := by
  have hf := h.failures lower account ip
  rcases h.ips.entry_eq (ipKey ip) with ⟨hi, hi'⟩ | ⟨e, e', hi, hi', hlive, htimes⟩
  · have hb : ∀ m : Counters, (m.ips.entry (ipKey ip) now).2 = none →
        m.begin lower account ip now = (.ok ⟨delayFor USIZE_MAX, min USIZE_MAX MAX_KEYS, now⟩,
          ⟨(m.accounts.entry (accountKey lower account) now).1.record
            (accountKey lower account) now, (m.ips.entry (ipKey ip) now).1⟩) := by
      intro m hm
      rcases m.begin_cases lower account ip now with ⟨e, he, -⟩ | ⟨e, he, -⟩ | ⟨-, -, hb⟩
      · simp [he] at hm
      · simp [he] at hm
      · exact hb
    rw [hb c hi, hb d hi']
    exact ⟨rfl, h.accounts.record _, h.ips.entry _⟩
  · have hstart : startOf (c.failures lower account ip now) e now =
        startOf (d.failures lower account ip now) e' now := by
      rw [← startOf_live _ e, ← startOf_live _ e', hlive, hf]
    rcases c.begin_cases lower account ip now with
      ⟨x, hx, hmax, hb⟩ | ⟨x, hx, hmax, hb⟩ | ⟨hx, -, -⟩
    · obtain rfl : e = x := Option.some.inj (hi.symm.trans hx)
      rcases d.begin_cases lower account ip now with
        ⟨y, hy, -, hb'⟩ | ⟨y, hy, hmax', -⟩ | ⟨hy, -, -⟩
      · obtain rfl : e' = y := Option.some.inj (hi'.symm.trans hy)
        rw [hb, hb', hstart]
        exact ⟨rfl, h.accounts.entry _, h.ips.entry _⟩
      · obtain rfl : e' = y := Option.some.inj (hi'.symm.trans hy)
        omega
      · simp [hi'] at hy
    · obtain rfl : e = x := Option.some.inj (hi.symm.trans hx)
      rcases d.begin_cases lower account ip now with
        ⟨y, hy, hmax', -⟩ | ⟨y, hy, -, hb'⟩ | ⟨hy, -, -⟩
      · obtain rfl : e' = y := Option.some.inj (hi'.symm.trans hy)
        omega
      · obtain rfl : e' = y := Option.some.inj (hi'.symm.trans hy)
        rw [hb, hb', hstart, hf, htimes]
        refine ⟨rfl, h.accounts.record _, ?_⟩
        refine (h.ips.entry _).insert rfl (htimes ▸ Sorted.push (h.ips.left.entry_sorted hi) _)
          (Sorted.push (h.ips.right.entry_sorted hi') _) (mem_entry hi) (mem_entry hi')
      · simp [hi'] at hy
    · simp [hi] at hx

theorem AlikeCounters.succeed (h : AlikeCounters c d now) (account : String) (ip : IpAddr)
    (attempt : Attempt) :
    AlikeCounters (c.succeed lower account ip attempt) (d.succeed lower account ip attempt) now :=
  ⟨h.accounts.erase _, h.ips.takeBack _ _⟩

end Calls

section Runs

variable {lower : String → String} {r r' s : Run} {op : Op}

-- The second run made fewer calls, so its clock may be behind.
structure AlikeRuns (r r' : Run) : Prop where
  counters : AlikeCounters r.counters r'.counters r.clock
  clock : r'.clock ≤ r.clock

theorem AlikeCounters.mono {c d : Counters} {now later : Nat} (h : AlikeCounters c d now)
    (hn : now ≤ later) : AlikeCounters c d later :=
  ⟨h.accounts.mono hn, h.ips.mono hn⟩

-- A call that both runs make has the same result in both.
theorem step_alike (h : AlikeRuns r r') (hs : r.step lower op = some s) :
    ∃ x s', r'.step lower op = some s' ∧ AlikeRuns s s' ∧ s.log = r.log ++ [x] ∧
      s'.log = r'.log ++ [x] := by
  rcases Run.step_cases hs with ⟨account, ip, now, rfl, hclock, rfl⟩ |
    ⟨account, ip, attempt, call, rfl, rfl⟩
  · have hc := h.counters.mono hclock
    obtain ⟨hresult, hnext⟩ := hc.begin lower account ip
    have hf := hc.failures lower account ip
    refine ⟨_, _, Run.step_begin lower account ip (h.clock.trans hclock), ⟨hnext, le_rfl⟩, rfl, ?_⟩
    rw [hresult, hf]
  · exact ⟨_, _, rfl, ⟨h.counters.succeed account ip attempt, h.clock⟩, rfl, rfl⟩

-- A rejected call that only the first run makes.
theorem step_rejected (h : AlikeRuns r r') (hs : r.step lower op = some s)
    (hlog : ∃ account ip now failures wait,
      s.log = r.log ++ [.began account ip now failures (.error wait)]) : AlikeRuns s r' := by
  obtain ⟨account', ip', now', failures, wait, hlog⟩ := hlog
  rcases Run.step_cases hs with ⟨account, ip, now, rfl, hclock, rfl⟩ |
    ⟨account, ip, attempt, call, rfl, rfl⟩
  · simp only [List.append_cancel_left_eq, List.cons.injEq, Logged.began.injEq, and_true] at hlog
    exact ⟨(h.counters.mono hclock).rejected hlog.2.2.2.2, h.clock.trans hclock⟩
  · simp at hlog

-- The list without its elements at the positions in `drop`.
def without {α : Type} (drop : Nat → Bool) (xs : List α) : List α :=
  (xs.zipIdx.filter fun x => !drop x.2).map Prod.fst

theorem without_append {α : Type} (drop : Nat → Bool) (xs : List α) (x : α) :
    without drop (xs ++ [x]) = without drop xs ++ if drop xs.length then [] else [x] := by
  unfold without
  rw [List.zipIdx_append, List.filter_append, List.map_append]
  by_cases hd : drop xs.length = true
  · simp [hd]
  · simp [hd]

theorem run_alike {ops : List Op} (hrun : exec (Run.step lower) {} ops = some r)
    (drop : Nat → Bool) (hdrop : ∀ i < ops.length, drop i = true →
      ∃ account ip now failures wait, r.log[i]? = some (.began account ip now failures (.error wait))) :
    ∃ r', exec (Run.step lower) {} (without drop ops) = some r' ∧ AlikeRuns r r' ∧
      r'.log = without drop r.log := by
  induction ops using List.reverseRecOn generalizing r with
  | nil =>
      cases hrun
      exact ⟨{}, rfl, ⟨⟨⟨fun _ => rfl, Tidy.empty 0, Tidy.empty 0⟩,
        ⟨fun _ => rfl, Tidy.empty 0, Tidy.empty 0⟩⟩, le_rfl⟩, rfl⟩
  | append_singleton ops op ih =>
      obtain ⟨q, hq, hs⟩ := exec_concat.mp hrun
      have hlen := log_length hq
      obtain ⟨x, hlog⟩ : ∃ x, r.log = q.log ++ [x] := by
        rcases Run.step_cases hs with ⟨account, ip, now, -, -, rfl⟩ |
          ⟨account, ip, attempt, call, -, rfl⟩
        · exact ⟨_, rfl⟩
        · exact ⟨_, rfl⟩
      obtain ⟨q', hq', halike, hlog'⟩ := ih hq (by
        intro i hi hd
        obtain ⟨account, ip, now, failures, wait, hx⟩ := hdrop i (by simp; omega) hd
        rw [hlog, List.getElem?_append_left (by omega)] at hx
        exact ⟨account, ip, now, failures, wait, hx⟩)
      rw [without_append, hlog, without_append, hlen]
      by_cases hd : drop ops.length = true
      · -- The last call is dropped, so it was rejected.
        obtain ⟨account, ip, now, failures, wait, hx⟩ := hdrop ops.length (by simp) hd
        rw [hlog, ← hlen, List.getElem?_concat_length, Option.some.injEq] at hx
        rw [if_pos hd, if_pos hd, List.append_nil, List.append_nil]
        exact ⟨q', hq', step_rejected halike hs ⟨account, ip, now, failures, wait, hx ▸ hlog⟩, hlog'⟩
      · obtain ⟨y, s', hs', halike', hy, hlast⟩ := step_alike halike hs
        rw [hlog, List.append_cancel_left_eq, List.cons.injEq] at hy
        obtain rfl : x = y := hy.1
        rw [if_neg hd, if_neg hd]
        refine ⟨s', exec_concat.mpr ⟨q', hq', hs'⟩, halike', ?_⟩
        rw [hlast, hlog']

-- Rejected attempts are invisible: without any of them, every other call gives what it gave.
theorem rejected_attempts_invisible (lower : String → String) (ops : List Op) (r : Run)
    (hrun : exec (Run.step lower) {} ops = some r) (drop : Nat → Bool)
    (hdrop : ∀ i < ops.length, drop i = true → ∃ account ip now failures wait,
      r.log[i]? = some (.began account ip now failures (.error wait))) :
    ∃ r', exec (Run.step lower) {} (without drop ops) = some r' ∧
      r'.log = without drop r.log := by
  obtain ⟨r', hrun', -, hlog⟩ := run_alike hrun drop hdrop
  exact ⟨r', hrun', hlog⟩

-- Eleven attempts at once, of which the last is refused, and one after ten seconds.
def hammer : List Op :=
  List.replicate 11 (.begin "admin" localhost 0) ++ [.begin "admin" localhost (secs 10)]

theorem rejected_attempts_invisible_hammer :
    ∃ r r' wait, exec (Run.step asciiLower) {} hammer = some r ∧
      r.log[10]? = some (.began "admin" localhost 0 10 (.error wait)) ∧
      exec (Run.step asciiLower) {} (without (· == 10) hammer) = some r' ∧
      r'.log = without (· == 10) r.log := by
  obtain ⟨q, hq, -, hclock, hheld⟩ := exec_hammer 9
  obtain ⟨s, hs, hclock', hlog, hheld'⟩ := begin_held hheld 0 (le_of_eq hclock)
  obtain ⟨r, hr, -, hlog', -⟩ := begin_held hheld' (secs 10) (by omega)
  have hrun : exec (Run.step asciiLower) {} hammer = some r :=
    exec_concat.mpr ⟨s, exec_concat.mpr ⟨q, hq, hs⟩, hr⟩
  have hten : r.log[10]? = some (.began "admin" localhost 0 10 (.error (secs 63))) := by
    have hlen : q.log.length = 10 := log_length hq
    have hwait : max ((hammered 9).1.expire 0).times.length ((hammered 9).2.expire 0).times.length =
        10 ∧ (attemptOn (hammered 9).1 (hammered 9).2 0).1 = .error (secs 63) := by decide +kernel
    rw [hlog', hlog, hwait.1, hwait.2]
    simp [hlen]
  obtain ⟨r', hrun', hsame⟩ := rejected_attempts_invisible asciiLower hammer r hrun (· == 10) (by
    intro i _ hi
    obtain rfl : i = 10 := by simpa using hi
    exact ⟨_, _, _, _, _, hten⟩)
  exact ⟨r, r', _, hrun, hten, hrun', hsame⟩

end Runs

end Lodger.Throttle
