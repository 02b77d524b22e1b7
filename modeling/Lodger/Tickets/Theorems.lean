import Lodger.Tickets

namespace Lodger.Tickets

open Lodger.Lib

section History

variable {log : List Logged} {i : Issued}

theorem unused_append (log : List Logged) (x : Logged) :
    unused (log ++ [x]) = useUp (unused log) x := by
  simp [unused]

theorem getElem?_append_eq_some {x y : Logged} {n : Nat} (h : (log ++ [x])[n]? = some y) :
    (n < log.length ∧ log[n]? = some y) ∨ (n = log.length ∧ y = x) := by
  rcases Nat.lt_trichotomy n log.length with hn | hn | hn
  · rw [List.getElem?_append_left hn] at h
    exact .inl ⟨hn, h⟩
  · subst hn
    simp only [List.getElem?_append_right (le_refl _), Nat.sub_self, List.getElem?_cons_zero,
      Option.some.injEq] at h
    exact .inr ⟨rfl, h.symm⟩
  · rw [List.getElem?_eq_none (by simp; omega)] at h
    simp at h

theorem tries_append_of_lt {x : Logged} {ticket : String} {k : Nat} (hk : k < log.length) :
    Tries (log ++ [x]) ticket k ↔ Tries log ticket k := by
  simp only [Tries, List.getElem?_append_left hk]

theorem Tries.lt_length {ticket : String} {k : Nat} (h : Tries log ticket k) : k < log.length := by
  obtain ⟨session, origin, now, result, h⟩ := h
  exact (List.getElem?_eq_some_iff.mp h).1

-- The unused tickets are those that were issued and that no call tried since.
theorem mem_unused (log : List Logged) (i : Issued) :
    i ∈ unused log ↔
      ∃ n, log[n]? = some (.issued i) ∧ ∀ k, n < k → ¬ Tries log i.ticket k := by
  induction log using List.reverseRecOn with
  | nil => simp [unused]
  | append_singleton log x ih =>
      have hold : (∃ n, n < log.length ∧ log[n]? = some (.issued i) ∧
          ∀ k, n < k → k < log.length → ¬ Tries (log ++ [x]) i.ticket k) ↔ i ∈ unused log := by
        rw [ih]
        constructor
        · rintro ⟨n, hn, hi, hk⟩
          refine ⟨n, hi, fun k hnk htries => ?_⟩
          exact hk k hnk htries.lt_length ((tries_append_of_lt htries.lt_length).mpr htries)
        · rintro ⟨n, hi, hk⟩
          refine ⟨n, (List.getElem?_eq_some_iff.mp hi).1, hi, fun k hnk hlt htries => ?_⟩
          exact hk k hnk ((tries_append_of_lt hlt).mp htries)
      have hlast : Tries (log ++ [x]) i.ticket log.length ↔
          ∃ session origin now result, x = .redeemed i.ticket session origin now result := by
        simp [Tries]
      rw [unused_append]
      constructor
      · intro h
        have hcases : i ∈ unused log ∧ ¬ Tries (log ++ [x]) i.ticket log.length ∨
            x = .issued i := by
          rw [hlast]
          cases x with
          | issued j =>
              simp only [useUp, List.mem_append, List.mem_singleton] at h
              rcases h with h | rfl
              · exact .inl ⟨h, by simp⟩
              · exact .inr rfl
          | refused now => exact .inl ⟨h, by simp⟩
          | redeemed ticket session origin now result =>
              simp only [useUp, List.mem_filter, decide_eq_true_eq] at h
              refine .inl ⟨h.1, ?_⟩
              rintro ⟨_, _, _, _, hx⟩
              injection hx with hticket
              exact h.2 hticket.symm
        rcases hcases with ⟨h, hnot⟩ | rfl
        · obtain ⟨n, hn, hi, hk⟩ := hold.mpr h
          refine ⟨n, by rwa [List.getElem?_append_left hn], fun k hnk htries => ?_⟩
          have hlt := htries.lt_length
          rw [List.length_append, List.length_singleton] at hlt
          by_cases hlen : k = log.length
          · exact hnot (hlen ▸ htries)
          · exact hk k hnk (by omega) htries
        · refine ⟨log.length, by simp, fun k hnk htries => ?_⟩
          have hlt := htries.lt_length
          rw [List.length_append, List.length_singleton] at hlt
          omega
      · rintro ⟨n, hi, hk⟩
        rcases getElem?_append_eq_some hi with ⟨hn, hi⟩ | ⟨rfl, hx⟩
        · have hmem : i ∈ unused log := hold.mp ⟨n, hn, hi, fun k hnk _ => hk k hnk⟩
          have hnot := hk log.length hn
          rw [hlast] at hnot
          cases x with
          | issued j => exact List.mem_append_left _ hmem
          | refused now => exact hmem
          | redeemed ticket session origin now result =>
              refine List.mem_filter.mpr ⟨hmem, ?_⟩
              simp only [ne_eq, decide_not, Bool.not_eq_true', decide_eq_false_iff_not]
              intro hticket
              exact hnot ⟨session, origin, now, result, by rw [hticket]⟩
        · subst hx
          simp [useUp]

theorem issued_of_mem_unused (h : i ∈ unused log) :
    i.ticket ∈ log.filterMap Logged.ticket? := by
  obtain ⟨n, hn, -⟩ := (mem_unused log i).mp h
  exact List.mem_filterMap.mpr ⟨.issued i, List.mem_of_getElem? hn, rfl⟩

end History

section Step

variable {hash : String → Sha256} {r r' : Run} {op : Op}

-- What one call can do. A call that cleans up keeps every live ticket.
theorem Run.step_cases (h : r.step hash op = some r') :
    (∃ e session origin now, op = .issue (.error e) session origin now ∧ r.clock ≤ now ∧
      r' = ⟨r.byHash, now, r.log⟩) ∨
    (∃ bytes session origin now, op = .issue (.ok bytes) session origin now ∧ r.clock ≤ now ∧
      MAX_TICKETS ≤ (r.byHash.retain now).size ∧
      r' = ⟨r.byHash.retain now, now, r.log ++ [.refused now]⟩) ∨
    (∃ bytes session origin now kept, op = .issue (.ok bytes) session origin now ∧
      r.clock ≤ now ∧ (kept = r.byHash ∨ kept = r.byHash.retain now) ∧ kept.size < MAX_TICKETS ∧
      r' = ⟨kept.insert (hash (encode bytes.toList)) ⟨session, origin, now + LIFETIME⟩, now,
        r.log ++ [.issued ⟨encode bytes.toList, session, origin, now⟩]⟩) ∨
    (∃ ticket session origin now, op = .redeem ticket session origin now ∧ r.clock ≤ now ∧
      r' = ⟨r.byHash.erase (hash ticket), now, r.log ++ [.redeemed ticket session origin now
        (r.byHash.redeem hash ticket session origin now).1]⟩) := by
  cases op with
  | issue random session origin now =>
      simp only [Run.step, Option.ite_none_right_eq_some] at h
      obtain ⟨hclock, h⟩ := h
      cases random with
      | error e =>
          simp only [Store.issue, Option.some.injEq] at h
          exact .inl ⟨e, session, origin, now, rfl, hclock, h.symm⟩
      | ok bytes =>
          simp only [Store.issue] at h
          by_cases hfull : MAX_TICKETS ≤ r.byHash.size
          · by_cases hstill : MAX_TICKETS ≤ (r.byHash.retain now).size
            · simp only [hfull, hstill, if_true, Option.some.injEq] at h
              exact .inr (.inl ⟨bytes, session, origin, now, rfl, hclock, hstill, h.symm⟩)
            · simp only [hfull, hstill, if_true, if_false, Option.some.injEq] at h
              exact .inr (.inr (.inl ⟨bytes, session, origin, now, _, rfl, hclock, .inr rfl,
                by omega, h.symm⟩))
          · simp only [hfull, if_false, Option.some.injEq] at h
            exact .inr (.inr (.inl ⟨bytes, session, origin, now, _, rfl, hclock, .inl rfl,
              by omega, h.symm⟩))
  | redeem ticket session origin now =>
      simp only [Run.step, Option.ite_none_right_eq_some, Option.some.injEq] at h
      exact .inr (.inr (.inr ⟨ticket, session, origin, now, rfl, h.1, h.2.symm⟩))

theorem Store.getElem?_retain (byHash : Store) (now : Nat) (h : Sha256) (t : Ticket) :
    (byHash.retain now)[h]? = some t ↔ byHash[h]? = some t ∧ now < t.expires := by
  simp only [Store.retain, Std.ExtHashMap.getElem?_filter', Option.filter_eq_some_iff,
    decide_eq_true_eq]

-- The row of the store for an issued ticket.
def Issued.entry (hash : String → Sha256) (i : Issued) : Sha256 × Ticket :=
  (hash i.ticket, ⟨i.session, i.origin, i.issuedAt + LIFETIME⟩)

-- The live tickets of the store are the unused tickets of the history.
structure Tracks (hash : String → Sha256) (byHash : Store) (clock : Nat) (log : List Logged) :
    Prop where
  lookup : ∀ h t, clock < t.expires →
    (byHash[h]? = some t ↔ (h, t) ∈ (unused log).map (Issued.entry hash))
  hashes : ((unused log).map fun i => hash i.ticket).Nodup
  size : byHash.size ≤ MAX_TICKETS

variable {byHash : Store} {clock now : Nat} {log : List Logged}

theorem Tracks.later (h : Tracks hash byHash clock log) (hclock : clock ≤ now) :
    Tracks hash byHash now log where
  lookup key t ht := h.lookup key t (by omega)
  hashes := h.hashes
  size := h.size

theorem Tracks.retain (h : Tracks hash byHash now log) :
    Tracks hash (byHash.retain now) now log where
  lookup key t ht := by
    rw [Store.getElem?_retain, ← h.lookup key t ht]
    simp only [ht, and_true]
  hashes := h.hashes
  size := by
    have hle : (byHash.retain now).size ≤ byHash.size := Std.ExtHashMap.size_filter_le_size
    have := h.size
    omega

theorem Tracks.refused (h : Tracks hash byHash now log) :
    Tracks hash byHash now (log ++ [.refused now]) := by
  have hsame : unused (log ++ [.refused now]) = unused log := unused_append log _
  exact ⟨by rw [hsame]; exact h.lookup, by rw [hsame]; exact h.hashes, h.size⟩

theorem Tracks.issue (h : Tracks hash byHash now log) (i : Issued)
    (hfresh : ∀ t ∈ log.filterMap Logged.ticket?, hash t ≠ hash i.ticket)
    (hroom : byHash.size < MAX_TICKETS) :
    Tracks hash (byHash.insert (hash i.ticket) ⟨i.session, i.origin, i.issuedAt + LIFETIME⟩) now
      (log ++ [.issued i]) := by
  have hunused : unused (log ++ [.issued i]) = unused log ++ [i] := unused_append log _
  have hother : ∀ j ∈ unused log, hash j.ticket ≠ hash i.ticket := fun j hj =>
    hfresh j.ticket (issued_of_mem_unused hj)
  refine ⟨fun key t ht => ?_, ?_, ?_⟩
  · rw [hunused, List.map_append, List.mem_append, Std.ExtHashMap.getElem?_insert]
    by_cases hkey : hash i.ticket = key
    · subst hkey
      have hno : ¬ (hash i.ticket, t) ∈ (unused log).map (Issued.entry hash) := by
        intro hmem
        obtain ⟨j, hj, hentry⟩ := List.mem_map.mp hmem
        exact hother j hj (congrArg Prod.fst hentry)
      simp [hno, Issued.entry, eq_comm]
    · have hne : (key, t) ≠ i.entry hash := fun he => hkey (congrArg Prod.fst he).symm
      simp only [beq_iff_eq, hkey, if_false, h.lookup key t ht, List.map_cons, List.map_nil,
        List.mem_singleton, hne, or_false]
  · rw [hunused, List.map_append, List.nodup_append_comm]
    simp only [List.map_cons, List.map_nil, List.singleton_append, List.nodup_cons]
    refine ⟨fun hmem => ?_, h.hashes⟩
    obtain ⟨j, hj, heq⟩ := List.mem_map.mp hmem
    exact hother j hj heq
  · have hle := Std.ExtHashMap.size_insert_le (m := byHash) (k := hash i.ticket)
      (v := ⟨i.session, i.origin, i.issuedAt + LIFETIME⟩)
    omega

theorem Tracks.redeem (h : Tracks hash byHash now log) (ticket : String) (session : Sha256)
    (origin : Option String) (result : Bool)
    (hfree : ∀ t ∈ log.filterMap Logged.ticket?, hash ticket = hash t → ticket = t) :
    Tracks hash (byHash.erase (hash ticket)) now
      (log ++ [.redeemed ticket session origin now result]) := by
  have hunused : unused (log ++ [.redeemed ticket session origin now result]) =
      (unused log).filter fun i => i.ticket ≠ ticket := unused_append log _
  refine ⟨fun key t ht => ?_, ?_, ?_⟩
  · rw [hunused, Std.ExtHashMap.getElem?_erase]
    by_cases hkey : hash ticket = key
    · subst hkey
      have hno : (hash ticket, t) ∉
          ((unused log).filter fun i => i.ticket ≠ ticket).map (Issued.entry hash) := by
        intro hmem
        obtain ⟨j, hj, hentry⟩ := List.mem_map.mp hmem
        obtain ⟨hj, hne⟩ := List.mem_filter.mp hj
        have heq := hfree j.ticket (issued_of_mem_unused hj) (congrArg Prod.fst hentry).symm
        simp [heq] at hne
      simp only [beq_self_eq_true, if_true, reduceCtorEq, false_iff]
      exact hno
    · simp only [beq_iff_eq, hkey, if_false, h.lookup key t ht, List.mem_map, List.mem_filter,
        decide_eq_true_eq]
      constructor
      · rintro ⟨j, hj, hentry⟩
        refine ⟨j, ⟨hj, fun heq => hkey ?_⟩, hentry⟩
        rw [← heq]
        exact congrArg Prod.fst hentry
      · rintro ⟨j, ⟨hj, -⟩, hentry⟩
        exact ⟨j, hj, hentry⟩
  · rw [hunused]
    exact h.hashes.sublist (List.filter_sublist.map _)
  · have hle := Std.ExtHashMap.size_erase_le (m := byHash) (k := hash ticket)
    have := h.size
    omega

-- A redeem succeeds exactly for an unused live ticket with its session and
-- its origin.
theorem Tracks.redeem_eq_true (h : Tracks hash byHash now log) (ticket : String)
    (session : Sha256) (origin : Option String)
    (hfree : ∀ t ∈ log.filterMap Logged.ticket?, hash ticket = hash t → ticket = t) :
    (byHash.redeem hash ticket session origin now).1 = true ↔
      ∃ i ∈ unused log, i.ticket = ticket ∧ i.session = session ∧ i.origin = origin ∧
        i.live now = true := by
  simp only [Store.redeem, Option.any_eq_true, Bool.and_eq_true, decide_eq_true_eq]
  constructor
  · rintro ⟨t, ht, ⟨rfl, rfl⟩, hexp⟩
    obtain ⟨i, hi, hentry⟩ := List.mem_map.mp ((h.lookup _ t hexp).mp ht)
    simp only [Issued.entry, Prod.mk.injEq] at hentry
    obtain ⟨hhash, rfl⟩ := hentry
    have heq := hfree i.ticket (issued_of_mem_unused hi) hhash.symm
    exact ⟨i, hi, heq.symm, rfl, rfl, by simpa [Issued.live] using hexp⟩
  · rintro ⟨i, hi, rfl, rfl, rfl, hlive⟩
    have hexp : now < i.issuedAt + LIFETIME := by simpa [Issued.live] using hlive
    refine ⟨⟨i.session, i.origin, i.issuedAt + LIFETIME⟩, ?_, ⟨rfl, rfl⟩, hexp⟩
    exact (h.lookup _ _ hexp).mpr (List.mem_map.mpr ⟨i, hi, rfl⟩)

-- A clean-up leaves one row for each unused live ticket.
theorem Tracks.size_retain (h : Tracks hash byHash now log) :
    (byHash.retain now).size = ((unused log).filter (·.live now)).length := by
  let rows := ((unused log).filter (·.live now)).map (Issued.entry hash)
  have hdistinct : rows.Pairwise fun a b => (a.1 == b.1) = false := by
    have hnodup : (((unused log).filter (·.live now)).map fun i => hash i.ticket).Nodup :=
      h.hashes.sublist (List.filter_sublist.map _)
    simpa [rows, List.Nodup, List.pairwise_map, Issued.entry] using hnodup
  have hmem : ∀ key t, (key, t) ∈ rows ↔ (byHash.retain now)[key]? = some t := by
    intro key t
    rw [Store.getElem?_retain]
    constructor
    · intro hrow
      obtain ⟨i, hi, hentry⟩ := List.mem_map.mp hrow
      obtain ⟨hi, hlive⟩ := List.mem_filter.mp hi
      have ht : t = ⟨i.session, i.origin, i.issuedAt + LIFETIME⟩ :=
        (congrArg Prod.snd hentry).symm
      have hexp : now < t.expires := by
        rw [ht]
        simpa [Issued.live] using hlive
      exact ⟨(h.lookup key t hexp).mpr (hentry ▸ List.mem_map_of_mem hi), hexp⟩
    · rintro ⟨hlookup, hexp⟩
      obtain ⟨i, hi, hentry⟩ := List.mem_map.mp ((h.lookup key t hexp).mp hlookup)
      have ht : t = ⟨i.session, i.origin, i.issuedAt + LIFETIME⟩ :=
        (congrArg Prod.snd hentry).symm
      have hlive : i.live now = true := by
        rw [ht] at hexp
        simpa [Issued.live] using hexp
      exact List.mem_map.mpr ⟨i, List.mem_filter.mpr ⟨hi, hlive⟩, hentry⟩
  have hrows : byHash.retain now = .ofList rows := by
    apply Std.ExtHashMap.ext_getElem?
    intro key
    cases hkey : (byHash.retain now)[key]? with
    | some t =>
        exact (Std.ExtHashMap.getElem?_ofList_of_mem (by simp) hdistinct
          ((hmem key t).mpr hkey)).symm
    | none =>
        refine (Std.ExtHashMap.getElem?_ofList_of_contains_eq_false ?_).symm
        rw [← Bool.not_eq_true, List.contains_iff_mem]
        intro hin
        obtain ⟨row, hrow, rfl⟩ := List.mem_map.mp hin
        rw [(hmem row.1 row.2).mp hrow] at hkey
        simp at hkey
  rw [hrows, Std.ExtHashMap.size_ofList hdistinct, List.length_map]

end Step

section Runs

-- What a call of the log says about the history before it.
def Explained (before : List Logged) : Logged → Prop
  | .issued i => i.ticket ∉ before.filterMap Logged.ticket?
  | .refused now => ((unused before).filter (·.live now)).length = MAX_TICKETS
  | .redeemed ticket session origin now result =>
      result = true ↔ ∃ i ∈ unused before, i.ticket = ticket ∧ i.session = session ∧
        i.origin = origin ∧ i.live now = true

structure Sound (hash : String → Sha256) (r : Run) : Prop where
  tracks : Tracks hash r.byHash r.clock r.log
  explained : ∀ k x, r.log[k]? = some x → Explained (r.log.take k) x

variable {hash : String → Sha256} {r r' : Run} {op : Op}

theorem explained_append {log : List Logged} {x : Logged}
    (h : ∀ k y, log[k]? = some y → Explained (log.take k) y) (hx : Explained log x) :
    ∀ k y, (log ++ [x])[k]? = some y → Explained ((log ++ [x]).take k) y := by
  intro k y hk
  rcases getElem?_append_eq_some hk with ⟨hlt, hk⟩ | ⟨rfl, rfl⟩
  · rw [List.take_append_of_le_length (by omega)]
    exact h k y hk
  · rwa [List.take_left']
    rfl

theorem Sound.step (h : Sound hash r) (hdistinct : Distinct hash r op)
    (hs : r.step hash op = some r') : Sound hash r' := by
  rcases Run.step_cases hs with ⟨e, session, origin, now, rfl, hclock, rfl⟩ |
    ⟨bytes, session, origin, now, rfl, hclock, hfull, rfl⟩ |
    ⟨bytes, session, origin, now, kept, rfl, hclock, hkept, hroom, rfl⟩ |
    ⟨ticket, session, origin, now, rfl, hclock, rfl⟩
  · exact ⟨h.tracks.later hclock, h.explained⟩
  · have htracks := h.tracks.later hclock
    refine ⟨htracks.retain.refused, explained_append h.explained ?_⟩
    have hsize := htracks.size_retain
    have hmax := htracks.retain.size
    simp only [Explained]
    omega
  · have htracks := h.tracks.later hclock
    have hkeeps : Tracks hash kept now r.log := by
      rcases hkept with rfl | rfl
      · exact htracks
      · exact htracks.retain
    refine ⟨hkeeps.issue ⟨_, session, origin, now⟩ hdistinct hroom,
      explained_append h.explained ?_⟩
    intro hmem
    exact hdistinct _ hmem rfl
  · have htracks := h.tracks.later hclock
    exact ⟨htracks.redeem ticket session origin _ hdistinct,
      explained_append h.explained (htracks.redeem_eq_true ticket session origin hdistinct)⟩

theorem sound_run {ops : List Op} (hdistinct : Along (Run.step hash) (Distinct hash) {} ops)
    (hrun : exec (Run.step hash) {} ops = some r) : Sound hash r :=
  exec_invariant (Sound hash) (fun _ _ _ h hok hs => h.step hok hs)
    ⟨⟨by simp [unused], by simp [unused], by simp⟩, by simp⟩ hdistinct hrun

-- A ticket is issued by one call only.
theorem Sound.issued_once (h : Sound hash r) {n m : Nat} {i j : Issued}
    (hn : r.log[n]? = some (.issued i)) (hm : r.log[m]? = some (.issued j))
    (hticket : i.ticket = j.ticket) : n = m := by
  have hbefore : ∀ {a b : Nat} {x y : Issued}, r.log[a]? = some (.issued x) →
      r.log[b]? = some (.issued y) → x.ticket = y.ticket → ¬ a < b := by
    intro a b x y ha hb heq hlt
    refine h.explained b _ hb (List.mem_filterMap.mpr ⟨.issued x, ?_, by simp [Logged.ticket?, heq]⟩)
    apply List.mem_of_getElem? (i := a)
    rwa [List.getElem?_take_of_lt hlt]
  have h1 := hbefore hn hm hticket
  have h2 := hbefore hm hn hticket.symm
  omega

theorem tries_take {log : List Logged} {ticket : String} {k m : Nat} :
    Tries (log.take m) ticket k ↔ k < m ∧ Tries log ticket k := by
  by_cases hk : k < m
  · simp [Tries, List.getElem?_take_of_lt hk, hk]
  · simp [Tries, hk]

-- A call that succeeds tries its ticket first.
theorem Sound.redeemed (h : Sound hash r) {k : Nat} {ticket : String} {session : Sha256}
    {origin : Option String} {now : Nat}
    (hk : r.log[k]? = some (.redeemed ticket session origin now true)) :
    ∃ n i, n < k ∧ r.log[n]? = some (.issued i) ∧ i.ticket = ticket ∧ i.session = session ∧
      i.origin = origin ∧ now < i.issuedAt + LIFETIME ∧
      ∀ m, n < m → m < k → ¬ Tries r.log ticket m := by
  obtain ⟨i, hi, rfl, rfl, rfl, hlive⟩ := (h.explained k _ hk).mp rfl
  obtain ⟨n, hn, hnot⟩ := (mem_unused _ i).mp hi
  have hlt : n < k := by
    have := (List.getElem?_eq_some_iff.mp hn).1
    rw [List.length_take] at this
    omega
  rw [List.getElem?_take_of_lt hlt] at hn
  refine ⟨n, i, hlt, hn, rfl, rfl, rfl, by simpa [Issued.live] using hlive, ?_⟩
  intro m hm hmk htries
  exact hnot m hm (tries_take.mpr ⟨hmk, htries⟩)

-- A ticket works once, for its session and its origin, before it expires, and
-- nothing else uses it up. The store never holds more than its limit, and
-- `issue` refuses only while that many unused tickets are live.
theorem tickets_single_use (hash : String → Sha256) (ops : List Op) (r : Run)
    (hrun : exec (Run.step hash) {} ops = some r)
    (hdistinct : Along (Run.step hash) (Distinct hash) {} ops) :
    (∀ n i, r.log[n]? = some (.issued i) →
      (∀ k session origin now,
        r.log[k]? = some (.redeemed i.ticket session origin now true) →
        n < k ∧ session = i.session ∧ origin = i.origin ∧ now < i.issuedAt + LIFETIME ∧
        ∀ k' session' origin' now',
          r.log[k']? = some (.redeemed i.ticket session' origin' now' true) → k' = k) ∧
      (∀ k now result,
        r.log[k]? = some (.redeemed i.ticket i.session i.origin now result) → n < k →
        (∀ m, n < m → m < k → ¬ Tries r.log i.ticket m) → now < i.issuedAt + LIFETIME →
        result = true)) ∧
    r.byHash.size ≤ MAX_TICKETS ∧
    (∀ k now, r.log[k]? = some (.refused now) →
      ((unused (r.log.take k)).filter (·.live now)).length = MAX_TICKETS) := by
  have hsound := sound_run hdistinct hrun
  refine ⟨fun n i hn => ⟨?_, ?_⟩, hsound.tracks.size, fun k now hk => hsound.explained k _ hk⟩
  · have hfirst : ∀ k session origin now,
        r.log[k]? = some (.redeemed i.ticket session origin now true) →
        n < k ∧ session = i.session ∧ origin = i.origin ∧ now < i.issuedAt + LIFETIME ∧
          ∀ m, n < m → m < k → ¬ Tries r.log i.ticket m := by
      intro k session origin now hk
      obtain ⟨m, j, hm, hj, hticket, rfl, rfl, hlive, hnot⟩ := hsound.redeemed hk
      obtain rfl := hsound.issued_once hn hj hticket.symm
      obtain rfl : i = j := by simpa [hn] using hj
      exact ⟨hm, rfl, rfl, hlive, hnot⟩
    intro k session origin now hk
    obtain ⟨hnk, hsession, horigin, hlive, hnot⟩ := hfirst k session origin now hk
    refine ⟨hnk, hsession, horigin, hlive, fun k' session' origin' now' hk' => ?_⟩
    obtain ⟨hnk', -, -, -, hnot'⟩ := hfirst k' session' origin' now' hk'
    -- The later of two successes would have the earlier one between it and the issue.
    rcases Nat.lt_trichotomy k k' with hlt | heq | hlt
    · exact absurd ⟨session, origin, now, true, hk⟩ (hnot' k hnk hlt)
    · exact heq.symm
    · exact absurd ⟨session', origin', now', true, hk'⟩ (hnot k' hnk' hlt)
  · intro k now result hk hnk hnot hlive
    refine (hsound.explained k _ hk).mpr ⟨i, ?_, rfl, rfl, rfl, by simpa [Issued.live] using hlive⟩
    refine (mem_unused _ i).mpr ⟨n, by rwa [List.getElem?_take_of_lt hnk], ?_⟩
    intro m hm htries
    obtain ⟨hmk, htries⟩ := tries_take.mp htries
    exact hnot m hm hmk htries

-- The SHA-256 of the ticket of 32 zero bytes.
def zeroSha (text : String) : Sha256 :=
  if text = encode (List.replicate 32 0) then
    0x60e05bd1b195af2f94112fa7197a5c88289058840ce7c6df9693756bc6250f55
  else 0

def zeroIssued : Issued := ⟨encode (List.replicate 32 0), 7, some "https://lodger.lan", 0⟩

def zeroOps : List Op :=
  [.issue (.ok (Vector.replicate 32 0)) 7 (some "https://lodger.lan") 0,
    .redeem zeroIssued.ticket 7 (some "https://lodger.lan") 5]

theorem tickets_single_use_zero :
    ∃ r, exec (Run.step zeroSha) {} zeroOps = some r ∧
      r.log = [.issued zeroIssued,
        .redeemed zeroIssued.ticket 7 (some "https://lodger.lan") 5 true] ∧
      ∀ k session origin now,
        r.log[k]? = some (.redeemed zeroIssued.ticket session origin now true) → k = 1 := by
  have hrun : ∃ r, exec (Run.step zeroSha) {} zeroOps = some r ∧
      r.log = [.issued zeroIssued,
        .redeemed zeroIssued.ticket 7 (some "https://lodger.lan") 5 true] := by
    simp [zeroOps, zeroIssued, exec, Run.step, Store.issue, Store.redeem, MAX_TICKETS, LIFETIME]
  obtain ⟨r, hrun, hlog⟩ := hrun
  have hdistinct : Along (Run.step zeroSha) (Distinct zeroSha) {} zeroOps := by
    refine ⟨by simp [Distinct], fun t ht => ⟨?_, fun _ _ => trivial⟩⟩
    have htickets : t.log = [.issued zeroIssued] := by
      simp only [Run.step, Store.issue, MAX_TICKETS] at ht
      simp at ht
      rw [← ht]
      rfl
    intro ticket hticket _
    rw [htickets] at hticket
    simpa [Logged.ticket?, eq_comm] using hticket
  obtain ⟨honce, -⟩ := (tickets_single_use zeroSha zeroOps r hrun hdistinct).1 0 zeroIssued
    (by rw [hlog]; rfl)
  obtain ⟨-, -, -, -, hunique⟩ := honce 1 7 (some "https://lodger.lan") 5 (by rw [hlog]; rfl)
  exact ⟨r, hrun, hlog, hunique⟩

end Runs

end Lodger.Tickets
