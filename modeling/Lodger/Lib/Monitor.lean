import Lodger.Lib.Prog

namespace Lodger.Lib

-- One call of a program with the reply that it got.
structure Step (C : Type) (T : C → Type) (ε : Type) where
  call : C
  reply : Except ε (T call)

-- A monitor reads the steps of a program. `may` says which replies there can be, and `ok`
-- which calls are permitted in a state of the monitor.
structure Monitor (C : Type) (T : C → Type) (ε σ : Type) where
  may : (c : C) → Except ε (T c) → Prop
  ok : σ → C → Prop
  after : σ → (c : C) → Except ε (T c) → σ

variable {C : Type} {T : C → Type} {ε σ α β : Type}

namespace Monitor

variable {m : Monitor C T ε σ} {s : σ}

def final (m : Monitor C T ε σ) (s : σ) (log : List (Step C T ε)) : σ :=
  log.foldl (fun s step => m.after s step.call step.reply) s

-- Every call of the log is permitted in the state before it.
def Passes (m : Monitor C T ε σ) : σ → List (Step C T ε) → Prop
  | _, [] => True
  | s, step :: rest => m.ok s step.call ∧ m.Passes (m.after s step.call step.reply) rest

theorem passes_append {front back : List (Step C T ε)} :
    m.Passes s (front ++ back) ↔ m.Passes s front ∧ m.Passes (m.final s front) back := by
  induction front generalizing s with
  | nil => simp [Passes, final]
  | cons step rest ih => simp only [List.cons_append, Passes, ih, and_assoc, final, List.foldl_cons]

theorem final_append (s : σ) (front back : List (Step C T ε)) :
    m.final s (front ++ back) = m.final (m.final s front) back := List.foldl_append

end Monitor

namespace Prog

variable {m : Monitor C T ε σ} {s : σ}

-- Whatever the replies are, the program makes permitted calls only and ends in `post`.
def Safe (m : Monitor C T ε σ) (post : Except ε α → σ → Prop) : Prog C T ε α → σ → Prop
  | .done r, s => post r s
  | .call c k, s => m.ok s c ∧ ∀ r, m.may c r → (k r).Safe m post (m.after s c r)

@[simp] theorem safe_done {r : Except ε α} {post : Except ε α → σ → Prop} :
    (.done r : Prog C T ε α).Safe m post s ↔ post r s := Iff.rfl

@[simp] theorem safe_fail {e : ε} {post : Except ε α → σ → Prop} :
    (fail e : Prog C T ε α).Safe m post s ↔ post (.error e) s := Iff.rfl

theorem safe_ask {c : C} {post : Except ε (T c) → σ → Prop} :
    (ask c).Safe m post s ↔ m.ok s c ∧ ∀ r, m.may c r → post r (m.after s c r) := Iff.rfl

theorem safe_bind {p : Prog C T ε α} {f : α → Prog C T ε β} {post : Except ε β → σ → Prop} :
    (p >>= f).Safe m post s ↔ p.Safe m (fun r t =>
      Outcome (fun a => (f a).Safe m post t) (fun e => post (.error e) t) r) s := by
  induction p generalizing s with
  | done r => cases r <;> rfl
  | call c k ih =>
      exact and_congr_right fun _ => forall_congr' fun r => imp_congr_right fun _ => ih r

-- The step of a program that asks and goes on.
theorem safe_ask_bind {c : C} {f : T c → Prog C T ε β} {post : Except ε β → σ → Prop} :
    (ask c >>= f).Safe m post s ↔ m.ok s c ∧
      (∀ a, m.may c (.ok a) → (f a).Safe m post (m.after s c (.ok a))) ∧
      ∀ e, m.may c (.error e) → post (.error e) (m.after s c (.error e)) := by
  rw [safe_bind, safe_ask]
  refine and_congr_right fun _ => ⟨fun h => ⟨fun a => h (.ok a), fun e => h (.error e)⟩, ?_⟩
  intro h r hr
  cases r with
  | ok a => exact h.1 a hr
  | error e => exact h.2 e hr

theorem Safe.imp {p : Prog C T ε α} {post post' : Except ε α → σ → Prop} (h : p.Safe m post s)
    (hpost : ∀ r t, post r t → post' r t) : p.Safe m post' s := by
  induction p generalizing s with
  | done r => exact hpost r s h
  | call c k ih => exact ⟨h.1, fun r hr => ih r (h.2 r hr)⟩

-- A run so far: the steps that lead from the program to what is left of it.
inductive After (p : Prog C T ε α) : List (Step C T ε) → Prog C T ε α → Prop where
  | start : After p [] p
  | step {log c k} (h : After p log (.call c k)) (reply : Except ε (T c)) :
      After p (log ++ [⟨c, reply⟩]) (k reply)

theorem Safe.after {post : Except ε α → σ → Prop} {p rest : Prog C T ε α}
    {log : List (Step C T ε)} (h : p.Safe m post s) (hafter : p.After log rest)
    (hmay : ∀ step ∈ log, m.may step.call step.reply) :
    m.Passes s log ∧ rest.Safe m post (m.final s log) := by
  induction hafter with
  | start => exact ⟨trivial, h⟩
  | step _ reply ih =>
      obtain ⟨hpasses, hok, hsafe⟩ := ih fun step hstep => hmay step (List.mem_append_left _ hstep)
      refine ⟨Monitor.passes_append.mpr ⟨hpasses, hok, trivial⟩, ?_⟩
      rw [Monitor.final_append]
      exact hsafe reply (hmay _ (List.mem_append_right _ List.mem_cons_self))

theorem After.cons {c : C} {k : Except ε (T c) → Prog C T ε α} {reply : Except ε (T c)}
    {log : List (Step C T ε)} {rest : Prog C T ε α} (h : (k reply).After log rest) :
    After (.call c k) (⟨c, reply⟩ :: log) rest := by
  induction h with
  | start => exact After.start.step reply
  | step _ reply' ih => exact ih.step reply'

-- The first `n` steps when `reply` answers every call.
def replay (reply : (c : C) → Except ε (T c)) : Nat → Prog C T ε α →
    List (Step C T ε) × Prog C T ε α
  | n + 1, .call c k =>
      let (log, rest) := (k (reply c)).replay reply n
      (⟨c, reply c⟩ :: log, rest)
  | _, p => ([], p)

theorem replay_after (reply : (c : C) → Except ε (T c)) (n : Nat) (p : Prog C T ε α) :
    p.After (p.replay reply n).1 (p.replay reply n).2 := by
  induction n generalizing p with
  | zero => exact .start
  | succ n ih =>
      cases p with
      | done r => exact .start
      | call c k => exact (ih (k (reply c))).cons

end Prog

-- Programs that run side by side and start at any time. A program that nobody goes on with
-- stays where it is.
section Side

variable {ι : Type}

structure Side (ι C : Type) (T : C → Type) (ε α : Type) where
  parties : List (ι × Prog C T ε α) := []
  log : List (Nat × Step C T ε) := []

-- The steps of party `k`.
def Side.own (s : Side ι C T ε α) (k : Nat) : List (Step C T ε) :=
  s.log.filterMap fun entry => if entry.1 = k then some entry.2 else none

inductive Side.Next (prog : ι → Prog C T ε α) : Side ι C T ε α → Side ι C T ε α → Prop where
  | arrive (s i) : Next prog s { s with parties := s.parties ++ [(i, prog i)] }
  | reply (s : Side ι C T ε α) (k i c cont) (h : s.parties[k]? = some (i, .call c cont))
      (reply : Except ε (T c)) :
      Next prog s ⟨s.parties.set k (i, cont reply), s.log ++ [(k, ⟨c, reply⟩)]⟩

def Side.Reachable (prog : ι → Prog C T ε α) : Side ι C T ε α → Prop :=
  Relation.ReflTransGen (Next prog) {}

variable {prog : ι → Prog C T ε α} {s t : Side ι C T ε α}

theorem Side.own_append (s : Side ι C T ε α) (parties : List (ι × Prog C T ε α)) (j k : Nat)
    (step : Step C T ε) : Side.own ⟨parties, s.log ++ [(j, step)]⟩ k =
      s.own k ++ if j = k then [step] else [] := by
  unfold Side.own
  rw [List.filterMap_append]
  split
  · simp [*]
  · simp [*]

-- No party has a step before it is there, and each is where its own steps lead.
structure Side.Apart (prog : ι → Prog C T ε α) (s : Side ι C T ε α) : Prop where
  after : ∀ k i rest, s.parties[k]? = some (i, rest) → (prog i).After (s.own k) rest
  absent : ∀ k, s.parties.length ≤ k → s.own k = []

theorem Side.Apart.next (h : s.Apart prog) (hnext : Side.Next prog s t) : t.Apart prog := by
  cases hnext with
  | arrive i =>
      constructor
      · intro k j rest hk
        rcases Nat.lt_trichotomy k s.parties.length with hlt | heq | hgt
        · rw [List.getElem?_append_left hlt] at hk
          exact h.after k j rest hk
        · rw [List.getElem?_append_right heq.ge] at hk
          simp only [heq, Nat.sub_self, List.getElem?_cons_zero, Option.some.injEq,
            Prod.mk.injEq] at hk
          obtain ⟨rfl, rfl⟩ := hk
          have hown := h.absent k heq.ge
          rw [show Side.own ⟨s.parties ++ [(i, prog i)], s.log⟩ k = s.own k from rfl, hown]
          exact .start
        · rw [List.getElem?_eq_none (by simp; omega)] at hk
          cases hk
      · intro k hk
        exact h.absent k (by simp at hk; omega)
  | reply j i c cont hj reply =>
      have hlt : j < s.parties.length := (List.getElem?_eq_some_iff.mp hj).1
      constructor
      · intro k i' rest hk
        rw [Side.own_append]
        by_cases heq : j = k
        · subst heq
          rw [List.getElem?_set_self hlt] at hk
          cases hk
          rw [if_pos rfl]
          exact (h.after j i _ hj).step reply
        · rw [List.getElem?_set_ne heq] at hk
          rw [if_neg heq, List.append_nil]
          exact h.after k i' rest hk
      · intro k hk
        rw [List.length_set] at hk
        rw [Side.own_append, if_neg (by omega), List.append_nil]
        exact h.absent k hk

theorem Side.Reachable.apart (h : Side.Reachable prog s) : s.Apart prog := by
  induction h with
  | refl => exact ⟨fun k i rest hk => by simp at hk, fun k _ => rfl⟩
  | tail _ hnext ih => exact ih.next hnext

theorem Side.mem_own {k : Nat} {step : Step C T ε} (h : step ∈ s.own k) : (k, step) ∈ s.log := by
  obtain ⟨entry, hentry, hstep⟩ := List.mem_filterMap.mp h
  rw [Option.ite_none_right_eq_some] at hstep
  obtain ⟨rfl, hstep⟩ := hstep
  cases hstep
  exact hentry

-- Whatever the others do, the steps of one party are those of a run of its program alone, so
-- what the program keeps when it runs alone it keeps here.
theorem Side.Reachable.passes (h : Side.Reachable prog s) {m : Monitor C T ε σ} {w : σ}
    {post : Except ε α → σ → Prop} {k : Nat} {i : ι} {rest : Prog C T ε α}
    (hk : s.parties[k]? = some (i, rest)) (hsafe : (prog i).Safe m post w)
    (hmay : ∀ entry ∈ s.log, m.may entry.2.call entry.2.reply) :
    m.Passes w (s.own k) ∧ rest.Safe m post (m.final w (s.own k)) :=
  hsafe.after (h.apart.after k i rest hk) fun _ hstep => hmay _ (mem_own hstep)

theorem Side.own_map (k : Nat) (log : List (Step C T ε)) (parties : List (ι × Prog C T ε α)) :
    Side.own ⟨parties, log.map (k, ·)⟩ k = log := by
  simp [Side.own, List.filterMap_map]

-- A run of one party with nobody beside it.
theorem Side.reachable_solo {i : ι} {log : List (Step C T ε)} {rest : Prog C T ε α}
    (h : (prog i).After log rest) : Side.Reachable prog ⟨[(i, rest)], log.map (0, ·)⟩ := by
  induction h with
  | start => exact Relation.ReflTransGen.single (.arrive {} i)
  | @step log c k _ reply ih =>
      refine ih.tail ?_
      have hnext : Side.Next prog _ _ :=
        .reply ⟨[(i, .call c k)], log.map (0, ·)⟩ 0 i c k rfl reply
      rw [List.map_append]
      exact hnext

end Side

end Lodger.Lib
