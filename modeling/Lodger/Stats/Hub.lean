import Lodger.Lib.Machine
import Lodger.Lib.Parties

namespace Lodger.Stats.Hub

open Lodger.Lib Lodger.Parties

-- Where a call of `subscribe` is. The call holds its receiver from `tx.subscribe()` on and gives
-- it away when it returns; whoever has it then can drop it at any time.
inductive Call where
  | entered | locked | subscribed | flagged | ready | returned | dropped
deriving DecidableEq

def Call.hasReceiver : Call → Bool
  | .subscribed | .flagged | .ready | .returned => true
  | _ => false

-- Where a poll task is. It waits for its tick and for the lock, and it decides at `checked` or
-- `stopping`.
inductive Task where
  | waiting | ticked | locked | checked | polling | calling | stopping | cleared | stopped
deriving DecidableEq

-- From its spawn until its locked check decides to stop.
def Task.alive : Task → Bool
  | .stopping | .cleared | .stopped => false
  | _ => true

structure State where
  calls : List Call
  tasks : List Task
  locked : Bool
  running : Bool
deriving DecidableEq

def new : State := ⟨[], [], false, false⟩

-- `tx.receiver_count()`
def State.receiverCount (s : State) : Nat := s.calls.countP Call.hasReceiver

inductive Act where
  | enter
  | lock (k : Nat)
  | subscribe (k : Nat)
  | flag (k : Nat)
  | spawn (k : Nat)
  | leave (k : Nat)
  | drop (k : Nat)
  | tick (t : Nat)
  | lockTask (t : Nat)
  | check (t : Nat)
  | unlock (t : Nat)
  | skip (t : Nat)
  | call (t : Nat)
  | fail (t : Nat)
  | publish (t : Nat)
  | clear (t : Nat)
  | finish (t : Nat)
deriving DecidableEq

def moveCall (s : State) (k : Nat) (a b : Call) : Option State :=
  (move s.calls k a b).map fun calls => { s with calls }

def moveTask (s : State) (t : Nat) (a b : Task) : Option State :=
  (move s.tasks t a b).map fun tasks => { s with tasks }

def step (s : State) : Act → Option State
  | .enter => some { s with calls := s.calls ++ [.entered] }
  | .lock k => if s.locked then none else moveCall { s with locked := true } k .entered .locked
  | .subscribe k => moveCall s k .locked .subscribed
  | .flag k =>
      if s.running then moveCall s k .subscribed .ready
      else moveCall { s with running := true } k .subscribed .flagged
  | .spawn k => moveCall { s with tasks := s.tasks ++ [.waiting] } k .flagged .ready
  | .leave k => moveCall { s with locked := false } k .ready .returned
  | .drop k => moveCall s k .returned .dropped
  | .tick t => moveTask s t .waiting .ticked
  | .lockTask t => if s.locked then none else moveTask { s with locked := true } t .ticked .locked
  -- The count and the decision. The lock keeps new receivers away, but not drops.
  | .check t => moveTask s t .locked (if s.receiverCount = 0 then .stopping else .checked)
  | .unlock t => moveTask { s with locked := false } t .checked .polling
  -- libvirt is not connected.
  | .skip t => moveTask s t .polling .waiting
  | .call t => moveTask s t .polling .calling
  | .fail t => moveTask s t .calling .waiting
  | .publish t => moveTask s t .calling .waiting
  | .clear t => moveTask { s with running := false } t .stopping .cleared
  | .finish t => moveTask { s with locked := false } t .cleared .stopped

-- How many calls and tasks are at each point, against the lock and the flag.
structure Inv (s : State) : Prop where
  lock : s.calls.count .locked + s.calls.count .subscribed + s.calls.count .flagged +
    s.calls.count .ready + s.tasks.count .locked + s.tasks.count .checked +
    s.tasks.count .stopping + s.tasks.count .cleared = s.locked.toNat
  flag : s.tasks.countP Task.alive + s.tasks.count .stopping + s.calls.count .flagged =
    s.running.toNat
  served : 0 < s.calls.count .ready + s.calls.count .returned → 0 < s.tasks.countP Task.alive

theorem countP_hasReceiver (calls : List Call) :
    calls.countP Call.hasReceiver = calls.count .subscribed + calls.count .flagged +
      calls.count .ready + calls.count .returned := by
  induction calls with
  | nil => rfl
  | cons call calls ih =>
      simp only [List.countP_cons, List.count_cons, ih]
      cases call <;> simp [Call.hasReceiver] <;> omega

theorem moveCall_eq_some {s s' : State} {k : Nat} {a b : Call} (h : moveCall s k a b = some s') :
    ∃ calls, move s.calls k a b = some calls ∧ s' = { s with calls } := by
  obtain ⟨calls, hcalls, heq⟩ := Option.map_eq_some_iff.mp h
  exact ⟨calls, hcalls, heq.symm⟩

theorem moveTask_eq_some {s s' : State} {t : Nat} {a b : Task} (h : moveTask s t a b = some s') :
    ∃ tasks, move s.tasks t a b = some tasks ∧ s' = { s with tasks } := by
  obtain ⟨tasks, htasks, heq⟩ := Option.map_eq_some_iff.mp h
  exact ⟨tasks, htasks, heq.symm⟩

theorem Inv.new : Inv new := ⟨rfl, rfl, by decide⟩

-- What a call that goes on does to the counts of the invariant.
theorem call_counts {calls moved : List Call} {k : Nat} {a b : Call}
    (h : move calls k a b = some moved) :
    (moved.count .locked + if a = .locked then 1 else 0) =
        calls.count .locked + (if b = .locked then 1 else 0) ∧
      (moved.count .subscribed + if a = .subscribed then 1 else 0) =
        calls.count .subscribed + (if b = .subscribed then 1 else 0) ∧
      (moved.count .flagged + if a = .flagged then 1 else 0) =
        calls.count .flagged + (if b = .flagged then 1 else 0) ∧
      (moved.count .ready + if a = .ready then 1 else 0) =
        calls.count .ready + (if b = .ready then 1 else 0) ∧
      (moved.count .returned + if a = .returned then 1 else 0) =
        calls.count .returned + (if b = .returned then 1 else 0) :=
  ⟨move_count h _, move_count h _, move_count h _, move_count h _, move_count h _⟩

theorem task_counts {tasks moved : List Task} {t : Nat} {a b : Task}
    (h : move tasks t a b = some moved) :
    (moved.count .locked + if a = .locked then 1 else 0) =
        tasks.count .locked + (if b = .locked then 1 else 0) ∧
      (moved.count .checked + if a = .checked then 1 else 0) =
        tasks.count .checked + (if b = .checked then 1 else 0) ∧
      (moved.count .stopping + if a = .stopping then 1 else 0) =
        tasks.count .stopping + (if b = .stopping then 1 else 0) ∧
      (moved.count .cleared + if a = .cleared then 1 else 0) =
        tasks.count .cleared + (if b = .cleared then 1 else 0) ∧
      (moved.countP Task.alive + if a.alive then 1 else 0) =
        tasks.countP Task.alive + (if b.alive then 1 else 0) :=
  ⟨move_count h _, move_count h _, move_count h _, move_count h _, move_countP h _⟩

theorem Inv.lock_call {s s' : State} (h : Inv s) {k : Nat} (hs : step s (.lock k) = some s') :
    Inv s' := by
  obtain ⟨hlock, hflag, hserved⟩ := h
  simp only [step, Option.ite_none_left_eq_some] at hs
  obtain ⟨hfree, hs⟩ := hs
  obtain ⟨calls, hm, rfl⟩ := moveCall_eq_some hs
  have hc := call_counts hm
  have hfree : s.locked = false := by simpa using hfree
  simp only [hfree, reduceCtorEq, if_true, if_false, Bool.toNat_false] at hc hlock
  exact ⟨by simp only [Bool.toNat_true]; omega, by dsimp only; omega, by dsimp only; omega⟩

theorem Inv.subscribe {s s' : State} (h : Inv s) {k : Nat}
    (hs : step s (.subscribe k) = some s') : Inv s' := by
  obtain ⟨hlock, hflag, hserved⟩ := h
  obtain ⟨calls, hm, rfl⟩ := moveCall_eq_some hs
  have hc := call_counts hm
  simp only [reduceCtorEq, if_true, if_false] at hc
  exact ⟨by dsimp only; omega, by dsimp only; omega, by dsimp only; omega⟩

theorem Inv.set_flag {s s' : State} (h : Inv s) {k : Nat} (hs : step s (.flag k) = some s') :
    Inv s' := by
  obtain ⟨hlock, hflag, hserved⟩ := h
  by_cases hrunning : s.running
  · simp only [step, if_pos hrunning] at hs
    obtain ⟨calls, hm, rfl⟩ := moveCall_eq_some hs
    have hc := call_counts hm
    have hle := Bool.toNat_le s.locked
    simp only [hrunning, reduceCtorEq, if_true, if_false, Bool.toNat_true] at hc hflag
    exact ⟨by dsimp only; omega, by simp only [hrunning, Bool.toNat_true]; omega,
      by dsimp only; omega⟩
  · have hrunning : s.running = false := by simpa using hrunning
    simp only [step, hrunning] at hs
    obtain ⟨calls, hm, rfl⟩ := moveCall_eq_some hs
    have hc := call_counts hm
    simp only [hrunning, reduceCtorEq, if_true, if_false, Bool.toNat_false] at hc hflag
    exact ⟨by dsimp only; omega, by simp only [Bool.toNat_true]; omega, by dsimp only; omega⟩

theorem Inv.spawn {s s' : State} (h : Inv s) {k : Nat} (hs : step s (.spawn k) = some s') :
    Inv s' := by
  obtain ⟨hlock, hflag, hserved⟩ := h
  obtain ⟨calls, hm, rfl⟩ := moveCall_eq_some hs
  have hc := call_counts hm
  simp only [reduceCtorEq, if_true, if_false] at hc
  have hnew : ∀ task, task ≠ .waiting →
      (s.tasks ++ [Task.waiting]).count task = s.tasks.count task := by
    intro task htask
    have hzero : [Task.waiting].count task = 0 :=
      List.count_eq_zero.mpr (by simpa using htask)
    rw [List.count_append, hzero, Nat.add_zero]
  have halive : (s.tasks ++ [Task.waiting]).countP Task.alive =
      s.tasks.countP Task.alive + 1 := by
    simp [Task.alive]
  refine ⟨?_, ?_, ?_⟩
  · simp only [hnew, ne_eq, reduceCtorEq, not_false_eq_true]
    omega
  · simp only [halive, hnew, ne_eq, reduceCtorEq, not_false_eq_true]
    omega
  · simp only [halive]
    omega

theorem Inv.leave {s s' : State} (h : Inv s) {k : Nat} (hs : step s (.leave k) = some s') :
    Inv s' := by
  obtain ⟨hlock, hflag, hserved⟩ := h
  obtain ⟨calls, hm, rfl⟩ := moveCall_eq_some hs
  have hc := call_counts hm
  have hle := Bool.toNat_le s.locked
  simp only [reduceCtorEq, if_true, if_false] at hc
  exact ⟨by simp only [Bool.toNat_false]; omega, by dsimp only; omega, by dsimp only; omega⟩

theorem Inv.drop {s s' : State} (h : Inv s) {k : Nat} (hs : step s (.drop k) = some s') :
    Inv s' := by
  obtain ⟨hlock, hflag, hserved⟩ := h
  obtain ⟨calls, hm, rfl⟩ := moveCall_eq_some hs
  have hc := call_counts hm
  simp only [reduceCtorEq, if_true, if_false] at hc
  exact ⟨by dsimp only; omega, by dsimp only; omega, by dsimp only; omega⟩

-- A task that goes on without the lock and does not stop.
theorem Inv.move_task {s s' : State} (h : Inv s) {t : Nat} {a b : Task}
    (hs : moveTask s t a b = some s')
    (houtside : ∀ task ∈ [Task.locked, .checked, .stopping, .cleared], a ≠ task ∧ b ≠ task)
    (halive : a.alive ∧ b.alive) : Inv s' := by
  obtain ⟨hlock, hflag, hserved⟩ := h
  obtain ⟨tasks, hm, rfl⟩ := moveTask_eq_some hs
  have hc := task_counts hm
  simp only [List.forall_mem_cons] at houtside
  obtain ⟨hlocked, hchecked, hstopping, hcleared, _⟩ := houtside
  simp only [hlocked, hchecked, hstopping, hcleared, halive, if_true, if_false] at hc
  exact ⟨by dsimp only; omega, by dsimp only; omega, by dsimp only; omega⟩

theorem Inv.lockTask {s s' : State} (h : Inv s) {t : Nat}
    (hs : step s (.lockTask t) = some s') : Inv s' := by
  obtain ⟨hlock, hflag, hserved⟩ := h
  simp only [step, Option.ite_none_left_eq_some] at hs
  obtain ⟨hfree, hs⟩ := hs
  obtain ⟨tasks, hm, rfl⟩ := moveTask_eq_some hs
  have hc := task_counts hm
  have hfree : s.locked = false := by simpa using hfree
  simp only [hfree, Task.alive, reduceCtorEq, if_true, if_false, Bool.toNat_false] at hc hlock
  exact ⟨by simp only [Bool.toNat_true]; omega, by dsimp only; omega, by dsimp only; omega⟩

theorem Inv.check {s s' : State} (h : Inv s) {t : Nat} (hs : step s (.check t) = some s') :
    Inv s' := by
  obtain ⟨hlock, hflag, hserved⟩ := h
  obtain ⟨tasks, hm, rfl⟩ := moveTask_eq_some hs
  have hc := task_counts hm
  by_cases hnone : s.receiverCount = 0
  · -- A task that stops saw no receiver, so nobody has one to wait with.
    have hreceivers := countP_hasReceiver s.calls
    have hzero : s.calls.countP Call.hasReceiver = 0 := hnone
    simp only [if_pos hnone, Task.alive, reduceCtorEq, if_true, if_false, Bool.false_eq_true] at hc
    exact ⟨by dsimp only; omega, by dsimp only; omega, by dsimp only; omega⟩
  · simp only [if_neg hnone, Task.alive, reduceCtorEq, if_true, if_false] at hc
    exact ⟨by dsimp only; omega, by dsimp only; omega, by dsimp only; omega⟩

theorem Inv.unlock {s s' : State} (h : Inv s) {t : Nat} (hs : step s (.unlock t) = some s') :
    Inv s' := by
  obtain ⟨hlock, hflag, hserved⟩ := h
  obtain ⟨tasks, hm, rfl⟩ := moveTask_eq_some hs
  have hc := task_counts hm
  have hle := Bool.toNat_le s.locked
  simp only [Task.alive, reduceCtorEq, if_true, if_false] at hc
  exact ⟨by simp only [Bool.toNat_false]; omega, by dsimp only; omega, by dsimp only; omega⟩

theorem Inv.clear {s s' : State} (h : Inv s) {t : Nat} (hs : step s (.clear t) = some s') :
    Inv s' := by
  obtain ⟨hlock, hflag, hserved⟩ := h
  obtain ⟨tasks, hm, rfl⟩ := moveTask_eq_some hs
  have hc := task_counts hm
  have hle := Bool.toNat_le s.running
  simp only [Task.alive, reduceCtorEq, if_true, if_false, Bool.false_eq_true] at hc
  exact ⟨by dsimp only; omega, by simp only [Bool.toNat_false]; omega, by dsimp only; omega⟩

theorem Inv.finish {s s' : State} (h : Inv s) {t : Nat} (hs : step s (.finish t) = some s') :
    Inv s' := by
  obtain ⟨hlock, hflag, hserved⟩ := h
  obtain ⟨tasks, hm, rfl⟩ := moveTask_eq_some hs
  have hc := task_counts hm
  have hle := Bool.toNat_le s.locked
  simp only [Task.alive, reduceCtorEq, if_true, if_false, Bool.false_eq_true] at hc
  exact ⟨by simp only [Bool.toNat_false]; omega, by dsimp only; omega, by dsimp only; omega⟩

theorem inv_step {s s' : State} (h : Inv s) (act : Act) (hs : step s act = some s') : Inv s' := by
  cases act with
  | enter =>
      cases hs
      have hnew : ∀ call, call ≠ .entered →
          (s.calls ++ [Call.entered]).count call = s.calls.count call := by
        intro call hcall
        have hzero : [Call.entered].count call = 0 :=
          List.count_eq_zero.mpr (by simpa using hcall)
        rw [List.count_append, hzero, Nat.add_zero]
      obtain ⟨hlock, hflag, hserved⟩ := h
      refine ⟨?_, ?_, ?_⟩ <;> simpa only [hnew, ne_eq, reduceCtorEq, not_false_eq_true]
  | lock k => exact h.lock_call hs
  | subscribe k => exact h.subscribe hs
  | flag k => exact h.set_flag hs
  | spawn k => exact h.spawn hs
  | leave k => exact h.leave hs
  | drop k => exact h.drop hs
  | tick t | skip t | call t | fail t | publish t => exact h.move_task hs (by decide) (by decide)
  | lockTask t => exact h.lockTask hs
  | check t => exact h.check hs
  | unlock t => exact h.unlock hs
  | clear t => exact h.clear hs
  | finish t => exact h.finish hs

theorem inv_exec {s : State} (acts : List Act) (hrun : exec step new acts = some s) : Inv s :=
  exec_invariant_all Inv (fun _ act _ h hs => inv_step h act hs) Inv.new hrun

-- The task saw a receiver in its check and has not called yet.
def Decided (s : State) (t : Nat) : Prop :=
  s.tasks[t]? = some .checked ∨ s.tasks[t]? = some .polling

theorem moveTask_decided {s s' : State} {t u : Nat} {a b : Task}
    (h : moveTask s u a b = some s') (hb : t = u → b ≠ .checked ∧ b ≠ .polling)
    (hdecided : Decided s' t) : Decided s t ∧ t ≠ u := by
  obtain ⟨tasks, hm, rfl⟩ := moveTask_eq_some h
  by_cases ht : t = u
  · subst ht
    have hself := move_get_self hm
    have hne := hb rfl
    simp [Decided, hself, hne] at hdecided
  · have hsame := move_get_ne hm ht
    exact ⟨by simpa only [Decided, hsame] using hdecided, ht⟩

-- What brings a task to its call.
theorem decided_step {s s' : State} {t : Nat} (act : Act) (hs : step s act = some s')
    (h : Decided s' t) :
    (Decided s t ∧ act ≠ .tick t) ∨ (act = .check t ∧ 1 ≤ s.receiverCount) := by
  have hcall : ∀ (k : Nat) (a b : Call) (s₀ : State), moveCall s₀ k a b = some s' →
      s'.tasks = s₀.tasks := by
    intro k a b s₀ hmove
    obtain ⟨calls, -, rfl⟩ := moveCall_eq_some hmove
    rfl
  cases act with
  | enter =>
      cases hs
      exact Or.inl ⟨h, by simp⟩
  | lock k =>
      simp only [step, Option.ite_none_left_eq_some] at hs
      have htasks := hcall k _ _ _ hs.2
      exact Or.inl ⟨by simpa only [Decided, htasks] using h, by simp⟩
  | subscribe k | leave k | drop k =>
      have htasks := hcall k _ _ _ hs
      exact Or.inl ⟨by simpa only [Decided, htasks] using h, by simp⟩
  | flag k =>
      have htasks : s'.tasks = s.tasks := by
        by_cases hrunning : s.running
        · simp only [step, if_pos hrunning] at hs
          exact hcall k _ _ _ hs
        · simp only [step, if_neg hrunning] at hs
          have htasks := hcall k _ _ _ hs
          exact htasks
      exact Or.inl ⟨by simpa only [Decided, htasks] using h, by simp⟩
  | spawn k =>
      have htasks : s'.tasks = s.tasks ++ [.waiting] := hcall k _ _ _ hs
      refine Or.inl ⟨?_, by simp⟩
      unfold Decided at h ⊢
      rw [htasks, List.getElem?_append] at h
      by_cases ht : t < s.tasks.length
      · simpa [ht] using h
      · rw [if_neg ht, List.getElem?_singleton] at h
        split at h <;> simp at h
  | tick u =>
      obtain ⟨hbefore, hne⟩ := moveTask_decided hs (by simp) h
      refine Or.inl ⟨hbefore, ?_⟩
      intro heq
      cases heq
      exact hne rfl
  | lockTask u =>
      simp only [step, Option.ite_none_left_eq_some] at hs
      obtain ⟨hbefore, -⟩ := moveTask_decided hs.2 (by simp) h
      exact Or.inl ⟨hbefore, by simp⟩
  | check u =>
      by_cases hu : t = u ∧ s.receiverCount ≠ 0
      · exact Or.inr ⟨by rw [hu.1], by omega⟩
      · obtain ⟨hbefore, -⟩ := moveTask_decided hs (fun ht => by
          have hzero : s.receiverCount = 0 := not_not.mp fun hne => hu ⟨ht, hne⟩
          simp [hzero]) h
        exact Or.inl ⟨hbefore, by simp⟩
  | unlock u =>
      refine Or.inl ⟨?_, by simp⟩
      obtain ⟨tasks, hm, rfl⟩ := moveTask_eq_some hs
      by_cases ht : t = u
      · rw [ht]
        exact Or.inl (move_eq_some hm).1
      · have hsame := move_get_ne hm ht
        simpa only [Decided, hsame] using h
  | skip u | call u | fail u | publish u | clear u | finish u =>
      obtain ⟨hbefore, -⟩ := moveTask_decided hs (by simp) h
      exact Or.inl ⟨hbefore, by simp⟩

-- The check of the round that a task is in, found in the run.
theorem decided_run {s : State} (acts : List Act) (hrun : exec step new acts = some s) (t : Nat)
    (h : Decided s t) :
    ∃ before between mid, acts = before ++ .check t :: between ∧
      exec step new before = some mid ∧ 1 ≤ mid.receiverCount ∧ .tick t ∉ between := by
  induction acts using List.reverseRecOn generalizing s with
  | nil =>
      cases hrun
      simp [Decided, new] at h
  | append_singleton acts act ih =>
      obtain ⟨last, hlast, hstep⟩ := exec_concat.mp hrun
      obtain ⟨hbefore, hne⟩ | ⟨rfl, hseen⟩ := decided_step act hstep h
      · obtain ⟨before, between, mid, rfl, hmid, hseen, htick⟩ := ih hlast hbefore
        refine ⟨before, between ++ [act], mid, by simp, hmid, hseen, ?_⟩
        rw [List.mem_append, List.mem_singleton, not_or]
        exact ⟨htick, fun heq => hne heq.symm⟩
      · exact ⟨acts, [], last, rfl, hlast, hseen, by simp⟩

-- The hub has exactly the poll task that it needs.
theorem hub_has_its_task (acts : List Act) (s : State) (hrun : exec step new acts = some s) :
    s.tasks.countP Task.alive ≤ 1 ∧
    (s.locked = false → (s.running = true ↔ ∃ task ∈ s.tasks, task.alive)) ∧
    (.returned ∈ s.calls → ∃ task ∈ s.tasks, task.alive) ∧
    ∀ front t back, acts = front ++ .call t :: back →
      ∃ before between mid, front = before ++ .check t :: between ∧
        exec step new before = some mid ∧ 1 ≤ mid.receiverCount ∧ .tick t ∉ between := by
  obtain ⟨hlock, hflag, hserved⟩ := inv_exec acts hrun
  have hle := Bool.toNat_le s.running
  refine ⟨by omega, ?_, ?_, ?_⟩
  · intro hfree
    rw [hfree, Bool.toNat_false] at hlock
    rw [← List.countP_pos_iff]
    cases hrunning : s.running with
    | true =>
        rw [hrunning, Bool.toNat_true] at hflag
        exact ⟨fun _ => by omega, fun _ => rfl⟩
    | false =>
        rw [hrunning, Bool.toNat_false] at hflag
        exact ⟨fun h => by simp at h, fun h => by omega⟩
  · intro hreturned
    have hpos := List.count_pos_iff.mpr hreturned
    exact List.countP_pos_iff.mp (hserved (by omega))
  · rintro front t back rfl
    obtain ⟨last, hlast, hrest⟩ := exec_append.mp hrun
    obtain ⟨next, hcall, -⟩ := exec_cons_eq_some.mp hrest
    obtain ⟨tasks, hm, -⟩ := moveTask_eq_some hcall
    exact decided_run front hlast t (Or.inr (move_eq_some hm).1)

-- A subscriber leaves, and the next one comes while the task is about to stop.
def restart : List Act :=
  [.enter, .lock 0, .subscribe 0, .flag 0, .spawn 0, .leave 0, .tick 0, .lockTask 0, .check 0,
    .unlock 0, .call 0, .drop 0, .publish 0, .tick 0, .lockTask 0, .check 0, .enter, .clear 0,
    .finish 0, .lock 1, .subscribe 1, .flag 1, .spawn 1, .leave 1]

theorem hub_has_its_task_restart :
    ∃ s, exec step new restart = some s ∧ s.tasks.countP Task.alive ≤ 1 ∧
      (s.running = true ↔ ∃ task ∈ s.tasks, task.alive) ∧ (∃ task ∈ s.tasks, task.alive) ∧
      s.tasks = [.stopped, .waiting] := by
  have hrun : exec step new restart =
      some ⟨[.dropped, .returned], [.stopped, .waiting], false, true⟩ := by decide
  obtain ⟨hone, hrunning, hserved, -⟩ := hub_has_its_task restart _ hrun
  exact ⟨_, hrun, hone, hrunning rfl, hserved (by decide), rfl⟩

end Lodger.Stats.Hub
