import Mathlib

namespace Lodger.Lib

-- One receiver of a broadcast channel that keeps the last `capacity` values
-- for it. A send to a full channel drops the oldest value; the receiver is
-- told once how many it missed, before it gets the rest.
structure Receiver (α : Type) where
  queue : List α := []
  missed : Nat := 0
deriving DecidableEq, Repr

inductive Recv (α : Type) where
  | ok (a : α)
  | lagged (n : Nat)
deriving DecidableEq, Repr

namespace Receiver

variable {α : Type} {rx rx' : Receiver α} {capacity : Nat} {a b : α}

def send (capacity : Nat) (rx : Receiver α) (a : α) : Receiver α :=
  ⟨(rx.queue ++ [a]).drop (rx.queue.length + 1 - capacity),
    rx.missed + (rx.queue.length + 1 - capacity)⟩

def recv (rx : Receiver α) : Option (Recv α × Receiver α) :=
  if 0 < rx.missed then some (.lagged rx.missed, ⟨rx.queue, 0⟩)
  else
    match rx.queue with
    | [] => none
    | a :: rest => some (.ok a, ⟨rest, 0⟩)

-- What a receiver still has to be told: this value, or that it missed some.
def Due (rx : Receiver α) (p : α → Prop) : Prop := 0 < rx.missed ∨ ∃ a ∈ rx.queue, p a

variable {p : α → Prop}

theorem Due.send (h : rx.Due p) : (rx.send capacity a).Due p := by
  unfold Receiver.send
  rcases Nat.eq_zero_or_pos (rx.queue.length + 1 - capacity) with hfull | hfull
  · rcases h with h | ⟨b, hb, hp⟩
    · exact .inl (Nat.lt_add_right _ h)
    · refine .inr ⟨b, ?_, hp⟩
      simp only [hfull, List.drop_zero]
      exact List.mem_append_left _ hb
  · exact .inl (Nat.lt_add_left _ hfull)

theorem Due.send_self (h : p a) : (rx.send capacity a).Due p := by
  unfold Receiver.send
  rcases Nat.eq_zero_or_pos (rx.queue.length + 1 - capacity) with hfull | hfull
  · refine .inr ⟨a, ?_, h⟩
    simp only [hfull, List.drop_zero]
    exact List.mem_append_right _ List.mem_cons_self
  · exact .inl (Nat.lt_add_left _ hfull)

theorem recv_cases {r : Recv α} (h : rx.recv = some (r, rx')) :
    (r = .lagged rx.missed ∧ 0 < rx.missed ∧ rx' = ⟨rx.queue, 0⟩) ∨
    (∃ a rest, r = .ok a ∧ rx.missed = 0 ∧ rx.queue = a :: rest ∧ rx' = ⟨rest, 0⟩) := by
  unfold recv at h
  split at h
  · rename_i hmissed
    cases h
    exact .inl ⟨rfl, hmissed, rfl⟩
  · rename_i hmissed
    split at h
    · cases h
    · rename_i b rest hqueue
      cases h
      exact .inr ⟨b, rest, rfl, by omega, hqueue, rfl⟩

-- A receive takes away nothing but what it returns.
theorem Due.recv_ok (h : rx.Due p) (hr : rx.recv = some (.ok a, rx')) : p a ∨ rx'.Due p := by
  rcases recv_cases hr with ⟨⟨⟩, -⟩ | ⟨b, rest, hb, hmissed, hqueue, rfl⟩
  cases hb
  rcases h with h | ⟨c, hc, hp⟩
  · omega
  · rw [hqueue] at hc
    rcases List.mem_cons.mp hc with rfl | hc
    · exact .inl hp
    · exact .inr (.inr ⟨c, hc, hp⟩)

theorem not_due_empty : ¬({} : Receiver α).Due p := by
  simp [Due]

end Receiver

end Lodger.Lib
