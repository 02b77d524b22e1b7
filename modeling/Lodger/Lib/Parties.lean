import Mathlib

namespace Lodger.Parties

variable {α : Type} [DecidableEq α]

-- Parties that run side by side, each at its own point: party `k` goes on from `a` to `b`.
def move (parties : List α) (k : Nat) (a b : α) : Option (List α) :=
  if parties[k]? = some a then some (parties.set k b) else none

variable {parties moved : List α} {k : Nat} {a b : α}

theorem move_eq_some (h : move parties k a b = some moved) :
    parties[k]? = some a ∧ moved = parties.set k b := by
  unfold move at h
  rw [Option.ite_none_right_eq_some] at h
  exact ⟨h.1, (Option.some.inj h.2).symm⟩

-- One party leaves its point and one comes to the other.
theorem move_countP (h : move parties k a b = some moved) (p : α → Bool) :
    moved.countP p + (if p a then 1 else 0) = parties.countP p + (if p b then 1 else 0) := by
  obtain ⟨hk, rfl⟩ := move_eq_some h
  clear h
  induction parties generalizing k with
  | nil => simp at hk
  | cons party parties ih =>
      cases k with
      | zero =>
          have ha : party = a := by simpa using hk
          rw [List.set_cons_zero, List.countP_cons, List.countP_cons, ha]
          omega
      | succ k =>
          have hrest := ih (k := k) (by simpa using hk)
          rw [List.set_cons_succ, List.countP_cons, List.countP_cons]
          omega

theorem move_count (h : move parties k a b = some moved) (x : α) :
    moved.count x + (if a = x then 1 else 0) = parties.count x + (if b = x then 1 else 0) := by
  simpa only [List.count, beq_iff_eq] using move_countP h (· == x)

theorem move_get_self (h : move parties k a b = some moved) : moved[k]? = some b := by
  obtain ⟨hk, rfl⟩ := move_eq_some h
  rw [List.getElem?_set_self]
  exact (List.getElem?_eq_some_iff.mp hk).1

theorem move_get_ne (h : move parties k a b = some moved) {j : Nat} (hj : j ≠ k) :
    moved[j]? = parties[j]? := by
  obtain ⟨-, rfl⟩ := move_eq_some h
  exact List.getElem?_set_ne (Ne.symm hj)

end Lodger.Parties
