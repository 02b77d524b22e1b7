import Mathlib

namespace Lodger.Loop

-- A loop whose turn goes on with a state, leaves with a result or stops the program with an error.
section Loop

variable {σ ε ρ : Type*} (turn : σ → Except ε (σ ⊕ ρ))

-- `none` means that the turns were not enough.
def run : Nat → σ → Option (Except ε ρ)
  | 0, _ => none
  | n + 1, s =>
      match turn s with
      | .error e => some (.error e)
      | .ok (.inl s') => run n s'
      | .ok (.inr r) => some (.ok r)

def Returns (s : σ) (r : Except ε ρ) : Prop := ∃ n, run turn n s = some r

variable {turn} {s s' : σ} {e : ε} {r : ρ} {result result' : Except ε ρ}

theorem run_succ (n : Nat) (s : σ) :
    run turn (n + 1) s =
      match turn s with
      | .error e => some (.error e)
      | .ok (.inl s') => run turn n s'
      | .ok (.inr r) => some (.ok r) := rfl

theorem returns_of_error (h : turn s = .error e) : Returns turn s (.error e) :=
  ⟨1, by rw [run_succ, h]⟩

theorem returns_of_leave (h : turn s = .ok (.inr r)) : Returns turn s (.ok r) :=
  ⟨1, by rw [run_succ, h]⟩

theorem Returns.of_next (h : turn s = .ok (.inl s')) (hrest : Returns turn s' result) :
    Returns turn s result := by
  obtain ⟨n, hn⟩ := hrest
  exact ⟨n + 1, by rw [run_succ, h]; exact hn⟩

theorem run_add {n : Nat} (h : run turn n s = some result) (m : Nat) :
    run turn (n + m) s = some result := by
  induction n generalizing s with
  | zero => cases h
  | succ n ih =>
      rw [Nat.succ_add, run_succ]
      rw [run_succ] at h
      cases hturn : turn s with
      | error e =>
          rw [hturn] at h
          exact h
      | ok next =>
          rw [hturn] at h
          cases next with
          | inl s' => exact ih h
          | inr r => exact h

theorem Returns.unique (h : Returns turn s result) (h' : Returns turn s result') :
    result = result' := by
  obtain ⟨n, hn⟩ := h
  obtain ⟨m, hm⟩ := h'
  have hboth : some result = some result' := by
    rw [← run_add hn m, Nat.add_comm, run_add hm n]
  exact Option.some.inj hboth

end Loop

end Lodger.Loop
