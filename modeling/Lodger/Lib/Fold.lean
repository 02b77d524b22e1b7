import Mathlib

namespace Lodger.Fold

-- Addition that stops at a bound.
def saturatingAdd (bound a b : Nat) : Nat := min (a + b) bound

-- The sum up to a bound, and nothing for no values.
def total (bound : Nat) (values : List Nat) : Option Nat :=
  if values = [] then none else some (min values.sum bound)

section Total

variable (bound : Nat)

theorem total_eq_none_iff (values : List Nat) : total bound values = none ↔ values = [] := by
  unfold total
  by_cases hvalues : values = []
  · simp [hvalues]
  · simp [hvalues]

theorem total_append_singleton (values : List Nat) (v : Nat) :
    total bound (values ++ [v]) =
      some (saturatingAdd bound ((total bound values).getD 0) v) := by
  have hne : values ++ [v] ≠ [] := by simp
  have hsum : (values ++ [v]).sum = values.sum + v := by simp
  unfold total saturatingAdd
  rw [if_neg hne, hsum]
  by_cases hvalues : values = []
  · simp [hvalues]
  · rw [if_neg hvalues, Option.getD_some]
    congr 1
    omega

theorem total_perm {values others : List Nat} (h : values.Perm others) :
    total bound values = total bound others := by
  have hempty : values = [] ↔ others = [] := by
    rw [← List.length_eq_zero_iff, ← List.length_eq_zero_iff, h.length_eq]
  unfold total
  rw [h.sum_eq]
  by_cases hvalues : values = []
  · rw [if_pos hvalues, if_pos (hempty.mp hvalues)]
  · rw [if_neg hvalues, if_neg fun hothers => hvalues (hempty.mpr hothers)]

end Total

-- What a fold leaves in one part of its accumulator, told from what a step does to that part.
section Part

variable {σ ε : Type} (step : σ → ε → σ) (part : σ → Option Nat) (amount : ε → Option Nat)

theorem foldl_total (bound : Nat) (start : σ) (hstart : part start = none)
    (hnone : ∀ s e, amount e = none → part (step s e) = part s)
    (hsome : ∀ s e v, amount e = some v →
      part (step s e) = some (saturatingAdd bound ((part s).getD 0) v)) (es : List ε) :
    part (es.foldl step start) = total bound (es.filterMap amount) := by
  induction es using List.reverseRecOn with
  | nil => simpa [total] using hstart
  | append_singleton es e ih =>
      rw [List.foldl_append, List.foldl_cons, List.foldl_nil, List.filterMap_append]
      cases ha : amount e with
      | none =>
          rw [hnone _ e ha, ih]
          simp [ha]
      | some v =>
          have hlast : [e].filterMap amount = [v] := by simp [ha]
          rw [hsome _ e v ha, ih, hlast, total_append_singleton]

-- The value that was set last.
theorem foldl_last (start : σ) (hstart : part start = none)
    (hnone : ∀ s e, amount e = none → part (step s e) = part s)
    (hsome : ∀ s e v, amount e = some v → part (step s e) = some v) (es : List ε) :
    part (es.foldl step start) = (es.filterMap amount).getLast? := by
  induction es using List.reverseRecOn with
  | nil => simpa using hstart
  | append_singleton es e ih =>
      rw [List.foldl_append, List.foldl_cons, List.foldl_nil, List.filterMap_append]
      cases ha : amount e with
      | none =>
          rw [hnone _ e ha, ih]
          simp [ha]
      | some v =>
          have hlast : [e].filterMap amount = [v] := by simp [ha]
          rw [hsome _ e v ha, hlast, List.getLast?_concat]

-- A list of at most one element has no order.
theorem getLast?_perm {α : Type} {l l' : List α} (h : l.Perm l') (hone : l.length ≤ 1) :
    l.getLast? = l'.getLast? := by
  match l, hone with
  | [], _ => rw [h.symm.eq_nil]
  | [a], _ => rw [List.singleton_perm.mp h]

end Part

end Lodger.Fold
